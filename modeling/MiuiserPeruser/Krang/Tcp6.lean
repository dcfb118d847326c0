import MiuiserPeruser.Lib.Inet
import MiuiserPeruser.Lib.Scanf

/-!
# krangd — the connection table (`krangd_net.c`)

`krang_parse_tcp6` reads the text of `/proc/net/tcp6`: line by line, each
line by two nested `sscanf` calls. A pointer argument is never null here;
a string is the list of its characters.
-/

namespace MiuiserPeruser.Krang

open CText Inet

/-- `parse_status_t`. -/
inductive ParseStatus where
  | found | error | notFound
  deriving DecidableEq, Repr

/-- `krang_connection_t`. -/
structure Connection where
  local_address : List Char
  local_port : Nat
  remote_address : List Char
  remote_port : Nat
  state : Int
  uid : Int
  inode : Int
  deriving DecidableEq

/-- `hex_value`, with `none` for -1. -/
def hexValue (c : Char) : Option Nat :=
  if '0' ≤ c ∧ c ≤ '9' then some (c.toNat - 48)
  else if 'a' ≤ c ∧ c ≤ 'f' then some (c.toNat - 97 + 10)
  else if 'A' ≤ c ∧ c ≤ 'F' then some (c.toNat - 65 + 10)
  else none

/-- The indices the loops of `decode_proc_address` read at: the bytes of
each of the four words, the last one first. -/
def sources : List Nat :=
  (List.range 4).flatMap fun word => (List.range 4).map fun byte => word * 8 + (3 - byte) * 2

/-- The bytes whose two digits stand at these indices. -/
def decodeBytes (encoded : List Char) : List Nat → Option (List UInt8)
  | [] => some []
  | source :: rest =>
      match hexValue (encoded.getD source '\x00'), hexValue (encoded.getD (source + 1) '\x00') with
      | some high, some low =>
          (decodeBytes encoded rest).map (UInt8.ofNat (high <<< 4 ||| low) :: ·)
      | _, _ => none

/-- `decode_proc_address`. -/
def decodeProcAddress (encoded : List Char) (size : Nat) : Option (List Char) :=
  if encoded.length ≠ 32 then none
  else
    match decodeBytes encoded sources with
    | none => none
    | some s6_addr =>
        if isV4Mapped s6_addr then storeText size (inetNtop4 (s6_addr.drop 12))
        else storeText size (inetNtop6 s6_addr)

/-- `"%32[0-9A-Fa-f]:%4[0-9A-Fa-f]"`. -/
def endpointFormat : List Directive := [.chars 32 isxdigit, .lit ':', .chars 4 isxdigit]

/-- The value of the digits of a port. -/
def parsePort (port_hex : List Char) : Option Nat :=
  port_hex.foldlM (fun parsed_port c => (hexValue c).map fun digit => parsed_port <<< 4 ||| digit) 0

/-- `decode_endpoint`. -/
def decodeEndpoint (encoded : List Char) (size : Nat) : Option (List Char × Nat) :=
  let fields := scanf endpointFormat encoded
  let address_hex := textAt fields 0
  let port_hex := textAt fields 1
  if fields.length ≠ 2 ∨ address_hex.length ≠ 32 ∨ port_hex.length ≠ 4 then none
  else
    match parsePort port_hex, decodeProcAddress address_hex size with
    | some port, some address => some (address, port)
    | _, _ => none

/-- `"%u: %63s %63s %x %63s %63s %x %d %d %llu"`. -/
def lineFormat : List Directive :=
  percentU ++ .lit ':' :: .space :: percentS 63 ++ .space :: percentS 63 ++
    .space :: percentX ++ .space :: percentS 63 ++ .space :: percentS 63 ++
    .space :: percentX ++ .space :: percentD ++ .space :: percentD ++ .space :: percentLLU

/-- What `krang_parse_tcp6_line` makes of a line. -/
inductive Parsed where
  | found (out : Connection)
  | error
  | notFound
  deriving DecidableEq

/-- The white space in front is gone, and this is what is left of a line
that holds no record. -/
def isBlankOrHeader (line : List Char) : Bool :=
  line = [] || line.take 3 = "sl ".toList

/-- `krang_parse_tcp6_line`. -/
def krangParseTcp6Line (line : List Char) : Parsed :=
  let line := line.dropWhile isspace
  if isBlankOrHeader line then .notFound
  else
    let fields := scanf lineFormat line
    if fields.length ≠ 10 then .error
    else
      match decodeEndpoint (textAt fields 1) addrStrLen,
        decodeEndpoint (textAt fields 2) addrStrLen with
      | some (local_address, local_port), some (remote_address, remote_port) =>
          .found ⟨local_address, local_port, remote_address, remote_port, numAt fields 3,
            numAt fields 7, numAt fields 9⟩
      | _, _ => .error

/-- The lines of a text, each without the newline that ends it. -/
def textLines : List Char → List (List Char)
  | [] => []
  | c :: cs =>
      if c = '\n' then [] :: textLines cs
      else match textLines cs with
        | [] => [[c]]
        | line :: lines => (c :: line) :: lines

/-- What `krang_parse_tcp6` returns, its `parsed_count`, and the records it
has written. -/
structure Table where
  status : ParseStatus
  parsed_count : Nat
  out : List Connection
  deriving DecidableEq

/-- `KRANG_TCP6_LINE_MAX`. -/
def lineMax : Nat := 512

/-- The loop of `krang_parse_tcp6` over the lines, and its end. -/
def parseLines (capacity : Nat) :
    (count : Nat) → (out : List Connection) → (saw_error : Bool) → List (List Char) → Table
  | count, out, saw_error, [] =>
      let count := if count > capacity then capacity else count
      { status := if saw_error then .error else if count > 0 then .found else .notFound
        parsed_count := count
        out := out }
  | count, out, saw_error, line :: lines =>
      if line.length ≥ lineMax then { status := .error, parsed_count := 0, out := out }
      else
        match krangParseTcp6Line line with
        | .error => parseLines capacity count out true lines
        | .notFound => parseLines capacity count out saw_error lines
        | .found parsed =>
            let out := if count < capacity then out ++ [parsed] else out
            parseLines capacity (count + 1) out saw_error lines

/-- `krang_parse_tcp6`. -/
def krangParseTcp6 (text : List Char) (capacity : Nat) : Table :=
  parseLines capacity 0 [] false (textLines text)

/-! ## The lines of a text -/

section Lines

variable {lines : List (List Char)}

/-- A text whose every line is ended by a newline. -/
def unlines (lines : List (List Char)) : List Char := lines.flatMap (· ++ ['\n'])

theorem textLines_append {line : List Char} (h : '\n' ∉ line) (rest : List Char) :
    textLines (line ++ '\n' :: rest) = line :: textLines rest := by
  induction line with
  | nil => rfl
  | cons c line ih =>
      have hc : c ≠ '\n' := fun heq => h (heq ▸ List.mem_cons_self)
      have ih := ih fun hmem => h (List.mem_cons_of_mem _ hmem)
      simp only [List.cons_append, textLines, if_neg hc, ih]

theorem textLines_line {line : List Char} (h : '\n' ∉ line) (hne : line ≠ []) :
    textLines line = [line] := by
  induction line with
  | nil => exact absurd rfl hne
  | cons c line ih =>
      have hc : c ≠ '\n' := fun heq => h (heq ▸ List.mem_cons_self)
      by_cases hnil : line = []
      · subst hnil
        simp [textLines, hc]
      · have ih := ih (fun hmem => h (List.mem_cons_of_mem _ hmem)) hnil
        simp only [textLines, if_neg hc, ih]

/-- The lines of a text that has been put together from lines. -/
theorem textLines_unlines (h : ∀ line ∈ lines, '\n' ∉ line) : textLines (unlines lines) = lines := by
  induction lines with
  | nil => rfl
  | cons line lines ih =>
      have hrest : unlines (line :: lines) = line ++ '\n' :: unlines lines := by
        simp [unlines]
      rw [hrest, textLines_append (h line List.mem_cons_self),
        ih fun l hl => h l (List.mem_cons_of_mem _ hl)]

theorem unlines_append (lines more : List (List Char)) :
    unlines (lines ++ more) = unlines lines ++ unlines more := by
  simp [unlines]

theorem textLines_unlines_append (h : ∀ line ∈ lines, '\n' ∉ line) (rest : List Char) :
    textLines (unlines lines ++ rest) = lines ++ textLines rest := by
  induction lines with
  | nil => rfl
  | cons line lines ih =>
      have hrest : unlines (line :: lines) ++ rest = line ++ '\n' :: (unlines lines ++ rest) := by
        simp [unlines]
      rw [hrest, textLines_append (h line List.mem_cons_self),
        ih fun l hl => h l (List.mem_cons_of_mem _ hl)]
      rfl

/-- The newline at the end of the last line may be missing. -/
theorem textLines_last {text : List Char} (h : ∀ line ∈ lines, '\n' ∉ line)
    (hne : ∀ line ∈ lines, line ≠ []) (htext : text ++ ['\n'] = unlines lines) :
    textLines text = lines := by
  rcases List.eq_nil_or_concat lines with rfl | ⟨front, last, rfl⟩
  · simp [unlines] at htext
  · rw [List.concat_eq_append, unlines_append] at htext
    have hlast : text = unlines front ++ last := by
      have hsingle : unlines [last] = last ++ ['\n'] := by simp [unlines]
      rw [hsingle, ← List.append_assoc] at htext
      exact List.append_cancel_right htext
    have hmem : last ∈ front.concat last := by simp
    rw [hlast, textLines_unlines_append fun l hl => h l (by simp [hl]),
      textLines_line (h last hmem) (hne last hmem), List.concat_eq_append]

end Lines

/-! ## The table as a whole -/

/-- The record of a line. -/
def Parsed.record : Parsed → Option Connection
  | .found out => some out
  | _ => none

/-- The records of the lines. -/
def records (lines : List (List Char)) : List Connection :=
  lines.filterMap fun line => (krangParseTcp6Line line).record

/-- The status when all lines fit. -/
def statusOf (saw_error : Bool) (count : Nat) : ParseStatus :=
  if saw_error then .error else if count > 0 then .found else .notFound

/-- A line was an error. -/
def sawError (lines : List (List Char)) : Bool :=
  lines.any fun line => krangParseTcp6Line line = .error

section Loop

variable {capacity : Nat}

/-- **What the loop computes**, when every line fits its buffer. -/
theorem parseLines_eq {lines : List (List Char)} (hfit : ∀ line ∈ lines, line.length < lineMax)
    (seen : List Connection) (saw : Bool) :
    parseLines capacity seen.length (seen.take capacity) saw lines =
      { status := statusOf (saw || sawError lines) (min (seen ++ records lines).length capacity)
        parsed_count := min (seen ++ records lines).length capacity
        out := (seen ++ records lines).take capacity } := by
  induction lines generalizing seen saw with
  | nil =>
      have hmin : (if seen.length > capacity then capacity else seen.length) =
          min seen.length capacity := by
        split <;> omega
      simp only [parseLines, hmin, records, List.filterMap_nil, List.append_nil, sawError,
        List.any_nil, Bool.or_false, statusOf]
  | cons line lines ih =>
      have ih := ih fun l hl => hfit l (List.mem_cons_of_mem _ hl)
      have hline := hfit line List.mem_cons_self
      rw [parseLines, if_neg (by omega)]
      cases hparsed : krangParseTcp6Line line with
      | error =>
          simp only
          rw [ih]
          simp [records, sawError, hparsed, Parsed.record]
      | notFound =>
          simp only
          rw [ih]
          simp [records, sawError, hparsed, Parsed.record]
      | found parsed =>
          have hout : (if seen.length < capacity then seen.take capacity ++ [parsed]
              else seen.take capacity) = (seen ++ [parsed]).take capacity := by
            split
            · rw [List.take_of_length_le (by omega),
                List.take_of_length_le (by rw [List.length_append, List.length_singleton]; omega)]
            · rw [List.take_append_of_le_length (by omega)]
          have hlen : seen.length + 1 = (seen ++ [parsed]).length := by simp
          simp only
          rw [hout, hlen, ih]
          simp [records, sawError, hparsed, Parsed.record]

/-- A line that does not fit makes the table an error. -/
theorem parseLines_long {lines : List (List Char)} (hlong : ∃ line ∈ lines, lineMax ≤ line.length)
    (count : Nat) (out : List Connection) (saw : Bool) :
    (parseLines capacity count out saw lines).status = .error ∧
      (parseLines capacity count out saw lines).parsed_count = 0 := by
  induction lines generalizing count out saw with
  | nil =>
      obtain ⟨line, hmem, -⟩ := hlong
      cases hmem
  | cons line lines ih =>
      rw [parseLines]
      split
      · exact ⟨rfl, rfl⟩
      · rename_i hfits
        have hrest : ∃ l ∈ lines, lineMax ≤ l.length := by
          obtain ⟨l, hl, hlen⟩ := hlong
          rcases List.mem_cons.mp hl with rfl | hl
          · exact absurd hlen hfits
          · exact ⟨l, hl, hlen⟩
        split <;> exact ih hrest ..

/-- Never more than `capacity` records are written. -/
theorem length_parseLines (lines : List (List Char)) :
    ∀ (count : Nat) (out : List Connection) (saw : Bool), out.length ≤ capacity →
      out.length = min count capacity →
      (parseLines capacity count out saw lines).out.length ≤ capacity := by
  induction lines with
  | nil => exact fun _ _ _ hout _ => hout
  | cons line lines ih =>
      intro count out saw hout hcount
      rw [parseLines]
      split
      · exact hout
      · split
        · exact ih _ _ _ hout hcount
        · exact ih _ _ _ hout hcount
        · simp only
          split
          · exact ih _ _ _ (by rw [List.length_append, List.length_singleton]; omega)
              (by rw [List.length_append, List.length_singleton]; omega)
          · exact ih _ _ _ hout (by omega)

theorem krangParseTcp6_eq {text : List Char} (hfit : ∀ line ∈ textLines text, line.length < lineMax) :
    krangParseTcp6 text capacity =
      { status := statusOf (sawError (textLines text))
          (min (records (textLines text)).length capacity)
        parsed_count := min (records (textLines text)).length capacity
        out := (records (textLines text)).take capacity } := by
  have h : parseLines capacity ([] : List Connection).length (([] : List Connection).take capacity)
      false (textLines text) = _ := parseLines_eq hfit [] false
  rwa [List.length_nil, List.take_nil, List.nil_append, Bool.false_or] at h

end Loop

end MiuiserPeruser.Krang
