import Mathlib.Data.List.GetD
import MiuiserPeruser.Krang.Tcp6

/-!
# krangd — rows of the connection table

The grammar of a row (`RowText`), and that `krang_parse_tcp6_line` reads
every row of it field by field, whatever columns follow the inode
(`parse_row`). The case of the digits makes no difference
(`krangParseTcp6Line_toUpper`).
-/

namespace MiuiserPeruser.Krang

open CText Inet

/-! ## The digits of an address -/

/-- `hex_value` knows the digits `sscanf` accepts, and their values. -/
theorem hexValue_xdigit {c : Char} (h : isxdigit c = true) :
    hexValue c = some (digitValue c) ∧ digitValue c < 16 :=
  forall_mem_of_all (p := fun c => hexValue c = some (digitValue c) ∧ digitValue c < 16)
    (by decide) c (mem_xdigits h)

theorem hexValue_toUpper (c : Char) : hexValue c.toUpper = hexValue c :=
  toUpper_cases (P := fun a b => hexValue b = hexValue a) (fun _ => rfl) (by decide) c

section Endpoint

variable {encoded address port : List Char}

theorem decodeBytes_toUpper (indices : List Nat) :
    decodeBytes (encoded.map Char.toUpper) indices = decodeBytes encoded indices := by
  have hget : ∀ i, hexValue ((encoded.map Char.toUpper).getD i '\x00') =
      hexValue (encoded.getD i '\x00') := by
    intro i
    rw [← hexValue_toUpper (encoded.getD i '\x00'), List.getD_eq_getElem?_getD,
      List.getD_eq_getElem?_getD, List.getElem?_map]
    cases encoded[i]? <;> rfl
  induction indices with
  | nil => rfl
  | cons source indices ih => simp only [decodeBytes, hget, ih]

theorem decodeProcAddress_toUpper (size : Nat) :
    decodeProcAddress (encoded.map Char.toUpper) size = decodeProcAddress encoded size := by
  simp only [decodeProcAddress, List.length_map, decodeBytes_toUpper]

theorem parsePort_toUpper : parsePort (port.map Char.toUpper) = parsePort port := by
  unfold parsePort
  rw [List.foldlM_map]
  simp only [hexValue_toUpper]

/-- A port of four digits is its value. -/
theorem parsePort_eq (h : ∀ c ∈ port, isxdigit c = true) :
    parsePort port = some (digitsValue 16 port) := by
  have hrun : ∀ n : Nat, port.foldlM (fun parsed_port c =>
      (hexValue c).map fun digit => parsed_port <<< 4 ||| digit) n =
        some (port.foldl (fun n c => n * 16 + digitValue c) n) := by
    induction port with
    | nil => exact fun _ => rfl
    | cons c port ih =>
        intro n
        obtain ⟨hc, hlt⟩ := hexValue_xdigit (h c List.mem_cons_self)
        have hstep : n <<< 4 ||| digitValue c = n * 16 + digitValue c := by
          rw [← Nat.shiftLeft_add_eq_or_of_lt hlt, Nat.shiftLeft_eq]
        have ih := ih fun c hc => h c (List.mem_cons_of_mem _ hc)
        simp only [List.foldlM_cons, hc, Option.map_some, hstep, Option.bind_eq_bind, Option.bind_some, ih,
          List.foldl_cons]
  exact hrun 0

theorem decodeBytes_isSome {indices : List Nat} (hindices : ∀ i ∈ indices, i + 1 < address.length)
    (h : ∀ c ∈ address, isxdigit c = true) :
    ∃ bytes, decodeBytes address indices = some bytes ∧ bytes.length = indices.length := by
  induction indices with
  | nil => exact ⟨[], rfl, rfl⟩
  | cons i indices ih =>
      obtain ⟨bytes, hbytes, hlen⟩ := ih fun i hi => hindices i (List.mem_cons_of_mem _ hi)
      have hlt := hindices i List.mem_cons_self
      obtain ⟨hhigh, -⟩ := hexValue_xdigit (h _ (List.getElem_mem (Nat.lt_of_succ_lt hlt)))
      obtain ⟨hlow, -⟩ := hexValue_xdigit (h _ (List.getElem_mem hlt))
      simp only [decodeBytes, List.getD_eq_getElem _ _ (Nat.lt_of_succ_lt hlt),
        List.getD_eq_getElem _ _ hlt, hhigh, hlow, hbytes, Option.map_some]
      exact ⟨_, rfl, by rw [List.length_cons, hlen, List.length_cons]⟩

/-- The text of sixteen bytes: an IPv4-mapped address is written as the
IPv4 address. -/
def addressText (bytes : List UInt8) : List Char :=
  if isV4Mapped bytes then inetNtop4 (bytes.drop 12) else inetNtop6 bytes

theorem decodeProcAddress_eq {bytes : List UInt8} (hlen : address.length = 32)
    (hbytes : decodeBytes address sources = some bytes) (hsize : bytes.length = 16) :
    decodeProcAddress address addrStrLen = some (addressText bytes) := by
  unfold decodeProcAddress addressText
  rw [if_neg (not_not.mpr hlen), hbytes]
  simp only
  split
  · exact inetNtop4_fits (by rw [List.length_drop, hsize])
  · exact inetNtop6_fits ⟨bytes, hsize⟩

/-- Thirty-two digits are always an address. -/
theorem decodeProcAddress_isSome (hlen : address.length = 32)
    (h : ∀ c ∈ address, isxdigit c = true) :
    ∃ text, decodeProcAddress address addrStrLen = some text := by
  have hindices : ∀ i ∈ sources, i + 1 < address.length := by
    rw [hlen]
    decide
  obtain ⟨bytes, hbytes, hsize⟩ := decodeBytes_isSome hindices h
  exact ⟨_, decodeProcAddress_eq hlen hbytes hsize⟩

/-- An endpoint, exactly: thirty-two digits, a colon and four digits. -/
structure IsEndpoint (address port : List Char) : Prop where
  address_length : address.length = 32
  address_digits : ∀ c ∈ address, isxdigit c = true
  port_length : port.length = 4
  port_digits : ∀ c ∈ port, isxdigit c = true

theorem decodeEndpoint_eq (h : IsEndpoint address port) {text : List Char}
    (htext : decodeProcAddress address addrStrLen = some text) :
    decodeEndpoint (address ++ ':' :: port) addrStrLen = some (text, digitsValue 16 port) := by
  have hne : ∀ w : List Char, 0 < w.length → w ≠ [] := fun w hw => List.length_pos_iff.mp hw
  have hcolon : Stops isxdigit (':' :: port) := stops_cons.mpr (by decide)
  have hport : scanf [.chars 4 isxdigit] (port ++ []) = .text port :: scanf [] [] :=
    scanf_chars (hne _ (by rw [h.port_length]; decide)) h.port_digits h.port_length.le (stops_nil _)
  have hscan : scanf endpointFormat (address ++ ':' :: port) = [.text address, .text port] := by
    rw [List.append_nil] at hport
    unfold endpointFormat
    rw [scanf_chars (hne _ (by rw [h.address_length]; decide)) h.address_digits
      h.address_length.le hcolon, scanf_lit, hport]
    rfl
  have hfields : textAt [.text address, .text port] 0 = address ∧
      textAt [.text address, .text port] 1 = port := ⟨rfl, rfl⟩
  simp only [decodeEndpoint, hscan, hfields, List.length_cons, List.length_nil, h.address_length,
    h.port_length, ne_eq, not_true, or_self, if_false, parsePort_eq h.port_digits, htext]

theorem decodeEndpoint_toUpper (size : Nat) :
    decodeEndpoint (encoded.map Char.toUpper) size = decodeEndpoint encoded size := by
  have hformat : ∀ d ∈ endpointFormat, d.CaseBlind := by
    intro d hd
    simp only [endpointFormat, List.mem_cons, List.not_mem_nil, or_false] at hd
    rcases hd with rfl | rfl | rfl
    · exact caseBlind_isxdigit
    · exact toUpper_eq_iff (by decide)
    · exact caseBlind_isxdigit
  simp only [decodeEndpoint, scanf_toUpper hformat, textAt_toUpper, List.length_map,
    parsePort_toUpper, decodeProcAddress_toUpper]

end Endpoint

/-! ## Rows -/

/-- The digits of a number, without sign or marker. -/
def IsDigits (base : Nat) (t : List Char) : Prop := t ≠ [] ∧ ∀ c ∈ t, isDigitOf base c = true

/-- A word `%63s` reads whole. -/
def IsWord (t : List Char) : Prop := t ≠ [] ∧ (∀ c ∈ t, (!isspace c) = true) ∧ t.length ≤ 63

def IsBlank (t : List Char) : Prop := ∀ c ∈ t, isspace c = true

/-- The texts of the fields of a row, and the white space in front of
each: `gap 0` and `gap 1`, which may be empty, before the slot and the
local endpoint, and `gap 2` to `gap 9` before the other fields. -/
structure RowText where
  gap : Nat → List Char
  slot : List Char
  local_address : List Char
  local_port : List Char
  remote_address : List Char
  remote_port : List Char
  state : List Char
  tx_queue : List Char
  timer : List Char
  retransmit : List Char
  uid : List Char
  timeout : List Char
  inode : List Char

/-- The row: slot `:` local remote state queue timer retransmit uid timeout inode. -/
def RowText.text (r : RowText) : List Char :=
  r.gap 0 ++ (r.slot ++ ':' :: (r.gap 1 ++ ((r.local_address ++ ':' :: r.local_port) ++
    (r.gap 2 ++ ((r.remote_address ++ ':' :: r.remote_port) ++ (r.gap 3 ++ (r.state ++
    (r.gap 4 ++ (r.tx_queue ++ (r.gap 5 ++ (r.timer ++ (r.gap 6 ++ (r.retransmit ++
    (r.gap 7 ++ (r.uid ++ (r.gap 8 ++ (r.timeout ++ (r.gap 9 ++ r.inode))))))))))))))))))

/-- The grammar of a row. -/
structure RowText.WellFormed (r : RowText) : Prop where
  blank : ∀ i, IsBlank (r.gap i)
  apart : ∀ i, 2 ≤ i → r.gap i ≠ []
  slot : IsDigits 10 r.slot
  localEnd : IsEndpoint r.local_address r.local_port
  remoteEnd : IsEndpoint r.remote_address r.remote_port
  state : IsDigits 16 r.state
  tx_queue : IsWord r.tx_queue
  timer : IsWord r.timer
  retransmit : IsDigits 16 r.retransmit
  uid : IsDigits 10 r.uid
  timeout : IsDigits 10 r.timeout
  inode : IsDigits 10 r.inode

/-- Nothing, or white space and further columns. -/
def IsColumns (t : List Char) : Prop := Stops (fun c => !isspace c) t

section Fields

variable {gap w rest : List Char} {ds : List Directive}

theorem isColumns_gap (hblank : IsBlank gap) (hne : gap ≠ []) : IsColumns (gap ++ rest) := by
  obtain ⟨c, gap, rfl⟩ := List.exists_cons_of_ne_nil hne
  have hc := hblank c List.mem_cons_self
  exact stops_cons.mpr (by simpa using hc)

theorem scanf_space_space (s : List Char) :
    scanf (.space :: .space :: ds) s = scanf (.space :: ds) s := by
  show scanf ds ((s.dropWhile isspace).dropWhile isspace) = scanf ds (s.dropWhile isspace)
  rw [List.dropWhile_idempotent]

/-- A word behind white space. -/
theorem scanf_word (hgap : IsBlank gap) (hw : IsWord w) (hrest : IsColumns rest) :
    scanf (.space :: .space :: .chars 63 (fun c => !isspace c) :: ds) (gap ++ (w ++ rest)) =
      .text w :: scanf ds rest := by
  obtain ⟨hne, hchars, hlen⟩ := hw
  have hfree : ∀ c ∈ w, isspace c = false := fun c hc => by simpa using hchars c hc
  rw [scanf_space_space, scanf_blanks hgap (stops_isspace_append hne hfree),
    scanf_chars hne hchars hlen hrest]

/-- A number behind white space. -/
theorem scanf_digits {base : Nat} {store : Bool → Nat → Int} (hgap : IsBlank gap)
    (hw : IsDigits base w) (hrest : Stops (isDigitOf base) rest)
    (hx : Stops (fun c => c.toLower = 'x') rest) :
    scanf (.space :: .number base store :: ds) (gap ++ (w ++ rest)) =
      .num (store false (digitsValue base w)) :: scanf ds rest := by
  have hfree : ∀ c ∈ w, isspace c = false := fun c hc => isspace_of_isDigitOf (hw.2 c hc)
  rw [scanf_blanks hgap (stops_isspace_append hw.1 hfree), scanf_number hw.1 hw.2 hrest hx]

/-- A number that the format, too, puts white space before. -/
theorem scanf_digits_columns {base : Nat} {store : Bool → Nat → Int} (hgap : IsBlank gap)
    (hw : IsDigits base w) (hrest : IsColumns rest) :
    scanf (.space :: .space :: .number base store :: ds) (gap ++ (w ++ rest)) =
      .num (store false (digitsValue base w)) :: scanf ds rest := by
  rw [scanf_space_space, scanf_digits hgap hw (stops_digit_of_blank hrest) (stops_marker_of_blank hrest)]

theorem isWord_endpoint {address port : List Char} (h : IsEndpoint address port) :
    IsWord (address ++ ':' :: port) := by
  refine ⟨by simp, fun c hc => ?_, ?_⟩
  · have hdigit : ∀ c, isxdigit c = true → (!isspace c) = true := fun c hx => by
      simpa using isspace_of_isxdigit hx
    rcases List.mem_append.mp hc with hc | hc
    · exact hdigit c (h.address_digits c hc)
    · rcases List.mem_cons.mp hc with rfl | hc
      · decide
      · exact hdigit c (h.port_digits c hc)
  · rw [List.length_append, List.length_cons, h.address_length, h.port_length]
    decide

end Fields

/-- **A row is read field by field.** -/
theorem scanf_row {r : RowText} (h : r.WellFormed) {columns : List Char} (hcolumns : IsColumns columns) :
    scanf lineFormat (r.text ++ columns) =
      [.num (storeUnsigned 32 false (digitsValue 10 r.slot)),
        .text (r.local_address ++ ':' :: r.local_port),
        .text (r.remote_address ++ ':' :: r.remote_port),
        .num (storeUnsigned 32 false (digitsValue 16 r.state)),
        .text r.tx_queue, .text r.timer,
        .num (storeUnsigned 32 false (digitsValue 16 r.retransmit)),
        .num (storeSigned 32 false (digitsValue 10 r.uid)),
        .num (storeSigned 32 false (digitsValue 10 r.timeout)),
        .num (storeUnsigned 64 false (digitsValue 10 r.inode))] := by
  have hgap : ∀ {i rest}, 2 ≤ i → IsColumns (r.gap i ++ rest) := fun hi =>
    isColumns_gap (h.blank _) (h.apart _ hi)
  have hcolon : ∀ {base rest}, Stops (isDigitOf base) (':' :: rest) := by
    intro base rest
    apply stops_cons.mpr
    unfold isDigitOf
    split <;> decide
  have htext : r.text ++ columns = r.gap 0 ++ (r.slot ++ (':' :: (r.gap 1 ++
      ((r.local_address ++ ':' :: r.local_port) ++ (r.gap 2 ++
      ((r.remote_address ++ ':' :: r.remote_port) ++ (r.gap 3 ++ (r.state ++ (r.gap 4 ++
      (r.tx_queue ++ (r.gap 5 ++ (r.timer ++ (r.gap 6 ++ (r.retransmit ++ (r.gap 7 ++ (r.uid ++
      (r.gap 8 ++ (r.timeout ++ (r.gap 9 ++ (r.inode ++ columns)))))))))))))))))))) := by
    simp only [RowText.text, List.append_assoc, List.cons_append]
  have hx : ∀ {rest : List Char}, Stops (fun c => c.toLower = 'x') (':' :: rest) :=
    stops_cons.mpr (by decide)
  rw [htext]
  simp only [lineFormat, percentU, percentS, percentX, percentD, percentLLU, List.cons_append,
    List.nil_append]
  rw [scanf_digits (h.blank 0) h.slot hcolon hx, scanf_lit,
    scanf_word (h.blank 1) (isWord_endpoint h.localEnd) (hgap (by decide)),
    scanf_word (h.blank 2) (isWord_endpoint h.remoteEnd) (hgap (by decide)),
    scanf_digits_columns (h.blank 3) h.state (hgap (by decide)),
    scanf_word (h.blank 4) h.tx_queue (hgap (by decide)),
    scanf_word (h.blank 5) h.timer (hgap (by decide)),
    scanf_digits_columns (h.blank 6) h.retransmit (hgap (by decide)),
    scanf_digits_columns (h.blank 7) h.uid (hgap (by decide)),
    scanf_digits_columns (h.blank 8) h.timeout (hgap (by decide)),
    scanf_digits_columns (h.blank 9) h.inode hcolumns]
  rfl

/-- Behind its white space the line starts with a digit. -/
def StartsDigit (line : List Char) : Prop :=
  ∃ c t, line.dropWhile isspace = c :: t ∧ isDigitOf 10 c = true

theorem StartsDigit.isRecord {line : List Char} (h : StartsDigit line) :
    isBlankOrHeader (line.dropWhile isspace) = false := by
  obtain ⟨c, t, hline, hdigit⟩ := h
  rw [hline]
  have hs : c ≠ 's' := by
    rintro rfl
    exact absurd hdigit (by decide)
  simp [isBlankOrHeader, hs]

theorem startsDigit_row {r : RowText} (h : r.WellFormed) (columns : List Char) :
    StartsDigit (r.text ++ columns) := by
  obtain ⟨hne, hdigits⟩ := h.slot
  obtain ⟨c, t, hslot⟩ := List.exists_cons_of_ne_nil hne
  have hc : isDigitOf 10 c = true := hdigits c (hslot ▸ List.mem_cons_self)
  have hstop : ∀ rest, Stops isspace (r.slot ++ rest) := by
    intro rest
    rw [hslot]
    exact stops_cons.mpr (isspace_of_isDigitOf hc)
  rw [StartsDigit, RowText.text, List.append_assoc, List.append_assoc,
    dropWhile_append_of_stop (h.blank 0) (hstop _), hslot]
  exact ⟨c, _, rfl, hc⟩

/-- Reading a number or a word skips the white space in front anyway. -/
theorem scanf_dropWhile (line : List Char) :
    scanf lineFormat (line.dropWhile isspace) = scanf lineFormat line := by
  show scanf lineFormat.tail ((line.dropWhile isspace).dropWhile isspace) =
    scanf lineFormat.tail (line.dropWhile isspace)
  rw [List.dropWhile_idempotent]

/-- **`krang_parse_tcp6_line` accepts every row**, whatever columns follow it. -/
theorem parse_row {r : RowText} (h : r.WellFormed) {columns : List Char}
    (hcolumns : IsColumns columns) {local_text remote_text : List Char}
    (hlocal : decodeProcAddress r.local_address addrStrLen = some local_text)
    (hremote : decodeProcAddress r.remote_address addrStrLen = some remote_text) :
    krangParseTcp6Line (r.text ++ columns) =
      .found
        { local_address := local_text
          local_port := digitsValue 16 r.local_port
          remote_address := remote_text
          remote_port := digitsValue 16 r.remote_port
          state := storeUnsigned 32 false (digitsValue 16 r.state)
          uid := storeSigned 32 false (digitsValue 10 r.uid)
          inode := storeUnsigned 64 false (digitsValue 10 r.inode) } := by
  have hrecord := (startsDigit_row h columns).isRecord
  unfold krangParseTcp6Line
  simp only [hrecord, Bool.false_eq_true, if_false, scanf_dropWhile, scanf_row h hcolumns]
  simp only [textAt, List.getElem?_cons_succ, List.getElem?_cons_zero]
  rw [decodeEndpoint_eq h.localEnd hlocal, decodeEndpoint_eq h.remoteEnd hremote]
  rfl

/-- A row is never an error. -/
theorem parse_row_found {r : RowText} (h : r.WellFormed) {columns : List Char}
    (hcolumns : IsColumns columns) :
    ∃ out, krangParseTcp6Line (r.text ++ columns) = .found out := by
  obtain ⟨_, hlocal⟩ := decodeProcAddress_isSome h.localEnd.address_length h.localEnd.address_digits
  obtain ⟨_, hremote⟩ :=
    decodeProcAddress_isSome h.remoteEnd.address_length h.remoteEnd.address_digits
  exact ⟨_, parse_row h hcolumns hlocal hremote⟩

/-! ## The case of the digits -/

theorem lineFormat_caseBlind : ∀ d ∈ lineFormat, d.CaseBlind := by
  have hword : CaseBlind fun c => !isspace c := fun c => congrArg (!·) (caseBlind_isspace c)
  have hcolon : ∀ c : Char, c.toUpper = ':' ↔ c = ':' := toUpper_eq_iff (by decide)
  intro d hd
  simp only [lineFormat, percentU, percentS, percentX, percentD, percentLLU, List.cons_append,
    List.nil_append, List.mem_cons, List.not_mem_nil, or_false] at hd
  rcases hd with rfl | rfl | rfl | rfl | rfl | rfl | rfl | rfl | rfl | rfl | rfl | rfl | rfl | rfl |
    rfl | rfl | rfl | rfl | rfl | rfl | rfl | rfl | rfl | rfl | rfl | rfl | rfl | rfl | rfl | rfl
  all_goals first | exact hword | exact hcolon | trivial

/-- **A row reads the same in capitals.** -/
theorem krangParseTcp6Line_toUpper {line : List Char} (h : StartsDigit line) :
    krangParseTcp6Line (line.map Char.toUpper) = krangParseTcp6Line line := by
  have hdigit : StartsDigit (line.map Char.toUpper) := by
    obtain ⟨c, t, hline, hc⟩ := h
    refine ⟨c.toUpper, t.map Char.toUpper, ?_, (caseBlind_isDigitOf 10 c).trans hc⟩
    rw [dropWhile_toUpper caseBlind_isspace, hline]
    rfl
  unfold krangParseTcp6Line
  simp only [h.isRecord, hdigit.isRecord, Bool.false_eq_true, if_false, scanf_dropWhile,
    scanf_toUpper lineFormat_caseBlind, List.length_map, textAt_toUpper, numAt_toUpper,
    decodeEndpoint_toUpper]

end MiuiserPeruser.Krang
