import MiuiserPeruser.Gaveld.Config
import MiuiserPeruser.Lib.CNumber

/-!
# gaveld — signals on the wire (`ingest.c`, `gaveld.c`)

A signal reaches gaveld as a line `SOURCE|SIGNAL|WEIGHT|CONTEXT`, over
the FIFO (`ingest_thread` and `parse_line`) or over the socket
(`handle_client`). Both paths take the line apart with `strtok`, in two
hand-written copies: the FIFO path with its newline still on, the socket
path after it was cut off.

Text is a list of characters, one for each byte. Both copies leave the
last byte of their buffer `tmp` unwritten; it is the argument `last`. A
line of 2047 bytes then has no end in `tmp` unless that byte happens to
be NUL, and what the code does is undefined: `none` for the FIFO path,
`undefined` for the socket path.
-/

namespace MiuiserPeruser.Gaveld.Wire

open CText

abbrev ingestSourceMax : Nat := 256
abbrev ingestSignalMax : Nat := 64
abbrev ingestCtxMax : Nat := 512
/-- `char query_cmd[32]`. -/
abbrev ingestQueryMax : Nat := 32

/-- `ingest_record_t`, byte by byte. -/
structure WireRecord where
  source : List Char
  signal : List Char
  weight : Number
  ctx : List Char
  isQuery : Bool
  queryCmd : List Char
  deriving DecidableEq

/-- The record after `memset`. -/
def WireRecord.blank : WireRecord := ⟨[], [], .finite 0, [], false, []⟩

/-- A signal record from its fields, each cut to its place in the record. -/
def signalRecord (src sig : List Char) (wgt ctx : Option (List Char)) : WireRecord :=
  { WireRecord.blank with
    source := src.take (ingestSourceMax - 1),
    signal := sig.take (ingestSignalMax - 1),
    weight := (wgt.map atof).getD (.finite 0),
    ctx := (ctx.getD []).take (ingestCtxMax - 1) }

/-! ## The FIFO path -/

/-- The `QUERY|CMD` branch of `parse_line`. -/
def queryRecord (line : List Char) : WireRecord :=
  { WireRecord.blank with
    isQuery := true, queryCmd := ((line.drop 6).take (ingestQueryMax - 1)).takeWhile (· ≠ '\n') }

/-- The `SOURCE|SIGNAL|WEIGHT|CONTEXT` branch of `parse_line`, from `tmp`. -/
def parseFields (tmp : List Char) : Option WireRecord :=
  let (src, rest) := strtok ['|'] tmp
  let (sig, rest) := strtok ['|'] rest
  let (wgt, rest) := strtok ['|'] rest
  let (ctx, _) := strtok ['\n'] rest
  match src, sig with
  | some src, some sig => if src = [] ∨ sig = [] then none else some (signalRecord src sig wgt ctx)
  | _, _ => none

/-- `parse_line`: the record, or `none` for a malformed line. -/
def parseLine (last : Char) (line : List Char) : Option (Option WireRecord) :=
  if "QUERY|".toList <+: line then some (some (queryRecord line))
  else (strncpyOpen (bufSize - 1) last line).map parseFields

/-- One round of `ingest_thread`'s loop: what it pushes for a line. -/
def ingestLine (last : Char) (line : List Char) : Option (List WireRecord) :=
  if line.head? = some '\n' ∨ line.head? = some '\x00' then some []
  else (parseLine last (cstr line)).map Option.toList

/-- The rounds for a list of lines. -/
def ingestLines (last : Char) : List (List Char) → Option (List WireRecord)
  | [] => some []
  | line :: lines => do
      let recs ← ingestLine last line
      let more ← ingestLines last lines
      return recs ++ more

/-- What `ingest_thread` pushes to its queue for the whole lines in the pipe. -/
def ingestThread (last : Char) (pipe : List Char) : Option (List WireRecord) :=
  ingestLines last (fgetsLines bufSize pipe)

/-! ## The socket path -/

/-- What `handle_client` makes of a message. -/
inductive Request where
  | nothing
  | status
  | decay
  | reply (caseId : List Char) (approved : Bool)
  | signal (rec : WireRecord)
  | error
  | undefined
  deriving DecidableEq

/-- The signal branch of `handle_client`, from `tmp`. -/
def clientSignal (tmp : List Char) : Request :=
  let (src, rest) := strtok ['|'] tmp
  let (sig, rest) := strtok ['|'] rest
  let (wgt, rest) := strtok ['|'] rest
  let (ctx, _) := strtok [] rest
  match src, sig with
  | some src, some sig => .signal (signalRecord src sig wgt ctx)
  | _, _ => .error

/-- `handle_client` on what its `read` delivers. -/
def handleClient (last : Char) (input : List Char) : Request :=
  if input = [] then .nothing
  else
    let buf := (cstr (input.take (bufSize - 1))).takeWhile (· ≠ '\n')
    if "QUERY|STATUS".toList <+: buf then .status
    else if "QUERY|DECAY".toList <+: buf then .decay
    else if "APPROVE|".toList <+: buf then .reply (buf.drop 8) true
    else if "DENY|".toList <+: buf then .reply (buf.drop 5) false
    else match strncpyOpen (bufSize - 1) last buf with
      | none => .undefined
      | some tmp => clientSignal tmp

/-! ## Fields -/

/-- A text is delimiters only, a last field, or a field and a `|`. -/
theorem field_cases (s : List Char) :
    s.dropWhile (· = '|') = [] ∨
      (∃ w, w ≠ [] ∧ '|' ∉ w ∧ s.dropWhile (· = '|') = w) ∨
      ∃ w r, w ≠ [] ∧ '|' ∉ w ∧ s.dropWhile (· = '|') = w ++ '|' :: r := by
  generalize ht : s.dropWhile (· = '|') = t
  cases t with
  | nil => exact .inl rfl
  | cons c t =>
      have hc : c ≠ '|' := by
        have := List.head?_dropWhile_not (fun c : Char => decide (c = '|')) s
        rw [ht] at this
        simpa using this
      have hw : '|' ∉ (c :: t).takeWhile (· ≠ '|') := by
        intro h
        simpa using List.mem_takeWhile_imp h
      have hne : (c :: t).takeWhile (· ≠ '|') ≠ [] := by simp [hc]
      have hsplit := List.takeWhile_append_dropWhile (p := fun x : Char => x ≠ '|') (l := c :: t)
      cases hr : (c :: t).dropWhile (· ≠ '|') with
      | nil =>
          rw [hr, List.append_nil] at hsplit
          exact .inr (.inl ⟨_, hne, hw, hsplit.symm⟩)
      | cons d r =>
          have hd : d = '|' := by
            have := List.head?_dropWhile_not (fun x : Char => decide (x ≠ '|')) (c :: t)
            rw [hr] at this
            simpa using this
          rw [hr, hd] at hsplit
          exact .inr (.inr ⟨_, r, hne, hw, hsplit.symm⟩)

/-- The next field starts after the delimiters. -/
theorem strtok_dropWhile (s : List Char) : strtok ['|'] s = strtok ['|'] (s.dropWhile (· = '|')) := by
  have hskip : strtok ['|'] (s.takeWhile (· = '|') ++ s.dropWhile (· = '|')) =
      strtok ['|'] (s.dropWhile (· = '|')) :=
    strtok_skip fun c hc => by simpa using List.mem_takeWhile_imp hc
  rwa [List.takeWhile_append_dropWhile] at hskip

end MiuiserPeruser.Gaveld.Wire
