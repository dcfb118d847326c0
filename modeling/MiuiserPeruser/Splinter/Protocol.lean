import MiuiserPeruser.Lib.CText

/-!
# splinterd — events on the wire (`splinter_protocol.h`, `splinterd.c`)

A daemon connects to splinterd, writes one line `APRIL|source|type|payload`
and closes. `splinter_emit` is the sending end, `handle_connection` and
`parse_event` the receiving one. Each end has its own sizes: the sender
cuts the payload to 2047 bytes and sends nothing unless the whole line
fits 2048, the receiver reads 1283 bytes and keeps 1023 of the payload.

Text is a list of characters, one for each byte.
-/

namespace MiuiserPeruser.Splinter

open CText

abbrev splinterEmitBuf : Nat := 2048
abbrev recvBufSize : Nat := 1284
abbrev splinterMaxSource : Nat := 32
abbrev splinterMaxType : Nat := 32
abbrev splinterMaxPayload : Nat := 1024

/-- `SPLINTER_PREFIX`. -/
def splinterPrefix : List Char := ['A', 'P', 'R', 'I', 'L']

/-! ## Sending -/

/-- No newlines in the wire format. -/
def sanitise (payload : List Char) : List Char :=
  payload.map fun c => if c = '\n' ∨ c = '\r' then ' ' else c

/-- The line without its newline. -/
def eventLine (source type payload : List Char) : List Char :=
  splinterPrefix ++ '|' :: (source ++ '|' :: (type ++ '|' :: payload))

/-- `splinter_emit`: the bytes it writes to an open connection. -/
def splinterEmit (source type payload : List Char) : List Char :=
  let safe := sanitise (payload.take (splinterEmitBuf - 1))
  let text := eventLine source type safe ++ ['\n']
  let buf := snprintf splinterEmitBuf text
  if 0 < text.length ∧ text.length < splinterEmitBuf then buf.take text.length else []

/-! ## Receiving -/

/-- `splinter_event_t`. -/
structure SplinterEvent where
  source : List Char
  type : List Char
  payload : List Char
  deriving DecidableEq

/-- A token of `strtok_r` that is not empty and shorter than `size`. -/
def shortToken (size : Nat) (tok : Option (List Char)) : Option (List Char) :=
  tok.filter fun tok => decide (tok.length ≠ 0 ∧ tok.length < size)

/-- `parse_event`. -/
def parseEvent (line : List Char) : Option SplinterEvent :=
  let buf := (line.take (recvBufSize - 1)).rdropWhile fun c => c = '\n' ∨ c = '\r'
  if buf = [] then none
  else
    let (tok, rest) := strtok ['|'] buf
    if tok ≠ some splinterPrefix then none
    else
      let (source, rest) := strtok ['|'] rest
      let (type, rest) := strtok ['|'] rest
      let (payload, _) := strtok [] rest
      match shortToken splinterMaxSource source, shortToken splinterMaxType type, payload with
      | some source, some type, some payload =>
          some ⟨source.take (splinterMaxSource - 1), type.take (splinterMaxType - 1),
            payload.take (splinterMaxPayload - 1)⟩
      | _, _, _ => none

/-- The loop of `handle_connection`: bytes up to a newline, the end of the
input, or a full buffer. -/
def recvLine : Nat → List Char → List Char
  | 0, _ => []
  | _ + 1, [] => []
  | room + 1, c :: input => if c = '\n' then [] else c :: recvLine room input

/-- `handle_connection`: the event it records for what a client sent. -/
def handleConnection (input : List Char) : Option SplinterEvent :=
  let buf := recvLine (recvBufSize - 1) input
  if buf = [] then none else parseEvent (cstr buf)

/-! ## One end after the other -/

theorem recvLine_line {l : List Char} (hl : '\n' ∉ l) (rest : List Char) (room : Nat) :
    recvLine room (l ++ '\n' :: rest) = l.take room := by
  induction l generalizing room with
  | nil => cases room <;> simp [recvLine]
  | cons c l ih =>
      have hc : c ≠ '\n' := fun h => hl (h ▸ List.mem_cons_self)
      cases room with
      | zero => rfl
      | succ room =>
          rw [List.cons_append, recvLine, if_neg hc, ih fun h => hl (List.mem_cons_of_mem _ h)]
          rfl

/-- A name a daemon can give as source or type. -/
structure EventName (w : List Char) : Prop where
  ne_nil : w ≠ []
  length_le : w.length ≤ 31
  bytes : ∀ c ∈ w, c ≠ '\x00' ∧ c ≠ '|' ∧ c ≠ '\n' ∧ c ≠ '\r'

theorem shortToken_name {w : List Char} (h : EventName w) : shortToken 32 (some w) = some w := by
  have hlen : w.length ≠ 0 := fun hw => h.ne_nil (List.length_eq_zero_iff.mp hw)
  have := h.length_le
  rw [shortToken, Option.filter_some, if_pos (by simp [hlen]; omega)]

theorem length_eventLine (source type payload : List Char) :
    (eventLine source type payload).length =
      source.length + type.length + payload.length + 8 := by
  simp only [eventLine, splinterPrefix, List.length_append, List.length_cons, List.length_nil]
  omega

theorem strtok_field {w : List Char} (hne : w ≠ []) (hw : '|' ∉ w) (rest : List Char) :
    strtok ['|'] (w ++ '|' :: rest) = (some w, rest) := by
  refine strtok_token hne (fun c hc hmem => ?_) fun c r h => ?_
  · rw [List.mem_singleton] at hmem
    exact hw (hmem ▸ hc)
  · rw [List.mem_singleton]
    exact (List.cons.inj h).1.symm

section Names

variable {source type : List Char}

theorem EventName.no_pipe (h : EventName source) : '|' ∉ source := fun hc => (h.bytes _ hc).2.1 rfl

/-- The bytes of a line. -/
theorem eventLine_bytes (hsource : EventName source) (htype : EventName type)
    {payload : List Char} {p : Char → Prop} (hpayload : ∀ c ∈ payload, p c)
    (hname : ∀ c, c ≠ '\x00' ∧ c ≠ '|' ∧ c ≠ '\n' ∧ c ≠ '\r' → p c) (hpipe : p '|') :
    ∀ c ∈ eventLine source type payload, p c := by
  have hhead : ∀ c ∈ splinterPrefix, c ≠ '\x00' ∧ c ≠ '|' ∧ c ≠ '\n' ∧ c ≠ '\r' :=
    forall_mem_of_all (by decide)
  intro c hc
  simp only [eventLine, List.mem_append, List.mem_cons] at hc
  rcases hc with hc | rfl | hc | rfl | hc | rfl | hc
  · exact hname c (hhead c hc)
  · exact hpipe
  · exact hname c (hsource.bytes c hc)
  · exact hpipe
  · exact hname c (htype.bytes c hc)
  · exact hpipe
  · exact hpayload c hc

/-- The fields of a line, as `parse_event` finds them. -/
theorem parseEvent_eventLine (hsource : EventName source) (htype : EventName type)
    {payload : List Char} (hpayload : ∀ c ∈ payload, c ≠ '\n' ∧ c ≠ '\r')
    (hlen : (eventLine source type payload).length ≤ recvBufSize - 1) :
    parseEvent (eventLine source type payload) =
      if payload = [] then none
      else some ⟨source, type, payload.take (splinterMaxPayload - 1)⟩ := by
  have hbytes : ∀ c ∈ eventLine source type payload, c ≠ '\n' ∧ c ≠ '\r' :=
    eventLine_bytes hsource htype hpayload (fun c h => h.2.2) (by decide)
  have hne : eventLine source type payload ≠ [] := by simp [eventLine, splinterPrefix]
  have hbuf : ((eventLine source type payload).take (recvBufSize - 1)).rdropWhile
      (fun c => c = '\n' ∨ c = '\r') = eventLine source type payload := by
    rw [List.take_of_length_le hlen, List.rdropWhile_eq_self_iff]
    intro hl
    have := hbytes _ (List.getLast_mem hl)
    simp [this.1, this.2]
  have hhead : strtok ['|'] (eventLine source type payload) =
      (some splinterPrefix, source ++ '|' :: (type ++ '|' :: payload)) :=
    strtok_field (by decide) (by decide) _
  have hlenSource := hsource.length_le
  have hlenType := htype.length_le
  rw [parseEvent]
  simp only [hbuf, hhead, if_neg hne, ne_eq, not_true_eq_false, if_false,
    strtok_field hsource.ne_nil hsource.no_pipe, strtok_field htype.ne_nil htype.no_pipe,
    shortToken_name hsource, shortToken_name htype]
  -- with no delimiters strtok_r takes the rest, and there must be one
  cases payload with
  | nil => rfl
  | cons c r =>
      rw [strtok_token_end (List.cons_ne_nil c r) (fun _ _ => List.not_mem_nil),
        if_neg (List.cons_ne_nil c r)]
      show some (SplinterEvent.mk (source.take 31) (type.take 31) _) = _
      rw [List.take_of_length_le hlenSource, List.take_of_length_le hlenType]

/-- A line cut off in its payload. -/
theorem eventLine_take {n : Nat} (payload : List Char) (h : source.length + type.length + 8 ≤ n) :
    (eventLine source type payload).take n =
      eventLine source type (payload.take (n - (source.length + type.length + 8))) := by
  have hsplit : ∀ p, eventLine source type p = eventLine source type [] ++ p := by
    intro p
    simp [eventLine]
  have hlen : (eventLine source type []).length = source.length + type.length + 8 := by
    rw [length_eventLine, List.length_nil]
  rw [hsplit payload, hsplit (payload.take _), List.take_append, hlen,
    List.take_of_length_le (by omega)]

theorem sanitise_bytes {payload : List Char} : ∀ c ∈ sanitise payload, c ≠ '\n' ∧ c ≠ '\r' := by
  intro c hc
  obtain ⟨d, -, rfl⟩ := List.mem_map.mp hc
  split
  · decide
  · rename_i h
    rwa [not_or] at h

theorem nul_not_mem_sanitise {payload : List Char} (h : '\x00' ∉ payload) :
    '\x00' ∉ sanitise payload := by
  intro hc
  obtain ⟨d, hd, heq⟩ := List.mem_map.mp hc
  split at heq
  · exact absurd heq (by decide)
  · exact h (heq ▸ hd)

/-- What splinterd makes of a line that was written. -/
theorem handleConnection_eventLine (hsource : EventName source) (htype : EventName type)
    {payload : List Char} (hnul : '\x00' ∉ payload) :
    handleConnection (eventLine source type (sanitise payload) ++ ['\n']) =
      if payload = [] then none
      else some ⟨source, type, ((sanitise payload).take
        (recvBufSize - 1 - (source.length + type.length + 8))).take (splinterMaxPayload - 1)⟩ := by
  have hlenSource := hsource.length_le
  have hlenType := htype.length_le
  have hsize : recvBufSize - 1 = 1283 := rfl
  -- names are short enough for the receiver's cut to fall in the payload
  generalize hcut : (sanitise payload).take
    (recvBufSize - 1 - (source.length + type.length + 8)) = cut
  have hbytes : ∀ c ∈ cut, c ≠ '\n' ∧ c ≠ '\r' := fun c hc =>
    sanitise_bytes c (List.mem_of_mem_take (hcut ▸ hc))
  have hline : '\n' ∉ eventLine source type (sanitise payload) := fun h =>
    eventLine_bytes (p := fun c => c ≠ '\n') hsource htype (fun c hc => (sanitise_bytes c hc).1)
      (fun c h => h.2.2.1) (by decide) '\n' h rfl
  have hrecv : recvLine (recvBufSize - 1) (eventLine source type (sanitise payload) ++ ['\n']) =
      eventLine source type cut := by
    rw [recvLine_line hline, eventLine_take _ (by omega), hcut]
  have hcstr : cstr (eventLine source type cut) = eventLine source type cut := by
    refine cstr_eq_self fun h => ?_
    refine eventLine_bytes (p := fun c => c ≠ '\x00') hsource htype (fun c hc h => ?_)
      (fun c h => h.1) (by decide) '\x00' h rfl
    exact nul_not_mem_sanitise hnul (List.mem_of_mem_take (hcut ▸ h ▸ hc))
  have hne : eventLine source type cut ≠ [] := by simp [eventLine, splinterPrefix]
  have hlen : (eventLine source type cut).length ≤ recvBufSize - 1 := by
    rw [length_eventLine, ← hcut, List.length_take]
    omega
  have hempty : cut = [] ↔ payload = [] := by
    rw [← hcut, List.take_eq_nil_iff, sanitise, List.map_eq_nil_iff]
    constructor
    · intro h
      exact h.resolve_left (by omega)
    · exact .inr
  rw [handleConnection, hrecv]
  simp only [if_neg hne, hcstr, parseEvent_eventLine hsource htype hbytes hlen, hempty]

/-- The line is written exactly if it fits the sender's buffer. -/
theorem splinterEmit_eq (payload : List Char) :
    splinterEmit source type payload =
      if source.length + type.length + payload.length ≤ 2038 then
        eventLine source type (sanitise payload) ++ ['\n']
      else [] := by
  have hsize : splinterEmitBuf = 2048 := rfl
  have hsafe : (sanitise (payload.take 2047)).length = min 2047 payload.length := by
    rw [sanitise, List.length_map, List.length_take]
  have hlen : (eventLine source type (sanitise (payload.take 2047)) ++ ['\n']).length =
      source.length + type.length + min 2047 payload.length + 9 := by
    rw [List.length_append, length_eventLine, hsafe]
    rfl
  unfold splinterEmit
  simp only [show splinterEmitBuf - 1 = 2047 from rfl, hlen]
  by_cases h : source.length + type.length + payload.length ≤ 2038
  · rw [if_pos h, if_pos (by omega), snprintf_fits (by rw [hlen]; omega),
      List.take_of_length_le (by omega), List.take_of_length_le (by omega)]
  · rw [if_neg h, if_neg (by omega)]

/-- splinterd records the emission: one event, with its source and type,
and as much of its payload as fits. -/
def Recorded (source type payload : List Char) : Prop :=
  ∃ e, handleConnection (splinterEmit source type payload) = some e ∧
    e.source = source ∧ e.type = type ∧ e.payload <+: sanitise payload ∧
      ((eventLine source type payload).length ≤ 1283 → payload.length ≤ 1023 →
        e.payload = sanitise payload)

/-- **Which emissions are recorded.** -/
theorem recorded_iff (hsource : EventName source) (htype : EventName type) {payload : List Char}
    (hnul : '\x00' ∉ payload) :
    Recorded source type payload ↔
      payload ≠ [] ∧ source.length + type.length + payload.length ≤ 2038 := by
  constructor
  · rintro ⟨e, he, -⟩
    rw [splinterEmit_eq] at he
    split at he
    · rename_i hlen
      rw [handleConnection_eventLine hsource htype hnul] at he
      refine ⟨fun hempty => ?_, hlen⟩
      rw [if_pos hempty] at he
      cases he
    · cases he
  · rintro ⟨hne, hlen⟩
    have hevent := handleConnection_eventLine hsource htype hnul
    rw [if_neg hne] at hevent
    rw [Recorded, splinterEmit_eq, if_pos hlen]
    refine ⟨_, hevent, rfl, rfl, ?_, fun hline hpayload => ?_⟩
    · exact (List.take_prefix _ _).trans (List.take_prefix _ _)
    · rw [length_eventLine] at hline
      have hsize : recvBufSize - 1 = 1283 := rfl
      have hmax : splinterMaxPayload - 1 = 1023 := rfl
      have hsafe : (sanitise payload).length = payload.length := List.length_map _
      have hroom : (sanitise payload).length ≤
          recvBufSize - 1 - (source.length + type.length + 8) := by omega
      rw [List.take_of_length_le hroom, List.take_of_length_le (by omega)]

theorem recorded_sysstate :
    Recorded "krangd".toList "sysstate".toList "load=0.1\nmem=2".toList :=
  (recorded_iff ⟨by decide, by decide, forall_mem_of_all (by decide)⟩
    ⟨by decide, by decide, forall_mem_of_all (by decide)⟩ (by decide)).mpr (by decide)

/-- An event without a payload is dropped by the receiver, and one with a
long payload by the sender. -/
theorem emissions_dropped :
    handleConnection (splinterEmit "krangd".toList "started".toList []) = none ∧
      handleConnection (splinterEmit "krangd".toList "sysstate".toList
        (List.replicate 3000 'x')) = none := by
  constructor
  · decide
  · rw [splinterEmit_eq, List.length_replicate]
    decide

end Names

end MiuiserPeruser.Splinter
