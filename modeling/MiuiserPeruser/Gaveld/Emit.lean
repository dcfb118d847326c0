import MiuiserPeruser.Gaveld.IngestPaths

/-!
# gaveld — emitting a signal (`gaveld_emit.h`)

The sending side of the FIFO. `gaveld_emit` formats one line into a
buffer of 900 bytes and writes it if it fits; nothing in the context is
escaped. The round trip through `ingest_thread` is exact for a context
of one line that fits the buffer. `signal_transport_iff` says for which
contexts it is exact.
-/

namespace MiuiserPeruser.Gaveld.Wire

open CText

/-- `char buf[900]`. -/
abbrev emitBufSize : Nat := 900

/-- `"%s|%s|%.6g|%s\n"`. -/
def emitFormat (source signal : List Char) (weight : Number) (ctx : List Char) : List Char :=
  source ++ '|' :: (signal ++ '|' :: (formatG6 weight ++ '|' :: (ctx ++ ['\n'])))

/-- `gaveld_emit` once the pipe is open: what it writes, or `none` where
it returns -1. A NULL argument is `none`. -/
def gaveldEmit (source signal : Option (List Char)) (weight : Number) (ctx : Option (List Char)) :
    Option (List Char) :=
  let buf := emitFormat (source.getD "unknown".toList) (signal.getD []) weight (ctx.getD [])
  if 0 < buf.length ∧ buf.length < emitBufSize then some buf else none

/-! ## Lines of a context -/

/-- The first line of a text and the later ones. -/
def textLines : List Char → List Char × List (List Char)
  | [] => ([], [])
  | c :: cs =>
      if c = '\n' then ([], (textLines cs).1 :: (textLines cs).2)
      else (c :: (textLines cs).1, (textLines cs).2)

/-- A text is its lines, each later one after a newline. -/
theorem textLines_join (text : List Char) :
    (textLines text).1 ++ (textLines text).2.flatMap ('\n' :: ·) = text := by
  induction text with
  | nil => rfl
  | cons c cs ih =>
      by_cases hc : c = '\n'
      · rw [textLines, if_pos hc, hc]
        exact congrArg ('\n' :: ·) ih
      · rw [textLines, if_neg hc]
        exact congrArg (c :: ·) ih

theorem textLines_free (text : List Char) :
    '\n' ∉ (textLines text).1 ∧ ∀ l ∈ (textLines text).2, '\n' ∉ l := by
  induction text with
  | nil => exact ⟨List.not_mem_nil, by simp [textLines]⟩
  | cons c cs ih =>
      by_cases hc : c = '\n'
      · rw [textLines, if_pos hc]
        refine ⟨List.not_mem_nil, fun l hl => ?_⟩
        rcases List.mem_cons.mp hl with rfl | hl
        · exact ih.1
        · exact ih.2 l hl
      · rw [textLines, if_neg hc]
        refine ⟨fun h => ?_, ih.2⟩
        rcases List.mem_cons.mp h with h | h
        · exact hc h.symm
        · exact ih.1 h

/-- A loop of `fgets` reads short lines one by one. -/
theorem fgetsLines_lines {size : Nat} (later : List (List Char)) :
    ∀ (first : List Char), '\n' ∉ first → (∀ l ∈ later, '\n' ∉ l) →
      first.length + (later.flatMap ('\n' :: ·)).length + 1 < size →
      fgetsLines size (first ++ later.flatMap ('\n' :: ·) ++ ['\n']) =
        (first :: later).map (· ++ ['\n']) := by
  induction later with
  | nil =>
      intro first hfirst _ hsize
      rw [List.flatMap_nil, List.append_nil, fgetsLines_line hfirst (by simpa using hsize)]
      rfl
  | cons l later ih =>
      intro first hfirst hlater hsize
      simp only [List.flatMap_cons, List.cons_append, List.length_cons, List.length_append] at hsize
      have hsplit : first ++ (l :: later).flatMap ('\n' :: ·) ++ ['\n'] =
          first ++ '\n' :: (l ++ later.flatMap ('\n' :: ·) ++ ['\n']) := by simp
      rw [hsplit, fgetsLines_line hfirst (by omega), ih l (hlater l List.mem_cons_self)
        (fun l' hl' => hlater l' (List.mem_cons_of_mem _ hl')) (by omega)]
      rfl

/-! ## What each line becomes -/

/-- A line yields no record if and only if no `|` follows its first field. -/
theorem ingestLine_yields {l : List Char} (hnul : '\x00' ∉ l) (hline : '\n' ∉ l)
    (hlen : l.length + 1 < bufSize - 1) (last : Char) :
    ∃ recs, ingestLine last (l ++ ['\n']) = some recs ∧ (recs = [] ↔ afterField l = none) := by
  have hnul' : '\x00' ∉ l ++ ['\n'] := by simp [hnul]
  cases l with
  | nil => exact ⟨[], rfl, by simp [afterField]⟩
  | cons c l =>
      have hc : c ≠ '\n' := fun h => hline (h ▸ List.mem_cons_self)
      have hc' : c ≠ '\x00' := fun h => hnul (h ▸ List.mem_cons_self)
      have hround : ingestLine last (c :: l ++ ['\n']) =
          (parseLine last (c :: l ++ ['\n'])).map Option.toList := by
        rw [ingestLine, cstr_eq_self hnul']
        simp [hc, hc']
      by_cases hquery : "QUERY|".toList <+: c :: l
      · -- a query is a record of its own, and has its `|`
        refine ⟨[queryRecord (c :: l ++ ['\n'])], ?_, ?_⟩
        · rw [hround, parseLine, if_pos ((prefix_newline (by decide)).mpr hquery)]
          rfl
        · obtain ⟨r, hr⟩ := hquery
          have hafter : afterField (c :: l) = some r := by
            refine afterField_of_pipe (w := "QUERY".toList) (by decide) ?_
            rw [← hr]
            rfl
          simp [hafter]
      · have hquery' : ¬ "QUERY|".toList <+: c :: l ++ ['\n'] := by
          rwa [prefix_newline (by decide)]
        refine ⟨(parseFields (c :: l ++ ['\n'])).toList, ?_, ?_⟩
        · rw [hround, parseLine, if_neg hquery', strncpyOpen_short (by simpa using hlen)]
          rfl
        · rcases strtok_newline_cases (c :: l) with
            ⟨hd, -, h₁⟩ | ⟨src, hne, hw, hd, -, h₁⟩ | ⟨src, rest, hne, hw, hd, -, h₁⟩
          · rw [parseFields_reject h₁ rfl, afterField_of_last (by simp) hd]
            simp
          · rw [parseFields_reject h₁ rfl, afterField_of_last hw hd]
            simp
          · -- after a `|` strtok finds a signal, if only the newline
            have hsig : ∃ sig rest', sig ≠ [] ∧ strtok ['|'] (rest ++ ['\n']) = (some sig, rest') := by
              rcases strtok_newline_cases rest with
                ⟨-, -, h⟩ | ⟨w, hne', -, -, -, h⟩ | ⟨w, r, hne', -, -, -, h⟩
              · exact ⟨_, _, by simp, h⟩
              · exact ⟨_, _, by simp, h⟩
              · exact ⟨_, _, hne', h⟩
            obtain ⟨sig, rest', hne', hsig⟩ := hsig
            rw [parseFields_accept h₁ hsig hne hne', afterField_of_pipe hw hd]
            simp

theorem ingestLines_yield (lines : List (List Char)) (last : Char)
    (h : ∀ l ∈ lines, '\x00' ∉ l ∧ '\n' ∉ l ∧ l.length + 1 < bufSize - 1) :
    ∃ recs, ingestLines last (lines.map (· ++ ['\n'])) = some recs ∧
      (recs = [] ↔ ∀ l ∈ lines, afterField l = none) := by
  induction lines with
  | nil => exact ⟨[], rfl, by simp⟩
  | cons l lines ih =>
      obtain ⟨hnul, hline, hlen⟩ := h l List.mem_cons_self
      obtain ⟨recs, hrecs, hempty⟩ := ingestLine_yields hnul hline hlen last
      obtain ⟨more, hmore, hempty'⟩ := ih fun l' hl' => h l' (List.mem_cons_of_mem _ hl')
      refine ⟨recs ++ more, ?_, ?_⟩
      · simp only [List.map_cons, ingestLines, hrecs, hmore]
        rfl
      · rw [List.append_eq_nil_iff, hempty, hempty', List.forall_mem_cons]

/-- The record a signal is to arrive as. -/
def sentRecord (source signal : List Char) (weight : Number) (ctx : List Char) : WireRecord :=
  { WireRecord.blank with
    source, signal, weight := atof (formatG6 weight), ctx := ctx.take (ingestCtxMax - 1) }

/-- A name that can be sent: not empty, of one field of one line, and no
longer than its place in the record. -/
structure Sendable (size : Nat) (name : List Char) : Prop where
  ne_nil : name ≠ []
  length : name.length ≤ size - 1
  pipe : '|' ∉ name
  newline : '\n' ∉ name
  nul : '\x00' ∉ name

theorem Sendable.token {size : Nat} {name : List Char} (h : Sendable size name) (rest : List Char) :
    strtok ['|'] (name ++ '|' :: rest) = (some name, rest) := by
  refine strtok_token h.ne_nil (fun c hc hp => h.pipe (List.mem_singleton.mp hp ▸ hc)) ?_
  intro c r hr
  rw [← (List.cons.inj hr).1]
  exact List.mem_singleton_self _

theorem numeral_free {c : Char} (hc : isNumeral c = false) (w : Number) : c ∉ formatG6 w := by
  intro h
  rw [isNumeral_formatG6 h] at hc
  cases hc

section Transport

variable {source signal : List Char} (hsource : Sendable ingestSourceMax source)
  (hsignal : Sendable ingestSignalMax signal) (hquery : source ≠ "QUERY".toList) (weight : Number)
include hsource hsignal hquery

/-- The first line of an emission arrives as the signal it is. -/
theorem ingestLine_sent {first : List Char} (hnul : '\x00' ∉ first) (hline : '\n' ∉ first)
    (hlen : (emitFormat source signal weight first).length < bufSize - 1) (last : Char) :
    ingestLine last (emitFormat source signal weight first) =
      some [sentRecord source signal weight first] := by
  obtain ⟨c, cs, hcs⟩ := List.exists_cons_of_ne_nil hsource.ne_nil
  have hstart : (emitFormat source signal weight first).head? = some c := by
    rw [emitFormat, hcs]
    rfl
  have hc : c ≠ '\n' := fun h => hsource.newline (by rw [hcs, h]; exact List.mem_cons_self)
  have hc' : c ≠ '\x00' := fun h => hsource.nul (by rw [hcs, h]; exact List.mem_cons_self)
  have hnul' : '\x00' ∉ emitFormat source signal weight first := by
    have := numeral_free (c := '\x00') (by decide) weight
    simp [emitFormat, hsource.nul, hsignal.nul, hnul, this]
  have hnoquery : ¬ "QUERY|".toList <+: emitFormat source signal weight first := by
    rintro ⟨r, hr⟩
    -- the text before the first `|` is the source
    have htake := congrArg (List.takeWhile (· ≠ '|')) hr
    have hleft : ("QUERY|".toList ++ r).takeWhile (· ≠ '|') = "QUERY".toList := rfl
    have hright : (emitFormat source signal weight first).takeWhile (· ≠ '|') = source := by
      refine takeWhile_append_of_stop (fun x hx => ?_) fun x r h => ?_
      · have : x ≠ '|' := fun h => hsource.pipe (h ▸ hx)
        simpa using this
      · simpa using (List.cons.inj h).1.symm
    rw [hleft, hright] at htake
    exact hquery htake.symm
  have hweight : strtok ['|'] (formatG6 weight ++ '|' :: (first ++ ['\n'])) =
      (some (formatG6 weight), first ++ ['\n']) := by
    refine strtok_token (formatG6_ne_nil weight) (fun x hx hp => ?_) fun x r h => ?_
    · exact numeral_free (by decide) weight (List.mem_singleton.mp hp ▸ hx)
    · rw [← (List.cons.inj h).1]
      exact List.mem_singleton_self _
  have hctx : ((strtok ['\n'] (first ++ ['\n'])).1.getD []) = first := by
    rw [context_eq hline]
    cases first with
    | nil => rfl
    | cons x first => rw [strtok_token_end (List.cons_ne_nil x first) (by simp)]; rfl
  have hparse : parseFields (emitFormat source signal weight first) =
      some (sentRecord source signal weight first) := by
    rw [emitFormat, parseFields_accept (hsource.token _) (hsignal.token _) hsource.ne_nil
      hsignal.ne_nil, hweight]
    simp only [signalRecord, sentRecord, hctx, Option.map_some, Option.getD_some,
      List.take_of_length_le hsource.length, List.take_of_length_le hsignal.length]
  rw [ingestLine, hstart, cstr_eq_self hnul', parseLine, if_neg hnoquery,
    strncpyOpen_short hlen, Option.map_some, hparse]
  simp [hc, hc']

omit hquery in
/-- The lines of an emission. -/
theorem fgetsLines_sent {ctx : List Char} (hlen : (emitFormat source signal weight ctx).length < 900) :
    fgetsLines bufSize (emitFormat source signal weight ctx) =
      emitFormat source signal weight (textLines ctx).1 ::
        (textLines ctx).2.map (· ++ ['\n']) := by
  obtain ⟨hfirst, hlater⟩ := textLines_free ctx
  have hjoin := textLines_join ctx
  generalize textLines ctx = lines at hfirst hlater hjoin ⊢
  obtain ⟨first, later⟩ := lines
  simp only at hfirst hlater hjoin ⊢
  subst hjoin
  have hsplit : emitFormat source signal weight (first ++ later.flatMap ('\n' :: ·)) =
      source ++ '|' :: (signal ++ '|' :: (formatG6 weight ++ '|' :: first)) ++
        later.flatMap ('\n' :: ·) ++ ['\n'] := by simp [emitFormat]
  have hfree : '\n' ∉ source ++ '|' :: (signal ++ '|' :: (formatG6 weight ++ '|' :: first)) := by
    have := numeral_free (c := '\n') (by decide) weight
    simp [hsource.newline, hsignal.newline, hfirst, this]
  rw [hsplit] at hlen ⊢
  rw [List.length_append, List.length_append, List.length_singleton] at hlen
  rw [fgetsLines_lines later _ hfree hlater (by unfold bufSize; omega)]
  simp [emitFormat]

end Transport

/-- A later line of a text is no longer than the text. -/
theorem textLines_length {ctx l : List Char} (hl : l ∈ (textLines ctx).2) :
    l.length ≤ ctx.length := by
  have hjoin := congrArg List.length (textLines_join ctx)
  have hle : l.length ≤ ((textLines ctx).2.flatMap ('\n' :: ·)).length := by
    have hsub : ('\n' :: l).Sublist ((textLines ctx).2.flatMap ('\n' :: ·)) :=
      List.sublist_flatten_of_mem (List.mem_map_of_mem hl)
    exact (Nat.le_succ _).trans hsub.length_le
  rw [List.length_append] at hjoin
  omega

theorem mem_of_mem_textLines {ctx l : List Char} {c : Char}
    (h : c ∈ (textLines ctx).1 ∨ l ∈ (textLines ctx).2 ∧ c ∈ l) : c ∈ ctx := by
  rw [← textLines_join ctx]
  rcases h with h | ⟨hl, hc⟩
  · exact List.mem_append_left _ h
  · exact List.mem_append_right _ (List.mem_flatMap.mpr ⟨l, hl, List.mem_cons_of_mem _ hc⟩)

/-- The first line gives the first 511 bytes of a context. -/
theorem take_textLines_iff (ctx : List Char) (n : Nat) :
    (textLines ctx).1.take n = ctx.take n ↔ (textLines ctx).2 = [] ∨ n ≤ (textLines ctx).1.length := by
  have hjoin := textLines_join ctx
  generalize textLines ctx = lines at hjoin ⊢
  obtain ⟨first, later⟩ := lines
  simp only at hjoin ⊢
  subst hjoin
  cases later with
  | nil => simp
  | cons l later =>
      constructor
      · intro h
        have hlen := congrArg List.length h
        simp only [List.flatMap_cons, List.length_take, List.length_append, List.length_cons] at hlen
        right
        omega
      · rintro (h | h)
        · cases h
        · rw [List.take_append_of_le_length h]

/-- **Signal transport.** A context arrives as it was sent, with one
record and its first 511 bytes, if and only if the whole line fits the
buffer of 900 bytes, and the context is one line, or its first line alone
fills the 511 bytes and no later line has a `|` after a field. -/
theorem signal_transport_iff (source signal ctx : List Char) (weight : Number) (last : Char)
    (hsource : Sendable ingestSourceMax source) (hsignal : Sendable ingestSignalMax signal)
    (hquery : source ≠ "QUERY".toList) (hctx : '\x00' ∉ ctx) :
    ingestThread last ((gaveldEmit (some source) (some signal) weight (some ctx)).getD []) =
        some [sentRecord source signal weight ctx] ↔
      (emitFormat source signal weight ctx).length < 900 ∧
        ((textLines ctx).2 = [] ∨ 511 ≤ (textLines ctx).1.length ∧
          ∀ l ∈ (textLines ctx).2, afterField l = none) := by
  by_cases hfit : (emitFormat source signal weight ctx).length < 900
  · have hpos : 0 < (emitFormat source signal weight ctx).length := by simp [emitFormat]
    have hwrite : gaveldEmit (some source) (some signal) weight (some ctx) =
        some (emitFormat source signal weight ctx) := if_pos ⟨hpos, hfit⟩
    have hshort : (textLines ctx).1.length ≤ ctx.length := by
      have := congrArg List.length (textLines_join ctx)
      rw [List.length_append] at this
      omega
    have hctxlen : ctx.length < 900 := by
      have : ctx.length ≤ (emitFormat source signal weight ctx).length := by
        simp [emitFormat]
        omega
      omega
    -- the first line is the signal, the later ones yield `more`
    have hfirst := ingestLine_sent hsource hsignal hquery weight
      (fun h => hctx (mem_of_mem_textLines (l := []) (.inl h))) (textLines_free ctx).1
      (by simp only [emitFormat, List.length_append, List.length_cons] at hfit ⊢
          unfold bufSize
          omega) last
    obtain ⟨more, hmore, hempty⟩ := ingestLines_yield (textLines ctx).2 last
      fun l hl => ⟨fun h => hctx (mem_of_mem_textLines (.inr ⟨hl, h⟩)), (textLines_free ctx).2 l hl,
        by have := textLines_length hl
           unfold bufSize
           omega⟩
    have hall : ingestThread last (emitFormat source signal weight ctx) =
        some (sentRecord source signal weight (textLines ctx).1 :: more) := by
      rw [ingestThread, fgetsLines_sent hsource hsignal weight hfit, ingestLines, hfirst, hmore]
      rfl
    have hrecord : sentRecord source signal weight (textLines ctx).1 =
        sentRecord source signal weight ctx ↔
          (textLines ctx).2 = [] ∨ 511 ≤ (textLines ctx).1.length := by
      rw [← take_textLines_iff]
      refine ⟨fun h => congrArg WireRecord.ctx h, fun h => ?_⟩
      exact congrArg (fun t => { sentRecord source signal weight ctx with ctx := t }) h
    rw [hwrite, Option.getD_some, hall, Option.some.injEq, List.cons.injEq, hrecord, hempty]
    constructor
    · rintro ⟨h | h, hlater⟩
      · exact ⟨hfit, .inl h⟩
      · exact ⟨hfit, .inr ⟨h, hlater⟩⟩
    · rintro ⟨-, h | ⟨h, hlater⟩⟩
      · exact ⟨.inl h, by simp [h]⟩
      · exact ⟨.inr h, hlater⟩
  · -- nothing is written
    have hdrop : gaveldEmit (some source) (some signal) weight (some ctx) = none :=
      if_neg fun h => hfit h.2
    rw [hdrop, Option.getD_none]
    constructor
    · intro h
      cases h
    · rintro ⟨h, -⟩
      exact absurd h hfit

/-- A context of one line, with delimiters in it. -/
theorem signal_transport_iff_one_line :
    ingestThread 'x' ((gaveldEmit (some "bebopd".toList) (some "WAKELOCK_ANOMALY".toList)
        (.finite (25 / 2)) (some "tag=a|b".toList)).getD []) =
      some [sentRecord "bebopd".toList "WAKELOCK_ANOMALY".toList (.finite (25 / 2))
        "tag=a|b".toList] := by
  refine (signal_transport_iff _ _ _ _ 'x' ?_ ?_ (by decide) (by decide)).mpr ⟨?_, .inl ?_⟩
  · exact ⟨by decide, by decide, by decide, by decide, by decide⟩
  · exact ⟨by decide, by decide, by decide, by decide, by decide⟩
  · decide +kernel
  · decide

/-- A newline in the context starts a second record, of whatever source
the context names. -/
theorem context_forges_record :
    ¬ ∀ (source signal ctx : List Char) (weight : Number) (last : Char),
      Sendable ingestSourceMax source → Sendable ingestSignalMax signal →
      source ≠ "QUERY".toList → '\x00' ∉ ctx →
      ingestThread last ((gaveldEmit (some source) (some signal) weight (some ctx)).getD []) =
        some [sentRecord source signal weight ctx] := by
  intro h
  have hone := h "bebopd".toList "WAKELOCK_ANOMALY".toList
    "tag=a\ncom.example.app|ROOTKIT_MODULE|55".toList (.finite 0) '\x00'
    ⟨by decide, by decide, by decide, by decide, by decide⟩
    ⟨by decide, by decide, by decide, by decide, by decide⟩ (by decide) (by decide)
  have hforged : ingestThread '\x00' ((gaveldEmit (some "bebopd".toList)
        (some "WAKELOCK_ANOMALY".toList) (.finite 0)
        (some "tag=a\ncom.example.app|ROOTKIT_MODULE|55".toList)).getD []) =
      some [sentRecord "bebopd".toList "WAKELOCK_ANOMALY".toList (.finite 0) "tag=a".toList,
        sentRecord "com.example.app".toList "ROOTKIT_MODULE".toList (.finite 55) []] := by
    decide +kernel
  rw [hforged] at hone
  exact absurd (congrArg List.length (Option.some.inj hone)) (by decide)

end MiuiserPeruser.Gaveld.Wire
