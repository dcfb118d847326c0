import MiuiserPeruser.Gaveld.Wire

/-!
# gaveld — the two ingest paths compared

One line, given to the FIFO path and to the socket path. The FIFO path
tokenises the line with its newline, and the newline goes with whichever
field comes last: it ends a weight or a context and is ignored there, but
in a signal it stays. `ingest_paths_agree_iff` says exactly which lines
the two paths understand differently.
-/

namespace MiuiserPeruser.Gaveld.Wire

open CText

/-- What follows the first field of a text and its `|`, if there is one. -/
def afterField (s : List Char) : Option (List Char) :=
  match (s.dropWhile (· = '|')).dropWhile (· ≠ '|') with
  | [] => none
  | _ :: rest => some rest

/-- The newline of a line ends up in its signal: a `|` follows the first
field, and after it and further delimiters there are at most 62 bytes,
none of them a `|`. -/
def NewlineInSignal (text : List Char) : Prop :=
  ∃ rest, afterField text = some rest ∧ '|' ∉ rest.dropWhile (· = '|') ∧
    (rest.dropWhile (· = '|')).length ≤ ingestSignalMax - 2

/-- The socket's answer to what the FIFO path makes of a line. -/
def asRequest : Option WireRecord → Request
  | some rec => .signal rec
  | none => .error

/-- Both paths reject the line, or both accept it as the same record. -/
def PathsAgree (last last' : Char) (line : List Char) : Prop :=
  ∃ result : Option WireRecord, ingestThread last line = some result.toList ∧
    handleClient last' line = asRequest result

/-! ## One field, with and without the newline -/

/-- **The three ways a newline meets `strtok`.** -/
theorem strtok_newline_cases (s : List Char) :
    (s.dropWhile (· = '|') = [] ∧
      strtok ['|'] s = (none, []) ∧ strtok ['|'] (s ++ ['\n']) = (some ['\n'], [])) ∨
    (∃ w, w ≠ [] ∧ '|' ∉ w ∧ s.dropWhile (· = '|') = w ∧
      strtok ['|'] s = (some w, []) ∧ strtok ['|'] (s ++ ['\n']) = (some (w ++ ['\n']), [])) ∨
    ∃ w r, w ≠ [] ∧ '|' ∉ w ∧ s.dropWhile (· = '|') = w ++ '|' :: r ∧
      strtok ['|'] s = (some w, r) ∧ strtok ['|'] (s ++ ['\n']) = (some w, r ++ ['\n']) := by
  have hdrop : (s ++ ['\n']).dropWhile (· = '|') = s.dropWhile (· = '|') ++ ['\n'] :=
    dropWhile_newline (by decide)
  have free : ∀ w : List Char, '|' ∉ w → ∀ c ∈ w, c ∉ ['|'] := by
    intro w hw c hc hp
    exact hw (List.mem_singleton.mp hp ▸ hc)
  rw [strtok_dropWhile s, strtok_dropWhile (s ++ ['\n']), hdrop]
  rcases field_cases s with h | ⟨w, hne, hw, h⟩ | ⟨w, r, hne, hw, h⟩
  · rw [h]
    exact .inl ⟨rfl, rfl, rfl⟩
  · rw [h]
    have hw' : '|' ∉ w ++ ['\n'] := by simpa using hw
    exact .inr (.inl ⟨w, hne, hw, rfl, strtok_token_end hne (free w hw),
      strtok_token_end (by simp) (free _ hw')⟩)
  · rw [h, List.append_assoc, List.cons_append]
    refine .inr (.inr ⟨w, r, hne, hw, rfl, ?_, ?_⟩)
    · exact strtok_token hne (free w hw) fun c r' hr => by
        rw [← (List.cons.inj hr).1]
        exact List.mem_singleton_self _
    · exact strtok_token hne (free w hw) fun c r' hr => by
        rw [← (List.cons.inj hr).1]
        exact List.mem_singleton_self _

theorem afterField_of_pipe {s w r : List Char} (hw : '|' ∉ w)
    (h : s.dropWhile (· = '|') = w ++ '|' :: r) : afterField s = some r := by
  have hdrop : (w ++ '|' :: r).dropWhile (· ≠ '|') = '|' :: r := by
    refine dropWhile_append_of_stop (fun c hc => ?_) fun c r' hr => ?_
    · have : c ≠ '|' := fun h => hw (h ▸ hc)
      simpa using this
    · simpa using (List.cons.inj hr).1.symm
  rw [afterField, h, hdrop]

theorem afterField_of_last {s w : List Char} (hw : '|' ∉ w)
    (h : s.dropWhile (· = '|') = w) : afterField s = none := by
  have hdrop : w.dropWhile (· ≠ '|') = [] := by
    refine List.dropWhile_eq_nil_iff.mpr fun c hc => ?_
    have : c ≠ '|' := fun h => hw (h ▸ hc)
    simpa using this
  rw [afterField, h, hdrop]

/-- What follows a field of a text is part of it. -/
theorem rest_free {s w r : List Char} {c : Char} (hs : c ∉ s)
    (h : s.dropWhile (· = '|') = w ++ '|' :: r) : c ∉ r := by
  intro hmem
  have hdrop : c ∈ s.dropWhile (· = '|') := by
    rw [h]
    exact List.mem_append_right _ (List.mem_cons_of_mem _ hmem)
  exact hs ((List.dropWhile_suffix _).subset hdrop)

/-! ## Context and weight -/

/-- The rest of a line is the same context for both paths. -/
theorem context_eq {rest : List Char} (h : '\n' ∉ rest) :
    (strtok ['\n'] (rest ++ ['\n'])).1 = (strtok [] rest).1 := by
  cases rest with
  | nil => rfl
  | cons c rest =>
      have hfree : ∀ x ∈ c :: rest, x ∉ ['\n'] := by
        intro x hx hp
        exact h (List.mem_singleton.mp hp ▸ hx)
      rw [strtok_token (List.cons_ne_nil c rest) hfree (by simp)]
      rw [strtok_token_end (List.cons_ne_nil c rest) (by simp)]

/-- Weight and context, from what follows the signal. -/
def restFields (lastDelims rest : List Char) : Number × List Char :=
  ((((strtok ['|'] rest).1.map atof).getD (.finite 0)),
    ((strtok lastDelims (strtok ['|'] rest).2).1.getD []))

theorem restFields_newline {rest : List Char} (h : '\n' ∉ rest) :
    restFields ['\n'] (rest ++ ['\n']) = restFields [] rest := by
  unfold restFields
  rcases strtok_newline_cases rest with ⟨-, h₀, h₁⟩ | ⟨w, -, -, -, h₀, h₁⟩ | ⟨w, r, -, -, hd, h₀, h₁⟩
  · rw [h₀, h₁]
    show (atof ['\n'], []) = _
    rw [atof_only_newline]
    rfl
  · rw [h₀, h₁]
    show (atof (w ++ ['\n']), []) = _
    rw [atof_newline]
    rfl
  · rw [h₀, h₁]
    show (_, (strtok ['\n'] (r ++ ['\n'])).1.getD []) = (_, (strtok [] r).1.getD [])
    rw [context_eq (rest_free h hd)]

theorem signalRecord_congr {src sig rest rest' lastDelims lastDelims' : List Char}
    (h : restFields lastDelims rest = restFields lastDelims' rest') :
    signalRecord src sig (strtok ['|'] rest).1 (strtok lastDelims (strtok ['|'] rest).2).1 =
      signalRecord src sig (strtok ['|'] rest').1 (strtok lastDelims' (strtok ['|'] rest').2).1 := by
  obtain ⟨hweight, hctx⟩ := Prod.mk.inj h
  simp only [signalRecord, hweight, hctx]

/-! ## The whole line -/

section Tokens

variable {tmp src sig rest rest' : List Char}

theorem parseFields_accept (hsrc : strtok ['|'] tmp = (some src, rest))
    (hsig : strtok ['|'] rest = (some sig, rest')) (hne : src ≠ []) (hne' : sig ≠ []) :
    parseFields tmp = some (signalRecord src sig (strtok ['|'] rest').1
      (strtok ['\n'] (strtok ['|'] rest').2).1) := by
  simp only [parseFields, hsrc, hsig, hne, hne', or_self, if_false]

theorem parseFields_reject (hsrc : strtok ['|'] tmp = (some src, rest))
    (hsig : (strtok ['|'] rest).1 = none) : parseFields tmp = none := by
  simp only [parseFields, hsrc, hsig]

theorem clientSignal_accept (hsrc : strtok ['|'] tmp = (some src, rest))
    (hsig : strtok ['|'] rest = (some sig, rest')) :
    clientSignal tmp = .signal (signalRecord src sig (strtok ['|'] rest').1
      (strtok [] (strtok ['|'] rest').2).1) := by
  simp only [clientSignal, hsrc, hsig]

theorem clientSignal_reject (hsig : (strtok ['|'] (strtok ['|'] tmp).2).1 = none) :
    clientSignal tmp = .error := by
  simp only [clientSignal, hsig]
  cases (strtok ['|'] tmp).1 <;> rfl

end Tokens

/-- The two copies of the tokeniser, on a line and on the line without
its newline. -/
theorem clientSignal_eq_iff {text : List Char} (htext : '\n' ∉ text) :
    clientSignal text = asRequest (parseFields (text ++ ['\n'])) ↔ ¬ NewlineInSignal text := by
  rcases strtok_newline_cases text with
    ⟨hd, h₀, h₁⟩ | ⟨src, hne, hw, hd, h₀, h₁⟩ | ⟨src, rest, hne, hw, hd, h₀, h₁⟩
  · -- delimiters only: no field, and a field of one newline
    have hafter : afterField text = none := afterField_of_last (by simp) hd
    rw [clientSignal_reject (by rw [h₀]; rfl), parseFields_reject h₁ rfl]
    simp [NewlineInSignal, hafter, asRequest]
  · -- one field
    have hafter : afterField text = none := afterField_of_last hw hd
    rw [clientSignal_reject (by rw [h₀]; rfl), parseFields_reject h₁ rfl]
    simp [NewlineInSignal, hafter, asRequest]
  · have hafter := afterField_of_pipe hw hd
    have hrest : '\n' ∉ rest := rest_free htext hd
    rcases strtok_newline_cases rest with
      ⟨hd', h₀', h₁'⟩ | ⟨sig, hne', hw', hd', h₀', h₁'⟩ | ⟨sig, more, hne', hw', hd', h₀', h₁'⟩
    · -- no signal for the socket, the newline for the FIFO
      rw [clientSignal_reject (by rw [h₀, h₀']), parseFields_accept h₁ h₁' hne (by simp)]
      have hin : NewlineInSignal text := ⟨rest, hafter, by simp [hd'], by simp [hd']⟩
      exact ⟨fun h => Request.noConfusion h, fun h => absurd hin h⟩
    · -- the signal ends the line
      rw [clientSignal_accept h₀ h₀', parseFields_accept h₁ h₁' hne (by simp)]
      have hin : NewlineInSignal text ↔ sig.length ≤ ingestSignalMax - 2 := by
        refine ⟨fun ⟨r, hr, _, hlen⟩ => ?_, fun hlen => ⟨rest, hafter, hd' ▸ hw', hd' ▸ hlen⟩⟩
        rw [hafter] at hr
        obtain rfl := Option.some.inj hr
        rwa [hd'] at hlen
      rw [hin, not_le]
      constructor
      · intro h
        have hsig := congrArg WireRecord.signal (Request.signal.inj h)
        have hlen := congrArg List.length hsig
        simp only [signalRecord, List.length_take, List.length_append, List.length_cons,
          List.length_nil] at hlen
        unfold ingestSignalMax at *
        omega
      · intro hlen
        have hcut : (sig ++ ['\n']).take (ingestSignalMax - 1) = sig.take (ingestSignalMax - 1) :=
          List.take_append_of_le_length (by unfold ingestSignalMax at *; omega)
        simp only [asRequest, signalRecord, hcut]
        rfl
    · -- the newline is in the weight or after it
      have hmore : '\n' ∉ more := rest_free hrest hd'
      rw [clientSignal_accept h₀ h₀', parseFields_accept h₁ h₁' hne hne']
      refine ⟨fun _ ⟨r, hr, hpipe, _⟩ => ?_, fun _ => ?_⟩
      · rw [hafter] at hr
        obtain rfl := Option.some.inj hr
        rw [hd'] at hpipe
        exact hpipe (by simp)
      · exact congrArg Request.signal (signalRecord_congr (restFields_newline hmore)).symm

/-! ## A line on either path -/

theorem prefix_newline {w text : List Char} (hw : '\n' ∉ w) : w <+: text ++ ['\n'] ↔ w <+: text := by
  constructor
  · intro h
    rcases List.prefix_concat_iff.mp h with h | h
    · rw [h] at hw
      simp at hw
    · exact h
  · intro h
    exact h.trans (List.prefix_append _ _)

section Line

variable {text : List Char} (hnul : '\x00' ∉ text) (hline : '\n' ∉ text)
include hnul hline

/-- What the FIFO path makes of a line that is no query. -/
theorem ingestThread_line (hlen : text.length ≤ bufSize - 2) (hquery : ¬ "QUERY|".toList <+: text)
    (last : Char) :
    ingestThread last (text ++ ['\n']) =
      if text = [] then some []
      else (strncpyOpen (bufSize - 1) last (text ++ ['\n'])).map fun tmp =>
        (parseFields tmp).toList := by
  have hlines : fgetsLines bufSize (text ++ ['\n']) = [text ++ ['\n']] := by
    rw [fgetsLines_line hline (by unfold bufSize at *; omega)]
    rfl
  have hnul' : '\x00' ∉ text ++ ['\n'] := by simp [hnul]
  have hquery' : ¬ "QUERY|".toList <+: text ++ ['\n'] := by
    rw [prefix_newline (by decide)]
    exact hquery
  rw [ingestThread, hlines]
  cases text with
  | nil => rfl
  | cons c text =>
      have hc : c ≠ '\n' := fun h => hline (h ▸ List.mem_cons_self)
      have hc' : c ≠ '\x00' := fun h => hnul (h ▸ List.mem_cons_self)
      simp only [ingestLines, ingestLine, List.cons_append, List.head?_cons, Option.some.injEq, hc,
        hc', or_self, if_false, reduceCtorEq]
      rw [← List.cons_append, cstr_eq_self hnul', parseLine, if_neg hquery']
      cases strncpyOpen (bufSize - 1) last (c :: text ++ ['\n']) with
      | none => rfl
      | some tmp => simp

/-- What the socket path makes of it. -/
theorem handleClient_line (hlen : text.length ≤ bufSize - 2) (hquery : ¬ "QUERY|".toList <+: text)
    (happrove : ¬ "APPROVE|".toList <+: text) (hdeny : ¬ "DENY|".toList <+: text) (last : Char) :
    handleClient last (text ++ ['\n']) = clientSignal text := by
  have hnul' : '\x00' ∉ text ++ ['\n'] := by simp [hnul]
  have hread : (text ++ ['\n']).take (bufSize - 1) = text ++ ['\n'] := by
    refine List.take_of_length_le ?_
    rw [List.length_append, List.length_singleton]
    unfold bufSize at *
    omega
  have hcut : (text ++ ['\n']).takeWhile (· ≠ '\n') = text := by
    refine takeWhile_append_of_stop (fun c hc => ?_) fun c r h => ?_
    · have : c ≠ '\n' := fun h => hline (h ▸ hc)
      simpa using this
    · simpa using (List.cons.inj h).1.symm
  have hstatus : ¬ "QUERY|STATUS".toList <+: text := fun h =>
    hquery (List.IsPrefix.trans (by decide) h)
  have hdecay : ¬ "QUERY|DECAY".toList <+: text := fun h =>
    hquery (List.IsPrefix.trans (by decide) h)
  have hcopy : strncpyOpen (bufSize - 1) last text = some text :=
    strncpyOpen_short (by unfold bufSize at *; omega)
  unfold handleClient
  rw [if_neg (by simp), hread, cstr_eq_self hnul', hcut]
  simp only [hstatus, hdecay, happrove, hdeny, hcopy, if_false]

end Line

/-- **Where the two paths agree.** For every one-line record of up to
2046 bytes that is no query and no reply, the two paths reject it or
accept it with the same fields if and only if its newline does not end up
in its signal; and, for a record of exactly 2046 bytes, only if the byte
after `parse_line`'s copy happens to be NUL. -/
theorem ingest_paths_agree_iff (text : List Char) (hnul : '\x00' ∉ text) (hline : '\n' ∉ text)
    (hlen : text.length ≤ 2046) (hquery : ¬ "QUERY|".toList <+: text)
    (happrove : ¬ "APPROVE|".toList <+: text) (hdeny : ¬ "DENY|".toList <+: text)
    (last last' : Char) :
    PathsAgree last last' (text ++ ['\n']) ↔
      ¬ NewlineInSignal text ∧ (text.length < 2046 ∨ last = '\x00') := by
  unfold PathsAgree
  rw [ingestThread_line hnul hline hlen hquery,
    handleClient_line hnul hline hlen hquery happrove hdeny]
  by_cases hempty : text = []
  · -- ingest_thread skips the empty line, and the socket rejects it
    subst hempty
    refine ⟨fun _ => ⟨?_, .inl (by simp)⟩, fun _ => ⟨none, rfl, rfl⟩⟩
    rintro ⟨rest, hrest, -⟩
    cases hrest
  · rw [if_neg hempty]
    have htoList : ∀ a b : Option WireRecord, a.toList = b.toList → a = b := by
      intro a b h
      cases a <;> cases b <;> simp_all
    -- where parse_line's copy is terminated, the two tokenisers decide
    have defined : strncpyOpen (bufSize - 1) last (text ++ ['\n']) = some (text ++ ['\n']) →
        ((∃ result : Option WireRecord,
          (strncpyOpen (bufSize - 1) last (text ++ ['\n'])).map (fun tmp =>
            (parseFields tmp).toList) = some result.toList ∧
          clientSignal text = asRequest result) ↔ ¬ NewlineInSignal text) := by
      intro hcopy
      rw [hcopy, ← clientSignal_eq_iff hline]
      constructor
      · rintro ⟨result, hfifo, hsocket⟩
        rw [htoList _ _ (Option.some.inj hfifo)]
        exact hsocket
      · intro h
        exact ⟨_, rfl, h⟩
    by_cases hshort : text.length < 2046
    · rw [defined (strncpyOpen_short (by simp; omega))]
      simp [hshort]
    · have hfull : ¬ (text ++ ['\n']).length < bufSize - 1 := by
        rw [List.length_append, List.length_singleton]
        unfold bufSize
        omega
      -- strncpy filled the copy: the byte behind it is as it was
      by_cases hlast : last = '\x00'
      · rw [defined]
        · simp [hlast]
        · rw [strncpyOpen, if_neg hfull, if_pos hlast, List.take_of_length_le]
          rw [List.length_append, List.length_singleton]
          unfold bufSize
          omega
      · rw [strncpyOpen, if_neg hfull, if_neg hlast]
        simp [hshort, hlast]

/-- A full record is the same on both paths. -/
theorem ingest_paths_agree_iff_full :
    PathsAgree 'x' 'x' ("rocksteadyd|CPU_HOG|12.5|pid=7 a|b".toList ++ ['\n']) := by
  refine (ingest_paths_agree_iff _ (by decide) (by decide) (by decide) (by decide) (by decide)
    (by decide) 'x' 'x').mpr ⟨?_, .inl (by decide)⟩
  rintro ⟨rest, hrest, hpipe, -⟩
  have hafter : rest = "CPU_HOG|12.5|pid=7 a|b".toList := by
    have : afterField "rocksteadyd|CPU_HOG|12.5|pid=7 a|b".toList =
        some "CPU_HOG|12.5|pid=7 a|b".toList := by decide
    rw [this] at hrest
    exact (Option.some.inj hrest).symm
  rw [hafter] at hpipe
  exact absurd (by decide) hpipe

/-- A record without weight: the FIFO path keeps the newline as part of
the signal. -/
theorem ingest_paths_differ :
    ¬ ∀ (text : List Char) (last last' : Char), '\x00' ∉ text → '\n' ∉ text → text.length ≤ 2046 →
      ¬ "QUERY|".toList <+: text → ¬ "APPROVE|".toList <+: text → ¬ "DENY|".toList <+: text →
      PathsAgree last last' (text ++ ['\n']) := by
  intro h
  obtain ⟨result, hfifo, hsocket⟩ := h "rocksteadyd|CPU_HOG".toList '\x00' '\x00' (by decide)
    (by decide) (by decide) (by decide) (by decide) (by decide)
  have hfifo' : ingestThread '\x00' ("rocksteadyd|CPU_HOG".toList ++ ['\n']) =
      some [signalRecord "rocksteadyd".toList "CPU_HOG\n".toList none none] := by decide +kernel
  have hsocket' : handleClient '\x00' ("rocksteadyd|CPU_HOG".toList ++ ['\n']) =
      .signal (signalRecord "rocksteadyd".toList "CPU_HOG".toList none none) := by decide +kernel
  rw [hfifo'] at hfifo
  rw [hsocket'] at hsocket
  cases result with
  | none => cases hfifo
  | some rec =>
      obtain rfl := (List.cons.inj (Option.some.inj hfifo)).1
      have hsignal := congrArg WireRecord.signal (Request.signal.inj hsocket)
      exact absurd hsignal (by decide)

end MiuiserPeruser.Gaveld.Wire
