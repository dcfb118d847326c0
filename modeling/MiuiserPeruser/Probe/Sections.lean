import Mathlib.Data.List.Count
import MiuiserPeruser.Lib.Strstr

/-!
# The sections of a probe

shredderd and tigerclawd ask the device for many things with one command:
`echo ==TAG==; command; …`. What comes back is a text of sections, each
behind the line with its tag, and both daemons cut it up again with their
own copy of the same reader. Here is what the two copies share: the text
of the sections, the search for a tag, and the copy of a section.
-/

namespace MiuiserPeruser.Probe

open CText

/-- The characters a line ends with. -/
def isEol (c : Char) : Bool := c = '\r' || c = '\n'

/-! ## The reader -/

/-- `marker`. -/
def marker (tag : List Char) : List Char := snprintf 64 ("==".toList ++ tag ++ "==".toList)

/-- Where the text behind the marker starts, its first line ends skipped. -/
def sectionStart (buf tag : List Char) : Option (List Char) :=
  match strstr (marker tag) buf with
  | none => none
  | some start => some ((start.drop (marker tag).length).dropWhile isEol)

/-- Up to the next marker line, or to the end of the buffer. -/
def sectionLen (start : List Char) : Nat :=
  match strstr "\n==".toList start with
  | some e => start.length - e.length
  | none => start.length

/-- What is copied to the scratch area, its last line ends cut off. -/
def copySection (scratch : Nat) (start : List Char) : List Char :=
  let len := if sectionLen start ≥ scratch then scratch - 1 else sectionLen start
  (start.take len).rdropWhile isEol

/-- `g_probe_buf`, `g_probe_loaded` and `g_section_scratch`. -/
structure ProbeState where
  buf : List Char
  loaded : Bool
  scratch : List Char

/-- `append_probe_chunk` for a command and what `bexec` returns for it:
what the buffer has no room for is cut off. -/
def appendProbeChunk (size budget : Nat) (st : ProbeState) (cmd : List Char)
    (raw : Option (List Char)) : Option ProbeState :=
  if cmd.length > budget then none
  else raw.map fun raw => { st with buf := st.buf ++ raw.take (size - st.buf.length - 1) }

/-- The commands of `load_probe_data`, one after the other. -/
def appendProbeChunks (size budget : Nat) :
    ProbeState → List (List Char × Option (List Char)) → ProbeState
  | st, [] => { st with loaded := true }
  | st, (cmd, raw) :: chunks =>
      match appendProbeChunk size budget st cmd raw with
      | none => st
      | some st => appendProbeChunks size budget st chunks

/-- `load_probe_data`. -/
def loadProbeData (size budget : Nat) (st : ProbeState)
    (chunks : List (List Char × Option (List Char))) : ProbeState :=
  appendProbeChunks size budget { st with buf := [], loaded := false } chunks

/-! ## Sections -/

/-- A tag: a word without an equals sign, short enough for its marker. -/
structure Tag where
  name : List Char
  word : ∀ c ∈ name, c ≠ '=' ∧ c ≠ '\r' ∧ c ≠ '\n'
  fits : name.length ≤ 59
  deriving DecidableEq

/-- The line ends are cut off on both sides. -/
def stripped (output : List Char) : List Char := (output.dropWhile isEol).rdropWhile isEol

/-- No line starts with `==`, but for empty lines in front. -/
def NoMarkerLine (output : List Char) : Prop :=
  ¬ "==".toList <+: output.dropWhile isEol ∧ ¬ "\n==".toList <:+: output.dropWhile isEol

/-- The output of one command, behind its tag. -/
structure Section where
  tag : Tag
  /-- Whether the line with the tag ends with a carriage return, too. -/
  crlf : Bool
  output : List Char
  ended : output = [] ∨ output.getLast? = some '\n'
  noMarkerLine : NoMarkerLine output
  noMarker : ∀ tag : Tag, ¬ marker tag.name <:+: output

/-- The line with the tag. -/
def Section.tagLine (s : Section) : List Char :=
  marker s.tag.name ++ if s.crlf then ['\r', '\n'] else ['\n']

def Section.text (s : Section) : List Char := s.tagLine ++ s.output

/-- What a reader is to find for a tag. -/
def sectionOf (sections : List Section) (t : Tag) : Option (List Char) :=
  (sections.find? fun s => s.tag = t).map fun s => stripped s.output

/-- The text of all sections. -/
def sectionsText (sections : List Section) : List Char := sections.flatMap Section.text

section Marker

variable {t s : Tag}

theorem marker_eq (t : Tag) : marker t.name = "==".toList ++ t.name ++ "==".toList := by
  apply snprintf_fits
  have := t.fits
  simp only [List.length_append]
  have : "==".toList.length = 2 := by decide
  omega

theorem newline_notMem_marker (t : Tag) : '\n' ∉ marker t.name := by
  rw [marker_eq]
  intro h
  simp only [List.mem_append] at h
  rcases h with (h | h) | h
  · exact absurd h (by decide)
  · exact (t.word _ h).2.2 rfl
  · exact absurd h (by decide)

theorem count_name (t : Tag) : t.name.count '=' = 0 :=
  List.count_eq_zero.mpr fun h => (t.word _ h).1 rfl

/-- A tag is read off its marker. -/
theorem name_eq_of_marker_start {rest rest' : List Char}
    (h : marker t.name ++ rest = marker s.name ++ rest') : t = s := by
  have hname : ∀ (u : Tag) (r : List Char),
      ((marker u.name ++ r).drop 2).takeWhile (· ≠ '=') = u.name := by
    intro u r
    have hdrop : (marker u.name ++ r).drop 2 = u.name ++ '=' :: '=' :: r := by
      rw [marker_eq]
      simp
    rw [hdrop]
    exact takeWhile_append_of_stop (fun c hc => by simpa using (u.word c hc).1)
      fun c r hc => by simp [(List.cons.inj hc).1.symm]
  have heq : t.name = s.name := by rw [← hname t rest, h, hname]
  cases t
  cases s
  simp only at heq
  subst heq
  rfl

/-- The marker of another tag is not in the line with a tag. -/
theorem marker_notInfix_tagLine {e : List Char} (he : '=' ∉ e) (hne : t ≠ s) :
    ¬ marker t.name <:+: marker s.name ++ e := by
  rintro ⟨x, y, h⟩
  -- all four equals signs are the marker's, so nothing stands before it
  have hcount := congrArg (List.count '=') h
  have hmarker : ∀ u : Tag, (marker u.name).count '=' = 4 := by
    intro u
    have htwo : List.count '=' "==".toList = 2 := by decide
    rw [marker_eq, List.count_append, List.count_append, count_name, htwo]
  rw [List.count_append, List.count_append, List.count_append, hmarker, hmarker,
    List.count_eq_zero.mpr he] at hcount
  cases x with
  | nil =>
      rw [List.nil_append] at h
      exact hne (name_eq_of_marker_start h)
  | cons c x =>
      have hc : c = '=' := by
        have hhead := congrArg List.head? h
        simpa [marker_eq] using hhead
      rw [hc, List.count_cons_self] at hcount
      omega

end Marker

/-! ## A section found -/

section Found

variable {sections pre post : List Section} {s : Section}

theorem Section.tagLine_getLast? (s : Section) : s.tagLine.getLast? = some '\n' := by
  unfold Section.tagLine
  split <;> simp

theorem strstr_section {t : Tag} (hne : t ≠ s.tag) (rest : List Char) :
    strstr (marker t.name) (s.text ++ rest) = strstr (marker t.name) rest := by
  have hline : ¬ marker t.name <:+: s.tagLine := by
    apply marker_notInfix_tagLine _ hne
    split <;> decide
  rw [Section.text, List.append_assoc,
    strstr_append_of_last (newline_notMem_marker t) (.inr s.tagLine_getLast?) hline,
    strstr_append_of_last (newline_notMem_marker t) s.ended (s.noMarker t)]

/-- **A tag is found at its own section**, and nowhere if it has none. -/
theorem strstr_sections {t : Tag} (h : ∀ s ∈ pre, t ≠ s.tag) (rest : List Char) :
    strstr (marker t.name) (sectionsText pre ++ rest) = strstr (marker t.name) rest := by
  induction pre with
  | nil => rfl
  | cons s pre ih =>
      have htext : sectionsText (s :: pre) ++ rest = s.text ++ (sectionsText pre ++ rest) := by
        simp [sectionsText]
      rw [htext, strstr_section (h s List.mem_cons_self),
        ih fun s hs => h s (List.mem_cons_of_mem _ hs)]

theorem sectionStart_absent {t : Tag} (h : ∀ s ∈ sections, t ≠ s.tag) :
    sectionStart (sectionsText sections) t.name = none := by
  have hmarker : marker t.name ≠ [] := by simp [marker_eq]
  have hnone : strstr (marker t.name) (sectionsText sections ++ []) = none := by
    rw [strstr_sections h]
    exact if_neg hmarker
  rw [List.append_nil] at hnone
  rw [sectionStart, hnone]

theorem split_of_sectionOf {t : Tag} {found : List Char} (h : sectionOf sections t = some found) :
    ∃ pre s post, sections = pre ++ s :: post ∧ (∀ s' ∈ pre, s.tag ≠ s'.tag) ∧ s.tag = t ∧
      stripped s.output = found := by
  obtain ⟨s, hs, hfound⟩ := Option.map_eq_some_iff.mp h
  obtain ⟨htag, pre, post, hsplit, hpre⟩ := List.find?_eq_some_iff_append.mp hs
  have htag : s.tag = t := by simpa using htag
  refine ⟨pre, s, post, hsplit, fun s' hs' => ?_, htag, hfound⟩
  have := hpre s' hs'
  simp only [Bool.not_eq_true', decide_eq_false_iff_not] at this
  rw [htag]
  exact fun h => this h.symm

/-- With distinct tags every section is found by its own. -/
theorem sectionOf_mem (hdistinct : (sections.map Section.tag).Nodup) (hs : s ∈ sections) :
    sectionOf sections s.tag = some (stripped s.output) := by
  induction sections with
  | nil => cases hs
  | cons first sections ih =>
      obtain ⟨hfirst, hdistinct⟩ := List.nodup_cons.mp hdistinct
      rcases List.mem_cons.mp hs with rfl | hs
      · simp [sectionOf]
      · have hne : first.tag ≠ s.tag := fun h => hfirst (h ▸ List.mem_map_of_mem hs)
        have := ih hdistinct hs
        simpa [sectionOf, hne] using this

theorem not_mem_of_sectionOf {t : Tag} (h : sectionOf sections t = none) :
    ∀ s ∈ sections, t ≠ s.tag := by
  intro s hs htag
  have hnone := List.find?_eq_none.mp (Option.map_eq_none_iff.mp h) s hs
  simp [htag] at hnone

/-- What follows a section: nothing, or the marker of the next one. -/
def IsRest (rest : List Char) : Prop := rest = [] ∨ "==".toList <+: rest

theorem isRest_sectionsText (sections : List Section) : IsRest (sectionsText sections) := by
  cases sections with
  | nil => exact .inl rfl
  | cons s sections =>
      refine .inr ⟨s.tag.name ++ ("==".toList ++ ((if s.crlf then ['\r', '\n'] else ['\n']) ++
        (s.output ++ sectionsText sections))), ?_⟩
      simp [sectionsText, Section.text, Section.tagLine, marker_eq]

theorem IsRest.dropWhile {rest : List Char} (h : IsRest rest) : rest.dropWhile isEol = rest := by
  rcases h with rfl | ⟨tail, rfl⟩
  · rfl
  · exact List.dropWhile_cons_of_neg (by decide)

/-- Behind the marker come the output without its first line ends and the
sections after it. -/
theorem sectionStart_present (hpre : ∀ s' ∈ pre, s.tag ≠ s'.tag) :
    sectionStart (sectionsText (pre ++ s :: post)) s.tag.name =
      some (if s.output.dropWhile isEol = [] then sectionsText post
        else s.output.dropWhile isEol ++ sectionsText post) := by
  have htext : sectionsText (pre ++ s :: post) =
      sectionsText pre ++ (s.text ++ sectionsText post) := by
    simp [sectionsText]
  have hstart : strstr (marker s.tag.name) (s.text ++ sectionsText post) =
      some (s.text ++ sectionsText post) := by
    apply strstr_of_prefix
    rw [Section.text, Section.tagLine, List.append_assoc, List.append_assoc]
    exact List.prefix_append _ _
  have hdrop : (s.text ++ sectionsText post).drop (marker s.tag.name).length =
      (if s.crlf then ['\r', '\n'] else ['\n']) ++ (s.output ++ sectionsText post) := by
    rw [Section.text, Section.tagLine, List.append_assoc, List.append_assoc, List.drop_left]
  have heol : ∀ c ∈ (if s.crlf then ['\r', '\n'] else ['\n']), isEol c = true := by
    split <;> exact forall_mem_of_all (by decide)
  rw [sectionStart, htext, strstr_sections hpre, hstart]
  simp only [hdrop]
  rw [List.dropWhile_append_of_pos heol, List.dropWhile_append]
  split
  · rename_i hnil
    have hnil : s.output.dropWhile isEol = [] := by simpa using hnil
    rw [if_pos hnil, (isRest_sectionsText post).dropWhile]
  · rename_i hne
    have hne : s.output.dropWhile isEol ≠ [] := by simpa using hne
    rw [if_neg hne]

/-- The section of output without an equals sign. -/
def Section.plain (tag : Tag) (crlf : Bool) (output : List Char)
    (ended : output = [] ∨ output.getLast? = some '\n') (h : '=' ∉ output) : Section where
  tag := tag
  crlf := crlf
  output := output
  ended := ended
  noMarkerLine := by
    have hbody : '=' ∉ output.dropWhile isEol := fun hmem =>
      h ((List.dropWhile_suffix _).subset hmem)
    exact ⟨fun hin => hbody (hin.subset (by decide)), fun hin => hbody (hin.subset (by decide))⟩
  noMarker := fun t hin => h (hin.subset (by rw [marker_eq]; simp))

theorem noOutput_ended : ([] : List Char) = [] ∨ ([] : List Char).getLast? = some '\n' := .inl rfl

theorem noOutput_plain : '=' ∉ ([] : List Char) := List.not_mem_nil

end Found

/-! ## A section copied -/

section Copied

theorem stops_first {p : Char → Bool} {l r : List Char} {c : Char} (h : l.dropWhile p = c :: r) :
    p c = false := by
  have hhead := List.head?_dropWhile_not p l
  rw [h] at hhead
  simpa using hhead

variable {s : Section} {rest : List Char}

/-- Output that is not just line ends ends with a newline. -/
theorem Section.getLast?_body (s : Section) (hne : s.output.dropWhile isEol ≠ []) :
    (s.output.dropWhile isEol).getLast? = some '\n' := by
  rcases s.ended with hnil | hlast
  · rw [hnil] at hne
    exact absurd rfl hne
  · obtain ⟨front, hfront⟩ : s.output.dropWhile isEol <:+ s.output := List.dropWhile_suffix _
    rw [← hfront, List.getLast?_append_of_ne_nil _ hne] at hlast
    exact hlast

/-- Output does not start with the marker of another section. -/
theorem Section.not_marker (s : Section) (hne : s.output.dropWhile isEol ≠ []) (rest : List Char) :
    ¬ "==".toList <+: s.output.dropWhile isEol ++ rest := by
  intro h
  have hlast := s.getLast?_body hne
  obtain ⟨c, r, hbody⟩ := List.exists_cons_of_ne_nil hne
  have hc := stops_first hbody
  have hno := s.noMarkerLine.1
  rw [hbody] at h hlast hno
  cases r with
  | nil =>
      obtain rfl : c = '\n' := by simpa using hlast
      exact absurd hc (by decide)
  | cons d r =>
      exact hno (List.prefix_of_prefix_length_le h (List.prefix_append _ _) (by simp))

/-- The line end before the next marker is the first place where the search
for it succeeds. -/
theorem strstr_boundary {body : List Char} (hbody : ¬ "\n==".toList <:+: body)
    (hrest : rest = [] ∨ ∃ c r, rest = c :: r ∧ c ≠ '=') :
    strstr "\n==".toList (body ++ rest) = strstr "\n==".toList rest := by
  apply strstr_append
  rintro x y rfl hy hprefix
  by_cases hlen : 3 ≤ y.length
  · have hin : "\n==".toList <+: y :=
      List.prefix_of_prefix_length_le hprefix (List.prefix_append y rest) hlen
    exact hbody (List.infix_append_of_infix_right hin.isInfix)
  · -- the second or third character would be the first of the rest
    obtain ⟨z, hz⟩ := hprefix
    rcases hrest with rfl | ⟨c, r, rfl, hc⟩
    · have := congrArg List.length hz
      rw [List.length_append, List.append_nil] at this
      have hthree : "\n==".toList.length = 3 := by decide
      omega
    · match y, hy, hlen with
      | [a], _, _ =>
          obtain ⟨-, hc', -⟩ : '\n' = a ∧ '=' = c ∧ _ := by simpa using hz
          exact hc hc'.symm
      | [a, b], _, _ =>
          obtain ⟨-, -, hc', -⟩ : '\n' = a ∧ '=' = b ∧ '=' = c ∧ _ := by simpa using hz
          exact hc hc'.symm
      | _ :: _ :: _ :: _, _, hlen =>
          simp only [List.length_cons] at hlen
          omega

/-- **What is copied of a section that has output**, where the scratch area
may be too small for it. -/
theorem copySection_cut {scratch : Nat} (hne : s.output.dropWhile isEol ≠ []) (hscratch : 0 < scratch)
    (hrest : IsRest rest) : copySection scratch (s.output.dropWhile isEol ++ rest) =
      ((s.output.dropWhile isEol).take (scratch - 1)).rdropWhile isEol := by
  have hno := s.noMarkerLine.2
  have hlast := s.getLast?_body hne
  generalize s.output.dropWhile isEol = body at hno hlast ⊢
  rcases hrest with rfl | hrest
  · -- the last section: nothing is found, and nothing stops the copy
    have hlen : sectionLen (body ++ []) = body.length := by
      rw [sectionLen, List.append_nil, strstr_eq_none_iff.mpr hno]
    rw [copySection, hlen, List.append_nil]
    by_cases hfit : body.length ≥ scratch
    · rw [if_pos hfit]
    · rw [if_neg hfit, List.take_of_length_le le_rfl, List.take_of_length_le (by omega)]
  · obtain ⟨front, rfl⟩ : ∃ front, body = front ++ ['\n'] :=
      ⟨body.dropLast, (List.dropLast_append_getLast? '\n' hlast).symm⟩
    have hfront : ¬ "\n==".toList <:+: front := fun h =>
      hno (List.infix_append_of_infix_left h)
    have hfound : strstr "\n==".toList (front ++ '\n' :: rest) = some ('\n' :: rest) := by
      rw [strstr_boundary hfront (.inr ⟨'\n', rest, rfl, by decide⟩)]
      exact strstr_of_prefix (List.cons_prefix_cons.mpr ⟨rfl, hrest⟩)
    have htext : front ++ ['\n'] ++ rest = front ++ '\n' :: rest := by simp
    have hlen : sectionLen (front ++ '\n' :: rest) = front.length := by
      rw [sectionLen, hfound]
      simp
    rw [htext, copySection, hlen]
    by_cases hfit : front.length ≥ scratch
    · rw [if_pos hfit, List.take_append_of_le_length (by omega), List.take_append_of_le_length (by omega)]
    · -- the line end in front of the marker is not copied, or stripped
      have hall : (front ++ ['\n']).take (scratch - 1) = front ∨
          (front ++ ['\n']).take (scratch - 1) = front ++ ['\n'] := by
        by_cases hfull : front.length = scratch - 1
        · exact .inl (by rw [← hfull, List.take_left])
        · exact .inr (List.take_of_length_le (by rw [List.length_append, List.length_singleton]; omega))
      rw [if_neg hfit, List.take_left]
      rcases hall with hall | hall
      · rw [hall]
      · rw [hall]
        exact (List.rdropWhile_concat_pos _ _ _ (by decide)).symm

/-- A section that fits is copied whole. -/
theorem copySection_eq {scratch : Nat} (hne : s.output.dropWhile isEol ≠ [])
    (hfit : s.output.length < scratch) (hrest : IsRest rest) :
    copySection scratch (s.output.dropWhile isEol ++ rest) = stripped s.output := by
  have hshort : (s.output.dropWhile isEol).length ≤ s.output.length :=
    (List.dropWhile_suffix _).length_le
  rw [copySection_cut hne (by omega) hrest, List.take_of_length_le (by omega)]
  rfl

/-- A copy that starts with a letter is not empty. -/
theorem copySection_ne_nil {scratch : Nat} (hscratch : 1 < scratch) {c : Char} {r : List Char}
    (hc : isEol c = false) : copySection scratch (c :: r) ≠ [] := by
  have hlen : 1 ≤ sectionLen (c :: r) := by
    have hno : ¬ "\n==".toList <+: c :: r := by
      intro h
      obtain ⟨rfl, -⟩ : '\n' = c ∧ _ := List.cons_prefix_cons.mp h
      cases hc
    rw [sectionLen, strstr, if_neg hno]
    split
    · rename_i e he
      have := (strstr_suffix he).length_le
      rw [List.length_cons]
      omega
    · rw [List.length_cons]
      omega
  have htake : ∃ k, (if sectionLen (c :: r) ≥ scratch then scratch - 1 else sectionLen (c :: r)) =
      k + 1 := by
    split
    · exact ⟨scratch - 2, by omega⟩
    · exact ⟨sectionLen (c :: r) - 1, by omega⟩
  obtain ⟨k, hk⟩ := htake
  intro hnil
  rw [copySection, hk, List.take_succ_cons, List.rdropWhile_eq_nil_iff] at hnil
  rw [hnil c List.mem_cons_self] at hc
  cases hc

theorem stripped_eq_nil_iff {output : List Char} :
    stripped output = [] ↔ output.dropWhile isEol = [] := by
  rw [stripped, List.rdropWhile_eq_nil_iff]
  constructor
  · intro h
    by_contra hne
    obtain ⟨c, r, hc⟩ := List.exists_cons_of_ne_nil hne
    have hstop := stops_first hc
    rw [h c (hc ▸ List.mem_cons_self)] at hstop
    cases hstop
  · intro h c hc
    rw [h] at hc
    cases hc

end Copied

/-! ## The buffer -/

section Buffer

variable {size budget : Nat} {chunks : List (List Char × List Char)} {st : ProbeState}

/-- Chunks that fit together are all kept. -/
theorem appendProbeChunks_eq (hbudget : ∀ c ∈ chunks, c.1.length ≤ budget)
    (hfit : (st.buf ++ (chunks.map Prod.snd).flatten).length < size) :
    appendProbeChunks size budget st (chunks.map fun c => (c.1, some c.2)) =
      { st with buf := st.buf ++ (chunks.map Prod.snd).flatten, loaded := true } := by
  induction chunks generalizing st with
  | nil => simp [appendProbeChunks]
  | cons c chunks ih =>
      have hcmd := hbudget c List.mem_cons_self
      simp only [List.map_cons, List.flatten_cons, ← List.append_assoc] at hfit ⊢
      have hkeep : c.2.take (size - st.buf.length - 1) = c.2 := by
        apply List.take_of_length_le
        simp only [List.length_append] at hfit
        omega
      simp only [appendProbeChunks, appendProbeChunk, if_neg (Nat.not_lt.mpr hcmd), Option.map_some,
        hkeep]
      exact ih (fun c hc => hbudget c (List.mem_cons_of_mem _ hc)) hfit

/-- What `load_probe_data` leaves in the buffer. -/
theorem loadProbeData_eq {text : List Char} (st : ProbeState)
    (hbudget : ∀ c ∈ chunks, c.1.length ≤ budget) (htext : (chunks.map Prod.snd).flatten = text)
    (htotal : text.length < size) :
    loadProbeData size budget st (chunks.map fun c => (c.1, some c.2)) =
      { st with buf := text, loaded := true } := by
  rw [loadProbeData, appendProbeChunks_eq hbudget]
  · simp [htext]
  · rwa [List.nil_append, htext]

end Buffer

end MiuiserPeruser.Probe
