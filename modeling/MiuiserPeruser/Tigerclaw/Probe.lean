import MiuiserPeruser.Shredder.Probe

/-!
# tigerclawd — the sections of its probe (`tigerclawd.c`)

tigerclawd's copy of the section reader does not look whether the next
marker follows at once. A section without output then starts at the marker
of the next one, and what is returned for it is the next section, its tag
line included. So the reader is exact just for probes where every section
but the last has output (`probeSections_exact_iff`).
-/

namespace MiuiserPeruser.Tigerclaw

open CText Probe

/-- The sizes of `g_probe_buf` and of the scratch area. -/
def probeBufSize : Nat := 262144
def sectionScratchSize : Nat := 65536

/-- `TC_PROBE_CMD_BUDGET`. -/
def probeCmdBudget : Nat := 1450

/-- `probe_section`. -/
def probeSection (st : ProbeState) (tag : List Char) : Option (List Char) × ProbeState :=
  if !st.loaded then (none, st)
  else
    match sectionStart st.buf tag with
    | none => (none, st)
    | some start =>
        let text := copySection sectionScratchSize start
        (some text, { st with scratch := text })

/-- A sequence of reads. -/
def probeSections : ProbeState → List Tag → List (Option (List Char))
  | _, [] => []
  | st, tag :: tags =>
      (probeSection st tag.name).1 :: probeSections (probeSection st tag.name).2 tags

/-- `append_probe_chunk`. -/
def appendProbeChunk : ProbeState → List Char → Option (List Char) → Option ProbeState :=
  Probe.appendProbeChunk probeBufSize probeCmdBudget

/-- `load_probe_data`. -/
def loadProbeData : ProbeState → List (List Char × Option (List Char)) → ProbeState :=
  Probe.loadProbeData probeBufSize probeCmdBudget

/-- The reader is exact on these sections: in every order of reads each
returns the output of its own section, as shredderd's reader does. -/
structure Exact (sections : List Section) (st : ProbeState) : Prop where
  own : ∀ tags : List Tag, probeSections st tags = tags.map (sectionOf sections)
  agree : ∀ tag : Tag,
    (probeSection st tag.name).1 = (Shredder.probeSectionRaw st tag.name).1

section Probe

variable {sections pre post : List Section} {s : Section} {st : ProbeState}

/-- The section that is read has output, or is the last one. -/
theorem probeSection_full (hloaded : st.loaded = true)
    (hbuf : st.buf = sectionsText (pre ++ s :: post)) (hpre : ∀ s' ∈ pre, s.tag ≠ s'.tag)
    (hfit : s.output.length < sectionScratchSize) (h : stripped s.output ≠ [] ∨ post = []) :
    (probeSection st s.tag.name).1 = some (stripped s.output) := by
  unfold probeSection
  rw [hloaded, hbuf, sectionStart_present hpre]
  simp only [Bool.not_true, Bool.false_eq_true, if_false, Option.some.injEq]
  by_cases hempty : s.output.dropWhile isEol = []
  · rw [if_pos hempty, stripped_eq_nil_iff.mpr hempty]
    rcases h with h | rfl
    · exact absurd (stripped_eq_nil_iff.mpr hempty) h
    · rfl
  · rw [if_neg hempty]
    exact copySection_eq hempty hfit (isRest_sectionsText post)

/-- **A section without output, followed by another one, is not empty.** -/
theorem probeSection_empty (hloaded : st.loaded = true)
    (hbuf : st.buf = sectionsText (pre ++ s :: post)) (hpre : ∀ s' ∈ pre, s.tag ≠ s'.tag)
    (hempty : stripped s.output = []) (hpost : post ≠ []) :
    (probeSection st s.tag.name).1 ≠ some (stripped s.output) := by
  unfold probeSection
  rw [hloaded, hbuf, sectionStart_present hpre, if_pos (stripped_eq_nil_iff.mp hempty)]
  simp only [Bool.not_true, Bool.false_eq_true, if_false, ne_eq, Option.some.injEq, hempty]
  -- the copy starts at the marker of the next section
  rcases isRest_sectionsText post with hnil | ⟨tail, htail⟩
  · obtain ⟨next, post, rfl⟩ := List.exists_cons_of_ne_nil hpost
    simp [sectionsText, Section.text, Section.tagLine, marker_eq] at hnil
  · rw [← htail]
    exact copySection_ne_nil (by decide) (by decide)

/-- A read changes the scratch area alone. -/
theorem probeSection_keeps (st : ProbeState) (tag : List Char) :
    (probeSection st tag).2.buf = st.buf ∧ (probeSection st tag).2.loaded = st.loaded := by
  unfold probeSection
  split
  · exact ⟨rfl, rfl⟩
  · split <;> exact ⟨rfl, rfl⟩

/-- **When tigerclawd's section reader is exact.** -/
theorem probeSections_exact_iff {sections : List Section}
    (hdistinct : (sections.map Section.tag).Nodup)
    (htotal : (sectionsText sections).length < probeBufSize)
    (hfit : ∀ s ∈ sections, s.output.length < sectionScratchSize)
    {chunks : List (List Char × List Char)} (hbudget : ∀ c ∈ chunks, c.1.length ≤ probeCmdBudget)
    (htext : (chunks.map Prod.snd).flatten = sectionsText sections) (st : ProbeState) :
    Exact sections (loadProbeData st (chunks.map fun c => (c.1, some c.2))) ↔
      ∀ s ∈ sections.dropLast, stripped s.output ≠ [] := by
  rw [loadProbeData, Probe.loadProbeData_eq st hbudget htext htotal]
  constructor
  · intro h s hs hempty
    obtain ⟨pre, post, hsplit⟩ := List.append_of_mem hs
    have hne : sections ≠ [] := by
      rintro rfl
      cases hs
    have hsections : sections = pre ++ s :: (post ++ [sections.getLast hne]) := by
      rw [← List.cons_append, ← List.append_assoc, ← hsplit, List.dropLast_append_getLast hne]
    have hpre : ∀ s' ∈ pre, s.tag ≠ s'.tag := by
      intro s' hs' htag
      rw [hsections, List.map_append, List.map_cons] at hdistinct
      exact (List.nodup_append.mp hdistinct).2.2 _ (List.mem_map_of_mem hs') _
        List.mem_cons_self htag.symm
    have hread := h.own [s.tag]
    have hfound := sectionOf_mem hdistinct (List.dropLast_subset _ hs)
    simp only [probeSections, List.map_cons, List.map_nil, hfound, List.cons.injEq, and_true] at hread
    have hpost : post ++ [sections.getLast hne] ≠ [] := by simp
    exact probeSection_empty rfl (congrArg sectionsText hsections) hpre hempty hpost hread
  · intro hfull
    have hread : ∀ st : ProbeState, st.loaded = true → st.buf = sectionsText sections →
        ∀ tag : Tag, (probeSection st tag.name).1 = sectionOf sections tag := by
      intro st hloaded hbuf tag
      cases hfound : sectionOf sections tag with
      | none =>
          unfold probeSection
          rw [hloaded, hbuf, sectionStart_absent (not_mem_of_sectionOf hfound)]
          rfl
      | some found =>
          obtain ⟨pre, s, post, hsplit, hpre, rfl, rfl⟩ := split_of_sectionOf hfound
          have hmem : s ∈ sections := by simp [hsplit]
          refine probeSection_full hloaded (by rw [hbuf, hsplit]) hpre (hfit s hmem) ?_
          cases post with
          | nil => exact .inr rfl
          | cons next post =>
              refine .inl (hfull s ?_)
              simp [hsplit, List.dropLast_cons_cons]
    have hrun : ∀ (tags : List Tag) (st : ProbeState), st.loaded = true →
        st.buf = sectionsText sections → probeSections st tags = tags.map (sectionOf sections) := by
      intro tags
      induction tags with
      | nil => exact fun _ _ _ => rfl
      | cons tag tags ih =>
          intro st hloaded hbuf
          obtain ⟨hkeep, hstill⟩ := probeSection_keeps st tag.name
          rw [probeSections, List.map_cons, hread st hloaded hbuf tag,
            ih _ (hstill.trans hloaded) (hkeep.trans hbuf)]
    refine ⟨fun tags => hrun tags _ rfl rfl, fun tag => ?_⟩
    rw [hread _ rfl rfl tag, (Shredder.probeSectionRaw_eq rfl rfl hfit tag).1]

/-- A device without MIUI: its version name has no output. -/
def hyperOs1 : Section :=
  .plain ⟨"HYPEROS1".toList, forall_mem_of_all (by decide), by decide⟩ false [] noOutput_ended noOutput_plain

def hyperOs2 : Section :=
  .plain ⟨"HYPEROS2".toList, forall_mem_of_all (by decide), by decide⟩ false "OS2.0\n".toList
    (.inr (by decide)) (by decide)

theorem sections_fit : ∀ s ∈ [hyperOs2, hyperOs1], s.output.length < sectionScratchSize := by
  simp only [List.forall_mem_cons, List.not_mem_nil, false_implies, implies_true, and_true]
  decide

/-- With the empty section at the end the reader is exact. -/
theorem probeSections_exact_iff_last :
    Exact [hyperOs2, hyperOs1] (loadProbeData ⟨[], false, []⟩
      [("echo ==HYPEROS2==;".toList, some (sectionsText [hyperOs2, hyperOs1]))]) := by
  have htotal : (sectionsText [hyperOs2, hyperOs1]).length < probeBufSize := by decide +kernel
  have hbudget : ∀ c ∈ [("echo ==HYPEROS2==;".toList, sectionsText [hyperOs2, hyperOs1])],
      c.1.length ≤ probeCmdBudget := by
    simp only [List.forall_mem_cons, List.not_mem_nil, false_implies, implies_true, and_true]
    decide
  have hdistinct : ([hyperOs2, hyperOs1].map Section.tag).Nodup := by decide
  refine (probeSections_exact_iff hdistinct htotal sections_fit hbudget (by simp) _).mpr ?_
  intro s hs
  obtain rfl : s = hyperOs2 := by simpa using hs
  decide +kernel

/-- A section without output is answered with the section after it, tag
line and all. -/
theorem empty_section_absorbs_next :
    (probeSection ⟨sectionsText [hyperOs1, hyperOs2], true, []⟩ hyperOs1.tag.name).1 =
        some "==HYPEROS2==\nOS2.0".toList ∧
      ¬ Exact [hyperOs1, hyperOs2] (loadProbeData ⟨[], false, []⟩
        [("echo ==HYPEROS1==;".toList, some (sectionsText [hyperOs1, hyperOs2]))]) := by
  refine ⟨by decide +kernel, fun h => ?_⟩
  have hread := h.own [hyperOs1.tag]
  exact absurd hread (by decide +kernel)

end Probe

end MiuiserPeruser.Tigerclaw
