import MiuiserPeruser.Lib.LineTokens
import MiuiserPeruser.Probe.Sections

/-!
# shredderd — the sections of its probe (`shredderd.c`)

shredderd's copy of the section reader: it looks for the marker of the next
section before it copies, so an empty section is empty, and it copies into
the caller's buffer at once, so no read depends on the ones before it
(`probeCopies_exact`).
-/

namespace MiuiserPeruser.Shredder

open CText Probe

/-- `SD_PROBE_BUF_SIZE`, `SD_PROBE_CMD_BUDGET` and `SD_SECTION_SCRATCH_SIZE`. -/
def probeBufSize : Nat := 131072
def probeCmdBudget : Nat := 1450
def sectionScratchSize : Nat := 65536

/-- `probe_section_raw`. -/
def probeSectionRaw (st : ProbeState) (tag : List Char) : Option (List Char) × ProbeState :=
  if !st.loaded then (none, st)
  else
    match sectionStart st.buf tag with
    | none => (none, st)
    | some start =>
        let text := if start.take 2 = "==".toList then [] else copySection sectionScratchSize start
        (some text, { st with scratch := text })

/-- `probe_copy`: the string in the caller's buffer. -/
def probeCopy (st : ProbeState) (tag : List Char) (bufsize : Nat) : List Char × ProbeState :=
  match probeSectionRaw st tag with
  | (none, st) => ([], st)
  | (some v, st) => (v.take (bufsize - 1), st)

/-- A sequence of calls of `probe_copy`. -/
def probeCopies : ProbeState → List (Tag × Nat) → List (List Char)
  | _, [] => []
  | st, (tag, bufsize) :: calls =>
      (probeCopy st tag.name bufsize).1 :: probeCopies (probeCopy st tag.name bufsize).2 calls

/-- `append_probe_chunk`. -/
def appendProbeChunk : ProbeState → List Char → Option (List Char) → Option ProbeState :=
  Probe.appendProbeChunk probeBufSize probeCmdBudget

/-- `load_probe_data`. -/
def loadProbeData : ProbeState → List (List Char × Option (List Char)) → ProbeState :=
  Probe.loadProbeData probeBufSize probeCmdBudget

section Probe

variable {sections : List Section}

/-- A section that starts with the next marker is empty. -/
theorem take_two_eq {start : List Char} : start.take 2 = "==".toList ↔ "==".toList <+: start := by
  rw [List.prefix_iff_eq_take]
  exact eq_comm

/-- **One read.** -/
theorem probeSectionRaw_eq {st : ProbeState} (hloaded : st.loaded = true)
    (hbuf : st.buf = sectionsText sections)
    (hfit : ∀ s ∈ sections, s.output.length < sectionScratchSize) (t : Tag) :
    (probeSectionRaw st t.name).1 = sectionOf sections t ∧
      (probeSectionRaw st t.name).2.buf = st.buf ∧ (probeSectionRaw st t.name).2.loaded = true := by
  unfold probeSectionRaw
  rw [hloaded, hbuf]
  simp only [Bool.not_true, Bool.false_eq_true, if_false]
  cases hfound : sectionOf sections t with
  | none =>
      rw [sectionStart_absent (not_mem_of_sectionOf hfound)]
      exact ⟨rfl, hbuf, hloaded⟩
  | some found =>
      obtain ⟨pre, s, post, rfl, hpre, rfl, rfl⟩ := split_of_sectionOf hfound
      rw [sectionStart_present hpre]
      refine ⟨congrArg some ?_, rfl, rfl⟩
      by_cases hempty : s.output.dropWhile isEol = []
      · rw [if_pos hempty, stripped_eq_nil_iff.mpr hempty]
        split
        · rfl
        · rename_i hno
          rcases isRest_sectionsText post with hnil | hnext
          · rw [hnil]
            rfl
          · exact absurd (take_two_eq.mpr hnext) hno
      · have hno := mt take_two_eq.mp (s.not_marker hempty (sectionsText post))
        rw [if_neg hempty, if_neg hno]
        exact copySection_eq hempty (hfit s (by simp)) (isRest_sectionsText post)

/-- **shredderd's section reader is exact.** However the sections were cut
into chunks, every call of every sequence of calls returns its own section,
cut to the caller's buffer, and nothing for a tag without section. -/
theorem probeCopies_exact {sections : List Section}
    (htotal : (sectionsText sections).length < probeBufSize)
    (hfit : ∀ s ∈ sections, s.output.length < sectionScratchSize)
    {chunks : List (List Char × List Char)} (hbudget : ∀ c ∈ chunks, c.1.length ≤ probeCmdBudget)
    (htext : (chunks.map Prod.snd).flatten = sectionsText sections) (st : ProbeState)
    (calls : List (Tag × Nat)) :
    probeCopies (loadProbeData st (chunks.map fun c => (c.1, some c.2))) calls =
      calls.map fun (tag, bufsize) => ((sectionOf sections tag).getD []).take (bufsize - 1) := by
  rw [loadProbeData, Probe.loadProbeData_eq st hbudget htext htotal]
  -- what is read before changes the scratch area alone
  have hrun : ∀ st : ProbeState, st.loaded = true → st.buf = sectionsText sections →
      probeCopies st calls =
        calls.map fun (tag, bufsize) => ((sectionOf sections tag).getD []).take (bufsize - 1) := by
    induction calls with
    | nil => exact fun _ _ _ => rfl
    | cons call calls ih =>
        intro st hloaded hbuf
        obtain ⟨tag, bufsize⟩ := call
        obtain ⟨htext, hkeep, hstill⟩ := probeSectionRaw_eq hloaded hbuf hfit tag
        have hcopy : (probeCopy st tag.name bufsize).1 =
              ((sectionOf sections tag).getD []).take (bufsize - 1) ∧
            (probeCopy st tag.name bufsize).2 = (probeSectionRaw st tag.name).2 := by
          unfold probeCopy
          rw [← htext]
          split
          · rename_i h
            simp [h]
          · rename_i h
            simp [h]
        rw [probeCopies, List.map_cons, hcopy.1, hcopy.2, ih _ hstill (hkeep.trans hbuf)]
  exact hrun _ rfl rfl

/-! ## The lines of a section -/

/-- The text is what the probe holds for the tag; the scratch area takes in
65535 bytes of it. -/
def Delivers (p : ProbeState) (tag : String) (text : List Char) : Prop :=
  (probeSectionRaw p tag.toList).1 = some ((text.take (sectionScratchSize - 1)).rdropWhile isEol)

/-- The section of a tag is delivered, however long it is. -/
theorem delivers_of_sections {st : ProbeState} (hloaded : st.loaded = true) {pre post : List Section}
    {s : Section} (hbuf : st.buf = sectionsText (pre ++ s :: post)) (hpre : ∀ s' ∈ pre, s.tag ≠ s'.tag)
    {tag : String} (htag : s.tag.name = tag.toList) {c : Char} {rest : List Char}
    (houtput : s.output = c :: rest) (hc : isEol c = false) : Delivers st tag s.output := by
  have hbody : s.output.dropWhile isEol = s.output := by
    rw [houtput]
    exact List.dropWhile_cons_of_neg (by simp [hc])
  have hne : s.output.dropWhile isEol ≠ [] := by
    rw [hbody, houtput]
    exact List.cons_ne_nil _ _
  have hno := mt take_two_eq.mp (s.not_marker hne (sectionsText post))
  have hcut := copySection_cut hne (by decide : 0 < sectionScratchSize) (isRest_sectionsText post)
  unfold Delivers probeSectionRaw
  rw [hloaded, hbuf, ← htag, sectionStart_present hpre, if_neg hne]
  rw [hbody] at hno hcut
  simp only [Bool.not_true, Bool.false_eq_true, if_false, hbody, if_neg hno, hcut]

section Lines

variable {p : ProbeState} {tag : String} {lines : List (List Char)}

/-- Stripping a text cuts off line ends alone. -/
theorem rdropWhile_isEol_split {s : List Char} (h : '\r' ∉ s) :
    ∃ w : List Char, (∀ c ∈ w, c = '\n') ∧ s.rdropWhile isEol ++ w = s := by
  refine ⟨s.rtakeWhile isEol, ?_, List.rdropWhile_append_rtakeWhile⟩
  intro c hc
  have heol : c = '\r' ∨ c = '\n' := by simpa [isEol] using List.mem_rtakeWhile_imp hc
  refine heol.resolve_left ?_
  rintro rfl
  exact h ((List.rtakeWhile_suffix isEol s).subset hc)

/-- **The lines a caller of `probe_copy` finds**: those of the printed text
that are in the caller's buffer. -/
theorem lineTokens_probeCopy (hlines : ∀ l ∈ lines, IsLine l ∧ '\r' ∉ l)
    (h : Delivers p tag (textLines lines)) {bufsize : Nat} (hsize : bufsize ≤ sectionScratchSize) :
    lineTokens (probeCopy p tag.toList bufsize).1 = cutTextLines (bufsize - 1) lines := by
  have hcopy : (probeCopy p tag.toList bufsize).1 =
      (((textLines lines).take (sectionScratchSize - 1)).rdropWhile isEol).take (bufsize - 1) := by
    unfold probeCopy
    rw [Delivers] at h
    split
    · rename_i hnone
      rw [hnone] at h
      exact absurd h nofun
    · rename_i v st hsome
      rw [hsome] at h
      rw [Option.some.inj h]
  have hcr : '\r' ∉ (textLines lines).take (sectionScratchSize - 1) := by
    intro hmem
    obtain ⟨l, hl, hr⟩ := List.mem_flatMap.mp (List.mem_of_mem_take hmem)
    rcases List.mem_append.mp hr with hr | hr
    · exact (hlines l hl).2 hr
    · exact absurd (List.mem_singleton.mp hr) (by decide)
  obtain ⟨w, hw, hsplit⟩ := rdropWhile_isEol_split hcr
  have hmore : ((textLines lines).take (sectionScratchSize - 1)).take (bufsize - 1) =
      (((textLines lines).take (sectionScratchSize - 1)).rdropWhile isEol).take (bufsize - 1) ++
        w.take (bufsize - 1 - (((textLines lines).take (sectionScratchSize - 1)).rdropWhile isEol).length) := by
    rw [← List.take_append, hsplit]
  rw [hcopy, ← lineTokens_newlines fun c hc => hw c (List.mem_of_mem_take hc), ← hmore, List.take_take,
    min_eq_left (by omega)]
  exact lineTokens_take (fun l hl => (hlines l hl).1) _

end Lines

/-- `SUCHECK` of a device that is not rooted has no output. -/
def suCheck : Section :=
  .plain ⟨"SUCHECK".toList, forall_mem_of_all (by decide), by decide⟩ true [] (.inl rfl) (by decide)

def vbState : Section :=
  .plain ⟨"VBSTATE".toList, forall_mem_of_all (by decide), by decide⟩ true "green\r\n".toList
    (.inr (by decide)) (by decide)

/-- Two sections in one chunk, read in the other order and one of them twice. -/
theorem probeCopies_exact_unrooted :
    probeCopies (loadProbeData ⟨[], false, []⟩
        [("echo ==SUCHECK==;".toList, some (sectionsText [suCheck, vbState]))])
      [(vbState.tag, 64), (suCheck.tag, 64), (vbState.tag, 4)] =
        ["green".toList, [], "gre".toList] := by
  have htotal : (sectionsText [suCheck, vbState]).length < probeBufSize := by decide +kernel
  have hfit : ∀ s ∈ [suCheck, vbState], s.output.length < sectionScratchSize := by
    simp only [List.forall_mem_cons, List.not_mem_nil, false_implies, implies_true, and_true]
    decide
  have hbudget : ∀ c ∈ [("echo ==SUCHECK==;".toList, sectionsText [suCheck, vbState])],
      c.1.length ≤ probeCmdBudget := by
    simp only [List.forall_mem_cons, List.not_mem_nil, false_implies, implies_true, and_true]
    decide
  have h := probeCopies_exact htotal hfit hbudget (by simp) ⟨[], false, []⟩
    [(vbState.tag, 64), (suCheck.tag, 64), (vbState.tag, 4)]
  exact h.trans (by decide +kernel)

end Probe

end MiuiserPeruser.Shredder
