import MiuiserPeruser.Bexec.Batch

/-!
# backend_exec — cutting up the output of a batch

`bexec_batch` finds the next output by searching for its marker. A marker
begins as it ends, with two underscores, so an output that ends in the rest
of the next marker makes one together with the marker itself, in front of
it. Outputs without markers are cut up exactly unless one of them does
(`split_exact_iff`).

From a text that is cut off nothing foreign gets into a result unless the
cut goes through a marker: the part in front of the cut is then taken for
output (`cut_split_iff`).
-/

namespace MiuiserPeruser.Bexec

open CText
open Probe (isEol stripped)

/-! ## Outputs -/

/-- What the commands print together, from the `i`-th marker on. -/
def batchText : Nat → List (List Char) → List Char
  | _, [] => []
  | i, out :: outs => marker i ++ '\n' :: (out ++ batchText (i + 1) outs)

/-- No marker of a batch stands in an output. -/
def MarkerFree (out : List Char) : Prop := ∀ k < maxBatch, ¬ marker k <:+: out

/-- A marker without its last underscores. -/
def stem (k : Nat) : List Char := "__BX_".toList ++ decimal k

/-- The output ends in what the underscores of the next marker complete to
another one. -/
def RunsInto (k : Nat) (out : List Char) : Prop := stem k <:+ out ∨ stem k ++ ['_'] <:+ out

/-- No output runs into the marker of the next, from the `i`-th on. -/
def Separate : Nat → List (List Char) → Prop
  | _, [] => True
  | _, [_] => True
  | i, out :: next :: outs => ¬ RunsInto (i + 1) out ∧ Separate (i + 1) (next :: outs)

/-- The text ends inside a marker, and it is not the first. -/
def EndsInside (i : Nat) (outs : List (List Char)) (text : List Char) : Prop :=
  ∃ j w, 0 < j ∧ j < outs.length ∧ text = batchText i (outs.take j) ++ w ∧
    w <+: marker (i + j) ∧ w ≠ [] ∧ w ≠ marker (i + j)

/-- The text goes on behind an output that runs into the next marker. -/
def RunsOn (i : Nat) (outs : List (List Char)) (text : List Char) : Prop :=
  ∃ j out w, outs[j]? = some out ∧ RunsInto (i + j + 1) out ∧
    text = batchText i (outs.take (j + 1)) ++ w ∧ w ≠ []

/-- A result holds nothing but what its command printed. -/
def Own (r : ResultPtr) (out : List Char) : Prop :=
  r = .null ∨ ∃ s, r = .string s ∧ s <+: out.dropWhile isEol

/-! ## Markers -/

section Marker

variable {k : Nat}

theorem marker_eq_stem (hk : k < maxBatch) : marker k = stem k ++ ['_', '_'] := by
  have h : ∀ k < maxBatch, marker k = stem k ++ ['_', '_'] := by decide
  exact h k hk

/-- The third letter of a marker does not come again. -/
theorem marker_eq_letters (hk : k < maxBatch) :
    ∃ t, marker k = ['_', '_'] ++ 'B' :: t ∧ 'B' ∉ t := by
  have h : ∀ k < maxBatch, marker k = ['_', '_'] ++ 'B' :: (marker k).drop 3 ∧
      'B' ∉ (marker k).drop 3 := by decide
  exact ⟨_, h k hk⟩

theorem marker_ne_nil (hk : k < maxBatch) : marker k ≠ [] := by
  rw [marker_eq_stem hk]
  simp

theorem isEol_marker (hk : k < maxBatch) : ∀ c ∈ marker k, isEol c = false := by
  have h : ∀ k < maxBatch, ((marker k).all fun c => decide (isEol c = false)) = true := by decide
  exact forall_mem_of_all (h k hk)

theorem isEol_stem (hk : k < maxBatch) : ∀ c ∈ stem k, isEol c = false := by
  intro c hc
  refine isEol_marker hk c ?_
  rw [marker_eq_stem hk]
  exact List.mem_append_left _ hc

theorem length_marker_le {j : Nat} (hkj : k ≤ j) (hj : j < maxBatch) :
    (marker k).length ≤ (marker j).length := by
  have h : ∀ j < maxBatch, ∀ k ≤ j, (marker k).length ≤ (marker j).length := by decide
  exact h j hj k hkj

/-- A marker that begins in an output and ends in the next marker: the
output ends in the rest of it. -/
theorem not_begins {out y b r : List Char} (hk : k < maxBatch) (hfree : ¬ marker k <:+: out)
    (hruns : ¬ RunsInto k out) (hsuffix : y <:+ out) (hy : y ≠ []) (hb : b <+: marker k ++ r) :
    ¬ marker k <+: y ++ b := by
  intro h
  obtain ⟨t, ht, hB⟩ := marker_eq_letters hk
  rw [ht] at h hb
  rcases prefix_append_overlap hB hy hb h with hin | ⟨z, hz, hshort⟩
  · rw [← ht] at hin
    exact hfree (hin.isInfix.trans hsuffix.isInfix)
  · rw [← ht, marker_eq_stem hk] at hz
    have hlength := congrArg List.length hz
    simp only [List.length_append, List.length_cons, List.length_nil] at hlength hshort
    -- one, two or no underscores of the marker are missing
    have hfront : y = (stem k ++ ['_', '_']).take y.length := by
      rw [hz, List.take_left]
    have hcases : y.length = (stem k).length ∨ y.length = (stem k).length + 1 ∨
        y.length = (stem k).length + 2 := by
      omega
    rcases hcases with hnone | hone | htwo
    · rw [hnone, List.take_left] at hfront
      exact hruns (.inl (hfront ▸ hsuffix))
    · rw [hone, List.take_append, List.take_of_length_le (by omega), Nat.add_sub_cancel_left,
        List.take_succ_cons, List.take_zero] at hfront
      exact hruns (.inr (hfront ▸ hsuffix))
    · rw [htwo, List.take_of_length_le (by simp), ← marker_eq_stem hk] at hfront
      exact hfree (hfront ▸ hsuffix.isInfix)

/-- What an output ends with that runs into the next marker. -/
theorem RunsInto.ending {out : List Char} (h : RunsInto k out) (hk : k < maxBatch) :
    ∃ e, e ≠ [] ∧ e <:+ out ∧ (∀ c ∈ e, isEol c = false) ∧
      ∀ next, marker k <+: next → marker k <+: e ++ next := by
  obtain ⟨t, ht, -⟩ := marker_eq_letters hk
  have hstem := isEol_stem hk
  have hne : stem k ≠ [] := by
    rw [stem]
    exact List.cons_ne_nil _ _
  rcases h with hend | hend
  · refine ⟨_, hne, hend, hstem, fun next hnext => ?_⟩
    rw [marker_eq_stem hk, List.prefix_append_right_inj]
    rw [ht] at hnext
    exact (List.prefix_append _ _).trans hnext
  · refine ⟨_, List.append_ne_nil_of_left_ne_nil hne _, hend, fun c hc => ?_, fun next hnext => ?_⟩
    · rcases List.mem_append.mp hc with hc | hc
      · exact hstem c hc
      · rw [List.mem_singleton.mp hc]
        decide
    · have hsplit : stem k ++ ['_', '_'] = stem k ++ ['_'] ++ ['_'] := by simp
      rw [marker_eq_stem hk, hsplit, List.prefix_append_right_inj]
      rw [ht] at hnext
      exact (List.cons_prefix_cons.mpr ⟨rfl, List.nil_prefix⟩).trans hnext

/-- The next marker is found where it stands. -/
theorem strstr_body {out body b r : List Char} (hk : k < maxBatch) (hfree : ¬ marker k <:+: out)
    (hruns : ¬ RunsInto k out) (hbody : body <:+ out) (hb : b <+: marker k ++ r) :
    strstr (marker k) (body ++ b) = strstr (marker k) b := by
  apply strstr_append
  rintro x y rfl hy
  exact not_begins hk hfree hruns ((List.suffix_append x y).trans hbody) hy hb

end Marker

/-! ## One turn of the loop -/

section Turn

variable {i n : Nat} {body out next r cursor : List Char}

theorem suffix_dropWhile {e s : List Char} (he : ∀ c ∈ e, isEol c = false) (h : e <:+ s) :
    e <:+ s.dropWhile isEol := by
  induction s with
  | nil => exact h
  | cons c s ih =>
      cases hc : isEol c with
      | false =>
          rw [List.dropWhile_cons_of_neg (by rw [hc]; exact Bool.false_ne_true)]
          exact h
      | true =>
          rw [List.dropWhile_cons_of_pos hc]
          rcases List.suffix_cons_iff.mp h with rfl | h
          · rw [he c List.mem_cons_self] at hc
            cases hc
          · exact ih h

/-- What does not end in a line end keeps its length. -/
theorem rdropWhile_eol_of_suffix {e s : List Char} (hne : e ≠ []) (he : ∀ c ∈ e, isEol c = false)
    (h : e <:+ s) : s.rdropWhile isEol = s := by
  obtain ⟨f, rfl⟩ := h
  refine List.rdropWhile_eq_self_iff.mpr fun hl => ?_
  rw [List.getLast_append_of_ne_nil hl hne, he _ (List.getLast_mem hne)]
  exact Bool.false_ne_true

theorem dropWhile_eol_append (out : List Char) (hnext : ∀ c r, next = c :: r → isEol c = false) :
    ('\n' :: (out ++ next)).dropWhile isEol = out.dropWhile isEol ++ next := by
  have hnl : isEol '\n' = true := by decide
  rw [List.dropWhile_cons_of_pos hnl, dropWhile_append_rest hnext]

theorem stripped_newline (out : List Char) : stripped ('\n' :: out) = stripped out := by
  have hnl : isEol '\n' = true := by decide
  unfold stripped
  rw [List.dropWhile_cons_of_pos hnl]

/-- No marker is found any more. -/
theorem splitLoop_none (h : ∀ k, i ≤ k → k < i + n → ¬ marker k <:+: cursor) :
    splitLoop i n cursor = List.replicate n none := by
  induction n generalizing i with
  | zero => rfl
  | succ n ih =>
      rw [splitLoop, strstr_eq_none_iff.mpr (h i (Nat.le_refl i) (by omega))]
      simp only
      rw [ih fun k hik hkn => h k (by omega) (by omega), List.replicate_succ]

/-- The last marker in the text: all behind it is the result. -/
theorem splitLoop_open
    (hstop : n = 0 ∨ strstr (marker (i + 1)) (body.dropWhile isEol) = none) :
    splitLoop i (n + 1) (marker i ++ body) = some (stripped body) ::
      splitLoop (i + 1) n ((body.dropWhile isEol).drop (stripped body).length) := by
  have hstop' : (if n = 0 then none else strstr (marker (i + 1)) (body.dropWhile isEol)) = none := by
    rcases hstop with hzero | hnone
    · rw [if_pos hzero]
    · rw [hnone, ite_self]
  rw [splitLoop, strstr_of_prefix (List.prefix_append _ body)]
  simp only [List.drop_left, hstop', List.take_length, Option.getD_none]
  rfl

/-- The next marker follows: the result is what stands in front of it. -/
theorem splitLoop_next (hn : n ≠ 0)
    (hstop : strstr (marker (i + 1)) (body.dropWhile isEol) = some next) :
    splitLoop i (n + 1) (marker i ++ body) =
      some (((body.dropWhile isEol).take ((body.dropWhile isEol).length - next.length)).rdropWhile
        isEol) :: splitLoop (i + 1) n next := by
  rw [splitLoop, strstr_of_prefix (List.prefix_append _ body)]
  simp only [List.drop_left, if_neg hn, hstop, Option.getD_some]

theorem isEol_marker_head (hi : i < maxBatch) (hb : next <+: marker i ++ r) :
    ∀ c r', next = c :: r' → isEol c = false := by
  rintro c r' rfl
  obtain ⟨d, m, hm⟩ := List.exists_cons_of_ne_nil (marker_ne_nil hi)
  rw [hm, List.cons_append, List.cons_prefix_cons] at hb
  rw [hb.1]
  exact isEol_marker hi d (hm ▸ List.mem_cons_self)

/-- An output that does not run into the next marker is found as it is, and
the loop goes on at that marker. -/
theorem splitLoop_separate (hi : i + 1 < maxBatch) (hn : n ≠ 0) (hfree : MarkerFree out)
    (hruns : ¬ RunsInto (i + 1) out) (hnext : marker (i + 1) <+: next) :
    splitLoop i (n + 1) (marker i ++ '\n' :: (out ++ next)) =
      some (stripped out) :: splitLoop (i + 1) n next := by
  obtain ⟨r, rfl⟩ := hnext
  have hstart := dropWhile_eol_append out
    (isEol_marker_head hi (List.prefix_refl (marker (i + 1) ++ r)))
  have hstop : strstr (marker (i + 1)) (out.dropWhile isEol ++ (marker (i + 1) ++ r)) =
      some (marker (i + 1) ++ r) := by
    rw [strstr_body hi (hfree _ hi) hruns (List.dropWhile_suffix _) (List.prefix_refl _),
      strstr_of_prefix (List.prefix_append _ r)]
  rw [splitLoop_next hn (by rw [hstart]; exact hstop), hstart, List.length_append,
    Nat.add_sub_cancel, List.take_left]
  rfl

/-- An output that does run into it loses its end. -/
theorem splitLoop_runsInto (hi : i + 1 < maxBatch) (hn : n ≠ 0)
    (hruns : RunsInto (i + 1) out) (hnext : marker (i + 1) <+: next) :
    (splitLoop i (n + 1) (marker i ++ '\n' :: (out ++ next))).head? ≠
      some (some (stripped out)) := by
  obtain ⟨e, hne, hend, heol, hearly⟩ := hruns.ending hi
  obtain ⟨f, hf⟩ := suffix_dropWhile heol hend
  have hstripped : stripped out = f ++ e := by
    rw [stripped, rdropWhile_eol_of_suffix hne heol (suffix_dropWhile heol hend), hf]
  have hmarker := hearly next hnext
  obtain ⟨r, rfl⟩ := hnext
  have hstart := dropWhile_eol_append out
    (isEol_marker_head hi (List.prefix_refl (marker (i + 1) ++ r)))
  rw [← hf, List.append_assoc] at hstart
  -- the marker is found in the end of the output, or still before it
  obtain ⟨found, hfound, hlong⟩ := strstr_found hmarker f
  rw [splitLoop_next hn (by rw [hstart]; exact hfound), List.head?_cons, hstart, hstripped]
  intro h
  have hresult := Option.some.inj (Option.some.inj h)
  have hlength := congrArg List.length hresult
  have hshort := (List.rdropWhile_prefix isEol
    ((f ++ (e ++ (marker (i + 1) ++ r))).take
      ((f ++ (e ++ (marker (i + 1) ++ r))).length - found.length))).length_le
  have hepos := List.length_pos_iff.mpr hne
  simp only [List.length_append, List.length_take] at hlength hshort hlong
  omega

end Turn

/-! ## Exact cuts -/

theorem splitLoop_exact_iff {outs : List (List Char)} (hfree : ∀ out ∈ outs, MarkerFree out)
    {i : Nat} (hi : i + outs.length ≤ maxBatch) :
    splitLoop i outs.length (batchText i outs) = outs.map (fun out => some (stripped out)) ↔
      Separate i outs := by
  induction outs generalizing i with
  | nil => exact iff_of_true rfl trivial
  | cons out outs ih =>
      have hout := hfree out List.mem_cons_self
      rw [List.length_cons] at hi
      cases outs with
      | nil =>
          rw [batchText, batchText, List.append_nil, List.length_singleton, List.map_singleton,
            splitLoop_open (.inl rfl), stripped_newline]
          exact iff_of_true rfl trivial
      | cons next outs =>
          have hcount : (next :: outs).length ≠ 0 := Nat.succ_ne_zero _
          have hi' : i + 1 < maxBatch := by omega
          have hnext : marker (i + 1) <+: batchText (i + 1) (next :: outs) := List.prefix_append _ _
          by_cases hruns : RunsInto (i + 1) out
          · refine iff_of_false (fun h => ?_) fun h => h.1 hruns
            refine splitLoop_runsInto (i := i) hi' hcount hruns hnext ?_
            rw [batchText, List.length_cons] at h
            rw [h, List.map_cons, List.head?_cons]
          · have hrest := ih (fun o ho => hfree o (List.mem_cons_of_mem _ ho))
              (show i + 1 + (next :: outs).length ≤ maxBatch by omega)
            rw [batchText, List.length_cons, splitLoop_separate hi' hcount hout hruns hnext,
              List.map_cons, List.cons_inj_right, hrest]
            exact ⟨fun h => ⟨hruns, h⟩, fun h => h.2⟩

/-- **Exact cuts.** An accepted batch of outputs without markers is cut up
exactly if and only if no output runs into the next marker. -/
theorem split_exact_iff {bexec : List Char → Option (List Char)} {items : List BatchItem}
    {cmd : List Char} {outs : List (List Char)} (hcmd : batchCommand items = some cmd)
    (hraw : bexec cmd = some (batchText 0 outs)) (hlength : outs.length = items.length)
    (hfree : ∀ out ∈ outs, MarkerFree out) :
    bexecBatch bexec items = (0, outs.map fun out => .string (stripped out)) ↔ Separate 0 outs := by
  have hcount := (batchCommand_some hcmd).2.1
  have hinj : Function.Injective ResultPtr.ofOption := by
    rintro (_ | r) (_ | r') h
    · rfl
    · cases h
    · cases h
    · cases h
      rfl
  have hmap : (outs.map fun out => ResultPtr.string (stripped out)) =
      (outs.map fun out => some (stripped out)).map ResultPtr.ofOption := by
    rw [List.map_map]
    rfl
  rw [bexecBatch_ran hcmd hraw, ← hlength, ← splitLoop_exact_iff hfree (i := 0) (by omega), hmap,
    Prod.mk.injEq, List.map_inj_right fun _ _ h => hinj h]
  exact ⟨fun h => h.2, fun h => ⟨rfl, h⟩⟩

/-- Two commands whose outputs a line end separates from the markers. -/
def twoItems : List BatchItem := [⟨"id".toList, .null⟩, ⟨"ls".toList, .null⟩]

def twoOutputs : List (List Char) := ["uid=2000\r\n".toList, "\n\nsdcard".toList]

theorem markerFree_of_strstr {out : List Char}
    (h : ∀ k < maxBatch, strstr (marker k) out = none) : MarkerFree out :=
  fun k hk => strstr_eq_none_iff.mp (h k hk)

theorem markerFree_twoOutputs : ∀ out ∈ twoOutputs, MarkerFree out := by
  have hnone : ∀ out ∈ twoOutputs, ∀ k < maxBatch, strstr (marker k) out = none := by decide
  exact fun out hout => markerFree_of_strstr (hnone out hout)

theorem batchCommand_twoItems :
    batchCommand twoItems = some "echo __BX_0__; id; echo __BX_1__; ls".toList := by decide

theorem two_outputs_split :
    bexecBatch (fun _ => some (batchText 0 twoOutputs)) twoItems =
      (0, twoOutputs.map fun out => .string (stripped out)) := by
  have hseparate : Separate 0 twoOutputs := by
    refine ⟨?_, trivial⟩
    unfold RunsInto
    decide
  exact (split_exact_iff batchCommand_twoItems rfl rfl markerFree_twoOutputs).mpr hseparate

/-- The first output ends in `__BX_1`, without a line end. -/
theorem overlapping_marker :
    ¬ ∀ outs : List (List Char), outs.length = twoItems.length → (∀ out ∈ outs, MarkerFree out) →
      bexecBatch (fun _ => some (batchText 0 outs)) twoItems =
        (0, outs.map fun out => .string (stripped out)) := by
  intro h
  have hnone : ∀ out ∈ ["__BX_1".toList, "sdcard".toList], ∀ k < maxBatch,
      strstr (marker k) out = none := by decide
  have hsplit := h ["__BX_1".toList, "sdcard".toList] rfl fun out hout =>
    markerFree_of_strstr (hnone out hout)
  revert hsplit
  decide +kernel

/-! ## Cut texts -/

section Cut

variable {i : Nat} {out text t : List Char} {outs : List (List Char)}

theorem own_null (out : List Char) : Own (.ofOption none) out := .inl rfl

theorem own_string_iff {s : List Char} : Own (.ofOption (some s)) out ↔ s <+: out.dropWhile isEol := by
  constructor
  · rintro (h | ⟨_, h, hs⟩)
    · cases h
    · cases h
      exact hs
  · exact fun hs => .inr ⟨s, rfl, hs⟩

/-- Of commands whose marker is not there nothing is returned. -/
theorem own_nulls (outs : List (List Char)) :
    List.Forall₂ Own ((List.replicate outs.length none).map .ofOption) outs := by
  induction outs with
  | nil => exact .nil
  | cons out outs ih =>
      rw [List.length_cons, List.replicate_succ, List.map_cons]
      exact .cons (own_null out) ih

theorem prefix_dropWhile {p : Char → Bool} (h : t <+: out) : t.dropWhile p <+: out.dropWhile p := by
  obtain ⟨r, rfl⟩ := h
  rw [List.dropWhile_append]
  split
  · rename_i hnil
    rw [List.isEmpty_iff.mp hnil]
    exact List.nil_prefix
  · exact List.prefix_append _ r

/-- A text that ends inside a later marker holds the first output. -/
theorem EndsInside.length_lt (h : EndsInside i (out :: outs) text) :
    (marker i).length + 1 + out.length < text.length := by
  obtain ⟨j, w, hj, -, rfl, -, hw, -⟩ := h
  obtain ⟨j, rfl⟩ := Nat.exists_eq_add_of_lt hj
  have hwpos := List.length_pos_iff.mpr hw
  rw [Nat.zero_add, List.take_succ_cons, batchText]
  simp only [List.length_append, List.length_cons]
  omega

theorem endsInside_cons_iff :
    EndsInside i (out :: outs) (marker i ++ '\n' :: (out ++ t)) ↔
      (outs ≠ [] ∧ t <+: marker (i + 1) ∧ t ≠ [] ∧ t ≠ marker (i + 1)) ∨
        EndsInside (i + 1) outs t := by
  constructor
  · rintro ⟨j, w, hj, hlen, htext, hw⟩
    obtain ⟨j, rfl⟩ := Nat.exists_eq_add_of_lt hj
    rw [Nat.zero_add] at htext hw hlen
    rw [List.take_succ_cons, batchText, List.append_assoc, List.append_cancel_left_eq, List.cons_append,
      List.cons_inj_right, List.append_assoc, List.append_cancel_left_eq] at htext
    subst htext
    cases j with
    | zero =>
        refine .inl ⟨?_, hw⟩
        rintro rfl
        rw [List.length_singleton] at hlen
        omega
    | succ j =>
        refine .inr ⟨j + 1, w, Nat.succ_pos j, ?_, rfl, ?_⟩
        · rw [List.length_cons] at hlen
          omega
        · rw [show i + 1 + (j + 1) = i + (j + 1 + 1) by omega]
          exact hw
  · rintro (⟨hne, ht⟩ | ⟨j, w, hj, hlen, rfl, hw⟩)
    · refine ⟨1, t, Nat.one_pos, ?_, ?_, ht⟩
      · have := List.length_pos_iff.mpr hne
        rw [List.length_cons]
        omega
      · simp [batchText]
    · refine ⟨j + 1, w, Nat.succ_pos j, ?_, ?_, ?_⟩
      · rw [List.length_cons]
        omega
      · rw [List.take_succ_cons, batchText]
        simp
      · rw [show i + (j + 1) = i + 1 + j by omega]
        exact hw

theorem RunsOn.head (hruns : RunsInto (i + 1) out) (ht : t ≠ []) :
    RunsOn i (out :: outs) (marker i ++ '\n' :: (out ++ t)) := by
  refine ⟨0, out, t, rfl, hruns, ?_, ht⟩
  rw [List.take_succ_cons, List.take_zero, batchText, batchText]
  simp

theorem RunsOn.cons (h : RunsOn (i + 1) outs t) :
    RunsOn i (out :: outs) (marker i ++ '\n' :: (out ++ t)) := by
  obtain ⟨j, o, w, ho, hruns, rfl, hw⟩ := h
  refine ⟨j + 1, o, w, ho, ?_, ?_, hw⟩
  · rw [show i + (j + 1) + 1 = i + 1 + j + 1 by omega]
    exact hruns
  · rw [List.take_succ_cons, batchText]
    simp

/-- A cut before the end of the first marker. -/
theorem splitLoop_cut_marker {n : Nat} (hi : i + n ≤ maxBatch) (hcut : text <+: marker i)
    (hne : text ≠ marker i) : splitLoop i n text = List.replicate n none := by
  refine splitLoop_none fun k hik hk hinfix => ?_
  have hle := length_marker_le hik (by omega)
  have hshort := hinfix.length_le
  exact hne (hcut.eq_of_length_le (by omega))

/-- A cut in the first output, or right before it. -/
theorem splitLoop_cut_output {n : Nat} (hi : i + 1 + n ≤ maxBatch) (hfree : MarkerFree out)
    (hcut : t <+: '\n' :: out) :
    splitLoop i (n + 1) (marker i ++ t) = some (stripped t) :: List.replicate n none ∧
      stripped t <+: out.dropWhile isEol := by
  have hnl : isEol '\n' = true := by decide
  have hbody : t.dropWhile isEol <+: out.dropWhile isEol := by
    have hdrop := prefix_dropWhile (p := isEol) hcut
    rwa [List.dropWhile_cons_of_pos hnl] at hdrop
  have hinfix : t.dropWhile isEol <:+: out :=
    hbody.isInfix.trans (List.dropWhile_suffix isEol).isInfix
  have hstop : n = 0 ∨ strstr (marker (i + 1)) (t.dropWhile isEol) = none := by
    rcases Nat.eq_zero_or_pos n with hn | hn
    · exact .inl hn
    · exact .inr (strstr_eq_none_iff.mpr fun h => hfree (i + 1) (by omega) (h.trans hinfix))
  refine ⟨?_, (List.rdropWhile_prefix isEol _).trans hbody⟩
  rw [splitLoop_open hstop, splitLoop_none]
  intro k _ hk hmarker
  exact hfree k (by omega) (hmarker.trans ((List.drop_suffix _ _).isInfix.trans hinfix))

/-- A cut inside the next marker: its bytes are taken for output. -/
theorem splitLoop_cut_inside {n : Nat} (hi : i + 1 < maxBatch) (hfree : MarkerFree out)
    (hruns : ¬ RunsInto (i + 1) out) (hcut : t <+: marker (i + 1)) (hnil : t ≠ [])
    (hne : t ≠ marker (i + 1)) :
    ∃ rest, splitLoop i (n + 1) (marker i ++ '\n' :: (out ++ t)) =
      some (out.dropWhile isEol ++ t) :: rest := by
  have hcut' : t <+: marker (i + 1) ++ [] := by rwa [List.append_nil]
  have hstart := dropWhile_eol_append out (isEol_marker_head hi hcut')
  have hnone : strstr (marker (i + 1)) t = none := by
    rw [strstr_eq_none_iff]
    intro h
    exact hne (hcut.eq_of_length_le h.length_le)
  have hstop : strstr (marker (i + 1)) (('\n' :: (out ++ t)).dropWhile isEol) = none := by
    rw [hstart, strstr_body hi (hfree _ hi) hruns (List.dropWhile_suffix _) hcut', hnone]
  have hstripped : stripped ('\n' :: (out ++ t)) = out.dropWhile isEol ++ t := by
    rw [stripped, hstart]
    exact rdropWhile_eol_of_suffix hnil (fun c hc => isEol_marker hi c (hcut.subset hc))
      (List.suffix_append _ t)
  rw [splitLoop_open (.inr hstop), hstripped]
  exact ⟨_, rfl⟩

/-- A text that stops before the end of a marker. -/
theorem cut_marker {rest : List Char} (ht : t <+: marker i ++ rest) (hmarker : ¬ marker i <+: t) :
    t <+: marker i ∧ t ≠ marker i := by
  constructor
  · rcases prefix_append_cases ht with hcut | ⟨u, -, rfl⟩
    · exact hcut
    · exact absurd (List.prefix_append _ u) hmarker
  · rintro rfl
    exact hmarker (List.prefix_refl _)

/-- A cut behind the first output, where another one was to follow: what
comes of the others is up to the rest of the text. -/
theorem splitLoop_cut_behind {next : List Char} (hi : i + 1 < maxBatch) (hout : MarkerFree out)
    (hruns : ¬ RunsInto (i + 1) out) (ht : t <+: batchText (i + 1) (next :: outs)) (hnil : t ≠ [])
    (hrest : List.Forall₂ Own ((splitLoop (i + 1) (next :: outs).length t).map .ofOption)
      (next :: outs) ↔ ¬ EndsInside (i + 1) (next :: outs) t) :
    List.Forall₂ Own ((splitLoop i (out :: next :: outs).length
        (marker i ++ '\n' :: (out ++ t))).map .ofOption) (out :: next :: outs) ↔
      ¬ EndsInside i (out :: next :: outs) (marker i ++ '\n' :: (out ++ t)) := by
  have hcount : (next :: outs).length ≠ 0 := Nat.succ_ne_zero _
  rw [endsInside_cons_iff, List.length_cons]
  by_cases hnext : marker (i + 1) <+: t
  · -- the next marker is still there
    rw [splitLoop_separate hi hcount hout hruns hnext, List.map_cons, List.forall₂_cons, hrest,
      own_string_iff]
    constructor
    · rintro ⟨-, hend⟩ (⟨-, hpart, -, hne⟩ | hend')
      · exact hne (hpart.eq_of_length_le hnext.length_le)
      · exact hend hend'
    · exact fun hend => ⟨List.rdropWhile_prefix isEol _, fun h => hend (.inr h)⟩
  · -- the cut is inside the next marker
    obtain ⟨hpart, hne⟩ := cut_marker ht hnext
    obtain ⟨rest, hloop⟩ := splitLoop_cut_inside (n := (next :: outs).length)
      hi hout hruns hpart hnil hne
    rw [hloop, List.map_cons, List.forall₂_cons, own_string_iff]
    refine iff_of_false (fun h => ?_) fun h => ?_
    · have hlength := h.1.length_le
      have hpos := List.length_pos_iff.mpr hnil
      rw [List.length_append] at hlength
      omega
    · exact h (.inl ⟨List.cons_ne_nil _ _, hpart, hnil, hne⟩)

end Cut

theorem splitLoop_cut_iff {outs : List (List Char)} (hfree : ∀ out ∈ outs, MarkerFree out)
    {i : Nat} (hi : i + outs.length ≤ maxBatch) {text : List Char}
    (htext : text <+: batchText i outs) (hruns : ¬ RunsOn i outs text) :
    List.Forall₂ Own ((splitLoop i outs.length text).map .ofOption) outs ↔
      ¬ EndsInside i outs text := by
  induction outs generalizing i text with
  | nil =>
      refine iff_of_true .nil ?_
      rintro ⟨j, -, -, hj, -⟩
      exact absurd hj (Nat.not_lt_zero j)
  | cons out outs ih =>
      have hout := hfree out List.mem_cons_self
      rw [List.length_cons] at hi
      rw [batchText] at htext
      by_cases hmarker : marker i <+: text
      · obtain ⟨body, rfl⟩ := hmarker
        rw [List.prefix_append_right_inj] at htext
        by_cases hcut : body <+: '\n' :: out
        · -- the cut is in this output
          obtain ⟨hloop, hown⟩ := splitLoop_cut_output (i := i) (n := outs.length) (by omega) hout hcut
          rw [List.length_cons, hloop, List.map_cons]
          refine iff_of_true (.cons (own_string_iff.mpr hown) (own_nulls outs)) fun h => ?_
          have hlong := h.length_lt
          have hshort := hcut.length_le
          rw [List.length_append] at hlong
          rw [List.length_cons] at hshort
          omega
        · obtain ⟨t, ht, rfl⟩ := (prefix_append_cases (a := '\n' :: out) htext).resolve_left hcut
          have hnil : t ≠ [] := by
            rintro rfl
            rw [List.append_nil] at hcut
            exact hcut (List.prefix_refl _)
          have hruns' : ¬ RunsInto (i + 1) out := fun h => hruns (.head h hnil)
          have hrunsOn : ¬ RunsOn (i + 1) outs t := fun h => hruns (.cons h)
          have hrest := ih (fun o ho => hfree o (List.mem_cons_of_mem _ ho)) (by omega) ht hrunsOn
          cases outs with
          | nil => exact absurd (List.prefix_nil.mp ht) hnil
          | cons next outs =>
              rw [List.length_cons] at hi
              exact splitLoop_cut_behind (by omega) hout hruns' ht hnil hrest
      · -- the cut is before this output
        obtain ⟨hcut, hne⟩ := cut_marker htext hmarker
        rw [splitLoop_cut_marker (by rw [List.length_cons]; omega) hcut hne]
        refine iff_of_true (own_nulls (out :: outs)) fun h => ?_
        have hlong := h.length_lt
        have hshort := hcut.length_le
        omega

/-- **Cut texts.** As long as the text does not go on behind an output that
runs into the next marker, each result of an accepted batch is NULL or the
beginning of its own output, exactly if the text does not end inside a marker
other than the first. -/
theorem cut_split_iff {bexec : List Char → Option (List Char)} {items : List BatchItem}
    {cmd text : List Char} {outs : List (List Char)} (hcmd : batchCommand items = some cmd)
    (hraw : bexec cmd = some text) (htext : text <+: batchText 0 outs)
    (hlength : outs.length = items.length) (hfree : ∀ out ∈ outs, MarkerFree out)
    (hruns : ¬ RunsOn 0 outs text) :
    List.Forall₂ Own (bexecBatch bexec items).2 outs ↔ ¬ EndsInside 0 outs text := by
  have hcount := (batchCommand_some hcmd).2.1
  rw [bexecBatch_ran hcmd hraw, ← hlength]
  exact splitLoop_cut_iff hfree (by omega) htext hruns

/-- A cut in the first of the two outputs. -/
def cutText : List Char := "__BX_0__\nuid=20".toList

theorem cut_output_kept :
    List.Forall₂ Own (bexecBatch (fun _ => some cutText) twoItems).2 twoOutputs := by
  have htext : cutText <+: batchText 0 twoOutputs := by decide
  have hruns : ¬ RunsOn 0 twoOutputs cutText := by
    rintro ⟨j, out, w, hout, hruns, -⟩
    obtain ⟨hj, -⟩ := List.getElem?_eq_some_iff.mp hout
    have hnone : ∀ j < twoOutputs.length, ∀ out ∈ twoOutputs, ¬ RunsInto (0 + j + 1) out := by
      unfold RunsInto
      decide
    exact hnone j hj out (List.mem_of_getElem? hout) hruns
  have hraw : (fun _ => some cutText : List Char → Option (List Char))
      "echo __BX_0__; id; echo __BX_1__; ls".toList = some cutText := rfl
  refine (cut_split_iff batchCommand_twoItems hraw htext rfl markerFree_twoOutputs hruns).mpr ?_
  intro h
  exact absurd h.length_lt (by decide)

/-- A cut in the second marker. -/
theorem cut_marker_kept :
    ¬ ∀ text, text <+: batchText 0 twoOutputs →
      List.Forall₂ Own (bexecBatch (fun _ => some text) twoItems).2 twoOutputs := by
  intro h
  have htext : "__BX_0__\nuid=2000\r\n__BX".toList <+: batchText 0 twoOutputs := by decide
  have hresults : (bexecBatch (fun _ => some "__BX_0__\nuid=2000\r\n__BX".toList) twoItems).2 =
      [.string "uid=2000\r\n__BX".toList, .null] := by decide +kernel
  have howns := h _ htext
  rw [hresults] at howns
  obtain ⟨hown, -⟩ := List.forall₂_cons.mp howns
  have hlength := (own_string_iff.mp hown).length_le
  exact absurd hlength (by decide)

end MiuiserPeruser.Bexec
