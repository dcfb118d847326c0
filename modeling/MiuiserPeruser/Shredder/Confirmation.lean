import Mathlib.Data.List.DropRight
import MiuiserPeruser.Shredder.Drift

/-!
# shredderd — when a drift is confirmed

`detect_drift` compares a count with the one of the last poll that was off,
which need not be the poll before: a poll without a drift leaves `last_nmod`
as it is. But it sets `drift_polls` to zero, and from there a count that
agrees with an old one still is the first of its run. So `drift_polls` is
the length of the current run, and a drift is returned exactly from the
second of two equal polls on (`two_polls_confirm`).
-/

namespace MiuiserPeruser.Shredder

/-- A call of `detect_drift`: the count, what `bexec` returns for the list of
names, of which something can be read, and the time of each entry. -/
structure DriftCall where
  nmod : Int
  positive : 0 < nmod
  result : Option (List Char)
  readable : rishRead result 8192 ≠ []
  now : List Char → Nat

section Calls

variable (baseline : List ModBaseline)

def DriftCall.delta (c : DriftCall) : Int := c.nmod - baseline.length

/-- What the calls return, one after the other. -/
def callStep (st : DriftState) (c : DriftCall) : DriftState × List Int :=
  ((detectDrift st c.nmod c.result c.now).2, [(detectDrift st c.nmod c.result c.now).1.delta])

/-- The state a daemon with this baseline starts polling in. -/
def DriftState.started : DriftState := { DriftState.initial with baseline, established := true }

/-- The state after some calls. -/
def afterCalls (calls : List DriftCall) : DriftState :=
  (Machine.run callStep (.started baseline) calls).1

end Calls

/-- How many of the last calls have the delta of the last one, which is off. -/
def currentRun (deltas : List Int) : Nat :=
  match deltas.getLast? with
  | none => 0
  | some d => if d = 0 then 0 else (deltas.rtakeWhile (· = d)).length

/-! ## Runs of equal deltas -/

section CurrentRun

variable {deltas : List Int} {d : Int}

theorem currentRun_of_last (h : deltas.getLast? = some d) (hd : d ≠ 0) :
    currentRun deltas = (deltas.rtakeWhile (· = d)).length := by
  unfold currentRun
  rw [h]
  exact if_neg hd

/-- No run is going on before the first call, and after a call that found
nothing. -/
theorem currentRun_eq_zero (h : ∀ d, deltas.getLast? = some d → d = 0) : currentRun deltas = 0 := by
  unfold currentRun
  split
  · rfl
  · rename_i d hlast
    exact if_pos (h d hlast)

theorem currentRun_pos (h : deltas.getLast? = some d) (hd : d ≠ 0) : 0 < currentRun deltas := by
  rw [currentRun_of_last h hd]
  obtain ⟨ds, rfl⟩ := List.getLast?_eq_some_iff.mp h
  rw [List.rtakeWhile_concat_pos _ _ _ (by simp), List.length_append, List.length_singleton]
  exact Nat.succ_pos _

theorem currentRun_concat (deltas : List Int) (d : Int) :
    currentRun (deltas ++ [d]) =
      if d = 0 then 0 else if deltas.getLast? = some d then currentRun deltas + 1 else 1 := by
  by_cases hd : d = 0
  · rw [if_pos hd]
    refine currentRun_eq_zero fun e he => ?_
    rw [List.getLast?_concat] at he
    exact (Option.some.inj he) ▸ hd
  · rw [if_neg hd, currentRun_of_last List.getLast?_concat hd,
      List.rtakeWhile_concat_pos _ _ _ (by simp), List.length_append, List.length_singleton]
    split
    · rename_i hlast
      rw [currentRun_of_last hlast hd]
    · rename_i hlast
      -- the run before is one of another delta
      have hnone : deltas.rtakeWhile (· = d) = [] := by
        rw [List.rtakeWhile_eq_nil_iff]
        intro hne hsame
        rw [List.getLast?_eq_some_getLast hne] at hlast
        exact hlast (congrArg some (of_decide_eq_true hsame))
      rw [hnone]
      rfl

end CurrentRun

/-! ## A call -/

section Call

variable {baseline : List ModBaseline} {st : DriftState} {c : DriftCall}

/-- What `drift_polls` becomes. -/
def nextPolls (st : DriftState) (c : DriftCall) : Int :=
  if c.delta st.baseline = 0 then 0
  else if c.delta st.baseline = st.lastNmod - st.baseline.length then st.driftPolls + 1 else 1

theorem detectDrift_spec (st : DriftState) (c : DriftCall) :
    let after := detectDrift st c.nmod c.result c.now
    after.1.delta = (if nextPolls st c < driftConfirm then 0 else c.delta st.baseline) ∧
      after.2.driftPolls = nextPolls st c ∧ after.2.baseline = st.baseline ∧
      (c.delta st.baseline ≠ 0 → after.2.lastNmod = c.nmod) := by
  unfold nextPolls DriftCall.delta detectDrift
  by_cases hzero : c.nmod - (st.baseline.length : Int) = 0
  · simp only [if_pos hzero]
    exact ⟨rfl, trivial, trivial, fun h => absurd hzero h⟩
  · simp only [if_neg hzero, if_neg c.readable]
    generalize (if c.nmod - (st.baseline.length : Int) = st.lastNmod - st.baseline.length then
      st.driftPolls + 1 else 1) = polls
    by_cases hwait : polls < driftConfirm
    · simp only [if_pos hwait]
      exact ⟨rfl, trivial, trivial, fun _ => trivial⟩
    · simp only [if_neg hwait]
      exact ⟨trivial, trivial, trivial, fun _ => trivial⟩

/-- The counters after calls with these deltas. -/
structure Counts (baseline : List ModBaseline) (deltas : List Int) (st : DriftState) : Prop where
  base : st.baseline = baseline
  polls : st.driftPolls = currentRun deltas
  last : ∀ d, deltas.getLast? = some d → d ≠ 0 → st.lastNmod = d + baseline.length

theorem Counts.started : Counts baseline [] (.started baseline) where
  base := rfl
  polls := rfl
  last := by
    intro d hd
    cases hd

/-- A stale `last_nmod` is behind a poll that set the counter to zero. -/
theorem Counts.nextPolls {deltas : List Int} (h : Counts baseline deltas st) :
    nextPolls st c = currentRun (deltas ++ [c.delta baseline]) := by
  have hbase := h.base
  subst hbase
  rw [currentRun_concat, Shredder.nextPolls]
  by_cases hzero : c.delta st.baseline = 0
  · rw [if_pos hzero, if_pos hzero]
    rfl
  · rw [if_neg hzero, if_neg hzero, h.polls]
    by_cases hrun : ∃ d, deltas.getLast? = some d ∧ d ≠ 0
    · obtain ⟨d, hlast, hd⟩ := hrun
      rw [h.last d hlast hd, hlast, add_sub_cancel_right]
      by_cases hsame : c.delta st.baseline = d
      · rw [if_pos hsame, if_pos (congrArg some hsame.symm)]
        rfl
      · rw [if_neg hsame, if_neg fun h => hsame (Option.some.inj h).symm]
        rfl
    · have hidle : ∀ d, deltas.getLast? = some d → d = 0 := by
        intro d hlast
        by_contra hd
        exact hrun ⟨d, hlast, hd⟩
      have hother : deltas.getLast? ≠ some (c.delta st.baseline) := fun h => hzero (hidle _ h)
      rw [if_neg hother, currentRun_eq_zero hidle, Nat.cast_zero, zero_add, ite_self]
      rfl

theorem Counts.call {deltas : List Int} (h : Counts baseline deltas st) :
    Counts baseline (deltas ++ [c.delta baseline]) (detectDrift st c.nmod c.result c.now).2 := by
  obtain ⟨-, hpolls, hbase, hlast⟩ := detectDrift_spec st c
  rw [h.base] at hbase hlast
  refine ⟨hbase, hpolls.trans h.nextPolls, fun d hd hne => ?_⟩
  rw [List.getLast?_concat] at hd
  obtain rfl := Option.some.inj hd
  rw [hlast hne, DriftCall.delta, sub_add_cancel]

theorem counts_afterCalls (baseline : List ModBaseline) (calls : List DriftCall) :
    Counts baseline (calls.map (DriftCall.delta baseline)) (afterCalls baseline calls) := by
  refine Machine.run_history (P := fun st _ calls =>
    Counts baseline (calls.map (DriftCall.delta baseline)) st) .started ?_ calls
  intro st tr calls c h
  rw [List.map_append, List.map_singleton]
  exact h.call

end Call

theorem detectDrift_afterCalls (baseline : List ModBaseline) (calls : List DriftCall)
    (c : DriftCall) :
    (detectDrift (afterCalls baseline calls) c.nmod c.result c.now).1.delta =
      if c.delta baseline ≠ 0 ∧
        (calls.map (DriftCall.delta baseline)).getLast? = some (c.delta baseline)
      then c.delta baseline else 0 := by
  have hcounts := counts_afterCalls baseline calls
  rw [(detectDrift_spec (afterCalls baseline calls) c).1, hcounts.nextPolls, hcounts.base,
    currentRun_concat]
  by_cases hoff : c.delta baseline = 0
  · rw [hoff, ite_self, ite_self]
  · by_cases hsame : (calls.map (DriftCall.delta baseline)).getLast? = some (c.delta baseline)
    · have hpos := currentRun_pos hsame hoff
      have hlong : ¬ ((currentRun (calls.map (DriftCall.delta baseline)) + 1 : Nat) : Int) <
          driftConfirm := by
        unfold driftConfirm
        omega
      rw [if_neg hoff, if_pos hsame, if_neg hlong, if_pos ⟨hoff, hsame⟩]
    · have hfirst : ((1 : Nat) : Int) < driftConfirm := by decide
      rw [if_neg hoff, if_neg hsame, if_pos hfirst, if_neg fun h => hsame h.2]

/-- **Two polls confirm.** A call returns its delta if it is off and that of
the call before, and zero otherwise; `drift_polls` counts the current run. -/
theorem two_polls_confirm (baseline : List ModBaseline) (calls : List DriftCall) (c : DriftCall) :
    let returned := (detectDrift (afterCalls baseline calls) c.nmod c.result c.now).1.delta
    (returned ≠ 0 ↔ c.delta baseline ≠ 0 ∧
      (calls.map (DriftCall.delta baseline)).getLast? = some (c.delta baseline)) ∧
    (returned ≠ 0 → returned = c.delta baseline) ∧
    (afterCalls baseline (calls ++ [c])).driftPolls =
      currentRun ((calls ++ [c]).map (DriftCall.delta baseline)) := by
  intro returned
  have hreturned : returned = _ := detectDrift_afterCalls baseline calls c
  refine ⟨?_, ?_, (counts_afterCalls baseline (calls ++ [c])).polls⟩
  · rw [hreturned]
    split
    · rename_i h
      exact iff_of_true h.1 h
    · rename_i h
      exact iff_of_false (fun hne => hne rfl) h
  · intro hne
    rw [hreturned] at hne ⊢
    split at hne
    · rename_i h
      exact if_pos h
    · exact absurd rfl hne

end MiuiserPeruser.Shredder
