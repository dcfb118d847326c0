import MiuiserPeruser.Ratking.Lifecycle

/-!
# ratkingd — what the polls learn (`ratkingd.c`)

Only the first twenty polls call `update_baseline`, each for the processes it
shows. These are so few calls that the table has room for all their names, so
the baselines of a daemon are the true statistics of what those polls have
shown (`learned_baselines`).
-/

namespace MiuiserPeruser.Ratking

/-- What a poll has shown. -/
def shownCalls (byCpu : List Proc → List Proc) (e : PollInput × PollResult) : List Call :=
  (topCpu (byCpu e.2.procs)).map Proc.call

/-- What the polls that learn have shown. -/
def learnedCalls (byCpu : List Proc → List Proc) (polls : List (PollInput × PollResult)) : List Call :=
  (polls.take learnPolls).flatMap (shownCalls byCpu)

theorem length_topCpu_le (sorted : List Proc) : (topCpu sorted).length ≤ topN := by
  have htake : (sorted.take topN).length ≤ topN := List.length_take_le _ _
  unfold topCpu
  cases hshown : sorted.take topN with
  | nil => exact Nat.zero_le _
  | cons p ps =>
      rw [hshown, List.length_cons] at htake
      have hwhile := (List.takeWhile_sublist (l := ps) (0 < ·.cpuPct)).length_le
      simp only [List.length_cons]
      omega

section Learning

variable {byCpu : List Proc → List Proc} {polls : List (PollInput × PollResult)}

theorem length_learnedCalls_le : (learnedCalls byCpu polls).length ≤ learnPolls * topN := by
  have hshown : ∀ n ∈ (polls.take learnPolls).map fun e => (shownCalls byCpu e).length, n ≤ topN := by
    intro n hn
    obtain ⟨e, -, rfl⟩ := List.mem_map.mp hn
    rw [shownCalls, List.length_map]
    exact length_topCpu_le _
  calc (learnedCalls byCpu polls).length
      = ((polls.take learnPolls).map fun e => (shownCalls byCpu e).length).sum := List.length_flatMap
    _ ≤ ((polls.take learnPolls).map fun e => (shownCalls byCpu e).length).length * topN :=
        List.sum_le_card_nsmul _ _ hshown
    _ ≤ learnPolls * topN := by
        rw [List.length_map]
        exact Nat.mul_le_mul_right _ (List.length_take_le _ _)

/-- One more poll. -/
theorem learnedCalls_concat (e : PollInput × PollResult) :
    learnedCalls byCpu (polls ++ [e]) =
      learnedCalls byCpu polls ++ if polls.length < learnPolls then shownCalls byCpu e else [] := by
  rw [learnedCalls, List.take_append, List.flatMap_append, learnedCalls]
  split
  · rename_i hfew
    obtain ⟨k, hk⟩ : ∃ k, learnPolls - polls.length = k + 1 := ⟨learnPolls - polls.length - 1, by omega⟩
    rw [hk, List.take_succ_cons, List.take_nil, List.flatMap_singleton]
  · rename_i hmany
    rw [Nat.sub_eq_zero_of_le (not_lt.mp hmany), List.take_zero, List.flatMap_nil]

variable {K : Type} [Field K] {sqrt : K → K}

/-- The polls are counted, and the baselines are those of what they showed. -/
structure Learned (sqrt : K → K) (byCpu : List Proc → List Proc) (st : PollState K)
    (polls : List (PollInput × PollResult)) : Prop where
  counted : st.learnPolls = polls.length
  baselines : st.baselines = baselinesAfter sqrt (learnedCalls byCpu polls)

theorem Learned.found {st : PollState K} {i : PollInput} {r : PollResult} (h : Learned sqrt byCpu st polls)
    (hr : (pollProcs sqrt byCpu st i).2 = some r) :
    Learned sqrt byCpu (pollProcs sqrt byCpu st i).1 (polls ++ [(i, r)]) := by
  unfold pollProcs at hr ⊢
  cases hdir : i.dir with
  | none =>
      rw [hdir] at hr
      exact absurd hr nofun
  | some dir =>
      rw [hdir] at hr
      obtain rfl := Option.some.inj hr
      constructor
      · rw [List.length_append, ← h.counted]
        rfl
      · rw [learnedCalls_concat, baselinesAfter, List.foldl_append, ← baselinesAfter, ← h.baselines,
          ← h.counted]
        rfl

theorem learned_run (inputs : List PollInput) :
    Learned sqrt byCpu (pollsRun sqrt byCpu inputs).1 (pollsRun sqrt byCpu inputs).2 := by
  refine Machine.run_invariant (P := Learned sqrt byCpu) ⟨rfl, rfl⟩ (fun st polls i h => ?_) inputs
  unfold pollStep
  cases hr : (pollProcs sqrt byCpu st i).2 with
  | none =>
      simp only [pollProcs_none hr, hr, Option.toList_none, List.map_nil, List.append_nil]
      exact h
  | some r =>
      simp only [hr, Option.toList_some, List.map_cons, List.map_nil]
      exact h.found hr

end Learning

/-- **The baselines of a daemon are true statistics.** After any polls a name has an entry if and
only if one of the first twenty that could open /proc has shown a process of that name; the entry
has the number of times, and the means, the population deviations and the maxima of what was shown,
and no later poll changes it. -/
theorem learned_baselines (byCpu : List Proc → List Proc) (inputs : List PollInput) :
    let run := pollsRun Real.sqrt byCpu inputs
    let calls := learnedCalls byCpu run.2
    calls.length ≤ learnPolls * topN ∧
      ∀ name, (ofName name calls = [] ∧ findBaseline run.1.baselines name = none) ∨
        (ofName name calls ≠ [] ∧ ∃ b, findBaseline run.1.baselines name = some b ∧
          Describes Real.sqrt b (ofName name calls)) := by
  intro run calls
  have hsqrt : IsSqrt Real.sqrt := fun x hx => ⟨Real.sqrt_nonneg x, Real.mul_self_sqrt hx⟩
  have hlen : calls.length ≤ learnPolls * topN := length_learnedCalls_le
  have hroom : learnPolls * topN ≤ maxBaseline := by decide
  have hfew : (calls.map Call.name).dedup.length ≤ maxBaseline := by
    calc (calls.map Call.name).dedup.length
        ≤ (calls.map Call.name).length := (List.dedup_sublist _).length_le
      _ = calls.length := List.length_map _
      _ ≤ maxBaseline := hlen.trans hroom
  refine ⟨hlen, ?_⟩
  have hbaselines : run.1.baselines = baselinesAfter Real.sqrt calls := (learned_run inputs).baselines
  rw [hbaselines]
  exact tracks_after hsqrt hfew

end MiuiserPeruser.Ratking
