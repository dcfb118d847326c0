import Mathlib.Logic.Relation
import Mathlib.Data.Prod.Lex
import MiuiserPeruser.Lib.Run

/-!
# What a machine can still reach

`Reaches step ok s s'`: from `s` the scheduler can drive the machine to
`s'` with labels that satisfy `ok`. A property that can be reached from
EVERY reachable state says that no run gets stuck short of it, whatever
came before; the scheduler is free to choose, so this is possibility and
not fairness.

The rule to show it is `reaches_of_rank`: name the label to take in each
state, and a rank in a well-founded order that it lowers.
-/

namespace Machine

variable {σ ι ε : Type} {step : σ → ι → σ × List ε} {ok : ι → Prop}

variable (step ok) in
def Reaches : σ → σ → Prop :=
  Relation.ReflTransGen fun s s' => ∃ l, ok l ∧ s' = (step s l).1

theorem run_cons (s : σ) (l : ι) (ls : List ι) :
    (run step s (l :: ls)).1 = (run step (step s l).1 ls).1 := by
  rw [run_eq, run_eq]
  rfl

/-- What is reached is reached by a run. -/
theorem Reaches.exists_run {s s' : σ} (h : Reaches step ok s s') :
    ∃ ls, (∀ l ∈ ls, ok l) ∧ (run step s ls).1 = s' := by
  induction h using Relation.ReflTransGen.head_induction_on with
  | refl => exact ⟨[], by simp, rfl⟩
  | head hstep _ ih =>
      obtain ⟨l, hl, rfl⟩ := hstep
      obtain ⟨ls, hls, hrun⟩ := ih
      exact ⟨l :: ls, List.forall_mem_cons.mpr ⟨hl, hls⟩, by rw [run_cons, hrun]⟩

/-- **The progress rule.** `choose` names a label for every state; where
`P` does not hold yet it keeps the invariant and lowers the rank. -/
theorem reaches_of_rank {α : Type} {lt : α → α → Prop} (wf : WellFounded lt) {I P : σ → Prop}
    (rank : σ → α) (choose : σ → ι) (hok : ∀ s, ok (choose s))
    (next : ∀ s, I s → ¬ P s →
      I (step s (choose s)).1 ∧ lt (rank (step s (choose s)).1) (rank s)) :
    ∀ s, I s → ∃ s', Reaches step ok s s' ∧ I s' ∧ P s' := by
  intro s
  induction s using (InvImage.wf rank wf).induction with
  | _ s ih =>
      intro hI
      by_cases hP : P s
      · exact ⟨s, .refl, hI, hP⟩
      · obtain ⟨hI', hlt⟩ := next s hI hP
        obtain ⟨s', hreach, hs'⟩ := ih _ hlt hI'
        exact ⟨s', .head ⟨choose s, hok s, rfl⟩ hreach, hs'⟩

end Machine
