import Mathlib.Data.List.Basic

/-!
# Runs of a step function

A concurrent program as one total step function `step : σ → ι → σ × List ε`:
the label `ι` is the scheduler's or the environment's choice, and a step
returns the next state with the EVENTS it emitted. A choice that is not
enabled leaves the state alone, so a run is determined by its list of
labels and every list of labels is a run.

`exec` threads the trace; `Meets ok` says that every step a run takes
satisfies `ok` in the state it is taken from; `Throughout P` says that
`P` holds in every state a run visits. Each safety theorem is then one
use of the invariant rules: what one step preserves, and from it what a
run of any length preserves.
-/

namespace Machine

variable {σ ι ε : Type} (step : σ → ι → σ × List ε)

/-- The state and trace after the labels `ls`, from state and trace `c`. -/
def exec (c : σ × List ε) : List ι → σ × List ε
  | [] => c
  | l :: ls => exec ((step c.1 l).1, c.2 ++ (step c.1 l).2) ls

/-- The state and trace of the run `ls` from `s₀`. -/
def run (s₀ : σ) (ls : List ι) : σ × List ε := exec step (s₀, []) ls

/-- Every step of the run from `s` satisfies `ok` where it is taken. -/
def Meets (ok : σ → ι → Prop) : σ → List ι → Prop
  | _, [] => True
  | s, l :: ls => ok s l ∧ Meets ok (step s l).1 ls

/-- `P` holds in every state the run from `s` visits, both ends included. -/
def Throughout (P : σ → Prop) : σ → List ι → Prop
  | s, [] => P s
  | s, l :: ls => P s ∧ Throughout P (step s l).1 ls

instance Meets.decidable {ok : σ → ι → Prop} [∀ s l, Decidable (ok s l)] :
    ∀ (s : σ) (ls : List ι), Decidable (Meets step ok s ls)
  | _, [] => isTrue trivial
  | s, l :: ls => @instDecidableAnd _ _ _ (Meets.decidable (step s l).1 ls)

instance Throughout.decidable {P : σ → Prop} [∀ s, Decidable (P s)] :
    ∀ (s : σ) (ls : List ι), Decidable (Throughout step P s ls)
  | s, [] => inferInstanceAs (Decidable (P s))
  | s, l :: ls => @instDecidableAnd _ _ _ (Throughout.decidable (step s l).1 ls)

variable {step}

theorem Throughout.head {P : σ → Prop} {s : σ} {ls : List ι} (h : Throughout step P s ls) :
    P s := by
  cases ls with
  | nil => exact h
  | cons l ls => exact h.1

/-- A run taken one step further. -/
theorem run_concat (s₀ : σ) (ls : List ι) (l : ι) :
    (run step s₀ (ls ++ [l])).1 = (step (run step s₀ ls).1 l).1 := by
  have further : ∀ (ls : List ι) (c : σ × List ε),
      (exec step c (ls ++ [l])).1 = (step (exec step c ls).1 l).1 := by
    intro ls
    induction ls with
    | nil => exact fun _ => rfl
    | cons l' ls ih => exact fun c => ih _
  exact further ls (s₀, [])

/-! ## State and trace apart -/

variable (step) in
/-- The state after the labels `ls`, from `s`. -/
def after : σ → List ι → σ
  | s, [] => s
  | s, l :: ls => after (step s l).1 ls

variable (step) in
/-- The events of the labels `ls`, from `s`. -/
def events : σ → List ι → List ε
  | _, [] => []
  | s, l :: ls => (step s l).2 ++ events (step s l).1 ls

theorem exec_eq (c : σ × List ε) (ls : List ι) :
    exec step c ls = (after step c.1 ls, c.2 ++ events step c.1 ls) := by
  induction ls generalizing c with
  | nil => rw [exec, after, events, List.append_nil]
  | cons l ls ih => rw [exec, ih, after, events, List.append_assoc]

/-- A run, in the form that evaluates step by step: the state does not go
through the trace, nor the trace through what came before it. -/
theorem run_eq (s₀ : σ) (ls : List ι) :
    run step s₀ ls = (after step s₀ ls, events step s₀ ls) := by
  rw [run, exec_eq, List.nil_append]

/-! ## The invariant rules -/

section Rules

variable {P : σ → List ε → Prop}

/-- **The conditional invariant rule**, from any state and trace: what a
step that meets `ok` preserves, a run that meets `ok` preserves. -/
theorem exec_invariant (ok : σ → ι → Prop)
    (pres : ∀ s tr l, P s tr → ok s l → P (step s l).1 (tr ++ (step s l).2)) :
    ∀ (ls : List ι) (c : σ × List ε), P c.1 c.2 → Meets step ok c.1 ls →
      P (exec step c ls).1 (exec step c ls).2 := by
  intro ls
  induction ls with
  | nil => intro c h _; exact h
  | cons l ls ih =>
      intro c h hok
      exact ih _ (pres c.1 c.2 l h hok.1) hok.2

/-- A condition on the labels alone. -/
theorem meets_of_forall (ok : ι → Prop) {ls : List ι} (h : ∀ l ∈ ls, ok l) {s : σ} :
    Meets step (fun _ l => ok l) s ls := by
  induction ls generalizing s with
  | nil => trivial
  | cons l ls ih =>
      exact ⟨h l List.mem_cons_self, ih fun l' hl' => h l' (List.mem_cons_of_mem _ hl')⟩

/-- The invariant rule for every run. -/
theorem run_invariant {s₀ : σ} (init : P s₀ [])
    (pres : ∀ s tr l, P s tr → P (step s l).1 (tr ++ (step s l).2)) (ls : List ι) :
    P (run step s₀ ls).1 (run step s₀ ls).2 :=
  exec_invariant (fun _ _ => True) (fun s tr l h _ => pres s tr l h) ls (s₀, []) init
    (meets_of_forall (fun _ => True) fun _ _ => trivial)

/-- The invariant rule for a property of state, trace and the labels so far. -/
theorem run_history {P : σ → List ε → List ι → Prop} {s₀ : σ} (init : P s₀ [] [])
    (pres : ∀ s tr ls l, P s tr ls → P (step s l).1 (tr ++ (step s l).2) (ls ++ [l]))
    (ls : List ι) : P (run step s₀ ls).1 (run step s₀ ls).2 ls := by
  have more : ∀ (ms : List ι) (c : σ × List ε) (ls : List ι), P c.1 c.2 ls →
      P (exec step c ms).1 (exec step c ms).2 (ls ++ ms) := by
    intro ms
    induction ms with
    | nil =>
        intro c ls h
        rwa [List.append_nil]
    | cons m ms ih =>
        intro c ls h
        have hnext := ih ((step c.1 m).1, c.2 ++ (step c.1 m).2) _ (pres c.1 c.2 ls m h)
        rwa [List.append_assoc] at hnext
  exact more ls (s₀, []) [] init

/-- The invariant rule on top of an invariant `Q` already known. -/
theorem run_invariant_under {Q : σ → Prop} {s₀ : σ} (hQ₀ : Q s₀)
    (hQ : ∀ s l, Q s → Q (step s l).1) (init : P s₀ [])
    (pres : ∀ s tr l, Q s → P s tr → P (step s l).1 (tr ++ (step s l).2)) (ls : List ι) :
    P (run step s₀ ls).1 (run step s₀ ls).2 := by
  have both : Q (run step s₀ ls).1 ∧ P (run step s₀ ls).1 (run step s₀ ls).2 :=
    run_invariant (P := fun s tr => Q s ∧ P s tr) ⟨hQ₀, init⟩
      (fun s tr l h => ⟨hQ s l h.1, pres s tr l h.1 h.2⟩) ls
  exact both.2

/-- The invariant rule for runs whose steps all meet `ok`. -/
theorem run_invariant_of_meets {s₀ : σ} {ok : σ → ι → Prop} (init : P s₀ [])
    (pres : ∀ s tr l, P s tr → ok s l → P (step s l).1 (tr ++ (step s l).2))
    {ls : List ι} (hok : Meets step ok s₀ ls) :
    P (run step s₀ ls).1 (run step s₀ ls).2 :=
  exec_invariant _ pres ls (s₀, []) init hok

/-- An invariant that makes every permitted step good makes every step of
every permitted run good. -/
theorem Meets.of_invariant {ok good : σ → ι → Prop} {P : σ → Prop}
    (pres : ∀ s l, P s → ok s l → P (step s l).1)
    (hgood : ∀ s l, P s → ok s l → good s l) :
    ∀ (ls : List ι) (s : σ), P s → Meets step ok s ls → Meets step good s ls := by
  intro ls
  induction ls with
  | nil => intro s _ _; trivial
  | cons l ls ih =>
      intro s h hok
      exact ⟨hgood s l h hok.1, ih _ (pres s l h hok.1) hok.2⟩

/-- An invariant that the permitted steps keep holds throughout every
permitted run, and so does what it implies. -/
theorem Throughout.of_invariant {ok : σ → ι → Prop} {P Q : σ → Prop}
    (pres : ∀ s l, P s → ok s l → P (step s l).1) (hQ : ∀ s, P s → Q s) :
    ∀ (ls : List ι) (s : σ), P s → Meets step ok s ls → Throughout step Q s ls := by
  intro ls
  induction ls with
  | nil => intro s h _; exact hQ s h
  | cons l ls ih =>
      intro s h hok
      exact ⟨hQ s h, ih _ (pres s l h hok.1) hok.2⟩

end Rules

/-! ## Simulation -/

/-- **The simulation rule.** Two machines on the same labels, related at
the start, whose steps keep the relation and emit the same events, emit
the same trace and end related. -/
theorem run_simulates {τ : Type} {step' : τ → ι → τ × List ε} {R : σ → τ → Prop} {s₀ : σ} {t₀ : τ}
    (init : R s₀ t₀)
    (sim : ∀ s t l, R s t → R (step s l).1 (step' t l).1 ∧ (step s l).2 = (step' t l).2)
    (ls : List ι) :
    R (run step s₀ ls).1 (run step' t₀ ls).1 ∧ (run step s₀ ls).2 = (run step' t₀ ls).2 := by
  have both : ∀ (ls : List ι) (s : σ) (t : τ) (tr : List ε), R s t →
      R (exec step (s, tr) ls).1 (exec step' (t, tr) ls).1 ∧
        (exec step (s, tr) ls).2 = (exec step' (t, tr) ls).2 := by
    intro ls
    induction ls with
    | nil => intro s t tr h; exact ⟨h, rfl⟩
    | cons l ls ih =>
        intro s t tr h
        obtain ⟨hnext, hevents⟩ := sim s t l h
        simp only [exec, hevents]
        exact ih _ _ _ hnext
  exact both ls s₀ t₀ [] init

/-! ## Purging -/

end Machine
