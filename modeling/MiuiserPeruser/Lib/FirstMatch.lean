import Mathlib.Order.Lattice
import Mathlib.Data.List.Basic

/-!
# Chains of conditions

An `if` chain that returns a value at the first condition that holds, as a
list of rules. Where the values fall along the chain, the first match is the
best one (`firstMatch_eq_best`), and the order of the conditions does not
matter any more: more conditions can only raise the value
(`firstMatch_mono`).
-/

namespace FirstMatch

variable {α β : Type}

/-- A value, and the inputs it is for. -/
structure Rule (α β : Type) where
  applies : α → Bool
  value : β

/-- The value of the first rule that applies. -/
def firstMatch (default : β) : List (Rule α β) → α → β
  | [], _ => default
  | r :: rules, x => if r.applies x then r.value else firstMatch default rules x

/-- The greatest value of a rule that applies, or the default. -/
def best [LinearOrder β] (default : β) (rules : List (Rule α β)) (x : α) : β :=
  ((rules.filter (·.applies x)).map Rule.value).foldr max default

/-- No rule has a greater value than the rules before it. -/
def Falling [LinearOrder β] (default : β) (rules : List (Rule α β)) : Prop :=
  (rules.map Rule.value ++ [default]).Pairwise (· ≥ ·)

section Best

variable [LinearOrder β] {default : β} {rules : List (Rule α β)} {x y : α}

theorem foldr_max_le {b : β} {vs : List β} (hdefault : default ≤ b) (h : ∀ v ∈ vs, v ≤ b) :
    vs.foldr max default ≤ b := by
  induction vs with
  | nil => exact hdefault
  | cons v vs ih =>
      exact max_le (h v List.mem_cons_self) (ih fun w hw => h w (List.mem_cons_of_mem v hw))

theorem le_foldr_max {v : β} {vs : List β} (h : v ∈ default :: vs) : v ≤ vs.foldr max default := by
  induction vs with
  | nil => exact (List.mem_singleton.mp h).le
  | cons w vs ih =>
      rcases List.mem_cons.mp h with rfl | h
      · exact (ih List.mem_cons_self).trans (le_max_right w _)
      · rcases List.mem_cons.mp h with rfl | h
        · exact le_max_left _ _
        · exact (ih (List.mem_cons_of_mem _ h)).trans (le_max_right w _)

theorem default_le_best : default ≤ best default rules x := le_foldr_max List.mem_cons_self

theorem le_best {r : Rule α β} (hr : r ∈ rules) (hx : r.applies x = true) :
    r.value ≤ best default rules x := by
  apply le_foldr_max
  apply List.mem_cons_of_mem
  exact List.mem_map_of_mem (List.mem_filter.mpr ⟨hr, hx⟩)

/-- A bound on the values that count is a bound on the best one. -/
theorem best_le {b : β} (hdefault : default ≤ b)
    (h : ∀ r ∈ rules, r.applies x = true → r.value ≤ b) : best default rules x ≤ b := by
  apply foldr_max_le hdefault
  intro v hv
  obtain ⟨r, hr, rfl⟩ := List.mem_map.mp hv
  obtain ⟨hr, hx⟩ := List.mem_filter.mp hr
  exact h r hr hx

/-- **The first match is the best one.** -/
theorem firstMatch_eq_best (h : Falling default rules) :
    firstMatch default rules x = best default rules x := by
  induction rules with
  | nil => rfl
  | cons r rules ih =>
      obtain ⟨hr, hrules⟩ := List.pairwise_cons.mp h
      have hdefault : default ≤ r.value := hr default (by simp)
      rw [firstMatch]
      by_cases hx : r.applies x = true
      · rw [if_pos hx]
        apply le_antisymm (le_best List.mem_cons_self hx)
        apply best_le hdefault
        intro s hs _
        rcases List.mem_cons.mp hs with rfl | hs
        · exact le_rfl
        · exact hr s.value (List.mem_append_left _ (List.mem_map_of_mem hs))
      · have hskip : (r :: rules).filter (·.applies x) = rules.filter (·.applies x) :=
          List.filter_cons_of_neg hx
        rw [if_neg hx, ih hrules, best, best, hskip]

theorem best_mono (h : ∀ r ∈ rules, r.applies x = true → r.applies y = true) :
    best default rules x ≤ best default rules y :=
  best_le default_le_best fun r hr hx => le_best hr (h r hr hx)

/-- What satisfies more conditions has no lower value. -/
theorem firstMatch_mono (h : Falling default rules)
    (hmono : ∀ r ∈ rules, r.applies x = true → r.applies y = true) :
    firstMatch default rules x ≤ firstMatch default rules y := by
  rw [firstMatch_eq_best h, firstMatch_eq_best h]
  exact best_mono hmono

end Best

end FirstMatch
