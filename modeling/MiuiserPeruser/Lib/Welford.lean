import Mathlib.Algebra.BigOperators.Group.List.Basic
import Mathlib.Algebra.Order.BigOperators.Group.List
import Mathlib.Algebra.Order.Field.Basic
import Mathlib.Data.Nat.Cast.Order.Field
import Mathlib.Tactic.FieldSimp
import Mathlib.Tactic.Ring
import Mathlib.Tactic.Positivity

/-!
# Mean and variance, one value at a time

The mean and the variance of a list of values, and what one more value does
to them: the new mean is the old one and a share of the distance, and the sum
of the squared distances grows by the product of the distances from the old
mean and from the new one (`sumSq_concat`). So both can be kept without the
values. Neither takes notice of the order of the values.
-/

namespace Welford

variable {K : Type} [Field K]

/-- The arithmetic mean. -/
def mean (xs : List K) : K := xs.sum / xs.length

/-- The sum of the squared distances from the mean. -/
def sumSq (xs : List K) : K := (xs.map fun x => (x - mean xs) ^ 2).sum

/-- The variance of the values as a population. -/
def variance (xs : List K) : K := sumSq xs / xs.length

section Order

variable {xs ys : List K}

theorem mean_perm (h : xs.Perm ys) : mean xs = mean ys := by
  rw [mean, mean, h.sum_eq, h.length_eq]

theorem variance_perm (h : xs.Perm ys) : variance xs = variance ys := by
  rw [variance, variance, sumSq, sumSq, mean_perm h, (h.map _).sum_eq, h.length_eq]

end Order

theorem mean_singleton (x : K) : mean [x] = x := by simp [mean]

theorem variance_singleton (x : K) : variance [x] = 0 := by simp [variance, sumSq, mean_singleton]

/-- The squared distances from any point. -/
theorem sum_sq_dist (xs : List K) (m : K) :
    (xs.map fun x => (x - m) ^ 2).sum = (xs.map fun x => x ^ 2).sum - 2 * m * xs.sum + xs.length * m ^ 2 := by
  induction xs with
  | nil => simp
  | cons x xs ih =>
      simp only [List.map_cons, List.sum_cons, List.length_cons, ih]
      push_cast
      ring

variable [LinearOrder K] [IsStrictOrderedRing K]

theorem variance_nonneg (xs : List K) : 0 ≤ variance xs := by
  have hsum : 0 ≤ sumSq xs := by
    apply List.sum_nonneg
    intro y hy
    obtain ⟨x, -, rfl⟩ := List.mem_map.mp hy
    exact sq_nonneg _
  exact div_nonneg hsum (Nat.cast_nonneg _)

theorem sum_eq_mean {xs : List K} (h : xs ≠ []) : xs.sum = mean xs * xs.length := by
  have hlen : (xs.length : K) ≠ 0 := Nat.cast_ne_zero.mpr (List.length_pos_iff.mpr h).ne'
  rw [mean, div_mul_cancel₀ _ hlen]

section Step

variable {xs : List K}

/-- The mean of one more value. -/
theorem mean_concat (h : xs ≠ []) (x : K) : mean (xs ++ [x]) = mean xs + (x - mean xs) / (xs.length + 1) := by
  have hlen : (xs.length + 1 : K) ≠ 0 := by positivity
  have hsum : (xs ++ [x]).sum = mean xs * xs.length + x := by
    rw [List.sum_append, sum_eq_mean h, List.sum_singleton]
  rw [mean, hsum, List.length_append, List.length_singleton]
  push_cast
  field_simp
  ring

/-- **What one more value adds to the squared distances.** -/
theorem sumSq_concat (h : xs ≠ []) (x : K) :
    sumSq (xs ++ [x]) = sumSq xs + (x - mean xs) * (x - mean (xs ++ [x])) := by
  have hlen : (xs.length + 1 : K) ≠ 0 := by positivity
  have hnew : sumSq (xs ++ [x]) =
      (xs.map fun y => (y - mean (xs ++ [x])) ^ 2).sum + (x - mean (xs ++ [x])) ^ 2 := by
    rw [sumSq, List.map_append, List.sum_append, List.map_singleton, List.sum_singleton]
  rw [hnew, sumSq, sum_sq_dist, sum_sq_dist, sum_eq_mean h, mean_concat h]
  field_simp
  ring

/-- The step of a running variance. -/
theorem variance_concat (h : xs ≠ []) (x : K) : variance (xs ++ [x]) =
    (variance xs * xs.length + (x - mean xs) * (x - mean (xs ++ [x]))) / (xs.length + 1) := by
  have hlen : (xs.length : K) ≠ 0 := Nat.cast_ne_zero.mpr (List.length_pos_iff.mpr h).ne'
  have hback : variance xs * xs.length = sumSq xs := div_mul_cancel₀ _ hlen
  rw [hback, variance, sumSq_concat h, List.length_append, List.length_singleton]
  push_cast
  rfl

end Step

end Welford
