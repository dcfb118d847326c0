import Mathlib.Data.List.DropRight
import Mathlib.Data.List.Pairwise

/-!
# Insertion sort in place

The sort C programs write by hand: the key is saved, the entries that
belong behind it move up one place from the right, and the key fills the
hole they leave. `above x key` says that `x` has to move up.

`insertionSort_eq` says what the array holds afterwards, without the array:
the entries inserted one by one (`insertRight`). From it follow that the
array is permuted (`insertionSort_perm`) and, where `above` is a strict
weak order, in order (`insertionSort_inOrder`).
-/

namespace InsertionSort

variable {α : Type} (above : α → α → Bool)

/-! ## The loops -/

/-- The inner loop: the hole is at `hole`, the saved key is `key`. -/
def shift (key : α) : Nat → List α → List α
  | 0, a => a.set 0 key
  | j + 1, a =>
      match a[j]? with
      | none => a
      | some x => if above x key then shift key j (a.set (j + 1) x) else a.set (j + 1) key

/-- The outer loop, from entry `i` on, for the `k` entries that are left. -/
def sortFrom (i : Nat) : Nat → List α → List α
  | 0, a => a
  | k + 1, a =>
      match a[i]? with
      | none => a
      | some key => sortFrom (i + 1) k (shift above key i a)

/-- The sort: `for (int i = 1; i < n; i++)`. -/
def insertionSort (a : List α) : List α := sortFrom above 1 (a.length - 1) a

/-! ## What they compute -/

/-- The key goes in front of the entries at the end that are above it. -/
def insertRight (l : List α) (key : α) : List α :=
  l.rdropWhile (above · key) ++ key :: l.rtakeWhile (above · key)

variable {above}

theorem shift_eq (key hole : α) (u w : List α) :
    shift above key u.length (u ++ hole :: w) = insertRight above u key ++ w := by
  induction u using List.reverseRecOn generalizing hole w with
  | nil => rfl
  | append_singleton u x ih =>
      have hx : (u ++ [x] ++ hole :: w)[u.length]? = some x := by simp
      have hset : ∀ y, (u ++ [x] ++ hole :: w).set (u.length + 1) y = u ++ x :: y :: w := by
        intro y
        simp
      rw [List.length_append, List.length_singleton, shift, hx]
      simp only [hset]
      by_cases hab : above x key = true
      · rw [if_pos hab, ih x (x :: w), insertRight, insertRight,
          List.rdropWhile_concat_pos (above · key) _ _ hab,
          List.rtakeWhile_concat_pos (above · key) _ _ hab]
        simp
      · rw [if_neg hab, insertRight, List.rdropWhile_concat_neg (above · key) _ _ hab,
          List.rtakeWhile_concat_neg (above · key) _ _ hab]
        simp

theorem length_insertRight (l : List α) (key : α) :
    (insertRight above l key).length = l.length + 1 := by
  have h : (l.rdropWhile (above · key) ++ l.rtakeWhile (above · key)).length = l.length := by
    rw [List.rdropWhile_append_rtakeWhile]
  rw [List.length_append] at h
  rw [insertRight, List.length_append, List.length_cons]
  omega

theorem sortFrom_eq (u w : List α) :
    sortFrom above u.length w.length (u ++ w) = w.foldl (insertRight above) u := by
  induction w generalizing u with
  | nil => simp [sortFrom]
  | cons key w ih =>
      have hkey : (u ++ key :: w)[u.length]? = some key := by simp
      rw [List.length_cons, sortFrom, hkey]
      simp only [shift_eq, List.foldl_cons]
      rw [← ih, length_insertRight]

/-- **The sort inserts the entries one by one**, from left to right. -/
theorem insertionSort_eq (a : List α) : insertionSort above a = a.foldl (insertRight above) [] := by
  cases a with
  | nil => rfl
  | cons x a => exact sortFrom_eq [x] a

/-! ## Permutation and order -/

theorem insertRight_perm (l : List α) (key : α) : (insertRight above l key).Perm (key :: l) := by
  have h : (insertRight above l key).Perm
      (key :: (l.rdropWhile (above · key) ++ l.rtakeWhile (above · key))) := List.perm_middle
  rwa [List.rdropWhile_append_rtakeWhile] at h

theorem foldl_insertRight_perm (w u : List α) : (w.foldl (insertRight above) u).Perm (u ++ w) := by
  induction w generalizing u with
  | nil => simp
  | cons key w ih =>
      calc (w.foldl (insertRight above) (insertRight above u key)).Perm (insertRight above u key ++ w) := ih _
        (insertRight above u key ++ w).Perm (key :: u ++ w) := (insertRight_perm u key).append_right w
        (key :: u ++ w).Perm (u ++ key :: w) := List.perm_middle.symm

theorem insertionSort_perm (a : List α) : (insertionSort above a).Perm a := by
  rw [insertionSort_eq]
  exact foldl_insertRight_perm a []

variable (above) in
/-- What makes `above` an order to sort by: a strict weak order. -/
structure IsOrder : Prop where
  asymm : ∀ x y, above x y = true → above y x = false
  trans : ∀ x y z, above x y = false → above y z = false → above x z = false

variable (above) in
/-- No entry has to move up past a later one. -/
def InOrder (l : List α) : Prop := l.Pairwise fun x y => above x y = false

theorem insertRight_inOrder (h : IsOrder above) {l : List α} (hl : InOrder above l) (key : α) :
    InOrder above (insertRight above l key) := by
  have hsplit : l.rdropWhile (above · key) ++ l.rtakeWhile (above · key) = l :=
    List.rdropWhile_append_rtakeWhile
  rw [← hsplit, InOrder, List.pairwise_append] at hl
  obtain ⟨hfront, hback, hacross⟩ := hl
  have hbehind : ∀ y ∈ l.rtakeWhile (above · key), above y key = true :=
    fun y hy => List.mem_rtakeWhile_imp (p := (above · key)) hy
  -- the last entry that stays is not above the key, and none before it is
  have hstays : ∀ x ∈ l.rdropWhile (above · key), above x key = false := by
    intro x hx
    have hne := List.ne_nil_of_mem hx
    have hlast : above ((l.rdropWhile (above · key)).getLast hne) key = false :=
      Bool.eq_false_iff.mpr (List.rdropWhile_last_not (above · key) l hne)
    rw [← List.dropLast_append_getLast hne] at hx hfront
    rcases List.mem_append.mp hx with hx | hx
    · have hbefore := (List.pairwise_append.mp hfront).2.2 x hx _ (List.mem_singleton_self _)
      exact h.trans _ _ _ hbefore hlast
    · rwa [List.mem_singleton.mp hx]
  rw [InOrder, insertRight, List.pairwise_append, List.pairwise_cons]
  refine ⟨hfront, ⟨fun y hy => h.asymm y key (hbehind y hy), hback⟩, ?_⟩
  intro x hx y hy
  rcases List.mem_cons.mp hy with rfl | hy
  · exact hstays x hx
  · exact hacross x hx y hy

/-- **The sort sorts.** -/
theorem insertionSort_inOrder (h : IsOrder above) (a : List α) :
    InOrder above (insertionSort above a) := by
  have more : ∀ (w u : List α), InOrder above u → InOrder above (w.foldl (insertRight above) u) := by
    intro w
    induction w with
    | nil => exact fun u hu => hu
    | cons key w ih => exact fun u hu => ih _ (insertRight_inOrder h hu key)
  rw [insertionSort_eq]
  exact more a [] List.Pairwise.nil

end InsertionSort
