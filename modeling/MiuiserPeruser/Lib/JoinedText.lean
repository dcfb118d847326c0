import MiuiserPeruser.Lib.Strstr

/-!
# Names in one text

A set of names kept as one text, each name with a separator behind it, and
asked with `strstr`. A word without separator is found exactly if it is part
of one of the names (`infix_joined_iff`), so the text answers for the set if
no name is part of another. A buffer of fixed size cuts the last name off
(`clipped`), as long as the names before it leave room.
-/

namespace CText

section Joined

variable {α : Type} {sep : α} {w a b : List α} {names front : List (List α)}

/-- A word without a letter is in one of the two parts that letter stands between. -/
theorem infix_append_cons_iff {d : α} (hd : d ∉ w) : w <:+: a ++ d :: b ↔ w <:+: a ∨ w <:+: b := by
  constructor
  · intro h
    rcases List.infix_append_iff.mp h with h | h | ⟨x, y, rfl, hx, hy⟩
    · exact Or.inl h
    · rcases List.infix_cons_iff.mp h with h | h
      · cases w with
        | nil => exact Or.inl List.nil_infix
        | cons c w =>
            obtain ⟨rfl, -⟩ := List.cons_prefix_cons.mp h
            exact absurd List.mem_cons_self hd
      · exact Or.inr h
    · cases y with
      | nil =>
          rw [List.append_nil]
          exact Or.inl hx.isInfix
      | cons c y =>
          obtain ⟨rfl, -⟩ := List.cons_prefix_cons.mp hy
          exact absurd (List.mem_append_right x List.mem_cons_self) hd
  · rintro (h | h)
    · exact List.infix_append_of_infix_left h
    · exact List.infix_append_of_infix_right (h.trans (List.suffix_cons d b).isInfix)

/-- It is not found across that letter. -/
theorem strstr_append_cons [DecidableEq α] {d : α} (hd : d ∉ w) (ha : ¬ w <:+: a) :
    strstr w (a ++ d :: b) = strstr w b := by
  have hnot : ¬ w <:+: a ++ [d] := by
    rw [infix_append_cons_iff hd]
    rintro (h | h)
    · exact ha h
    · exact ha (List.infix_nil.mp h ▸ List.nil_infix)
  have hsplit : a ++ d :: b = (a ++ [d]) ++ b := by simp
  rw [hsplit]
  exact strstr_append_of_last hd (.inr List.getLast?_concat) hnot

/-- The names, each with the separator behind it. -/
def joined (sep : α) (names : List (List α)) : List α := names.flatMap (· ++ [sep])

@[simp] theorem joined_nil : joined sep [] = [] := rfl

theorem joined_cons (n : List α) : joined sep (n :: names) = n ++ sep :: joined sep names := by
  simp [joined]

theorem joined_concat (n : List α) : joined sep (names ++ [n]) = joined sep names ++ (n ++ [sep]) := by
  simp [joined]

/-- **What is found in the text of the names is part of a name.** -/
theorem infix_joined_iff (hsep : sep ∉ w) (hne : w ≠ []) :
    w <:+: joined sep names ↔ ∃ n ∈ names, w <:+: n := by
  induction names with
  | nil => simp [hne]
  | cons n names ih => simp [joined_cons, infix_append_cons_iff hsep, ih]

/-- A name is found. -/
theorem infix_joined_of_mem (h : w ∈ names) : w <:+: joined sep names := by
  obtain ⟨before, after, rfl⟩ := List.append_of_mem h
  exact ⟨joined sep before, sep :: joined sep after, by simp [joined]⟩

/-- With the separators only between the names, and something behind them. -/
theorem infix_intercalate_iff {e : α} {rest : List α} (hsep : sep ∉ w) (he : e ∉ w) :
    w <:+: [sep].intercalate (a :: names) ++ e :: rest ↔ (∃ n ∈ a :: names, w <:+: n) ∨ w <:+: rest := by
  induction names generalizing a with
  | nil => rw [List.intercalate_singleton, infix_append_cons_iff he]; simp
  | cons n names ih =>
      have htext : [sep].intercalate (a :: n :: names) ++ e :: rest =
          a ++ sep :: ([sep].intercalate (n :: names) ++ e :: rest) := by simp
      rw [htext, infix_append_cons_iff hsep, ih]
      simp only [List.mem_cons, exists_eq_or_imp, or_assoc]

/-! ## A buffer of fixed size -/

/-- The space behind the text in a buffer, less `k`: an unsigned difference. -/
def space (size : UInt64) (k : UInt64) (text : List α) : Nat :=
  (size - UInt64.ofNat text.length - k).toNat

theorem space_eq {size k : UInt64} {text : List α} (h : text.length + k.toNat ≤ size.toNat) :
    space size k text = size.toNat - text.length - k.toNat := by
  have hlt := size.toNat_lt
  have hlen : (UInt64.ofNat text.length).toNat = text.length :=
    UInt64.toNat_ofNat_of_lt' (by show text.length < 2 ^ 64; omega)
  have hle : UInt64.ofNat text.length ≤ size := UInt64.le_iff_toNat_le.mpr (by omega)
  have hsub : (size - UInt64.ofNat text.length).toNat = size.toNat - text.length := by
    rw [UInt64.toNat_sub_of_le _ _ hle, hlen]
  have hk : k ≤ size - UInt64.ofNat text.length := UInt64.le_iff_toNat_le.mpr (by omega)
  rw [space, UInt64.toNat_sub_of_le _ _ hk, hsub]

/-- The text of the names, cut so that a separator ends it. -/
def clipped (sep : α) (size : Nat) (names : List (List α)) : List α :=
  if (joined sep names).length < size then joined sep names
  else (joined sep names).take (size - 2) ++ [sep]

/-- Only the last name is cut. -/
theorem clipped_concat {size : Nat} (hfront : (joined sep front).length ≤ size - 2) (n : List α) :
    clipped sep size (front ++ [n]) =
      joined sep (front ++ [n.take (size - 2 - (joined sep front).length)]) := by
  rw [clipped, joined_concat, joined_concat]
  simp only [List.length_append, List.length_singleton]
  split
  · rw [List.take_of_length_le (by omega)]
  · rw [List.take_append, List.take_of_length_le hfront, List.take_append_of_le_length (by omega),
      List.append_assoc]

theorem length_clipped_lt {size : Nat} (hsize : 2 ≤ size) : (clipped sep size names).length < size := by
  rw [clipped]
  split
  · assumption
  · rw [List.length_append, List.length_take, List.length_singleton]
    omega

/-- A text with room behind it is not cut. -/
theorem length_clipped_le_iff {size : Nat} (hsize : 2 ≤ size) :
    (clipped sep size names).length ≤ size - 2 ↔ (joined sep names).length ≤ size - 2 := by
  rw [clipped]
  split
  · exact Iff.rfl
  · rw [List.length_append, List.length_take, List.length_singleton]
    omega

theorem clipped_of_le {size : Nat} (hsize : 2 ≤ size) (h : (joined sep names).length ≤ size - 2) :
    clipped sep size names = joined sep names := if_pos (by omega)

/-- The front of a sequence of names needs less room. -/
theorem length_joined_dropLast_le :
    (joined sep names.dropLast).length ≤ (joined sep names).length := by
  cases names using List.reverseRecOn with
  | nil => exact Nat.le_refl _
  | append_singleton front n =>
      rw [List.dropLast_concat, joined_concat, List.length_append]
      omega

end Joined

end CText
