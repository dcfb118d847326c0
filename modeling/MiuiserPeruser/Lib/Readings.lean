import Mathlib.Data.List.DropRight

/-!
# Histories of readings that may be unknown

A history is a list of polls, oldest first. What a poll reads may be unknown,
and then says nothing: the latest reading, the changes and the runs of a
history are those of its known readings. Each is given by what one more poll
makes of it.
-/

namespace Readings

section Known

variable {α β : Type} {reading : α → Option β} {polls : List α} {a : α} {b : β}

/-- The latest known reading. -/
def latest (reading : α → Option β) (polls : List α) : Option β := (polls.filterMap reading).getLast?

theorem latest_concat_none (h : reading a = none) : latest reading (polls ++ [a]) = latest reading polls := by
  simp [latest, List.filterMap_append, h]

theorem latest_concat_some (h : reading a = some b) : latest reading (polls ++ [a]) = some b := by
  simp [latest, List.filterMap_append, h]

theorem filter_concat_some (h : reading a = some b) :
    (polls ++ [a]).filter (fun a => (reading a).isSome) =
      polls.filter (fun a => (reading a).isSome) ++ [a] := by
  rw [List.filter_append, List.filter_cons_of_pos (by simp [h]), List.filter_nil]

/-- The pairs of neighbours of a list, with one more at its end. -/
theorem zip_tail_concat (l : List β) (x : β) :
    (l ++ [x]).zip (l ++ [x]).tail = l.zip l.tail ++ (l.getLast?.map (·, x)).toList := by
  induction l with
  | nil => rfl
  | cons y l ih =>
      cases l with
      | nil => rfl
      | cons z l =>
          show (y, z) :: ((z :: l) ++ [x]).zip ((z :: l) ++ [x]).tail = _
          rw [ih, List.getLast?_cons_cons]
          rfl

end Known

section Runs

variable {α β : Type} [DecidableEq β] (reading : α → Option β)

/-- The first poll of the current run of known readings `b`, if there is one now. -/
def runStart (b : β) (polls : List α) : Option α :=
  ((polls.filter fun a => (reading a).isSome).rtakeWhile fun a => reading a = some b).head?

/-- How often a known reading `b` is followed by a known reading `c`. -/
def changes (b c : β) (polls : List α) : Nat :=
  ((polls.filterMap reading).zip (polls.filterMap reading).tail).count (b, c)

variable {reading} {polls : List α} {a : α} {b c d : β}

theorem runStart_concat_none (h : reading a = none) :
    runStart reading b (polls ++ [a]) = runStart reading b polls := by
  rw [runStart, runStart, List.filter_append, List.filter_cons_of_neg (by simp [h]), List.filter_nil,
    List.append_nil]

/-- Another reading ends a run. -/
theorem runStart_concat_other (h : reading a = some c) (hne : c ≠ b) :
    runStart reading b (polls ++ [a]) = none := by
  rw [runStart, filter_concat_some h, List.rtakeWhile_concat, if_neg (by simp [h, hne]), List.head?_nil]

theorem runStart_eq_none_iff : runStart reading b polls = none ↔ latest reading polls ≠ some b := by
  induction polls using List.reverseRecOn with
  | nil => simp [runStart, latest]
  | append_singleton polls a ih =>
      cases ha : reading a with
      | none => rw [runStart_concat_none ha, latest_concat_none ha, ih]
      | some c =>
          rw [latest_concat_some ha]
          by_cases hcb : c = b
          · subst hcb
            rw [runStart, filter_concat_some ha, List.rtakeWhile_concat, if_pos (by simp [ha])]
            simp
          · rw [runStart_concat_other ha hcb]
            simp [hcb]

/-- The same reading continues a run, or starts one. -/
theorem runStart_concat_same (h : reading a = some b) :
    runStart reading b (polls ++ [a]) =
      if latest reading polls = some b then runStart reading b polls else some a := by
  have hrun : runStart reading b (polls ++ [a]) = (runStart reading b polls).or (some a) := by
    rw [runStart, filter_concat_some h, List.rtakeWhile_concat, if_pos (by simp [h]), List.head?_append]
    rfl
  rw [hrun]
  by_cases hlatest : latest reading polls = some b
  · obtain ⟨x, hx⟩ := Option.ne_none_iff_exists'.mp (mt runStart_eq_none_iff.mp (not_not.mpr hlatest))
    rw [if_pos hlatest, hx, Option.some_or]
  · rw [if_neg hlatest, runStart_eq_none_iff.mpr hlatest, Option.none_or]

theorem changes_concat_none (h : reading a = none) :
    changes reading b c (polls ++ [a]) = changes reading b c polls := by
  simp [changes, List.filterMap_append, h]

theorem changes_concat_some (h : reading a = some d) :
    changes reading b c (polls ++ [a]) =
      changes reading b c polls + if latest reading polls = some b ∧ d = c then 1 else 0 := by
  have hlist : (polls ++ [a]).filterMap reading = polls.filterMap reading ++ [d] := by
    simp [List.filterMap_append, h]
  rw [changes, hlist, zip_tail_concat, List.count_append, changes, latest]
  congr 1
  cases hlast : (polls.filterMap reading).getLast? with
  | none => rfl
  | some e => simp [List.count_singleton, Prod.ext_iff]

end Runs

end Readings
