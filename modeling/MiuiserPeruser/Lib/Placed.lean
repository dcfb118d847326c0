import Mathlib.Data.List.Infix
import MiuiserPeruser.Lib.Readings

/-!
# Lines in sections

A text is read line by line. Some lines are headers and begin a section; a
section ends at the next header, or at a line that leaves it. A reader that
keeps the section it is in, and does with each line what the section says,
has in the end read the lines of the sections in their order
(`foldl_readStep`): the section of a line is told by the lines before it alone
(`place`). What it finds goes into arrays that fill up (`push`).
-/

namespace Placed

open Readings

section Reader

variable {α κ σ : Type} (headerOf : α → Option κ) (leaves : κ → α → Bool) (act : κ → σ → α → σ)

/-- The section after a line. -/
def placeStep (cur : Option κ) (line : α) : Option κ :=
  match headerOf line with
  | some k => some k
  | none => cur.filter fun k => !leaves k line

/-- A line of the reader. -/
def readStep (st : Option κ × σ) (line : α) : Option κ × σ :=
  match headerOf line with
  | some k => (some k, st.2)
  | none =>
      let cur := placeStep headerOf leaves st.1 line
      (cur, cur.elim st.2 fun k => act k st.2 line)

/-- The lines behind the last header. -/
def body (lines : List α) : List α := lines.rtakeWhile fun line => (headerOf line).isNone

/-- The section at the end of some lines: that of the last header, if no line since leaves it. -/
def place (lines : List α) : Option κ :=
  (latest headerOf lines).filter fun k => (body headerOf lines).all fun line => !leaves k line

/-- The last of some lines, and its section; nothing for a header. -/
def placedLast (lines : List α) : Option (κ × α) :=
  (place headerOf leaves lines).bind fun k =>
    (lines.getLast?.filter fun line => (headerOf line).isNone).map fun line => (k, line)

/-- The lines of the sections. -/
def placed (lines : List α) : List (κ × α) := lines.inits.filterMap (placedLast headerOf leaves)

end Reader

section Step

variable {α κ σ : Type} {headerOf : α → Option κ} {leaves : κ → α → Bool} {act : κ → σ → α → σ}

theorem body_concat_header {line : α} {k : κ} (h : headerOf line = some k) (lines : List α) :
    body headerOf (lines ++ [line]) = [] := by
  rw [body, List.rtakeWhile_concat_neg]
  simp [h]

theorem body_concat_line {line : α} (h : headerOf line = none) (lines : List α) :
    body headerOf (lines ++ [line]) = body headerOf lines ++ [line] := by
  rw [body, List.rtakeWhile_concat_pos _ _ _ (by simp [h]), body]

/-- The section is told by the last line. -/
theorem place_concat (lines : List α) (line : α) :
    place headerOf leaves (lines ++ [line]) =
      placeStep headerOf leaves (place headerOf leaves lines) line := by
  unfold placeStep
  cases hline : headerOf line with
  | some k =>
      rw [place, latest_concat_some hline, body_concat_header hline]
      rfl
  | none =>
      rw [place, latest_concat_none hline, body_concat_line hline, place]
      cases latest headerOf lines with
      | none => rfl
      | some k =>
          simp only [List.all_append, List.all_cons, List.all_nil, Bool.and_true]
          cases hall : (body headerOf lines).all fun line => !leaves k line with
          | true => simp [Option.filter_some, hall]
          | false => simp [Option.filter_some, hall]

theorem placedLast_header {line : α} {k : κ} (h : headerOf line = some k) (lines : List α) :
    placedLast headerOf leaves (lines ++ [line]) = none := by
  have hno : (some line).filter (fun line => (headerOf line).isNone) = none :=
    Option.filter_eq_none_iff.mpr fun a ha => by simp [← Option.some.inj ha, h]
  rw [placedLast, List.getLast?_concat, hno]
  exact Option.bind_fun_none _

theorem placedLast_line {line : α} (h : headerOf line = none) (lines : List α) :
    placedLast headerOf leaves (lines ++ [line]) =
      (placeStep headerOf leaves (place headerOf leaves lines) line).map fun k => (k, line) := by
  have hyes : (some line).filter (fun line => (headerOf line).isNone) = some line :=
    Option.filter_eq_some_iff.mpr ⟨rfl, by simp [h]⟩
  rw [placedLast, List.getLast?_concat, hyes, place_concat, Option.map_eq_bind]
  rfl

theorem filterMap_concat {β : Type} (f : α → Option β) (l : List α) (x : α) :
    (l ++ [x]).filterMap f = l.filterMap f ++ (f x).toList := by
  rw [List.filterMap_append]
  cases h : f x with
  | none => rw [List.filterMap_cons_none h]; rfl
  | some y => rw [List.filterMap_cons_some h]; rfl

theorem placed_concat (lines : List α) (line : α) :
    placed headerOf leaves (lines ++ [line]) =
      placed headerOf leaves lines ++ (placedLast headerOf leaves (lines ++ [line])).toList := by
  have hinits : (lines ++ [line]).inits = lines.inits ++ [lines ++ [line]] := by
    rw [List.inits_append]
    rfl
  rw [placed, hinits, filterMap_concat]
  rfl

/-- **What a reader has read** are the lines of the sections. -/
theorem foldl_readStep (lines : List α) (s : σ) :
    lines.foldl (readStep headerOf leaves act) (none, s) =
      (place headerOf leaves lines, (placed headerOf leaves lines).foldl (fun s x => act x.1 s x.2) s) := by
  induction lines using List.reverseRecOn with
  | nil => rfl
  | append_singleton lines line ih =>
      rw [List.foldl_concat, ih, placed_concat, List.foldl_append, place_concat]
      cases hline : headerOf line with
      | some k =>
          rw [placedLast_header hline]
          simp only [readStep, placeStep, hline]
          rfl
      | none =>
          rw [placedLast_line hline]
          simp only [readStep, hline]
          cases placeStep headerOf leaves (place headerOf leaves lines) line with
          | none => rfl
          | some k => rfl

end Step

/-! ## Arrays that fill up -/

/-- Append, if there is room. -/
def push {α : Type} (cap : Nat) (l : List α) (x : α) : List α := if l.length < cap then l ++ [x] else l

/-- An array holds the first of all that was appended. -/
theorem push_take {α : Type} {cap : Nat} (l : List α) (x : α) :
    push cap (l.take cap) x = (l ++ [x]).take cap := by
  unfold push
  by_cases hroom : l.length < cap
  · rw [List.take_of_length_le (Nat.le_of_lt hroom), if_pos hroom, List.take_of_length_le]
    rw [List.length_append, List.length_singleton]
    exact hroom
  · have hfull : ¬ (l.take cap).length < cap := by
      rw [List.length_take]
      omega
    rw [if_neg hfull, List.take_append_of_le_length (Nat.le_of_not_lt hroom)]

end Placed
