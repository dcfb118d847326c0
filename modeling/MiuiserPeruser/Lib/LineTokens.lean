import MiuiserPeruser.Lib.CText

/-!
# The lines strtok finds

`strtok(…, "\n")`, called until it returns NULL, returns the lines of a text
that are not empty (`strtok_lineTokens`). What its users rely on: of a text
that is printed line by line, a buffer keeps the lines that end in time, and
the start of the next one (`lineTokens_take`).
-/

namespace CText

/-- The lines the calls of `strtok(s, "\n")` return. -/
def lineTokens (s : List Char) : List (List Char) := (s.splitOn '\n').filter (· ≠ [])

/-- A line as it is printed: not empty, and no line end in it. -/
def IsLine (l : List Char) : Prop := l ≠ [] ∧ '\n' ∉ l

/-- The text of some lines. -/
def textLines (lines : List (List Char)) : List Char := lines.flatMap (· ++ ['\n'])

/-- The lines in the first `room` bytes of the text of some lines. -/
def cutTextLines : Nat → List (List Char) → List (List Char)
  | _, [] => []
  | room, l :: lines =>
      if l.length < room then l :: cutTextLines (room - l.length - 1) lines
      else if room = 0 then []
      else [l.take room]

section Tokens

variable {s l : List Char} {lines : List (List Char)}

theorem textLines_cons (l : List Char) (lines : List (List Char)) :
    textLines (l :: lines) = l ++ '\n' :: textLines lines := by simp [textLines]

theorem lineTokens_append (u v : List Char) : lineTokens (u ++ '\n' :: v) = lineTokens u ++ lineTokens v := by
  rw [lineTokens, List.splitOn_append_cons_self, List.filter_append]
  rfl

theorem lineTokens_nil : lineTokens [] = [] := rfl

theorem lineTokens_line (h : IsLine l) : lineTokens l = [l] := by
  rw [lineTokens, List.splitOn_eq_singleton h.2, List.filter_cons_of_pos (by simpa using h.1)]
  rfl

theorem lineTokens_cons (h : IsLine l) (rest : List Char) :
    lineTokens (l ++ '\n' :: rest) = l :: lineTokens rest := by
  rw [lineTokens_append, lineTokens_line h]
  rfl

/-- The text of some lines gives them back. -/
theorem lineTokens_textLines (h : ∀ l ∈ lines, IsLine l) : lineTokens (textLines lines) = lines := by
  induction lines with
  | nil => rfl
  | cons l lines ih =>
      rw [textLines_cons, lineTokens_cons (h l List.mem_cons_self), ih fun l hl => h l (List.mem_cons_of_mem _ hl)]

/-- Line ends in front of a text make no tokens. -/
theorem lineTokens_skip (s : List Char) : lineTokens (s.dropWhile (· ∈ ['\n'])) = lineTokens s := by
  induction s with
  | nil => rfl
  | cons c s ih =>
      by_cases hc : c = '\n'
      · rw [List.dropWhile_cons_of_pos (by simpa using hc), ih, hc]
        exact (lineTokens_append [] s).symm
      · rw [List.dropWhile_cons_of_neg (by simpa using hc)]

/-- Nor do line ends behind it. -/
theorem lineTokens_newlines {w : List Char} (hw : ∀ c ∈ w, c = '\n') : lineTokens (s ++ w) = lineTokens s := by
  cases w with
  | nil => rw [List.append_nil]
  | cons c w =>
      have hdrop : w.dropWhile (· ∈ ['\n']) = [] := by
        rw [List.dropWhile_eq_nil_iff]
        intro d hd
        simpa using hw d (List.mem_cons_of_mem _ hd)
      have hnone : lineTokens w = [] := by
        rw [← lineTokens_skip, hdrop, lineTokens_nil]
      rw [hw c List.mem_cons_self, lineTokens_append, hnone, List.append_nil]

/-- **One call of `strtok`.** -/
theorem strtok_lineTokens (s : List Char) : lineTokens s =
    match strtok ['\n'] s with
    | (none, _) => []
    | (some line, rest) => line :: lineTokens rest := by
  rw [← lineTokens_skip, strtok]
  cases ht : s.dropWhile (· ∈ ['\n']) with
  | nil => rfl
  | cons c t =>
      have hc : c ≠ '\n' := by
        have hnot := List.head?_dropWhile_not (· ∈ ['\n']) s
        rw [ht] at hnot
        simpa using hnot
      have hline : IsLine ((c :: t).takeWhile (· ∉ ['\n'])) := by
        constructor
        · rw [List.takeWhile_cons_of_pos (by simpa using hc)]
          exact List.cons_ne_nil _ _
        · intro hmem
          have hnl := List.mem_takeWhile_imp hmem
          exact absurd hnl (by decide)
      have hsplit := List.takeWhile_append_dropWhile (p := (· ∉ ['\n'])) (l := c :: t)
      show lineTokens (c :: t) = (c :: t).takeWhile (· ∉ ['\n']) ::
        lineTokens ((c :: t).dropWhile (· ∉ ['\n'])).tail
      cases hr : (c :: t).dropWhile (· ∉ ['\n']) with
      | nil =>
          rw [hr, List.append_nil] at hsplit
          rw [hsplit] at hline ⊢
          exact lineTokens_line hline
      | cons d r =>
          have hd : d = '\n' := by
            have hnot := List.head?_dropWhile_not (· ∉ ['\n']) (c :: t)
            rw [hr] at hnot
            simpa using hnot
          rw [hr, hd] at hsplit
          calc lineTokens (c :: t) = lineTokens ((c :: t).takeWhile (· ∉ ['\n']) ++ '\n' :: r) := by rw [hsplit]
            _ = (c :: t).takeWhile (· ∉ ['\n']) :: lineTokens r := lineTokens_cons hline r

theorem getLast?_textLines (hne : lines ≠ []) : (textLines lines).getLast? = some '\n' := by
  rcases List.eq_nil_or_concat lines with hnil | ⟨front, last, rfl⟩
  · exact absurd hnil hne
  · have htext : textLines (front.concat last) = textLines front ++ last ++ ['\n'] := by simp [textLines]
    rw [htext, List.getLast?_concat]

/-- **What a short buffer keeps.** -/
theorem lineTokens_take (h : ∀ l ∈ lines, IsLine l) (room : Nat) :
    lineTokens ((textLines lines).take room) = cutTextLines room lines := by
  induction lines generalizing room with
  | nil => simp [textLines, cutTextLines, lineTokens_nil]
  | cons l lines ih =>
      have hl := h l List.mem_cons_self
      rw [textLines_cons, cutTextLines]
      by_cases hlt : l.length < room
      · have htake : (l ++ '\n' :: textLines lines).take room =
            l ++ '\n' :: (textLines lines).take (room - l.length - 1) := by
          obtain ⟨k, rfl⟩ : ∃ k, room = l.length + (k + 1) := ⟨room - l.length - 1, by omega⟩
          rw [List.take_length_add_append, List.take_succ_cons]
          congr 3
          omega
        rw [if_pos hlt, htake, lineTokens_cons hl, ih fun l hl => h l (List.mem_cons_of_mem _ hl)]
      · rw [if_neg hlt, List.take_append_of_le_length (by omega)]
        by_cases hzero : room = 0
        · rw [if_pos hzero, hzero]
          rfl
        · rw [if_neg hzero]
          refine lineTokens_line ⟨?_, fun hmem => hl.2 (List.mem_of_mem_take hmem)⟩
          rw [Ne, List.take_eq_nil_iff]
          exact fun h => h.elim hzero hl.1

/-- A buffer with room for all but the last line end keeps all lines. -/
theorem cutTextLines_eq_self (h : ∀ l ∈ lines, IsLine l) {room : Nat}
    (hroom : (textLines lines).length ≤ room + 1) : cutTextLines room lines = lines := by
  induction lines generalizing room with
  | nil => rfl
  | cons l lines ih =>
      have htext : (textLines (l :: lines)).length = l.length + 1 + (textLines lines).length := by
        simp [textLines]
        omega
      have hpos : 0 < l.length := List.length_pos_iff.mpr (h l List.mem_cons_self).1
      rw [cutTextLines]
      by_cases hlt : l.length < room
      · rw [if_pos hlt, ih (fun l hl => h l (List.mem_cons_of_mem _ hl)) (by omega)]
      · -- the last line, and it fills the buffer
        have hnone : (textLines lines).length = 0 := by omega
        have hlast : lines = [] := by
          cases lines with
          | nil => rfl
          | cons l' lines => simp [textLines] at hnone
        rw [if_neg hlt, if_neg (by omega), List.take_of_length_le (by omega), hlast]

end Tokens

end CText
