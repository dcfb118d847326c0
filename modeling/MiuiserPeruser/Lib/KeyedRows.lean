import MiuiserPeruser.Lib.CInt
import MiuiserPeruser.Lib.LineTokens
import MiuiserPeruser.Lib.Strstr

/-!
# Rows with a key

A table as text: in every line a key, a colon, and counts with colons between
them. A row is looked up by searching for its key behind the end of the line
before it, and its counts are read with one call. What its users rely on: of
a text that is cut somewhere, the search finds the row of the key or nothing
(`strstr_key_take`), and no count that is read is greater than the one that was
printed (`numAt_counts_take`).
-/

namespace CText

/-! ## Counts -/

/-- Counts with colons between them, as `"%d:%d"` prints and reads them. -/
def countsText : List Nat → List Char
  | [] => []
  | [n] => decimal n
  | n :: ns => decimal n ++ ':' :: countsText ns

def countsFormat : Nat → List Directive
  | 0 => []
  | 1 => percentD
  | k + 1 => percentD ++ .lit ':' :: countsFormat k

/-- What may stand behind a count. -/
def EndsCount (rest : List Char) : Prop := ∀ c r, rest = c :: r → c = ':' ∨ c = '\n'

section Counts

variable {ds : List Directive} {rest : List Char} {n : Nat} {ns : List Nat}

theorem endsCount_colon (rest : List Char) : EndsCount (':' :: rest) := fun _ _ h =>
  .inl (List.cons.inj h).1.symm

theorem endsCount_newline (rest : List Char) : EndsCount ('\n' :: rest) := fun _ _ h =>
  .inr (List.cons.inj h).1.symm

theorem EndsCount.take (h : EndsCount rest) (k : Nat) : EndsCount (rest.take k) := by
  intro c r hr
  cases rest with
  | nil => simp at hr
  | cons d rest =>
      cases k with
      | zero => cases hr
      | succ k =>
          rw [List.take_succ_cons] at hr
          exact h c rest (by rw [(List.cons.inj hr).1])

theorem scanf_count (hn : n < 2 ^ 31) (hrest : EndsCount rest) :
    scanf (percentD ++ ds) (decimal n ++ rest) = .num n :: scanf ds rest := by
  have hstart : Stops isspace (decimal n ++ rest) :=
    stops_isspace_append (decimal_ne_nil n) fun c hc => isspace_of_isDigitOf (isDigitOf_decimal c hc)
  have hstops : ∀ p : Char → Bool, p ':' = false → p '\n' = false → Stops p rest := by
    intro p hcolon hnewline c r h
    rcases hrest c r h with rfl | rfl
    · exact hcolon
    · exact hnewline
  calc scanf (percentD ++ ds) ([] ++ (decimal n ++ rest))
      = scanf (.number 10 (storeSigned 32) :: ds) (decimal n ++ rest) := scanf_blanks (by simp) hstart
    _ = .num n :: scanf ds rest := by
        rw [scanf_number (decimal_ne_nil n) isDigitOf_decimal (hstops _ (by decide) (by decide))
          (hstops _ (by decide) (by decide)), digitsValue_decimal, storeSigned_fits (by decide) hn]

/-- Nothing is read of nothing. -/
theorem scanf_count_nil : scanf (percentD ++ ds) [] = [] := rfl

theorem numAt_cons_zero (n : Int) (vs : List Value) : numAt (.num n :: vs) 0 = n := rfl

/-- The counts are read back. -/
theorem scanf_counts (hns : ∀ n ∈ ns, n < 2 ^ 31) (hrest : EndsCount rest) :
    scanf (countsFormat ns.length) (countsText ns ++ rest) = ns.map fun n => .num n := by
  induction ns with
  | nil => rfl
  | cons n ns ih =>
      obtain ⟨hn, hns⟩ := List.forall_mem_cons.mp hns
      cases ns with
      | nil =>
          show scanf (percentD ++ []) (decimal n ++ rest) = _
          rw [scanf_count hn hrest]
          rfl
      | cons m ns =>
          show scanf (percentD ++ .lit ':' :: countsFormat (m :: ns).length)
            (decimal n ++ ':' :: countsText (m :: ns) ++ rest) = _
          rw [List.append_assoc, List.cons_append, scanf_count hn (endsCount_colon _), scanf_lit,
            ih hns]
          rfl

/-- A number that is cut is smaller, or it is not there. -/
theorem take_decimal (n k : Nat) :
    (decimal n).take k = [] ∨ ∃ m, m ≤ n ∧ (decimal n).take k = decimal m := by
  by_cases hnil : (decimal n).take k = []
  · exact .inl hnil
  · rcases decimal_prefix (List.take_prefix k _) hnil with h | ⟨m, -, hm, h⟩
    · exact .inr ⟨n, le_rfl, h⟩
    · exact .inr ⟨m, hm.le, h⟩

/-- What is read of a cut text is not more than what was printed. -/
theorem numAt_count_take (hn : n < 2 ^ 31) (hds : scanf ds [] = []) (k i : Nat) :
    0 ≤ numAt (scanf (percentD ++ ds) ((decimal n).take k)) i ∧
      numAt (scanf (percentD ++ ds) ((decimal n).take k)) i ≤ if i = 0 then n else 0 := by
  rcases take_decimal n k with h | ⟨m, hm, h⟩
  · rw [h, scanf_count_nil]
    show 0 ≤ (0 : Int) ∧ (0 : Int) ≤ _
    split
    · omega
    · omega
  · have hscan : scanf (percentD ++ ds) (decimal m ++ []) = [.num m] := by
      rw [scanf_count (by omega) (fun _ _ hc => by cases hc), hds]
    rw [h, ← List.append_nil (decimal m), hscan]
    cases i with
    | zero => exact ⟨by rw [numAt_cons_zero]; omega, by rw [numAt_cons_zero, if_pos rfl]; omega⟩
    | succ i => exact ⟨le_rfl, by rw [if_neg (Nat.succ_ne_zero i)]; exact le_rfl⟩

/-- **No count grows by a cut.** -/
theorem numAt_counts_take (hns : ∀ n ∈ ns, n < 2 ^ 31) (hrest : EndsCount rest) (k i : Nat) :
    0 ≤ numAt (scanf (countsFormat ns.length) ((countsText ns ++ rest).take k)) i ∧
      numAt (scanf (countsFormat ns.length) ((countsText ns ++ rest).take k)) i ≤ (ns[i]?.getD 0 : Nat) := by
  induction ns generalizing k i with
  | nil => exact ⟨le_rfl, le_rfl⟩
  | cons n ns ih =>
      obtain ⟨hn, hns⟩ := List.forall_mem_cons.mp hns
      cases ns with
      | nil =>
          show 0 ≤ numAt (scanf (percentD ++ []) ((decimal n ++ rest).take k)) i ∧
            numAt (scanf (percentD ++ []) ((decimal n ++ rest).take k)) i ≤ _
          by_cases hk : k ≤ (decimal n).length
          · rw [List.take_append_of_le_length hk]
            obtain ⟨hlo, hhi⟩ := numAt_count_take hn (rfl : scanf [] [] = []) k i
            cases i with
            | zero => exact ⟨hlo, hhi⟩
            | succ i => exact ⟨hlo, hhi⟩
          · obtain ⟨j, rfl⟩ := Nat.exists_eq_add_of_le (Nat.le_of_not_le hk)
            rw [List.take_length_add_append, scanf_count hn (hrest.take j)]
            cases i with
            | zero => exact ⟨Int.natCast_nonneg n, le_rfl⟩
            | succ i => exact ⟨le_rfl, le_rfl⟩
      | cons m ns =>
          show 0 ≤ numAt (scanf (percentD ++ .lit ':' :: countsFormat (m :: ns).length)
              ((decimal n ++ ':' :: countsText (m :: ns) ++ rest).take k)) i ∧
            numAt (scanf (percentD ++ .lit ':' :: countsFormat (m :: ns).length)
              ((decimal n ++ ':' :: countsText (m :: ns) ++ rest).take k)) i ≤ _
          rw [List.append_assoc]
          by_cases hk : k ≤ (decimal n).length
          · rw [List.take_append_of_le_length hk]
            obtain ⟨hlo, hhi⟩ := numAt_count_take hn
              (rfl : scanf (.lit ':' :: countsFormat (m :: ns).length) [] = []) k i
            cases i with
            | zero => exact ⟨hlo, hhi⟩
            | succ i => exact ⟨hlo, hhi.trans (Int.natCast_nonneg _)⟩
          · -- the first count is read, and the cut is behind its colon
            obtain ⟨j, rfl⟩ : ∃ j, k = (decimal n).length + (j + 1) :=
              ⟨k - (decimal n).length - 1, by omega⟩
            rw [List.take_length_add_append, List.cons_append, List.take_succ_cons,
              scanf_count hn (endsCount_colon _), scanf_lit]
            cases i with
            | zero => exact ⟨Int.natCast_nonneg n, le_rfl⟩
            | succ i => exact ih hns j i

end Counts

/-! ## Rows -/

/-- A key and what stands behind it. -/
structure KeyedRow where
  key : List Char
  value : List Char
  key_plain : ':' ∉ key ∧ '\n' ∉ key
  value_plain : '\n' ∉ value

def KeyedRow.line (r : KeyedRow) : List Char := r.key ++ ':' :: r.value

/-- What the row of a key is searched for with. -/
def rowNeedle (key : List Char) : List Char := '\n' :: (key ++ [':'])

/-- `strchr(s, c) + 1`. -/
def afterFirst (c : Char) (s : List Char) : List Char := (s.dropWhile (· ≠ c)).tail

section Rows

variable {key l : List Char} {r : KeyedRow} {before rows : List KeyedRow}

theorem isLine_line (r : KeyedRow) : IsLine r.line := by
  refine ⟨by simp [KeyedRow.line], ?_⟩
  simp [KeyedRow.line, r.key_plain.2, r.value_plain]

theorem afterFirst_append {c : Char} {s : List Char} (h : c ∉ s) (rest : List Char) :
    afterFirst c (s ++ c :: rest) = rest := by
  have hall : ∀ d ∈ s, decide (d ≠ c) = true := by
    intro d hd
    rw [decide_eq_true_eq]
    rintro rfl
    exact h hd
  have hstop : ∀ d r, c :: rest = d :: r → decide (d ≠ c) = false := fun d r h => by
    simp [(List.cons.inj h).1]
  rw [afterFirst, dropWhile_append_of_stop hall hstop, List.tail_cons]

/-- A key with its colon stands at the beginning of its own rows only. -/
theorem key_prefix_iff (hkey : ':' ∉ key) (r : KeyedRow) (rest : List Char) :
    key ++ [':'] <+: r.line ++ rest ↔ r.key = key := by
  constructor
  · rintro ⟨t, ht⟩
    have hfirst : ∀ {u v : List Char}, ':' ∉ u → ':' ∉ v → ∀ {s s' : List Char},
        u ++ ':' :: s = v ++ ':' :: s' → u = v := by
      intro u v hu hv s s' h
      have htake := congrArg (List.takeWhile fun c => decide (c ≠ ':')) h
      have hword : ∀ {w : List Char}, ':' ∉ w → ∀ s : List Char,
          (w ++ ':' :: s).takeWhile (fun c => decide (c ≠ ':')) = w := by
        intro w hw s
        refine takeWhile_append_of_stop (fun c hc => ?_) fun c r h => ?_
        · rw [decide_eq_true_eq]
          rintro rfl
          exact hw hc
        · simp [(List.cons.inj h).1.symm]
      rwa [hword hu, hword hv] at htake
    rw [KeyedRow.line, List.append_assoc, List.append_assoc, List.singleton_append,
      List.cons_append] at ht
    exact (hfirst hkey r.key_plain.1 ht).symm
  · rintro rfl
    exact ⟨r.value ++ rest, by simp [KeyedRow.line]⟩

theorem strstr_rowNeedle_line (hl : '\n' ∉ l) (rest : List Char) :
    strstr (rowNeedle key) (l ++ rest) = strstr (rowNeedle key) rest :=
  strstr_append_of_head rfl hl

/-- A key that no row has is not found. -/
theorem strstr_key_absent (hkey : ':' ∉ key) (hl : '\n' ∉ l) (h : ∀ r ∈ rows, r.key ≠ key) :
    strstr (rowNeedle key) (textLines (l :: rows.map KeyedRow.line)) = none := by
  induction rows generalizing l with
  | nil =>
      rw [textLines_cons, strstr_rowNeedle_line hl]
      refine strstr_eq_none_iff.mpr fun hinfix => ?_
      have hlen := hinfix.length_le
      simp [rowNeedle, textLines] at hlen
  | cons r rows ih =>
      obtain ⟨hr, hrows⟩ := List.forall_mem_cons.mp h
      rw [textLines_cons, strstr_rowNeedle_line hl, List.map_cons, textLines_cons]
      have hno : ¬ rowNeedle key <+: '\n' :: (r.line ++ '\n' :: textLines (rows.map KeyedRow.line)) := by
        rw [rowNeedle, List.cons_prefix_cons]
        exact fun h => hr ((key_prefix_iff hkey r _).mp h.2)
      rw [strstr, if_neg hno, ← textLines_cons]
      exact ih (isLine_line r).2 hrows

/-- The first row of a key is found. -/
theorem strstr_key_found (hl : '\n' ∉ l) (h : ∀ r' ∈ before, r'.key ≠ r.key) (rest : List Char) :
    ∃ front, textLines (l :: before.map KeyedRow.line) = front ++ ['\n'] ∧
      strstr (rowNeedle r.key) (front ++ '\n' :: (r.line ++ rest)) =
        some ('\n' :: (r.line ++ rest)) := by
  induction before generalizing l with
  | nil =>
      refine ⟨l, by simp [textLines], ?_⟩
      rw [strstr_rowNeedle_line hl]
      refine strstr_of_prefix ?_
      rw [rowNeedle, List.cons_prefix_cons]
      exact ⟨rfl, (key_prefix_iff r.key_plain.1 r rest).mpr rfl⟩
  | cons r' before ih =>
      obtain ⟨hr', hbefore⟩ := List.forall_mem_cons.mp h
      obtain ⟨front, htext, hfound⟩ := ih (isLine_line r').2 hbefore
      refine ⟨l ++ '\n' :: front, ?_, ?_⟩
      · rw [textLines_cons, List.map_cons, htext]
        simp
      · have hstart : ∃ t, front = r'.line ++ t := by
          rw [textLines_cons] at htext
          rcases List.eq_nil_or_concat (textLines (before.map KeyedRow.line)) with hnil | ⟨t, c, ht⟩
          · rw [hnil] at htext
            exact ⟨[], by simpa using (List.append_inj' htext rfl).1.symm⟩
          · rw [ht] at htext
            have hsame : front ++ ['\n'] = (r'.line ++ '\n' :: t) ++ [c] := by
              rw [← htext]
              simp
            exact ⟨'\n' :: t, (List.append_inj' hsame rfl).1⟩
        obtain ⟨t, rfl⟩ := hstart
        rw [List.append_assoc, strstr_rowNeedle_line hl, List.cons_append, strstr, if_neg, hfound]
        rw [rowNeedle, List.cons_prefix_cons, List.append_assoc]
        exact fun h => hr' ((key_prefix_iff r.key_plain.1 r' _).mp h.2)

/-- **The lookup in a text that is cut**: the row of the key, as far as it is there. -/
theorem strstr_key_take (hl : '\n' ∉ l) (h : ∀ r' ∈ before, r'.key ≠ r.key)
    (after : List KeyedRow) (n : Nat) :
    strstr (rowNeedle r.key)
        ((textLines ((l :: before.map KeyedRow.line) ++ r.line :: after.map KeyedRow.line)).take n) =
      if (textLines (l :: before.map KeyedRow.line)).length + r.key.length + 1 ≤ n then
        some ('\n' :: (r.line ++ '\n' :: textLines (after.map KeyedRow.line)).take
          (n - (textLines (l :: before.map KeyedRow.line)).length))
      else none := by
  obtain ⟨front, htext, hfound⟩ :=
    strstr_key_found hl h ('\n' :: textLines (after.map KeyedRow.line))
  have hlen := congrArg List.length htext
  rw [List.length_append, List.length_singleton] at hlen
  have hwhole : textLines ((l :: before.map KeyedRow.line) ++ r.line :: after.map KeyedRow.line) =
      front ++ '\n' :: (r.line ++ '\n' :: textLines (after.map KeyedRow.line)) := by
    rw [textLines, List.flatMap_append]
    show textLines _ ++ textLines _ = _
    rw [htext, textLines_cons, List.append_assoc, List.singleton_append]
  have hneedle : (rowNeedle r.key).length = r.key.length + 2 := by simp [rowNeedle]
  rw [hwhole, strstr_take hfound (List.cons_ne_nil _ _), hneedle, hlen]
  by_cases hn : front.length + 1 + r.key.length + 1 ≤ n
  · obtain ⟨k, rfl⟩ : ∃ k, n = front.length + (k + 1) := ⟨n - front.length - 1, by omega⟩
    rw [if_pos hn, if_pos (by omega), Nat.add_sub_cancel_left, List.take_succ_cons]
    congr 3
    omega
  · rw [if_neg hn, if_neg (by omega)]

/-- What stands behind the key of the row that is found. -/
theorem afterFirst_line_take (r : KeyedRow) (rest : List Char) {k : Nat} (hk : r.key.length + 1 ≤ k) :
    afterFirst ':' ('\n' :: (r.line ++ rest).take k) =
      (r.value ++ rest).take (k - r.key.length - 1) := by
  obtain ⟨j, rfl⟩ : ∃ j, k = r.key.length + (j + 1) := ⟨k - r.key.length - 1, by omega⟩
  have hplain : ':' ∉ '\n' :: r.key := by simp [r.key_plain.1]
  have htake : '\n' :: (r.line ++ rest).take (r.key.length + (j + 1)) =
      ('\n' :: r.key) ++ ':' :: (r.value ++ rest).take j := by
    rw [KeyedRow.line, List.append_assoc, List.take_length_add_append, List.cons_append,
      List.take_succ_cons, List.cons_append]
  rw [htake, afterFirst_append hplain]
  congr 1
  omega

end Rows

end CText
