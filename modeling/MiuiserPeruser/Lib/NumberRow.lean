import MiuiserPeruser.Lib.CInt

/-!
# Rows of numbers

A row prints integers with a blank in front of each, and a format of number
conversions reads it back (`scanf_row`). The other way round a text bounds
the numbers that can be read from it: behind a number the next one begins
with a blank or a sign, so it takes two bytes at least, up to a byte that
belongs to no number (`length_scanf_numbers_le`).
-/

namespace CText

/-- The conversions of a row, by how they store. -/
def numbers (stores : List (Bool → Nat → Int)) : List Directive :=
  stores.flatMap fun store => [.space, .number 10 store]

/-- `" %d"` for each of the numbers. -/
def row (ns : List Int) : List Char := ns.flatMap fun n => ' ' :: formatD n

/-- What a conversion makes of a printed number. -/
def stored (store : Bool → Nat → Int) (n : Int) : Int := store (decide (n < 0)) n.natAbs

theorem numbers_cons (store : Bool → Nat → Int) (stores : List (Bool → Nat → Int)) :
    numbers (store :: stores) = .space :: .number 10 store :: numbers stores := rfl

theorem row_cons (n : Int) (ns : List Int) : row (n :: ns) = ' ' :: (formatD n ++ row ns) := rfl

theorem row_append (ns ms : List Int) : row (ns ++ ms) = row ns ++ row ms := List.flatMap_append

theorem mem_row {ns : List Int} {c : Char} (h : c ∈ row ns) : c = ' ' ∨ c = '-' ∨ c.isDigit = true := by
  obtain ⟨n, -, hc⟩ := List.mem_flatMap.mp h
  rcases List.mem_cons.mp hc with rfl | hc
  · exact .inl rfl
  · exact .inr (mem_formatD hc)

theorem stored_unsigned {n : Nat} (h : n < 2 ^ 64) : stored (storeUnsigned 64) n = n := by
  have hsign : ¬ (n : Int) < 0 := by omega
  rw [stored, decide_eq_false hsign, Int.natAbs_natCast]
  exact storeUnsigned_fits le_rfl h

section Row

variable {ds : List Directive} {rest : List Char} {stores : List (Bool → Nat → Int)}

/-- What comes behind a number in a row does not go on with it. -/
theorem stops_row (hrest : Stops (fun c => !isspace c) rest) (ns : List Int) :
    Stops (fun c => !isspace c) (row ns ++ rest) := by
  cases ns with
  | nil => exact hrest
  | cons n ns =>
      rw [row_cons, List.cons_append]
      exact stops_cons.mpr (by decide)

theorem optionalSign_formatD (n : Int) (rest : List Char) :
    optionalSign (formatD n ++ rest) = (decide (n < 0), decimal n.natAbs ++ rest) := by
  unfold formatD
  split
  · rename_i h
    rw [decide_eq_true h]
    rfl
  · rename_i h
    obtain ⟨c, s, hdec, hdigit⟩ := decimal_eq_cons n.natAbs
    rw [decide_eq_false h, List.nil_append, hdec, List.cons_append]
    exact optionalSign_digit (ne_of_isDigit hdigit (by decide)) (ne_of_isDigit hdigit (by decide))

/-- A number is read with its sign. -/
theorem scanf_formatD {store : Bool → Nat → Int} (n : Int) (hrest : Stops (fun c => !isspace c) rest) :
    scanf (.space :: .number 10 store :: ds) (' ' :: (formatD n ++ rest)) =
      .num (stored store n) :: scanf ds rest := by
  have hdigits : ∀ c ∈ decimal n.natAbs, isDigitOf 10 c = true := isDigitOf_decimal
  have hstart : Stops isspace (formatD n ++ rest) := by
    refine stops_isspace_append ?_ ?_
    · exact List.append_ne_nil_of_right_ne_nil _ (decimal_ne_nil _)
    · intro c hc
      rcases mem_formatD hc with rfl | hc
      · decide
      · exact isspace_of_isDigit hc
  have hscan : scanNumber 10 (formatD n ++ rest) = some (decide (n < 0), n.natAbs, rest) := by
    have hstops : Stops (isDigitOf 10) rest := stops_digit_of_blank hrest
    have hmarker : hexMarker 10 (decimal n.natAbs ++ rest) = [] := if_neg (by simp)
    unfold scanNumber
    simp only [optionalSign_formatD, hmarker, List.length_nil, List.drop_zero,
      takeWhile_append_of_stop hdigits hstops, dropWhile_append_of_stop hdigits hstops,
      if_neg (decimal_ne_nil _), digitsValue_decimal]
  calc scanf (.space :: .number 10 store :: ds) (' ' :: (formatD n ++ rest))
      = scanf (.number 10 store :: ds) (formatD n ++ rest) :=
        scanf_blanks (w := [' ']) (forall_mem_of_all (by decide)) hstart
    _ = .num (stored store n) :: scanf ds rest := by
        rw [scanf, hscan]
        rfl

/-- A signed number that fits is stored as it is. -/
theorem stored_signed {w : Nat} {n : Int} (hw : w ≤ 63) (hlow : -2 ^ w ≤ n) (hhigh : n < 2 ^ w) :
    stored (storeSigned (w + 1)) n = n := by
  have hpow : (2 : Int) ^ w ≤ 2 ^ 63 := by
    have hle : 2 ^ w ≤ 2 ^ 63 := Nat.pow_le_pow_right (by decide) hw
    exact_mod_cast hle
  have hhalf : ((2 ^ (w + 1) : Nat) : Int) = 2 * 2 ^ w := by
    rw [Nat.pow_succ, Nat.mul_comm]
    simp
  have hbmod : n.bmod (2 ^ (w + 1)) = n := Int.bmod_eq_of_le (by omega) (by omega)
  rw [stored, storeSigned]
  by_cases hneg : n < 0
  · have hmax : max (-2 ^ 63) (-(n.natAbs : Int)) = n := by omega
    simp only [hneg, decide_true, if_true, hmax]
    exact hbmod
  · have hmin : min (2 ^ 63 - 1) (n.natAbs : Int) = n := by omega
    simp only [hneg, decide_false, Bool.false_eq_true, if_false, hmin]
    exact hbmod

theorem stored_int {n : Int} (h : IsInt n) : stored (storeSigned 32) n = n :=
  stored_signed (by decide) h.1 h.2

/-- The numeral of an `int` is read back. -/
theorem atoi_formatD {n : Int} (h : IsInt n) : atoi (formatD n) = n := by
  have hblank : atoi (formatD n) = numAt (scanf percentD (' ' :: (formatD n ++ []))) 0 := by
    rw [List.append_nil, atoi, percentD, scanf, scanf]
    rfl
  rw [hblank, percentD, scanf_formatD n (stops_nil _), stored_int h]
  rfl

/-- **A row is read back**, as the conversions store it. -/
theorem scanf_row (ns : List Int) (hlen : stores.length = ns.length) (hrest : Stops (fun c => !isspace c) rest) :
    scanf (numbers stores ++ ds) (row ns ++ rest) =
      (List.zipWith stored stores ns).map Value.num ++ scanf ds rest := by
  induction ns generalizing stores with
  | nil =>
      obtain rfl := List.length_eq_zero_iff.mp hlen
      rfl
  | cons n ns ih =>
      obtain ⟨store, stores, rfl⟩ := List.exists_cons_of_length_eq_add_one hlen
      have hread := ih (Nat.succ.inj hlen)
      have htext : row (n :: ns) ++ rest = ' ' :: (formatD n ++ (row ns ++ rest)) := by
        rw [row_cons, List.cons_append, List.append_assoc]
      rw [numbers_cons, htext, List.cons_append, List.cons_append, scanf_formatD n (stops_row hrest ns), hread]
      rfl

end Row

/-! ## Few bytes, few numbers -/

section Bound

variable {u t : List Char} {d : Char}

/-- A byte that stands in no number and is no blank. -/
def EndsNumbers (d : Char) : Prop := isspace d = false ∧ d.isDigit = false ∧ d ≠ '-' ∧ d ≠ '+'

theorem endsNumbers_comma : EndsNumbers ',' := ⟨by decide, by decide, by decide, by decide⟩

theorem endsNumbers_brace : EndsNumbers '}' := ⟨by decide, by decide, by decide, by decide⟩

/-- The sign takes a byte, or there is none. -/
theorem optionalSign_append (hd : EndsNumbers d) (u t : List Char) :
    ∃ sign v, u = sign ++ v ∧ (optionalSign (u ++ d :: t)).2 = v ++ d :: t ∧
      (sign = [] → v = u) := by
  cases u with
  | nil =>
      refine ⟨[], [], rfl, ?_, fun _ => rfl⟩
      rw [List.nil_append, optionalSign_digit hd.2.2.1 hd.2.2.2]
  | cons c u =>
      by_cases hminus : c = '-'
      · exact ⟨[c], u, rfl, by simp [optionalSign, hminus], fun h => absurd h (by simp)⟩
      by_cases hplus : c = '+'
      · exact ⟨[c], u, rfl, by simp [optionalSign, hplus], fun h => absurd h (by simp)⟩
      · refine ⟨[], c :: u, rfl, ?_, fun _ => rfl⟩
        rw [List.cons_append, optionalSign_digit hminus hplus]

theorem optionalSign_stop (hd : EndsNumbers d) (u t : List Char) :
    optionalSign (u ++ d :: t) = ((optionalSign u).1, (optionalSign u).2 ++ d :: t) := by
  cases u with
  | nil => simp [optionalSign, hd.2.2.1, hd.2.2.2]
  | cons c u =>
      by_cases hm : c = '-'
      · simp [optionalSign, hm]
      · by_cases hp : c = '+'
        · simp [optionalSign, hp]
        · simp [optionalSign, hm, hp]

/-- The number is made of the sign and the digits behind the white space. -/
theorem atoi_eq (s : List Char) : atoi s =
    if (optionalSign (s.dropWhile isspace)).2.takeWhile (isDigitOf 10) = [] then 0
    else storeSigned 32 (optionalSign (s.dropWhile isspace)).1
      (digitsValue 10 ((optionalSign (s.dropWhile isspace)).2.takeWhile (isDigitOf 10))) := by
  have hmarker : hexMarker 10 (optionalSign (s.dropWhile isspace)).2 = [] := if_neg (by simp)
  rw [atoi, percentD, scanf, scanf, scanNumber]
  simp only [hmarker, List.length_nil, List.drop_zero]
  split <;> rename_i h
  · split at h
    · rename_i hnone
      rw [if_pos hnone]
      rfl
    · cases h
  · split at h
    · cases h
    · rename_i hsome
      obtain ⟨rfl, rfl, -⟩ : _ ∧ _ ∧ _ := by simpa using h
      rw [if_neg hsome]
      rfl

/-- `atoi` reads up to a character that no number holds. -/
theorem atoi_append_stop (hd : EndsNumbers d) (w rest : List Char) : atoi (w ++ d :: rest) = atoi w := by
  have hskip : (w ++ d :: rest).dropWhile isspace = w.dropWhile isspace ++ d :: rest :=
    dropWhile_append_rest (stops_cons.mpr hd.1) w
  have htake : ∀ v : List Char, (v ++ d :: rest).takeWhile (isDigitOf 10) = v.takeWhile (isDigitOf 10) :=
    takeWhile_append_rest (stops_cons.mpr hd.2.1)
  rw [atoi_eq, atoi_eq, hskip, optionalSign_stop hd, htake]

/-- The bytes of white space, sign and digits `atoi` looks for. -/
def atoiLength (s : List Char) : Nat :=
  let t := s.dropWhile isspace
  let u := (optionalSign t).2
  (s.takeWhile isspace).length + (t.length - u.length) + (u.takeWhile (isDigitOf 10)).length

/-- What is left behind a number begins with no digit, and is shorter by the
number: by two bytes, if the text began with no digit. -/
theorem scanNumber_shrinks (hd : EndsNumbers d) {negative : Bool} {n : Nat} {rest : List Char}
    (h : scanNumber 10 ((u ++ d :: t).dropWhile isspace) = some (negative, n, rest)) :
    ∃ v, rest = v ++ d :: t ∧ Stops Char.isDigit v ∧ v.length < u.length ∧
      (Stops Char.isDigit u → v.length + 2 ≤ u.length) := by
  -- the blanks, the sign and the digits stand before the byte
  have hblanks : (u ++ d :: t).dropWhile isspace = u.dropWhile isspace ++ d :: t :=
    dropWhile_append_rest (stops_cons.mpr hd.1) u
  obtain ⟨sign, v, hsplit, hsign, hnosign⟩ := optionalSign_append hd (u.dropWhile isspace) t
  have hmarker : ∀ s, hexMarker 10 s = [] := fun s => if_neg (by simp)
  have hend : Stops (isDigitOf 10) (d :: t) := stops_cons.mpr hd.2.1
  have htake : (v ++ d :: t).takeWhile (isDigitOf 10) = v.takeWhile (isDigitOf 10) :=
    takeWhile_append_rest hend v
  have hdrop : (v ++ d :: t).dropWhile (isDigitOf 10) = v.dropWhile (isDigitOf 10) ++ d :: t :=
    dropWhile_append_rest hend v
  unfold scanNumber at h
  simp only [hblanks, hsign, hmarker, List.length_nil, List.drop_zero, htake, hdrop] at h
  split at h
  · exact absurd h nofun
  · rename_i hne
    obtain ⟨-, -, rfl⟩ : _ ∧ _ ∧ _ := by simpa using h
    have hlenv : (v.takeWhile (isDigitOf 10)).length + (v.dropWhile (isDigitOf 10)).length = v.length := by
      rw [← List.length_append, List.takeWhile_append_dropWhile]
    have hlenu : sign.length + v.length ≤ u.length := by
      rw [← List.length_append, ← hsplit]
      exact List.length_dropWhile_le _ _
    have hpos : 0 < (v.takeWhile (isDigitOf 10)).length := List.length_pos_iff.mpr hne
    refine ⟨_, rfl, ?_, by omega, ?_⟩
    · intro c r hcr
      have hhead := List.head?_dropWhile_not (isDigitOf 10) v
      rw [hcr] at hhead
      have hc : isDigitOf 10 c = false := by simpa using hhead
      exact hc
    · intro hstart
      by_contra hshort
      -- then there is neither a blank nor a sign, and the text begins with a digit
      obtain rfl : sign = [] := List.length_eq_zero_iff.mp (by omega)
      have hv : v = u := by
        rw [hnosign rfl]
        exact (List.dropWhile_suffix _).eq_of_length (by
          rw [hnosign rfl] at hlenu hlenv hpos hshort
          omega)
      subst hv
      cases v with
      | nil => exact hne rfl
      | cons c v =>
          have hc : isDigitOf 10 c = false := stops_cons.mp hstart
          exact hne (List.takeWhile_cons_of_neg (by simp [hc]))

/-- **The numbers before the byte take two bytes each**, but for the first. -/
theorem length_scanf_numbers_le (hd : EndsNumbers d) (stores : List (Bool → Nat → Int)) (u t : List Char) :
    2 * (scanf (numbers stores) (u ++ d :: t)).length ≤ u.length + 1 ∧
      (Stops Char.isDigit u → 2 * (scanf (numbers stores) (u ++ d :: t)).length ≤ u.length) := by
  induction stores generalizing u with
  | nil =>
      show 2 * (scanf [] (u ++ d :: t)).length ≤ _ ∧ (_ → 2 * (scanf [] (u ++ d :: t)).length ≤ _)
      simp [scanf]
  | cons store stores ih =>
      rw [numbers_cons, scanf, scanf]
      cases h : scanNumber 10 ((u ++ d :: t).dropWhile isspace) with
      | none => simp
      | some found =>
          obtain ⟨negative, n, rest⟩ := found
          obtain ⟨v, rfl, hstops, hlt, htwo⟩ := scanNumber_shrinks hd h
          have hv := (ih v).2 hstops
          simp only [List.length_cons]
          constructor
          · omega
          · intro hu
            have := htwo hu
            omega

end Bound

end CText
