import MiuiserPeruser.Lib.Scanf

/-!
# int, and numbers read with an end

The 32-bit arithmetic of `int` and its numerals: `%d` writes one, `atoi`
and `strtod` read one back. Unlike `atof`, `strtod` says whether there was
a number at all.

What its users rely on: a numeral is read back as the number it was
written from, whatever text follows that cannot belong to a number
(`strtod_formatD`).
-/

namespace CText

/-! ## 32 bits -/

/-- What an `int` holds of a number: overflow wraps around. -/
def wrap32 (n : Int) : Int := n.bmod (2 ^ 32)

/-- The values of `int`. -/
def IsInt (n : Int) : Prop := -2 ^ 31 ≤ n ∧ n < 2 ^ 31

instance (n : Int) : Decidable (IsInt n) := inferInstanceAs (Decidable (_ ∧ _))

/-! ## 64 bits -/

/-- What a `long` holds of a number. -/
def wrap64 (n : Int) : Int := n.bmod (2 ^ 64)

/-- The values of `long`. -/
def IsLong (n : Int) : Prop := -2 ^ 63 ≤ n ∧ n < 2 ^ 63

instance (n : Int) : Decidable (IsLong n) := inferInstanceAs (Decidable (_ ∧ _))

section Wrap

variable {a b n : Int}

theorem isInt_wrap32 (n : Int) : IsInt (wrap32 n) := by
  have hlo := Int.le_bmod (x := n) (by decide : 0 < 2 ^ 32)
  have hhi := Int.bmod_lt (x := n) (by decide : 0 < 2 ^ 32)
  rw [IsInt, wrap32]
  omega

theorem isLong_wrap64 (n : Int) : IsLong (wrap64 n) := by
  have hlo := Int.le_bmod (x := n) (by decide : 0 < 2 ^ 64)
  have hhi := Int.bmod_lt (x := n) (by decide : 0 < 2 ^ 64)
  rw [IsLong, wrap64]
  omega

theorem wrap32_of_isInt (h : IsInt n) : wrap32 n = n := by
  obtain ⟨hlo, hhi⟩ := h
  exact Int.bmod_eq_of_le (by omega) (by omega)

/-- Only a multiple of the modulus apart. -/
theorem wrap32_eq_iff : wrap32 a = wrap32 b ↔ a % 2 ^ 32 = b % 2 ^ 32 := by
  rw [wrap32, wrap32, Int.bmod_def, Int.bmod_def]
  omega

theorem wrap32_add (a b : Int) : wrap32 (wrap32 a + b) = wrap32 (a + b) := Int.bmod_add_bmod

theorem wrap64_eq_iff : wrap64 a = wrap64 b ↔ a % 2 ^ 64 = b % 2 ^ 64 := by
  rw [wrap64, wrap64, Int.bmod_def, Int.bmod_def]
  omega

/-- Differences tell the values of a type apart, whatever overflows. -/
theorem wrap32_sub_eq_iff (ha : IsInt a) (hb : IsInt b) : wrap32 (n - a) = wrap32 (n - b) ↔ a = b := by
  rw [wrap32_eq_iff]
  rw [IsInt] at ha hb
  constructor
  · intro h
    omega
  · intro h
    rw [h]

theorem wrap64_sub_eq_iff (ha : IsLong a) (hb : IsLong b) : wrap64 (n - a) = wrap64 (n - b) ↔ a = b := by
  rw [wrap64_eq_iff]
  rw [IsLong] at ha hb
  constructor
  · intro h
    omega
  · intro h
    rw [h]

end Wrap

/-! ## Writing -/

/-- `%d`, and `%ld` and `%u` likewise. -/
def formatD (n : Int) : List Char := (if n < 0 then ['-'] else []) ++ decimal n.natAbs

/-- `%.1f`. -/
def formatF1 : Number → List Char
  | .finite q =>
      let tenths := (roundEven (|q| * 10)).natAbs
      (if q < 0 then ['-'] else []) ++ decimal (tenths / 10) ++ '.' :: decimal (tenths % 10)
  | .inf negative => (if negative then ['-'] else []) ++ ['i', 'n', 'f']
  | .nan => ['n', 'a', 'n']

theorem isDigit_decimal {n : Nat} {c : Char} (h : c ∈ decimal n) : c.isDigit = true :=
  isDigitOf_decimal c h

theorem mem_formatD {n : Int} {c : Char} (h : c ∈ formatD n) : c = '-' ∨ c.isDigit = true := by
  rcases List.mem_append.mp h with h | h
  · left
    split at h
    · exact List.mem_singleton.mp h
    · exact absurd h List.not_mem_nil
  · exact .inr (isDigit_decimal h)

/-- Only digits and a sign are in a number. -/
theorem notMem_formatD {c : Char} (hsign : c ≠ '-') (hdigit : c.isDigit = false) (n : Int) :
    c ∉ formatD n := by
  intro h
  rcases mem_formatD h with hc | hc
  · exact hsign hc
  · rw [hdigit] at hc
    cases hc

theorem formatD_ne_nil (n : Int) : formatD n ≠ [] :=
  List.append_ne_nil_of_right_ne_nil _ Nat.toDigits_ne_nil

/-- A number is not skipped with the blanks in front of it. -/
theorem dropWhile_formatD {blank : Char → Bool} (hsign : blank '-' = false)
    (hdigit : ∀ c : Char, c.isDigit = true → blank c = false) (n : Int) (rest : List Char) :
    (formatD n ++ rest).dropWhile blank = formatD n ++ rest := by
  obtain ⟨c, cs, hnumber⟩ := List.exists_cons_of_ne_nil (formatD_ne_nil n)
  have hc : blank c = false := by
    rcases mem_formatD (n := n) (hnumber ▸ List.mem_cons_self) with rfl | hc
    · exact hsign
    · exact hdigit c hc
  rw [hnumber]
  exact List.dropWhile_cons_of_neg (by rw [hc]; decide)

/-! ## Reading -/

/-- `atoi`: `strtol`, cut to an `int`. -/
def atoi (s : List Char) : Int := numAt (scanf percentD s) 0

/-- `(uint32_t)strtoul(s, NULL, 10)`. -/
def strtoul32 (s : List Char) : Int := numAt (scanf percentU s) 0

/-- A number begins here, its sign apart. -/
def beginsNumber (s : List Char) : Bool :=
  startsWithWord ['i', 'n', 'f'] s || startsWithWord ['n', 'a', 'n'] s ||
    let (whole, frac, _) := mantissa Char.isDigit s
    whole ++ frac ≠ []

/-- `strtod`; nothing if its end pointer stays at the beginning. -/
def strtod (s : List Char) : Option Number :=
  if beginsNumber (optionalSign (s.dropWhile isspace)).2 then some (atof s) else none

/-- What goes on with a decimal number once its digits are over. -/
def continuesNumber (c : Char) : Bool := c.isDigit || c = '.' || c.toLower = 'e' || c.toLower = 'x'

section Decimal

variable {m : Nat} {rest : List Char}

theorem ne_of_isDigit {c : Char} (h : c.isDigit = true) {d : Char}
    (hd : d.isDigit = false) : c ≠ d := by
  rintro rfl
  rw [h] at hd
  cases hd

theorem isspace_of_isDigit {c : Char} (h : c.isDigit = true) : isspace c = false := by
  have hall : ∀ d ∈ [' ', '\t', '\n', '\x0b', '\x0c', '\r'], d.isDigit = false :=
    forall_mem_of_all (by decide)
  apply decide_eq_false
  intro hmem
  exact ne_of_isDigit h (hall c hmem) rfl

theorem decimal_ne_nil (m : Nat) : decimal m ≠ [] := Nat.toDigits_ne_nil

theorem decimal_eq_cons (m : Nat) : ∃ c s, decimal m = c :: s ∧ c.isDigit = true := by
  obtain ⟨c, s, h⟩ := List.exists_cons_of_ne_nil (decimal_ne_nil m)
  have hmem : c ∈ decimal m := by
    rw [h]
    exact List.mem_cons_self
  exact ⟨c, s, h, isDigit_decimal hmem⟩

section Fields

variable {ds : List Directive} {w : List Char}

/-- A word that is followed by a blank, or by nothing. -/
theorem scanf_word {width : Nat} (hne : w ≠ []) (hw : ∀ c ∈ w, isspace c = false) (hlen : w.length ≤ width)
    (hrest : Stops (fun c => !isspace c) rest) :
    scanf (percentS width ++ ds) (w ++ rest) = .text w :: scanf ds rest := by
  have hstart : Stops isspace (w ++ rest) := stops_isspace_append hne hw
  calc scanf (percentS width ++ ds) (w ++ rest)
      = scanf (.chars width (fun c => !isspace c) :: ds) (w ++ rest) := scanf_blanks (w := []) (by simp) hstart
    _ = .text w :: scanf ds rest := scanf_chars hne (fun c hc => by simp [hw c hc]) hlen hrest

/-- A numeral that is followed by a blank, or by nothing. -/
theorem scanf_decimal {store : Bool → Nat → Int} {n : Nat} (hstore : store false n = n)
    (hrest : Stops (fun c => !isspace c) rest) :
    scanf (.space :: .number 10 store :: ds) (decimal n ++ rest) = .num n :: scanf ds rest := by
  obtain ⟨c, s, hdec, hdigit⟩ := decimal_eq_cons n
  have hstart : Stops isspace (decimal n ++ rest) := by
    rw [hdec]
    exact stops_cons.mpr (isspace_of_isDigit hdigit)
  calc scanf (.space :: .number 10 store :: ds) (decimal n ++ rest)
      = scanf (.number 10 store :: ds) (decimal n ++ rest) := scanf_blanks (w := []) (by simp) hstart
    _ = .num (store false (digitsValue 10 (decimal n))) :: scanf ds rest :=
        scanf_number (decimal_ne_nil _) isDigitOf_decimal (stops_digit_of_blank hrest) (stops_marker_of_blank hrest)
    _ = .num n :: scanf ds rest := by rw [digitsValue_decimal, hstore]

end Fields

/-- The decimal numeral of an `int` is read back, up to where its digits end. -/
theorem atoi_decimal_append {n : Nat} (h : n < 2 ^ 31) (hrest : Stops Char.isDigit rest) :
    atoi (decimal n ++ rest) = n := by
  obtain ⟨c, s, hdec, hdigit⟩ := decimal_eq_cons n
  have hstart : Stops isspace (decimal n ++ rest) := by
    rw [hdec]
    exact stops_cons.mpr (isspace_of_isDigit hdigit)
  have hsign : optionalSign (decimal n ++ rest) = (false, decimal n ++ rest) := by
    rw [hdec]
    exact optionalSign_digit (ne_of_isDigit hdigit rfl) (ne_of_isDigit hdigit rfl)
  have hten : isDigitOf 10 = Char.isDigit := rfl
  have hdigits : (decimal n ++ rest).takeWhile (isDigitOf 10) = decimal n := by
    rw [hten]
    exact takeWhile_append_of_stop (fun c => isDigit_decimal) hrest
  have hmarker : hexMarker 10 (decimal n ++ rest) = [] := rfl
  have hscan : scanNumber 10 (decimal n ++ rest) =
      some (false, n, (decimal n ++ rest).dropWhile (isDigitOf 10)) := by
    simp only [scanNumber, hsign, hmarker, List.length_nil, List.drop_zero, hdigits,
      if_neg (decimal_ne_nil n), digitsValue_decimal]
  have hnumber : scanf percentD (decimal n ++ rest) = [.num n] := by
    calc scanf percentD ([] ++ (decimal n ++ rest))
        = scanf [.number 10 (storeSigned 32)] (decimal n ++ rest) := scanf_blanks (by simp) hstart
      _ = [.num (storeSigned 32 false n)] := by simp only [scanf, hscan]
      _ = [.num n] := by rw [storeSigned_fits (by decide) h]
  rw [atoi, hnumber]
  rfl

theorem atoi_decimal {n : Nat} (h : n < 2 ^ 31) : atoi (decimal n) = n := by
  have happend : atoi (decimal n ++ []) = n := atoi_decimal_append h (stops_nil _)
  rwa [List.append_nil] at happend

/-- The mantissa of a numeral are its digits. -/
theorem mantissa_decimal (hrest : Stops continuesNumber rest) :
    mantissa Char.isDigit (decimal m ++ rest) = (decimal m, [], rest) := by
  have hdigits : ∀ c ∈ decimal m, c.isDigit = true := fun c hc => isDigit_decimal hc
  have hstop : Stops Char.isDigit rest := by
    intro c r h
    have := hrest c r h
    simp only [continuesNumber, Bool.or_eq_false_iff] at this
    exact this.1.1.1
  unfold mantissa
  rw [takeWhile_append_of_stop hdigits hstop, dropWhile_append_of_stop hdigits hstop]
  cases rest with
  | nil => rfl
  | cons c r =>
      have hdot : c ≠ '.' := by
        rintro rfl
        exact absurd (hrest '.' r rfl) (by decide)
      split
      · rename_i h
        exact absurd (List.cons.inj h).1 hdot
      · rfl

theorem exponentValue_stop (hrest : Stops continuesNumber rest) : exponentValue 'e' rest = 0 := by
  cases rest with
  | nil => rfl
  | cons c r =>
      have hc : continuesNumber c = false := hrest c r rfl
      simp only [continuesNumber, Bool.or_eq_false_iff, decide_eq_false_iff_not] at hc
      simp [exponentValue, hc.1.2]

/-- No word begins with a digit, unless it is the marker of a hexadecimal number. -/
theorem startsWithWord_decimal {w : Char} {ws : List Char} (hw : w.isDigit = false) :
    startsWithWord (w :: ws) (decimal m ++ rest) = false := by
  obtain ⟨c, s, hdec, hc⟩ := decimal_eq_cons m
  have hlower : c.toLower = c := by
    unfold Char.toLower
    simp only [Char.isDigit, Bool.and_eq_true, decide_eq_true_eq] at hc
    rw [dif_neg]
    rintro ⟨h, -⟩
    exact absurd (UInt32.le_trans h hc.2) (by decide)
  rw [hdec]
  simp [startsWithWord, hlower, ne_of_isDigit hc hw]

theorem not_hexMarker_decimal (hrest : Stops continuesNumber rest) :
    startsWithWord ['0', 'x'] (decimal m ++ rest) = false := by
  obtain ⟨c, s, hdec, hc⟩ := decimal_eq_cons m
  have hsecond : ∀ d r, s ++ rest = d :: r → d.toLower ≠ 'x' := by
    intro d r h
    cases s with
    | nil =>
        have := hrest d r h
        simp only [continuesNumber, Bool.or_eq_false_iff, decide_eq_false_iff_not] at this
        exact this.2
    | cons e s =>
        have hd : e = d := (List.cons.inj h).1
        have hmem : d ∈ decimal m := by
          rw [hdec, ← hd]
          simp
        have hdigit : d.isDigit = true := isDigit_decimal hmem
        exact isxdigit_ne_x (by simp [isxdigit, hdigit])
  rw [hdec, List.cons_append]
  cases htail : s ++ rest with
  | nil => simp [startsWithWord]
  | cons d r => simp [startsWithWord, hsecond d r htail]

theorem unsignedValue_decimal (hrest : Stops continuesNumber rest) :
    unsignedValue (decimal m ++ rest) = .finite m := by
  have hvalue : floatValue 10 10 Char.isDigit 'e' (decimal m ++ rest) = m := by
    unfold floatValue
    rw [mantissa_decimal hrest]
    simp [digitsValue_decimal, exponentValue_stop hrest, decimal_ne_nil]
  unfold unsignedValue
  rw [startsWithWord_decimal (by decide), startsWithWord_decimal (by decide),
    not_hexMarker_decimal hrest, hvalue]
  rfl

theorem beginsNumber_decimal (hrest : Stops continuesNumber rest) :
    beginsNumber (decimal m ++ rest) = true := by
  unfold beginsNumber
  rw [mantissa_decimal hrest]
  simp [decimal_ne_nil]

/-- **A numeral is read back as the number it was written from.** -/
theorem strtod_formatD (n : Int) (hrest : Stops continuesNumber rest) :
    strtod (formatD n ++ rest) = some (.finite n) := by
  by_cases hn : n < 0
  · have htext : formatD n ++ rest = '-' :: (decimal n.natAbs ++ rest) := by
      simp [formatD, hn]
    have hsign : optionalSign ((formatD n ++ rest).dropWhile isspace) =
        (true, decimal n.natAbs ++ rest) := by
      rw [htext, List.dropWhile_cons_of_neg (by decide)]
      rfl
    have hvalue : -|(n : ℚ)| = n := by
      rw [abs_of_neg (by exact_mod_cast hn), neg_neg]
    rw [strtod, atof, hsign]
    simp [beginsNumber_decimal hrest, unsignedValue_decimal hrest, Number.neg, hvalue]
  · have htext : formatD n ++ rest = decimal n.natAbs ++ rest := by simp [formatD, hn]
    obtain ⟨c, s, hdec, hc⟩ := decimal_eq_cons n.natAbs
    have hsign : optionalSign ((formatD n ++ rest).dropWhile isspace) =
        (false, decimal n.natAbs ++ rest) := by
      rw [htext, hdec, List.cons_append, List.dropWhile_cons_of_neg (by simp [isspace_of_isDigit hc])]
      have hminus : c ≠ '-' := ne_of_isDigit hc (by decide)
      have hplus : c ≠ '+' := ne_of_isDigit hc (by decide)
      simp [optionalSign, hminus, hplus]
    have hvalue : |(n : ℚ)| = n := abs_of_nonneg (by exact_mod_cast not_lt.mp hn)
    rw [strtod, atof, hsign]
    simp [beginsNumber_decimal hrest, unsignedValue_decimal hrest, hvalue]

end Decimal

/-! ## A numeral cut short -/

section Cut

variable {rest : List Char}

/-- The beginning of a numeral is the numeral of a smaller number. -/
theorem decimal_prefix {m : Nat} {p : List Char} (h : p <+: decimal m) (hne : p ≠ []) :
    p = decimal m ∨ ∃ k, 0 < k ∧ k < m ∧ p = decimal k := by
  induction m using Nat.strong_induction_on generalizing p with
  | _ m ih =>
      by_cases hm : m < 10
      · have hone : decimal m = [] ++ [m.digitChar] := Nat.toDigits_of_lt_base hm
        rw [hone] at h ⊢
        rcases List.prefix_concat_iff.mp h with h | h
        · exact .inl h
        · exact absurd (List.prefix_nil.mp h) hne
      · have hpos : 0 < m / 10 := by omega
        have hlt : m / 10 < m := by omega
        have hsplit : decimal m = decimal (m / 10) ++ [(m % 10).digitChar] :=
          Nat.toDigits_of_base_le (by decide) (by omega)
        rw [hsplit] at h
        rcases List.prefix_concat_iff.mp h with h | h
        · exact .inl (by rw [h, hsplit])
        · rcases ih (m / 10) hlt h hne with h | ⟨k, hk, hkm, h⟩
          · exact .inr ⟨m / 10, hpos, hlt, h⟩
          · exact .inr ⟨k, hk, by omega, h⟩

/-- A numeral that is cut reads as another number, or as none. -/
theorem strtod_formatD_cut {n : Int} {p : List Char} (h : p <+: formatD n) (hne : p ≠ formatD n) :
    strtod p = none ∨ ∃ j : Int, j ≠ n ∧ strtod p = some (.finite j) := by
  have hread : ∀ j : Int, strtod (formatD j) = some (.finite j) := by
    intro j
    have hj := strtod_formatD j (stops_nil (p := continuesNumber))
    rwa [List.append_nil] at hj
  by_cases hn : n < 0
  · have hformat : formatD n = '-' :: decimal n.natAbs := by simp [formatD, hn]
    rw [hformat] at h hne
    rcases List.prefix_cons_iff.mp h with rfl | ⟨q, rfl, hq⟩
    · exact .inl (by decide +kernel)
    · by_cases hnil : q = []
      · subst hnil
        exact .inl (by decide +kernel)
      · rcases decimal_prefix hq hnil with rfl | ⟨k, hk, hkm, rfl⟩
        · exact absurd rfl hne
        · have hcut : '-' :: decimal k = formatD (-k) := by simp [formatD, hk]
          exact .inr ⟨-k, by omega, hcut ▸ hread (-k)⟩
  · have hformat : formatD n = decimal n.natAbs := by simp [formatD, hn]
    rw [hformat] at h hne
    by_cases hnil : p = []
    · subst hnil
      exact .inl (by decide +kernel)
    · rcases decimal_prefix h hnil with rfl | ⟨k, hk, hkm, rfl⟩
      · exact absurd rfl hne
      · have hpos : ¬ (k : Int) < 0 := by omega
        have hcut : decimal k = formatD k := by simp [formatD, hpos]
        exact .inr ⟨k, by omega, hcut ▸ hread k⟩

/-- **A numeral at the beginning of a text that is cut** reads as its number
if it is still whole. -/
theorem strtod_take {n : Int} (hrest : Stops continuesNumber rest) {k : Nat}
    (hk : (formatD n).length ≤ k) : strtod ((formatD n ++ rest).take k) = some (.finite n) := by
  rw [List.take_append, List.take_of_length_le hk]
  apply strtod_formatD
  intro c r hcut
  have hprefix : c :: r <+: rest := hcut ▸ List.take_prefix _ rest
  obtain ⟨s, hs⟩ := hprefix
  exact hrest c (r ++ s) hs.symm

/-- And as another number, or as none, if it is not. -/
theorem strtod_take_cut {n : Int} {k : Nat} (hk : k < (formatD n).length) :
    strtod ((formatD n ++ rest).take k) = none ∨
      ∃ j : Int, j ≠ n ∧ strtod ((formatD n ++ rest).take k) = some (.finite j) := by
  rw [List.take_append_of_le_length hk.le]
  apply strtod_formatD_cut (List.take_prefix k _)
  intro heq
  have hlen := congrArg List.length heq
  rw [List.length_take] at hlen
  omega

end Cut

end CText
