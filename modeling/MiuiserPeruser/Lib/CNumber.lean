import Mathlib.Algebra.Order.Floor.Ring
import Mathlib.Data.Int.Log
import Mathlib.Data.Rat.Floor
import MiuiserPeruser.Lib.CText

/-!
# Numbers in C text

`atof` and the `%.6g` and `%.0f` conversions of `printf`, on exact
values: a `double` is here a rational, an infinity or a NaN, and the
rounding of a numeral to the nearest `double` is left out.

What the users of these functions rely on: `atof` stops at the first
character that cannot continue the number (`atof_newline`), and the
conversions write nothing but the characters of a number.
-/

namespace CText

/-- A `double`, with an exact finite value. -/
inductive Number where
  | finite (q : ℚ)
  | inf (negative : Bool)
  | nan
  deriving DecidableEq

def Number.neg : Number → Number
  | .finite q => .finite (-q)
  | .inf negative => .inf !negative
  | .nan => .nan

/-! ## atof -/

def isspace (c : Char) : Bool := c ∈ [' ', '\t', '\n', '\x0b', '\x0c', '\r']

/-- Nothing behind the blank is space. -/
theorem isspace_of_lt {c : Char} (h : 32 < c.toNat) : isspace c = false := by
  refine decide_eq_false fun hc => ?_
  simp only [List.mem_cons, List.not_mem_nil, or_false] at hc
  rcases hc with rfl | rfl | rfl | rfl | rfl | rfl <;> exact absurd h (by decide)

def isxdigit (c : Char) : Bool := c.isDigit || c.toLower ∈ ['a', 'b', 'c', 'd', 'e', 'f']

def digitValue (c : Char) : Nat := if c.isDigit then c.toNat - 48 else c.toLower.toNat - 87

def digitsValue (base : Nat) (ds : List Char) : Nat :=
  ds.foldl (fun n c => n * base + digitValue c) 0

/-- The text starts with the word, in either case. -/
def startsWithWord : List Char → List Char → Bool
  | [], _ => true
  | w :: ws, c :: cs => c.toLower = w && startsWithWord ws cs
  | _ :: _, [] => false

/-- The digits of a mantissa before and after its point, and what follows. -/
def mantissa (isDig : Char → Bool) (s : List Char) : List Char × List Char × List Char :=
  match s.dropWhile isDig with
  | '.' :: rest => (s.takeWhile isDig, rest.takeWhile isDig, rest.dropWhile isDig)
  | rest => (s.takeWhile isDig, [], rest)

/-- An optional sign: whether it is a minus, and what follows. -/
def optionalSign (s : List Char) : Bool × List Char :=
  if s.head? = some '-' then (true, s.tail)
  else if s.head? = some '+' then (false, s.tail)
  else (false, s)

/-- The exponent, if the marker, an optional sign and a digit follow. -/
def exponentValue (marker : Char) : List Char → Int
  | [] => 0
  | c :: s =>
      let (negative, s) := optionalSign s
      let n : Int := digitsValue 10 (s.takeWhile Char.isDigit)
      if c.toLower ≠ marker then 0 else if negative then -n else n

/-- A mantissa in `base` with an exponent of `radix`. -/
def floatValue (base radix : Nat) (isDig : Char → Bool) (marker : Char) (s : List Char) : ℚ :=
  let (whole, frac, rest) := mantissa isDig s
  if whole ++ frac = [] then 0
  else digitsValue base (whole ++ frac) / (base : ℚ) ^ frac.length *
    (radix : ℚ) ^ exponentValue marker rest

/-- The number at the start of a text without sign; 0 if there is none. -/
def unsignedValue (s : List Char) : Number :=
  if startsWithWord ['i', 'n', 'f'] s then .inf false
  else if startsWithWord ['n', 'a', 'n'] s then .nan
  else if startsWithWord ['0', 'x'] s then .finite (floatValue 16 2 isxdigit 'p' (s.drop 2))
  else .finite (floatValue 10 10 Char.isDigit 'e' s)

/-- `atof`. -/
def atof (s : List Char) : Number :=
  let (negative, s) := optionalSign (s.dropWhile isspace)
  if negative then (unsignedValue s).neg else unsignedValue s

section Newline

variable {s : List Char}

theorem takeWhile_newline {p : Char → Bool} (hp : p '\n' = false) :
    (s ++ ['\n']).takeWhile p = s.takeWhile p := by
  induction s with
  | nil => exact List.takeWhile_cons_of_neg (by simp [hp])
  | cons c s ih =>
      rw [List.cons_append, List.takeWhile_cons, List.takeWhile_cons, ih]

theorem dropWhile_newline {p : Char → Bool} (hp : p '\n' = false) :
    (s ++ ['\n']).dropWhile p = s.dropWhile p ++ ['\n'] := by
  induction s with
  | nil => exact List.dropWhile_cons_of_neg (by simp [hp])
  | cons c s ih =>
      rw [List.cons_append, List.dropWhile_cons, List.dropWhile_cons, ih]
      split <;> rfl

theorem startsWithWord_newline {w : List Char} (hw : '\n' ∉ w) :
    startsWithWord w (s ++ ['\n']) = startsWithWord w s := by
  induction w generalizing s with
  | nil => cases s <;> rfl
  | cons x w ih =>
      cases s with
      | nil =>
          have hx : x ≠ '\n' := fun h => hw (h ▸ List.mem_cons_self)
          simp [startsWithWord, hx.symm]
      | cons c s =>
          have hw' : '\n' ∉ w := fun h => hw (List.mem_cons_of_mem _ h)
          simp only [List.cons_append, startsWithWord, ih hw']

theorem mantissa_newline {isDig : Char → Bool} (hd : isDig '\n' = false) :
    mantissa isDig (s ++ ['\n']) =
      ((mantissa isDig s).1, (mantissa isDig s).2.1, (mantissa isDig s).2.2 ++ ['\n']) := by
  unfold mantissa
  rw [dropWhile_newline hd, takeWhile_newline hd]
  cases hrest : s.dropWhile isDig with
  | nil => rfl
  | cons c rest =>
      by_cases hc : c = '.'
      · subst hc
        simp only [List.cons_append, takeWhile_newline hd, dropWhile_newline hd]
      · simp [hc]

theorem optionalSign_newline :
    optionalSign (s ++ ['\n']) = ((optionalSign s).1, (optionalSign s).2 ++ ['\n']) := by
  cases s with
  | nil => rfl
  | cons c s =>
      by_cases hminus : c = '-'
      · simp [optionalSign, hminus]
      · by_cases hplus : c = '+'
        · simp [optionalSign, hplus]
        · simp [optionalSign, hminus, hplus]

theorem exponentValue_newline (marker : Char) :
    exponentValue marker (s ++ ['\n']) = exponentValue marker s := by
  cases s with
  | nil => simp [exponentValue, optionalSign, digitsValue]
  | cons c s =>
      simp only [List.cons_append, exponentValue, optionalSign_newline,
        takeWhile_newline (p := Char.isDigit) (by decide)]

theorem floatValue_newline (base radix : Nat) {isDig : Char → Bool} (hd : isDig '\n' = false)
    (marker : Char) :
    floatValue base radix isDig marker (s ++ ['\n']) = floatValue base radix isDig marker s := by
  simp only [floatValue, mantissa_newline hd, exponentValue_newline]

theorem unsignedValue_newline : unsignedValue (s ++ ['\n']) = unsignedValue s := by
  have hinf : startsWithWord ['i', 'n', 'f'] (s ++ ['\n']) = startsWithWord ['i', 'n', 'f'] s :=
    startsWithWord_newline (by decide)
  have hnan : startsWithWord ['n', 'a', 'n'] (s ++ ['\n']) = startsWithWord ['n', 'a', 'n'] s :=
    startsWithWord_newline (by decide)
  have hhex : startsWithWord ['0', 'x'] (s ++ ['\n']) = startsWithWord ['0', 'x'] s :=
    startsWithWord_newline (by decide)
  unfold unsignedValue
  rw [hinf, hnan, hhex, floatValue_newline 10 10 (by decide)]
  by_cases h : startsWithWord ['0', 'x'] s = true
  · have hdrop : (s ++ ['\n']).drop 2 = s.drop 2 ++ ['\n'] := by
      match s, h with
      | [_], h => simp [startsWithWord] at h
      | _ :: _ :: s, _ => rfl
    rw [hdrop, floatValue_newline 16 2 (by decide)]
  · simp only [h]
    rfl

/-- **A number ends at the newline.** -/
theorem atof_newline (s : List Char) : atof (s ++ ['\n']) = atof s := by
  have hdrop : s.dropWhile isspace = [] ∧ (s ++ ['\n']).dropWhile isspace = [] ∨
      ∃ c r, s.dropWhile isspace = c :: r ∧ (s ++ ['\n']).dropWhile isspace = c :: (r ++ ['\n']) := by
    induction s with
    | nil => exact .inl ⟨rfl, by decide⟩
    | cons c s ih =>
        rw [List.cons_append, List.dropWhile_cons, List.dropWhile_cons]
        by_cases hc : isspace c = true
        · simpa only [hc, if_true] using ih
        · exact .inr ⟨c, s, by simp only [hc]; exact ⟨rfl, rfl⟩⟩
  unfold atof
  rcases hdrop with ⟨h, h'⟩ | ⟨c, r, h, h'⟩
  · rw [h, h']
  · rw [h, h', ← List.cons_append, optionalSign_newline]
    simp only [unsignedValue_newline]

/-- White space alone is no number. -/
theorem atof_only_newline : atof ['\n'] = .finite 0 := by decide +kernel

end Newline

/-! ## printf -/

/-- Round to the nearest integer, ties to even. -/
def roundEven (q : ℚ) : ℤ :=
  if Int.fract q < 1 / 2 then ⌊q⌋
  else if 1 / 2 < Int.fract q then ⌊q⌋ + 1
  else if ⌊q⌋ % 2 = 0 then ⌊q⌋ else ⌊q⌋ + 1

def decimal (n : Nat) : List Char := Nat.toDigits 10 n

/-- `%.0f`. -/
def formatF0 : Number → List Char
  | .finite q => (if q < 0 then ['-'] else []) ++ decimal (roundEven |q|).natAbs
  | .inf negative => (if negative then ['-'] else []) ++ ['i', 'n', 'f']
  | .nan => ['n', 'a', 'n']

/-- The six significant digits of a positive value and its exponent. -/
def sixDigits (q : ℚ) : Nat × Int :=
  let x := Int.log 10 q
  let m := (roundEven (q / 10 ^ (x - 5))).natAbs
  if m = 10 ^ 6 then (10 ^ 5, x + 1) else (m, x)

/-- The fraction without its trailing zeros, and its point if it is not empty. -/
def fraction (ds : List Char) : List Char :=
  let ds := ds.rdropWhile (· = '0')
  if ds = [] then [] else '.' :: ds

/-- Six significant digits and an exponent in the style of `%.6g`. -/
def layout (ds : List Char) (x : Int) : List Char :=
  if x < -4 ∨ x ≥ 6 then
    ds.take 1 ++ fraction (ds.drop 1) ++ (if x < 0 then ['e', '-'] else ['e', '+']) ++
      (if x.natAbs < 10 then ['0'] else []) ++ decimal x.natAbs
  else if x < 0 then '0' :: fraction (List.replicate (x.natAbs - 1) '0' ++ ds)
  else ds.take (x.natAbs + 1) ++ fraction (ds.drop (x.natAbs + 1))

/-- `%.6g`. -/
def formatG6 : Number → List Char
  | .finite q =>
      if q = 0 then ['0']
      else (if q < 0 then ['-'] else []) ++ layout (decimal (sixDigits |q|).1) (sixDigits |q|).2
  | .inf negative => (if negative then ['-'] else []) ++ ['i', 'n', 'f']
  | .nan => ['n', 'a', 'n']

/-- The characters a number is written with. -/
def isNumeral (c : Char) : Bool := c.isDigit || c ∈ ['+', '-', '.', 'e', 'i', 'n', 'f', 'a']

theorem isNumeral_decimal {n : Nat} {c : Char} (h : c ∈ decimal n) : isNumeral c = true := by
  have hdigit : c.isDigit = true := Nat.isDigit_of_mem_toDigits (by decide) (by decide) h
  simp [isNumeral, hdigit]

theorem isNumeral_fraction {ds : List Char} (hds : ∀ c ∈ ds, isNumeral c = true) {c : Char}
    (h : c ∈ fraction ds) : isNumeral c = true := by
  simp only [fraction] at h
  split at h
  · cases h
  · rcases List.mem_cons.mp h with rfl | h
    · decide
    · exact hds c ((List.rdropWhile_prefix _ _).subset h)

theorem isNumeral_layout {ds : List Char} (hds : ∀ c ∈ ds, isNumeral c = true) {x : Int} {c : Char}
    (h : c ∈ layout ds x) : isNumeral c = true := by
  have hfraction : ∀ k, c ∈ fraction (ds.drop k) → isNumeral c = true := fun k =>
    isNumeral_fraction fun c hc => hds c (List.mem_of_mem_drop hc)
  unfold layout at h
  split at h
  · simp only [List.mem_append] at h
    rcases h with (((h | h) | h) | h) | h
    · exact hds c (List.mem_of_mem_take h)
    · exact hfraction 1 h
    · have hmark : ∀ c ∈ (if x < 0 then ['e', '-'] else ['e', '+']), isNumeral c = true := by
        split <;> exact forall_mem_of_all (by decide)
      exact hmark c h
    · have hzero : ∀ c ∈ (if x.natAbs < 10 then ['0'] else []), isNumeral c = true := by
        split <;> exact forall_mem_of_all (by decide)
      exact hzero c h
    · exact isNumeral_decimal h
  · split at h
    · rcases List.mem_cons.mp h with rfl | h
      · decide
      · refine isNumeral_fraction (fun c hc => ?_) h
        rcases List.mem_append.mp hc with hc | hc
        · rw [(List.mem_replicate.mp hc).2]
          decide
        · exact hds c hc
    · rcases List.mem_append.mp h with h | h
      · exact hds c (List.mem_of_mem_take h)
      · exact hfraction _ h

theorem layout_ne_nil {ds : List Char} (hds : ds ≠ []) (x : Int) : layout ds x ≠ [] := by
  unfold layout
  split
  · refine List.append_ne_nil_of_right_ne_nil _ Nat.toDigits_ne_nil
  · split
    · exact List.cons_ne_nil _ _
    · refine List.append_ne_nil_of_left_ne_nil ?_ _
      simpa using hds

/-- **`%.6g` writes the characters of a number**, at least one of them. -/
theorem isNumeral_formatG6 {w : Number} {c : Char} (h : c ∈ formatG6 w) : isNumeral c = true := by
  have hsign : ∀ (p : Prop) [Decidable p], ∀ c ∈ (if p then ['-'] else []), isNumeral c = true := by
    intro p _
    split <;> exact forall_mem_of_all (by decide)
  cases w with
  | finite q =>
      simp only [formatG6] at h
      split at h
      · rw [List.mem_singleton.mp h]
        decide
      · rcases List.mem_append.mp h with h | h
        · exact hsign _ c h
        · exact isNumeral_layout (fun _ => isNumeral_decimal) h
  | inf negative =>
      rcases List.mem_append.mp h with h | h
      · exact hsign _ c h
      · have hword : ∀ c ∈ ['i', 'n', 'f'], isNumeral c = true :=
          forall_mem_of_all (by decide)
        exact hword c h
  | nan =>
      have hword : ∀ c ∈ ['n', 'a', 'n'], isNumeral c = true := forall_mem_of_all (by decide)
      exact hword c h

theorem formatG6_ne_nil (w : Number) : formatG6 w ≠ [] := by
  cases w with
  | finite q =>
      simp only [formatG6]
      split
      · exact List.cons_ne_nil _ _
      · exact List.append_ne_nil_of_right_ne_nil _ (layout_ne_nil Nat.toDigits_ne_nil _)
  | inf negative => exact List.append_ne_nil_of_right_ne_nil _ (List.cons_ne_nil _ _)
  | nan => exact List.cons_ne_nil _ _

end CText
