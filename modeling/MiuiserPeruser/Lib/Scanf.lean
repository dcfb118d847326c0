import Mathlib.Tactic.Ring
import MiuiserPeruser.Lib.CNumber

/-!
# sscanf

`sscanf` as a function of a list of directives, and the numerals `printf`
writes for it to read. A call stops at the first directive that does not
match, so what it returns is the list of the values assigned so far, and
the number of them is the return value of the C function.

What its users rely on: a text that is printed field by field is read
field by field (`scanf_blanks`, `scanf_chars`, `scanf_number`), reading
takes no notice of the case of letters where the directives do not
(`scanf_sameCase`), and a call that assigns all its fields says what the
text begins with (`scanf_full_iff`).
-/

namespace CText

/-- The text is at its end, or goes on with a character outside `p`. -/
def Stops (p : Char → Bool) (rest : List Char) : Prop := ∀ c r, rest = c :: r → p c = false

@[simp] theorem stops_nil (p : Char → Bool) : Stops p [] := fun _ _ h => nomatch h

@[simp] theorem stops_cons {p : Char → Bool} {c : Char} {r : List Char} :
    Stops p (c :: r) ↔ p c = false := by
  constructor
  · exact fun h => h c r rfl
  · intro h c' r' heq
    rwa [← (List.cons.inj heq).1]

/-! ## Directives -/

/-- A value `sscanf` assigns. -/
inductive Value where
  | num (n : Int)
  | text (s : List Char)
  deriving DecidableEq, Repr

/-- The string the `i`-th conversion assigned. -/
def textAt (values : List Value) (i : Nat) : List Char :=
  match values[i]? with
  | some (.text s) => s
  | _ => []

/-- The number the `i`-th conversion assigned. -/
def numAt (values : List Value) (i : Nat) : Int :=
  match values[i]? with
  | some (.num n) => n
  | _ => 0

/-- The pieces of a format. -/
inductive Directive where
  /-- White space, which also every `%s` and every number skips first. -/
  | space
  /-- A character that has to stand there. -/
  | lit (c : Char)
  /-- `%w[...]`: at least one character of the set, and at most `w`. -/
  | chars (width : Nat) (set : Char → Bool)
  /-- A number: the base, and how sign and magnitude are stored. -/
  | number (base : Nat) (store : Bool → Nat → Int)

def isDigitOf (base : Nat) (c : Char) : Bool := if base = 16 then isxdigit c else c.isDigit

/-- The unsigned numbers are read with `strtoull` and then cut to their type. -/
def storeUnsigned (bits : Nat) (negative : Bool) (n : Nat) : Int :=
  (if 2 ^ 64 ≤ n then 2 ^ 64 - 1 else if negative then 2 ^ 64 - n else n) % 2 ^ bits

/-- The signed numbers are read with `strtoll` and then cut to their type. -/
def storeSigned (bits : Nat) (negative : Bool) (n : Nat) : Int :=
  (if negative then max (-2 ^ 63) (-n) else min (2 ^ 63 - 1) n : Int).bmod (2 ^ bits)

/-- `%u`, `%x`, `%d`, `%ld`, `%llu` and `%ws`; `%lu` and `%zu` have 64 bits too. -/
def percentU : List Directive := [.space, .number 10 (storeUnsigned 32)]
def percentX : List Directive := [.space, .number 16 (storeUnsigned 32)]
def percentD : List Directive := [.space, .number 10 (storeSigned 32)]
def percentLD : List Directive := [.space, .number 10 (storeSigned 64)]
def percentLLU : List Directive := [.space, .number 10 (storeUnsigned 64)]
def percentS (width : Nat) : List Directive := [.space, .chars width fun c => !isspace c]

/-- The marker in front of a hexadecimal number. -/
def hexMarker (base : Nat) (s : List Char) : List Char :=
  if base = 16 ∧ startsWithWord ['0', 'x'] s then s.take 2 else []

/-- The sign and the magnitude of a number, and what follows it. -/
def scanNumber (base : Nat) (s : List Char) : Option (Bool × Nat × List Char) :=
  let (negative, s) := optionalSign s
  let s := s.drop (hexMarker base s).length
  let digits := s.takeWhile (isDigitOf base)
  if digits = [] then none
  else some (negative, digitsValue base digits, s.dropWhile (isDigitOf base))

/-- The values `sscanf` assigns. -/
def scanf : List Directive → List Char → List Value
  | [], _ => []
  | .space :: ds, s => scanf ds (s.dropWhile isspace)
  | .lit c :: ds, s => if s.head? = some c then scanf ds s.tail else []
  | .chars width set :: ds, s =>
      let t := (s.takeWhile set).take width
      if t = [] then [] else .text t :: scanf ds (s.drop t.length)
  | .number base store :: ds, s =>
      match scanNumber base s with
      | none => []
      | some (negative, n, rest) => .num (store negative n) :: scanf ds rest

/-! ## Reading field by field -/

section Fields

variable {ds : List Directive} {w rest : List Char}

/-- White space in front of a field is skipped. -/
theorem scanf_blanks (hw : ∀ c ∈ w, isspace c = true) (hrest : Stops isspace rest) :
    scanf (.space :: ds) (w ++ rest) = scanf ds rest := by
  show scanf ds ((w ++ rest).dropWhile isspace) = _
  rw [dropWhile_append_of_stop hw hrest]

theorem scanf_lit (c : Char) : scanf (.lit c :: ds) (c :: rest) = scanf ds rest := if_pos rfl

/-- A word that fits is read whole. -/
theorem scanf_chars {width : Nat} {set : Char → Bool} (hne : w ≠ []) (hw : ∀ c ∈ w, set c = true)
    (hlen : w.length ≤ width) (hrest : Stops set rest) :
    scanf (.chars width set :: ds) (w ++ rest) = .text w :: scanf ds rest := by
  have htake : ((w ++ rest).takeWhile set).take width = w := by
    rw [takeWhile_append_of_stop hw hrest, List.take_of_length_le hlen]
  show (if ((w ++ rest).takeWhile set).take width = [] then _ else _) = _
  rw [htake, if_neg hne, List.drop_left]

/-- `%c`. -/
theorem scanf_char (c : Char) (s : List Char) :
    scanf (.chars 1 (fun _ => true) :: ds) (c :: s) = .text [c] :: scanf ds s := by
  have htake : ((c :: s).takeWhile fun _ => true).take 1 = [c] := rfl
  simp only [scanf, htake, if_neg (List.cons_ne_nil c [])]
  rfl

theorem optionalSign_digit {c : Char} {s : List Char} (hminus : c ≠ '-') (hplus : c ≠ '+') :
    optionalSign (c :: s) = (false, c :: s) := by
  simp [optionalSign, hminus, hplus]

theorem isDigitOf_ne_sign {base : Nat} {c : Char} (h : isDigitOf base c = true) :
    c ≠ '-' ∧ c ≠ '+' := by
  constructor <;>
  · rintro rfl
    unfold isDigitOf at h
    split at h <;> exact absurd h (by decide)

theorem isxdigit_ne_x {c : Char} (h : isxdigit c = true) : c.toLower ≠ 'x' := by
  intro hx
  simp only [isxdigit, hx, Bool.or_eq_true, decide_eq_true_eq] at h
  rcases h with h | h
  · have hlower : c.toLower = c := by
      simp only [Char.isDigit, Bool.and_eq_true, decide_eq_true_eq] at h
      unfold Char.toLower
      rw [dif_neg]
      intro hle
      have := hle.1
      simp only [ge_iff_le, UInt32.le_iff_toNat_le] at h this
      exact absurd (this.trans h.2) (by decide)
    rw [hlower] at hx
    subst hx
    exact absurd h (by decide)
  · exact absurd h (by decide)

/-- A numeral has no marker of its own, unless the text after it makes one. -/
theorem hexMarker_digits {base : Nat} (hne : w ≠ []) (hw : ∀ c ∈ w, isDigitOf base c = true)
    (hx : Stops (fun c => c.toLower = 'x') rest) : hexMarker base (w ++ rest) = [] := by
  refine if_neg fun h => ?_
  obtain ⟨rfl, h⟩ := h
  have hno : ∀ c ∈ w, c.toLower ≠ 'x' := fun c hc => isxdigit_ne_x (by simpa [isDigitOf] using hw c hc)
  match w, hne, rest with
  | [_], _, [] => simp [startsWithWord] at h
  | [_], _, c :: _ =>
      have := stops_cons.mp hx
      simp_all [startsWithWord]
  | _ :: c :: _, _, _ =>
      have := hno c (by simp)
      simp_all [startsWithWord]

theorem scanNumber_digits {base : Nat} (hne : w ≠ []) (hw : ∀ c ∈ w, isDigitOf base c = true)
    (hrest : Stops (isDigitOf base) rest) (hx : Stops (fun c => c.toLower = 'x') rest) :
    scanNumber base (w ++ rest) = some (false, digitsValue base w, rest) := by
  have hsign : optionalSign (w ++ rest) = (false, w ++ rest) := by
    obtain ⟨c, w', rfl⟩ := List.exists_cons_of_ne_nil hne
    obtain ⟨hminus, hplus⟩ := isDigitOf_ne_sign (hw c List.mem_cons_self)
    exact optionalSign_digit hminus hplus
  unfold scanNumber
  simp only [hsign, hexMarker_digits hne hw hx, List.length_nil, List.drop_zero,
    takeWhile_append_of_stop hw hrest, dropWhile_append_of_stop hw hrest, if_neg hne]

/-- A numeral is read whole. -/
theorem scanf_number {base : Nat} {store : Bool → Nat → Int} (hne : w ≠ [])
    (hw : ∀ c ∈ w, isDigitOf base c = true) (hrest : Stops (isDigitOf base) rest)
    (hx : Stops (fun c => c.toLower = 'x') rest) :
    scanf (.number base store :: ds) (w ++ rest) =
      .num (store false (digitsValue base w)) :: scanf ds rest := by
  simp only [scanf, scanNumber_digits hne hw hrest hx]

end Fields

/-! ## What the text of a call looks like -/

/-- A number as the directives accept it: an optional sign, for base 16 an
optional marker, and digits. -/
def IsNumber (base : Nat) (t : List Char) : Prop :=
  ∃ sign marker digits, t = sign ++ (marker ++ digits) ∧ sign ∈ [[], ['-'], ['+']] ∧
    (marker = [] ∨ base = 16 ∧ marker.map Char.toLower = ['0', 'x']) ∧
    digits ≠ [] ∧ ∀ c ∈ digits, isDigitOf base c = true

section Inversion

variable {ds : List Directive} {s : List Char} {v : Value} {vs : List Value}

theorem scanf_space_inv (h : scanf (.space :: ds) s = vs) :
    ∃ blanks rest, s = blanks ++ rest ∧ (∀ c ∈ blanks, isspace c = true) ∧ scanf ds rest = vs :=
  ⟨s.takeWhile isspace, s.dropWhile isspace, List.takeWhile_append_dropWhile.symm,
    fun _ hc => List.mem_takeWhile_imp hc, h⟩

theorem scanf_lit_inv {c : Char} (h : scanf (.lit c :: ds) s = v :: vs) :
    ∃ rest, s = c :: rest ∧ scanf ds rest = v :: vs := by
  simp only [scanf] at h
  split at h
  · rename_i hhead
    exact ⟨s.tail, (List.cons_head?_tail hhead).symm, h⟩
  · cases h

theorem scanf_chars_inv {width : Nat} {set : Char → Bool}
    (h : scanf (.chars width set :: ds) s = v :: vs) :
    ∃ t rest, s = t ++ rest ∧ t ≠ [] ∧ (∀ c ∈ t, set c = true) ∧ t.length ≤ width ∧
      v = .text t ∧ scanf ds rest = vs := by
  simp only [scanf] at h
  split at h
  · cases h
  · rename_i hne
    obtain ⟨hv, hvs⟩ := List.cons.inj h
    have hprefix : (s.takeWhile set).take width <+: s :=
      (List.take_prefix _ _).trans (List.takeWhile_prefix _)
    obtain ⟨rest, hrest⟩ := hprefix
    have hdrop : s.drop ((s.takeWhile set).take width).length = rest := by
      nth_rewrite 2 [← hrest]
      exact List.drop_left
    refine ⟨_, rest, hrest.symm, hne, ?_, List.length_take_le _ _, hv.symm, hdrop ▸ hvs⟩
    exact fun c hc => List.mem_takeWhile_imp (List.mem_of_mem_take hc)

theorem optionalSign_split (s : List Char) :
    ∃ sign, s = sign ++ (optionalSign s).2 ∧ sign ∈ [[], ['-'], ['+']] := by
  unfold optionalSign
  split
  · rename_i h
    exact ⟨['-'], (List.cons_head?_tail h).symm, by simp⟩
  · split
    · rename_i h
      exact ⟨['+'], (List.cons_head?_tail h).symm, by simp⟩
    · exact ⟨[], rfl, by simp⟩

theorem hexMarker_split (base : Nat) (s : List Char) :
    s = hexMarker base s ++ s.drop (hexMarker base s).length ∧
      (hexMarker base s = [] ∨ base = 16 ∧ (hexMarker base s).map Char.toLower = ['0', 'x']) := by
  unfold hexMarker
  split
  · rename_i h
    obtain ⟨hbase, hword⟩ := h
    match s, hword with
    | a :: b :: s, hword =>
        simp only [startsWithWord, Bool.and_true, Bool.and_eq_true, decide_eq_true_eq] at hword
        exact ⟨rfl, .inr ⟨hbase, by simp [hword.1, hword.2]⟩⟩
    | [a], hword => simp [startsWithWord] at hword
  · exact ⟨rfl, .inl rfl⟩

theorem scanf_number_inv {base : Nat} {store : Bool → Nat → Int}
    (h : scanf (.number base store :: ds) s = v :: vs) :
    ∃ t rest, s = t ++ rest ∧ IsNumber base t ∧ (∃ n, v = .num n) ∧ scanf ds rest = vs := by
  obtain ⟨sign, hsign, hmem⟩ := optionalSign_split s
  generalize hs : (optionalSign s).2 = u at hsign
  obtain ⟨hmarker, hcases⟩ := hexMarker_split base u
  generalize hd : u.drop (hexMarker base u).length = d at hmarker
  simp only [scanf, scanNumber, hs, hd] at h
  split at h
  · cases h
  · rename_i negative n rest hscan
    split at hscan
    · cases hscan
    · rename_i hne
      simp only [Option.some.injEq, Prod.mk.injEq] at hscan
      obtain ⟨-, -, rfl⟩ := hscan
      obtain ⟨hv, hvs⟩ := List.cons.inj h
      refine ⟨sign ++ (hexMarker base u ++ d.takeWhile (isDigitOf base)), _, ?_,
        ⟨sign, _, _, rfl, hmem, hcases, hne, fun c hc => List.mem_takeWhile_imp hc⟩, ⟨_, hv.symm⟩, hvs⟩
      rw [List.append_assoc, List.append_assoc, List.takeWhile_append_dropWhile, ← hmarker]
      exact hsign

/-- **Every value takes a byte** of the text at least. -/
theorem length_scanf_le (ds : List Directive) (s : List Char) : (scanf ds s).length ≤ s.length := by
  induction ds generalizing s with
  | nil => exact Nat.zero_le _
  | cons d ds ih =>
      cases d with
      | space => exact (ih _).trans (List.length_dropWhile_le _ _)
      | lit c =>
          rw [scanf]
          split
          · exact (ih _).trans (List.tail_sublist s).length_le
          · exact Nat.zero_le _
      | chars width set =>
          cases h : scanf (.chars width set :: ds) s with
          | nil => exact Nat.zero_le _
          | cons v vs =>
              obtain ⟨t, rest, rfl, hne, -, -, -, rfl⟩ := scanf_chars_inv h
              have hpos : 0 < t.length := List.length_pos_iff.mpr hne
              have hrest := ih rest
              rw [List.length_cons, List.length_append]
              omega
      | number base store =>
          cases h : scanf (.number base store :: ds) s with
          | nil => exact Nat.zero_le _
          | cons v vs =>
              obtain ⟨t, rest, rfl, ⟨sign, marker, digits, rfl, -, -, hne, -⟩, -, rfl⟩ := scanf_number_inv h
              have hpos : 0 < digits.length := List.length_pos_iff.mpr hne
              have hrest := ih rest
              rw [List.length_cons, List.length_append, List.length_append, List.length_append]
              omega

end Inversion

/-- A number that is assigned was stored by one of the directives. -/
theorem scanf_num_stored {ds : List Directive} {s : List Char} {n : Int} (h : .num n ∈ scanf ds s) :
    ∃ base store negative k, .number base store ∈ ds ∧ n = store negative k := by
  induction ds generalizing s with
  | nil => exact absurd h List.not_mem_nil
  | cons d ds ih =>
      have hlater : ∀ {s}, .num n ∈ scanf ds s →
          ∃ base store negative k, .number base store ∈ d :: ds ∧ n = store negative k := by
        intro s h
        obtain ⟨base, store, negative, k, hmem, hn⟩ := ih h
        exact ⟨base, store, negative, k, List.mem_cons_of_mem _ hmem, hn⟩
      cases d with
      | space => exact hlater h
      | lit c =>
          rw [scanf] at h
          split at h
          · exact hlater h
          · exact absurd h List.not_mem_nil
      | chars width set =>
          simp only [scanf] at h
          split at h
          · exact absurd h List.not_mem_nil
          · rcases List.mem_cons.mp h with h | h
            · cases h
            · exact hlater h
      | number base store =>
          rw [scanf] at h
          split at h
          · exact absurd h List.not_mem_nil
          · rename_i negative k rest _
            rcases List.mem_cons.mp h with h | h
            · exact ⟨base, store, negative, k, List.mem_cons_self, Value.num.inj h⟩
            · exact hlater h

/-- What holds of 0 and of the numbers that are assigned holds of each of them. -/
theorem numAt_of_forall {P : Int → Prop} {values : List Value} (hzero : P 0) (h : ∀ n, .num n ∈ values → P n)
    (i : Nat) : P (numAt values i) := by
  unfold numAt
  split
  · rename_i n hn
    exact h n (List.mem_of_getElem? hn)
  · exact hzero

/-! ## Blanks behind the fields -/

/-- White space, or a field without any. -/
def Directive.IsWord : Directive → Prop
  | .space => True
  | .chars _ set => ∀ c, isspace c = true → set c = false
  | .lit _ => False
  | .number _ _ => False

/-- Formats of such pieces read the same without the blanks at the end. -/
theorem scanf_blanks_behind {ds : List Directive} (hds : ∀ d ∈ ds, d.IsWord) {w : List Char}
    (hw : ∀ c ∈ w, isspace c = true) (s : List Char) : scanf ds (s ++ w) = scanf ds s := by
  induction ds generalizing s with
  | nil => rfl
  | cons d ds ih =>
      have ih := ih fun d hd => hds d (List.mem_cons_of_mem _ hd)
      have hd := hds d List.mem_cons_self
      cases d with
      | space =>
          show scanf ds ((s ++ w).dropWhile isspace) = scanf ds (s.dropWhile isspace)
          rw [List.dropWhile_append]
          split
          · rename_i hnil
            have hnone : w.dropWhile isspace = [] := List.dropWhile_eq_nil_iff.mpr hw
            rw [hnone, List.isEmpty_iff.mp hnil]
          · exact ih _
      | chars width set =>
          have htake : (s ++ w).takeWhile set = s.takeWhile set := by
            have hnone : w.takeWhile set = [] := by
              cases w with
              | nil => rfl
              | cons c w => exact List.takeWhile_cons_of_neg (by simp [hd c (hw c List.mem_cons_self)])
            rw [List.takeWhile_append, hnone, List.append_nil]
            split
            · rename_i hall
              exact ((List.takeWhile_prefix set).eq_of_length hall).symm
            · rfl
          have hshort : ((s.takeWhile set).take width).length ≤ s.length :=
            ((List.take_prefix _ _).trans (List.takeWhile_prefix set)).length_le
          show (if ((s ++ w).takeWhile set).take width = [] then [] else _) =
            if (s.takeWhile set).take width = [] then [] else _
          rw [htake]
          split
          · rfl
          · rw [List.drop_append_of_le_length hshort, ih]
      | lit c => exact hd.elim
      | number base store => exact hd.elim

/-! ## The case of letters -/

theorem exists_ofNat {lo k : Nat} {c : Char} (hlo : lo ≤ c.toNat) (hhi : c.toNat < lo + k) :
    ∃ i : Fin k, c = Char.ofNat (lo + i) := by
  refine ⟨⟨c.toNat - lo, by omega⟩, ?_⟩
  have hsum : lo + (c.toNat - lo) = c.toNat := by omega
  simp only [hsum, Char.ofNat_toNat]

/-- A relation that holds of every character and itself, and of every
letter and its capital, holds of every character and its `toUpper`. -/
theorem toUpper_cases {P : Char → Char → Prop} (hsame : ∀ c, P c c)
    (hletter : ∀ i : Fin 26, P (Char.ofNat (97 + i)) (Char.ofNat (65 + i))) (c : Char) :
    P c c.toUpper := by
  by_cases h : 'a'.val ≤ c.val ∧ c.val ≤ 'z'.val
  · simp only [UInt32.le_iff_toNat_le] at h
    have hhigh : c.toNat ≤ 122 := h.2
    obtain ⟨i, rfl⟩ : ∃ i : Fin 26, c = Char.ofNat (97 + i) := exists_ofNat h.1 (by omega)
    have hupper : ∀ i : Fin 26, (Char.ofNat (97 + i)).toUpper = Char.ofNat (65 + i) := by decide
    rw [hupper]
    exact hletter i
  · have hupper : c.toUpper = c := dif_neg h
    rw [hupper]
    exact hsame c

theorem toLower_cases {P : Char → Char → Prop} (hsame : ∀ c, P c c)
    (hletter : ∀ i : Fin 26, P (Char.ofNat (65 + i)) (Char.ofNat (97 + i))) (c : Char) :
    P c c.toLower := by
  by_cases h : 'A'.val ≤ c.val ∧ c.val ≤ 'Z'.val
  · simp only [UInt32.le_iff_toNat_le] at h
    have hhigh : c.toNat ≤ 90 := h.2
    obtain ⟨i, rfl⟩ : ∃ i : Fin 26, c = Char.ofNat (65 + i) := exists_ofNat h.1 (by omega)
    have hlower : ∀ i : Fin 26, (Char.ofNat (65 + i)).toLower = Char.ofNat (97 + i) := by decide
    rw [hlower]
    exact hletter i
  · have hlower : c.toLower = c := dif_neg h
    rw [hlower]
    exact hsame c

def xdigits : List Char := "0123456789abcdefABCDEF".toList

/-- The hexadecimal digits are these. -/
theorem mem_xdigits {c : Char} (h : isxdigit c = true) : c ∈ xdigits := by
  have hcase : c.isDigit = true ∨ c.toLower ∈ ['a', 'b', 'c', 'd', 'e', 'f'] := by
    simpa [isxdigit] using h
  rcases hcase with hdigit | hletter
  · simp only [Char.isDigit, Bool.and_eq_true, decide_eq_true_eq, ge_iff_le,
      UInt32.le_iff_toNat_le] at hdigit
    have hhigh : c.toNat ≤ 57 := hdigit.2
    obtain ⟨i, rfl⟩ : ∃ i : Fin 10, c = Char.ofNat (48 + i) := exists_ofNat hdigit.1 (by omega)
    have hall : ∀ i : Fin 10, Char.ofNat (48 + i) ∈ xdigits := by decide
    exact hall i
  · have hsame : ['a', 'b', 'c', 'd', 'e', 'f'] ⊆ xdigits := by decide
    exact toLower_cases (P := fun a b => b ∈ ['a', 'b', 'c', 'd', 'e', 'f'] → a ∈ xdigits)
      (fun _ h => hsame h) (by decide) c hletter

/-! ## Blanks and digits -/

theorem isspace_of_isxdigit {c : Char} (h : isxdigit c = true) : isspace c = false :=
  forall_mem_of_all (p := fun c => isspace c = false) (by decide) c (mem_xdigits h)

theorem isspace_of_isDigitOf {base : Nat} {c : Char} (h : isDigitOf base c = true) : isspace c = false := by
  apply isspace_of_isxdigit
  unfold isDigitOf at h
  split at h
  · exact h
  · simp [isxdigit, h]

theorem stops_isspace_append {w rest : List Char} (hne : w ≠ []) (hw : ∀ c ∈ w, isspace c = false) :
    Stops isspace (w ++ rest) := by
  obtain ⟨c, w, rfl⟩ := List.exists_cons_of_ne_nil hne
  exact stops_cons.mpr (hw c List.mem_cons_self)

/-- A blank belongs to no number. -/
theorem stops_digit_of_blank {base : Nat} {rest : List Char} (h : Stops (fun c => !isspace c) rest) :
    Stops (isDigitOf base) rest := by
  intro c r hrest
  have hc : isspace c = true := by simpa using h c r hrest
  cases hdigit : isDigitOf base c with
  | false => rfl
  | true =>
      rw [isspace_of_isDigitOf hdigit] at hc
      cases hc

theorem stops_marker_of_blank {rest : List Char} (h : Stops (fun c => !isspace c) rest) :
    Stops (fun c => c.toLower = 'x') rest := by
  intro c r hrest
  have hc : isspace c = true := by simpa using h c r hrest
  have hmem : c ∈ [' ', '\t', '\n', '\x0b', '\x0c', '\r'] := by simpa [isspace] using hc
  exact forall_mem_of_all (p := fun c => decide (c.toLower = 'x') = false) (by decide) c hmem

/-! ## Letters of either case -/

/-- A set of characters that does not tell capitals from small letters. -/
def CaseBlind (p : Char → Bool) : Prop := ∀ c : Char, p c.toUpper = p c

theorem caseBlind_isspace : CaseBlind isspace := fun c =>
  toUpper_cases (P := fun a b => isspace b = isspace a) (fun _ => rfl) (by decide) c

theorem caseBlind_isxdigit : CaseBlind isxdigit := fun c =>
  toUpper_cases (P := fun a b => isxdigit b = isxdigit a) (fun _ => rfl) (by decide) c

theorem caseBlind_isDigitOf (base : Nat) : CaseBlind (isDigitOf base) := by
  intro c
  unfold isDigitOf
  split
  · exact caseBlind_isxdigit c
  · exact toUpper_cases (P := fun a b => b.isDigit = a.isDigit) (fun _ => rfl) (by decide) c

theorem digitValue_toUpper (c : Char) : digitValue c.toUpper = digitValue c :=
  toUpper_cases (P := fun a b => digitValue b = digitValue a) (fun _ => rfl) (by decide) c

theorem toLower_toUpper (c : Char) : c.toUpper.toLower = c.toLower :=
  toUpper_cases (P := fun a b => b.toLower = a.toLower) (fun _ => rfl) (by decide) c

/-- What no letter is turned into. -/
theorem toUpper_eq_iff {d : Char} (hd : ∀ i : Fin 26, d ≠ Char.ofNat (97 + i) ∧ d ≠ Char.ofNat (65 + i))
    (c : Char) : c.toUpper = d ↔ c = d :=
  toUpper_cases (P := fun a b => b = d ↔ a = d) (fun _ => Iff.rfl)
    (fun i => ⟨fun h => absurd h.symm (hd i).2, fun h => absurd h.symm (hd i).1⟩) c

/-- The directive does not tell capitals from small letters. -/
def Directive.CaseBlind : Directive → Prop
  | .space | .number _ _ => True
  | .lit d => ∀ c : Char, c.toUpper = d ↔ c = d
  | .chars _ set => CText.CaseBlind set

def Value.toUpper : Value → Value
  | .num n => .num n
  | .text t => .text (t.map Char.toUpper)

theorem textAt_toUpper (values : List Value) (i : Nat) :
    textAt (values.map Value.toUpper) i = (textAt values i).map Char.toUpper := by
  unfold textAt
  rw [List.getElem?_map]
  match values[i]? with
  | none | some (.num _) | some (.text _) => rfl

theorem numAt_toUpper (values : List Value) (i : Nat) :
    numAt (values.map Value.toUpper) i = numAt values i := by
  unfold numAt
  rw [List.getElem?_map]
  match values[i]? with
  | none | some (.num _) | some (.text _) => rfl

section Upper

variable {s : List Char}

theorem takeWhile_toUpper {p : Char → Bool} (hp : CaseBlind p) :
    (s.map Char.toUpper).takeWhile p = (s.takeWhile p).map Char.toUpper := by
  rw [List.takeWhile_map]
  exact congrArg (fun q => (s.takeWhile q).map Char.toUpper) (funext hp)

theorem dropWhile_toUpper {p : Char → Bool} (hp : CaseBlind p) :
    (s.map Char.toUpper).dropWhile p = (s.dropWhile p).map Char.toUpper := by
  rw [List.dropWhile_map]
  exact congrArg (fun q => (s.dropWhile q).map Char.toUpper) (funext hp)

theorem optionalSign_toUpper :
    optionalSign (s.map Char.toUpper) = ((optionalSign s).1, (optionalSign s).2.map Char.toUpper) := by
  cases s with
  | nil => rfl
  | cons c s =>
      have hminus : c.toUpper = '-' ↔ c = '-' := toUpper_eq_iff (by decide) c
      have hplus : c.toUpper = '+' ↔ c = '+' := toUpper_eq_iff (by decide) c
      simp only [optionalSign, List.map_cons, List.head?_cons, Option.some.injEq, hminus, hplus,
        List.tail_cons]
      split
      · rfl
      · split <;> rfl

theorem startsWithWord_toUpper (w : List Char) :
    startsWithWord w (s.map Char.toUpper) = startsWithWord w s := by
  induction w generalizing s with
  | nil => cases s <;> rfl
  | cons x w ih =>
      cases s with
      | nil => rfl
      | cons c s => simp only [List.map_cons, startsWithWord, toLower_toUpper, ih]

theorem length_hexMarker_toUpper (base : Nat) :
    (hexMarker base (s.map Char.toUpper)).length = (hexMarker base s).length := by
  simp only [hexMarker, startsWithWord_toUpper]
  split
  · rw [List.length_take, List.length_take, List.length_map]
  · rfl

theorem digitsValue_toUpper (base : Nat) :
    digitsValue base (s.map Char.toUpper) = digitsValue base s := by
  unfold digitsValue
  rw [List.foldl_map]
  simp only [digitValue_toUpper]

theorem scanNumber_toUpper (base : Nat) :
    scanNumber base (s.map Char.toUpper) =
      (scanNumber base s).map fun r => (r.1, r.2.1, r.2.2.map Char.toUpper) := by
  simp only [scanNumber, optionalSign_toUpper, length_hexMarker_toUpper, ← List.map_drop,
    takeWhile_toUpper (caseBlind_isDigitOf base), dropWhile_toUpper (caseBlind_isDigitOf base),
    digitsValue_toUpper, List.map_eq_nil_iff]
  split <;> rfl

/-- **Reading takes no notice of the case of letters.** -/
theorem scanf_toUpper {ds : List Directive} (hds : ∀ d ∈ ds, d.CaseBlind) :
    scanf ds (s.map Char.toUpper) = (scanf ds s).map Value.toUpper := by
  induction ds generalizing s with
  | nil => rfl
  | cons d ds ih =>
      have ih : ∀ {s : List Char}, scanf ds (s.map Char.toUpper) = (scanf ds s).map Value.toUpper :=
        ih fun d hd => hds d (List.mem_cons_of_mem _ hd)
      have hd := hds d List.mem_cons_self
      cases d with
      | space =>
          simp only [scanf]
          rw [dropWhile_toUpper caseBlind_isspace, ih]
      | lit c =>
          have hhead : (s.map Char.toUpper).head? = some c ↔ s.head? = some c := by
            cases s with
            | nil => simp
            | cons a s => simpa using hd a
          simp only [scanf, hhead, ← List.map_tail]
          split
          · exact ih
          · rfl
      | chars width set =>
          simp only [scanf, takeWhile_toUpper hd, ← List.map_take, List.map_eq_nil_iff,
            List.length_map, ← List.map_drop]
          split
          · rfl
          · rw [ih]
            rfl
      | number base store =>
          simp only [scanf, scanNumber_toUpper]
          cases scanNumber base s with
          | none => rfl
          | some r => exact congrArg (Value.num (store r.1 r.2.1) :: ·) ih

end Upper

/-! ## Numerals -/

/-- `%X`. -/
def hexadecimal (n : Nat) : List Char := (Nat.toDigits 16 n).map Char.toUpper

/-- `%0wX`. -/
def hexPadded (width n : Nat) : List Char := (hexadecimal n).leftpad width '0'

/-- `%wd`. -/
def decimalPadded (width n : Nat) : List Char := (decimal n).leftpad width ' '

theorem digitValue_digitChar {n : Nat} (h : n < 16) : digitValue n.digitChar = n := by
  have hall : ∀ i : Fin 16, digitValue (Nat.digitChar i) = i := by decide
  exact hall ⟨n, h⟩

theorem isDigitOf_digitChar {base n : Nat} (hbase : base = 10 ∨ base = 16) (h : n < base) :
    isDigitOf base n.digitChar = true := by
  rcases hbase with rfl | rfl
  · have hall : ∀ i : Fin 10, isDigitOf 10 (Nat.digitChar i) = true := by decide
    exact hall ⟨n, h⟩
  · have hall : ∀ i : Fin 16, isDigitOf 16 (Nat.digitChar i) = true := by decide
    exact hall ⟨n, h⟩

theorem digitsValue_append (base : Nat) (s : List Char) (c : Char) :
    digitsValue base (s ++ [c]) = digitsValue base s * base + digitValue c := by
  simp [digitsValue]

section Digits

variable {base : Nat}

theorem digitsValue_toDigits (hbase : base = 10 ∨ base = 16) (n : Nat) :
    digitsValue base (Nat.toDigits base n) = n := by
  induction n using Nat.strongRecOn with
  | _ n ih =>
      have hb : 1 < base := by omega
      rw [Nat.toDigits_eq_if hb]
      split
      · rename_i hlt
        simp only [digitsValue, List.foldl_cons, List.foldl_nil, Nat.zero_mul, Nat.zero_add]
        exact digitValue_digitChar (by omega)
      · rename_i hge
        have hmod : n % base < base := Nat.mod_lt n (by omega)
        rw [digitsValue_append, ih _ (Nat.div_lt_self (by omega) hb),
          digitValue_digitChar (by omega)]
        exact Nat.div_add_mod' n base

theorem isDigitOf_toDigits (hbase : base = 10 ∨ base = 16) {n : Nat} :
    ∀ c ∈ Nat.toDigits base n, isDigitOf base c = true := by
  induction n using Nat.strongRecOn with
  | _ n ih =>
      have hb : 1 < base := by omega
      rw [Nat.toDigits_eq_if hb]
      split
      · rename_i hlt
        intro c hc
        rw [List.mem_singleton.mp hc]
        exact isDigitOf_digitChar hbase hlt
      · intro c hc
        rcases List.mem_append.mp hc with hc | hc
        · exact ih _ (Nat.div_lt_self (by omega) hb) c hc
        · rw [List.mem_singleton.mp hc]
          exact isDigitOf_digitChar hbase (Nat.mod_lt n (by omega))

end Digits

theorem digitsValue_zeros (base k : Nat) (s : List Char) :
    digitsValue base (List.replicate k '0' ++ s) = digitsValue base s := by
  unfold digitsValue
  rw [List.foldl_append]
  congr 1
  induction k with
  | zero => rfl
  | succ k ih =>
      rw [List.replicate_succ, List.foldl_cons]
      simpa [show digitValue '0' = 0 by decide] using ih

/-- A numeral that fits its type is stored as it is. -/
theorem storeUnsigned_fits {bits n : Nat} (hbits : bits ≤ 64) (h : n < 2 ^ bits) :
    storeUnsigned bits false n = n := by
  have hlt : n < 2 ^ 64 := h.trans_le (Nat.pow_le_pow_right (by decide) hbits)
  rw [storeUnsigned, if_neg (by omega)]
  simp only [Bool.false_eq_true, if_false]
  exact Int.emod_eq_of_lt (by omega) (by exact_mod_cast h)

theorem storeSigned_fits {k n : Nat} (hk : k ≤ 63) (h : n < 2 ^ k) : storeSigned (k + 1) false n = n := by
  have hlt : n < 2 ^ 63 := h.trans_le (Nat.pow_le_pow_right (by decide) hk)
  have hmin : min (2 ^ 63 - 1) (n : Int) = n := min_eq_right (by omega)
  have hhalf : 2 ^ (k + 1) = 2 * 2 ^ k := by rw [Nat.pow_succ, Nat.mul_comm]
  simp only [storeSigned, Bool.false_eq_true, if_false, hmin]
  exact Int.bmod_eq_of_le (by omega) (by omega)

theorem digitsValue_decimal (n : Nat) : digitsValue 10 (decimal n) = n :=
  digitsValue_toDigits (.inl rfl) n

theorem decimal_injective {m n : Nat} (h : decimal m = decimal n) : m = n := by
  rw [← digitsValue_decimal m, h, digitsValue_decimal]

theorem isDigitOf_decimal {n : Nat} : ∀ c ∈ decimal n, isDigitOf 10 c = true :=
  isDigitOf_toDigits (.inl rfl)

theorem digitsValue_hexPadded (width n : Nat) : digitsValue 16 (hexPadded width n) = n := by
  unfold hexPadded
  rw [List.leftpad, digitsValue_zeros, hexadecimal, digitsValue_toUpper,
    digitsValue_toDigits (.inr rfl)]

theorem isxdigit_hexPadded {width n : Nat} : ∀ c ∈ hexPadded width n, isxdigit c = true := by
  intro c hc
  rcases List.mem_append.mp hc with hc | hc
  · rw [(List.mem_replicate.mp hc).2]
    decide
  · obtain ⟨d, hd, rfl⟩ := List.mem_map.mp hc
    rw [caseBlind_isxdigit]
    exact isDigitOf_toDigits (.inr rfl) d hd

theorem hexPadded_ne_nil {width n : Nat} : hexPadded width n ≠ [] :=
  List.append_ne_nil_of_right_ne_nil _ (by simp [hexadecimal, Nat.toDigits_ne_nil])

theorem length_hexPadded {width n : Nat} (hwidth : 0 < width) (h : n < 16 ^ width) :
    (hexPadded width n).length = width := by
  have hlen := (Nat.length_toDigits_le_iff (n := n) (b := 16) (by decide) hwidth).mpr h
  rw [hexPadded, List.length_leftpad, hexadecimal, List.length_map]
  exact max_eq_left hlen

/-- A digit of `%X`. -/
def hexChar (n : Nat) : Char := n.digitChar.toUpper

theorem hexadecimal_eq (n : Nat) :
    hexadecimal n = if n < 16 then [hexChar n] else hexadecimal (n / 16) ++ [hexChar (n % 16)] := by
  rw [hexadecimal, Nat.toDigits_eq_if (by decide)]
  split
  · rfl
  · rw [List.map_append]
    rfl

theorem hexPadded_one {n : Nat} (h : n < 16) : hexPadded 1 n = [hexChar n] := by
  rw [hexPadded, hexadecimal_eq, if_pos h]
  rfl

/-- The last digit of a padded numeral is the remainder by 16. -/
theorem hexPadded_succ (width n : Nat) :
    hexPadded (width + 2) n = hexPadded (width + 1) (n / 16) ++ [hexChar (n % 16)] := by
  unfold hexPadded
  rw [hexadecimal_eq n]
  split
  · rename_i h
    have hzero : hexadecimal 0 = ['0'] := by decide
    rw [Nat.div_eq_of_lt h, Nat.mod_eq_of_lt h, hzero]
    simp [List.leftpad, List.replicate_succ']
  · simp [List.leftpad, List.append_assoc]

end CText
