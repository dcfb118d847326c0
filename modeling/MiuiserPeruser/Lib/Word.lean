import Mathlib.Data.Int.ModEq
import MiuiserPeruser.Lib.CInt

/-!
# unsigned long long

64-bit words next to the integers they stand for. Every operation is right
modulo 2^64, one congruence each; a word is then the remainder of what was
meant (`toNat_of_modEq`). `intOf` is the conversion to `int`, which keeps
32 bits.
-/

namespace Word

variable {a b : UInt64} {m n : Int}

theorem add_modEq (ha : (a.toNat : Int) ≡ m [ZMOD 2 ^ 64]) (hb : (b.toNat : Int) ≡ n [ZMOD 2 ^ 64]) :
    ((a + b).toNat : Int) ≡ m + n [ZMOD 2 ^ 64] := by
  have h : ((a + b).toNat : Int) = ((a.toNat : Int) + b.toNat) % 2 ^ 64 := by
    rw [UInt64.toNat_add]
    push_cast
    rfl
  rw [h]
  exact (Int.mod_modEq _ _).trans (ha.add hb)

theorem sub_modEq (ha : (a.toNat : Int) ≡ m [ZMOD 2 ^ 64]) (hb : (b.toNat : Int) ≡ n [ZMOD 2 ^ 64]) :
    ((a - b).toNat : Int) ≡ m - n [ZMOD 2 ^ 64] := by
  have hlt := b.toNat_lt
  have h : ((a - b).toNat : Int) = ((a.toNat : Int) - b.toNat) % 2 ^ 64 := by
    rw [UInt64.toNat_sub]
    omega
  rw [h]
  exact (Int.mod_modEq _ _).trans (ha.sub hb)

theorem mul_modEq (ha : (a.toNat : Int) ≡ m [ZMOD 2 ^ 64]) (hb : (b.toNat : Int) ≡ n [ZMOD 2 ^ 64]) :
    ((a * b).toNat : Int) ≡ m * n [ZMOD 2 ^ 64] := by
  have h : ((a * b).toNat : Int) = ((a.toNat : Int) * b.toNat) % 2 ^ 64 := by
    rw [UInt64.toNat_mul]
    push_cast
    rfl
  rw [h]
  exact (Int.mod_modEq _ _).trans (ha.mul hb)

/-- A word is the remainder of the number it is congruent to. -/
theorem toNat_of_modEq (h : (a.toNat : Int) ≡ n [ZMOD 2 ^ 64]) : (a.toNat : Int) = n % 2 ^ 64 := by
  have hlt := a.toNat_lt
  have hself : (a.toNat : Int) % 2 ^ 64 = a.toNat := by omega
  rw [← hself]
  exact h

/-- `(int)x`. -/
def intOf (x : UInt64) : Int := CText.wrap32 x.toNat

/-- `(int)x` is `r` for a small `r` if `x` exceeds a multiple of 2^32 by `r`. -/
theorem intOf_eq_iff {x : UInt64} {r : Nat} (hr : r < 2 ^ 31) :
    intOf x = r ↔ x.toNat % 2 ^ 32 = r := by
  rw [intOf, CText.wrap32, Int.bmod_def]
  split
  · omega
  · omega

theorem intOf_small {x : UInt64} (h : x.toNat < 2 ^ 31) : intOf x = x.toNat :=
  (intOf_eq_iff h).mpr (Nat.mod_eq_of_lt (by omega))

/-- A conversion to `int` gives a number from 0 to `r` where the word is at
most `r` above a multiple of 2^32. -/
theorem intOf_between_iff {x : UInt64} {r : Nat} (hr : r < 2 ^ 31) :
    (0 ≤ intOf x ∧ intOf x ≤ r) ↔ x.toNat % 2 ^ 32 ≤ r := by
  rw [intOf, CText.wrap32, Int.bmod_def]
  split
  · omega
  · omega

/-- The same for a quotient, without the quotient. -/
theorem mod_div_le_iff {n d r : Nat} (hd : 0 < d) (hr : r < 2 ^ 32) :
    n / d % 2 ^ 32 ≤ r ↔ ∃ k : Nat, k * 2 ^ 32 * d ≤ n ∧ n < (k * 2 ^ 32 + (r + 1)) * d := by
  have hle : ∀ m, m * d ≤ n ↔ m ≤ n / d := fun m => (Nat.le_div_iff_mul_le hd).symm
  have hlt : ∀ m, n < m * d ↔ n / d < m := fun m => (Nat.div_lt_iff_lt_mul hd).symm
  simp only [hle, hlt]
  constructor
  · intro h
    exact ⟨n / d / 2 ^ 32, by omega, by omega⟩
  · rintro ⟨k, hlow, hhigh⟩
    omega

end Word
