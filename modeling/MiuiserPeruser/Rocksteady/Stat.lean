import Mathlib.Tactic.Ring
import MiuiserPeruser.Lib.CText
import MiuiserPeruser.Lib.Word

/-!
# rocksteadyd — /proc/stat (`rocksteadyd.c`)

`compute_cpu_pct` divides the time that was not idle by the time that went
by, all of it in 64-bit words. What it returns depends on how the counters
REALLY changed: `busyChange` for the five that only grow, `idleChange` and
`iowaitChange`, which may be negative. The words are right modulo 2^64
(`total_change`), and the quotient is a percentage exactly under
`PercentageFits`.

An idle counter that falls is taken for time that was used, so the quotient
exceeds 100 (`idle_falls`).
-/

namespace MiuiserPeruser.Rocksteady

open CText Word

/-- `cpu_stat_t`. -/
structure CpuStat where
  user : UInt64
  nice : UInt64
  system : UInt64
  idle : UInt64
  iowait : UInt64
  irq : UInt64
  softirq : UInt64
  deriving DecidableEq

def CpuStat.zero : CpuStat := ⟨0, 0, 0, 0, 0, 0, 0⟩

/-- The sum the code writes out four times. -/
def CpuStat.total (st : CpuStat) : UInt64 :=
  st.user + st.nice + st.system + st.idle + st.iowait + st.irq + st.softirq

/-! ## Reading -/

/-- The directives of `"%llu %llu %llu %llu %llu %llu %llu"`. -/
def statFormat : List Directive := (List.replicate 7 percentLLU).flatten

/-- The counter the `i`-th conversion stores; one that is not reached keeps
its value. -/
def counterAt (values : List Value) (i : Nat) (old : UInt64) : UInt64 :=
  match values[i]? with
  | some (.num n) => .ofNat n.toNat
  | _ => old

/-- The lines the loop visits. `*line` is tested while the newline still
stands there, so an empty line does not end it. -/
def statLines (data : List Char) : List (List Char) := (cstr data).splitOn '\n'

/-- `read_proc_stat`, on what `bexec_n` returned. -/
def readProcStat (data : Option (List Char)) (st : CpuStat) : Option CpuStat :=
  match data with
  | none => none
  | some data =>
      match (statLines data).find? ("cpu ".toList.isPrefixOf ·) with
      | none => none
      | some line =>
          let values := scanf statFormat (line.drop 4)
          some
            { user := counterAt values 0 st.user
              nice := counterAt values 1 st.nice
              system := counterAt values 2 st.system
              idle := counterAt values 3 st.idle
              iowait := counterAt values 4 st.iowait
              irq := counterAt values 5 st.irq
              softirq := counterAt values 6 st.softirq }

example : readProcStat (some "\ncpu  10 2 30 400 5 6 7 0 0 0\ncpu0 1 2 3 4\n".toList) .zero =
    some ⟨10, 2, 30, 400, 5, 6, 7⟩ := by decide +kernel

/-- `compute_cpu_pct`. -/
def computeCpuPct (prev cur : CpuStat) : Int :=
  let dtotal := cur.total - prev.total
  if dtotal = 0 then 0
  else
    let didle := cur.idle - prev.idle
    intOf (100 * (dtotal - didle) / dtotal)

/-! ## How the counters really changed -/

section Changes

variable (prev cur : CpuStat)

/-- The change of the counters that only grow. -/
def busyChange : Int :=
  (cur.user.toNat - prev.user.toNat) + (cur.nice.toNat - prev.nice.toNat) +
    (cur.system.toNat - prev.system.toNat) + (cur.irq.toNat - prev.irq.toNat) +
    (cur.softirq.toNat - prev.softirq.toNat)

def idleChange : Int := cur.idle.toNat - prev.idle.toNat

def iowaitChange : Int := cur.iowait.toNat - prev.iowait.toNat

/-- user, nice, system, irq and softirq do not decrease. -/
structure BusyGrows : Prop where
  user : prev.user ≤ cur.user
  nice : prev.nice ≤ cur.nice
  system : prev.system ≤ cur.system
  irq : prev.irq ≤ cur.irq
  softirq : prev.softirq ≤ cur.softirq

/-- The time that went by is zero modulo 2^64, or a hundred times the time
that was not idle, modulo 2^64, is no more than 100 times the time that
went by, up to a multiple of 2^32 of it and a remainder. -/
def PercentageFits : Prop :=
  let elapsed := ((busyChange prev cur + idleChange prev cur + iowaitChange prev cur) % 2 ^ 64).toNat
  let used := (100 * (busyChange prev cur + iowaitChange prev cur) % 2 ^ 64).toNat
  elapsed = 0 ∨ ∃ k : Nat, k * 2 ^ 32 * elapsed ≤ used ∧ used < (k * 2 ^ 32 + 101) * elapsed

/-- A percentage. -/
def IsPercentage (n : Int) : Prop := 0 ≤ n ∧ n ≤ 100

instance (n : Int) : Decidable (IsPercentage n) := inferInstanceAs (Decidable (_ ∧ _))

variable {prev cur}

theorem total_modEq (st : CpuStat) : (st.total.toNat : Int) ≡
    st.user.toNat + st.nice.toNat + st.system.toNat + st.idle.toNat + st.iowait.toNat + st.irq.toNat +
      st.softirq.toNat [ZMOD 2 ^ 64] := by
  have self : ∀ x : UInt64, (x.toNat : Int) ≡ x.toNat [ZMOD 2 ^ 64] := fun x => rfl
  exact add_modEq (add_modEq (add_modEq (add_modEq (add_modEq (add_modEq (self _) (self _)) (self _))
    (self _)) (self _)) (self _)) (self _)

theorem total_change : ((cur.total - prev.total).toNat : Int) ≡
    busyChange prev cur + idleChange prev cur + iowaitChange prev cur [ZMOD 2 ^ 64] := by
  have h := sub_modEq (total_modEq cur) (total_modEq prev)
  have heq : busyChange prev cur + idleChange prev cur + iowaitChange prev cur =
      (cur.user.toNat + cur.nice.toNat + cur.system.toNat + cur.idle.toNat + cur.iowait.toNat +
          cur.irq.toNat + cur.softirq.toNat : Int) -
        (prev.user.toNat + prev.nice.toNat + prev.system.toNat + prev.idle.toNat + prev.iowait.toNat +
          prev.irq.toNat + prev.softirq.toNat) := by
    unfold busyChange idleChange iowaitChange
    ring
  rwa [heq]

/-- The time that was not idle, times a hundred. -/
theorem used_change : ((100 * (cur.total - prev.total - (cur.idle - prev.idle))).toNat : Int) ≡
    100 * (busyChange prev cur + iowaitChange prev cur) [ZMOD 2 ^ 64] := by
  have hidle : ((cur.idle - prev.idle).toNat : Int) ≡ idleChange prev cur [ZMOD 2 ^ 64] :=
    sub_modEq rfl rfl
  have h := mul_modEq (a := 100) (m := 100) rfl
    (sub_modEq (@total_change prev cur) hidle)
  have heq : busyChange prev cur + iowaitChange prev cur =
      busyChange prev cur + idleChange prev cur + iowaitChange prev cur - idleChange prev cur := by ring
  rwa [heq]

/-! ## When the result is a percentage -/

theorem computeCpuPct_zero (h : cur.total - prev.total = 0) : computeCpuPct prev cur = 0 := if_pos h

theorem computeCpuPct_quotient (h : cur.total - prev.total ≠ 0) : IsPercentage (computeCpuPct prev cur) ↔
    ∃ k : Nat, k * 2 ^ 32 * (cur.total - prev.total).toNat ≤
        (100 * (cur.total - prev.total - (cur.idle - prev.idle))).toNat ∧
      (100 * (cur.total - prev.total - (cur.idle - prev.idle))).toNat <
        (k * 2 ^ 32 + 101) * (cur.total - prev.total).toNat := by
  have hpos : 0 < (cur.total - prev.total).toNat := by
    rw [Nat.pos_iff_ne_zero]
    exact fun h0 => h (UInt64.toNat_inj.mp h0)
  have hpct : computeCpuPct prev cur =
      intOf (100 * (cur.total - prev.total - (cur.idle - prev.idle)) / (cur.total - prev.total)) := if_neg h
  rw [hpct, ← mod_div_le_iff (r := 100) hpos (by decide), ← UInt64.toNat_div]
  exact intOf_between_iff (r := 100) (by decide)

theorem isPercentage_iff : IsPercentage (computeCpuPct prev cur) ↔ PercentageFits prev cur := by
  have helapsed := toNat_of_modEq (@total_change prev cur)
  have hused := toNat_of_modEq (@used_change prev cur)
  unfold PercentageFits
  rw [← helapsed, ← hused, Int.toNat_natCast, Int.toNat_natCast]
  by_cases h : cur.total - prev.total = 0
  · rw [computeCpuPct_zero h, h]
    simp [IsPercentage]
  · have hne : (cur.total - prev.total).toNat ≠ 0 := fun h0 => h (UInt64.toNat_inj.mp h0)
    rw [computeCpuPct_quotient h]
    simp only [hne, false_or]

/-- Where nothing wraps around, the condition is that the time that was not
idle is less than 1.01 times the time that went by. -/
theorem percentageFits_plain (hused : 0 ≤ busyChange prev cur + iowaitChange prev cur)
    (helapsed : 0 < busyChange prev cur + idleChange prev cur + iowaitChange prev cur)
    (hword : 100 * (busyChange prev cur + iowaitChange prev cur) < 2 ^ 64 ∧
      busyChange prev cur + idleChange prev cur + iowaitChange prev cur < 2 ^ 64)
    (hint : 100 * (busyChange prev cur + iowaitChange prev cur) <
      2 ^ 32 * (busyChange prev cur + idleChange prev cur + iowaitChange prev cur)) :
    PercentageFits prev cur ↔ 100 * (busyChange prev cur + iowaitChange prev cur) <
      101 * (busyChange prev cur + idleChange prev cur + iowaitChange prev cur) := by
  unfold PercentageFits
  rw [Int.emod_eq_of_lt (by omega) hword.2, Int.emod_eq_of_lt (by omega) hword.1]
  generalize busyChange prev cur + iowaitChange prev cur = used at *
  generalize busyChange prev cur + idleChange prev cur + iowaitChange prev cur = elapsed at *
  obtain ⟨e, rfl⟩ := Int.eq_ofNat_of_zero_le (Int.le_of_lt helapsed)
  obtain ⟨u, rfl⟩ := Int.eq_ofNat_of_zero_le hused
  have htimes : (100 * (u : Int)).toNat = 100 * u := by omega
  have hcast : (e : Int).toNat = e := rfl
  simp only [htimes, hcast]
  constructor
  · rintro (h | ⟨k, hlow, hhigh⟩)
    · omega
    · -- only k = 0 is below 2^32
      have hk : k = 0 := by
        by_contra hk
        have hmul : 2 ^ 32 * e ≤ k * 2 ^ 32 * e := Nat.mul_le_mul_right e (Nat.le_mul_of_pos_left _ (by omega))
        omega
      subst hk
      omega
  · intro h
    exact .inr ⟨0, by omega, by omega⟩

end Changes

/-- **The system percentage is a percentage exactly when the changes of the
counters allow it**; where nothing wraps around, exactly when a hundred
times the time that was not idle is less than 101 times the time that went
by. -/
theorem computeCpuPct_isPercentage_iff (prev cur : CpuStat) :
    (IsPercentage (computeCpuPct prev cur) ↔ PercentageFits prev cur) ∧
      (0 ≤ busyChange prev cur + iowaitChange prev cur →
        0 < busyChange prev cur + idleChange prev cur + iowaitChange prev cur →
        100 * (busyChange prev cur + iowaitChange prev cur) < 2 ^ 64 →
        busyChange prev cur + idleChange prev cur + iowaitChange prev cur < 2 ^ 64 →
        100 * (busyChange prev cur + iowaitChange prev cur) <
          2 ^ 32 * (busyChange prev cur + idleChange prev cur + iowaitChange prev cur) →
        (IsPercentage (computeCpuPct prev cur) ↔
          100 * (busyChange prev cur + iowaitChange prev cur) <
            101 * (busyChange prev cur + idleChange prev cur + iowaitChange prev cur))) := by
  constructor
  · exact isPercentage_iff
  · intro hused helapsed hword hword' hint
    rw [isPercentage_iff]
    exact percentageFits_plain hused helapsed ⟨hword, hword'⟩ hint

/-- A hundred ticks of work and a hundred idle ones. -/
theorem computeCpuPct_isPercentage_iff_sample :
    IsPercentage (computeCpuPct ⟨100, 0, 0, 500, 0, 0, 0⟩ ⟨200, 0, 0, 600, 0, 0, 0⟩) :=
  ((computeCpuPct_isPercentage_iff ⟨100, 0, 0, 500, 0, 0, 0⟩ ⟨200, 0, 0, 600, 0, 0, 0⟩).2 (by decide)
    (by decide) (by decide) (by decide) (by decide)).mpr (by decide)

/-- Ten ticks of work while the idle counter falls by one. -/
theorem idle_falls : BusyGrows ⟨100, 0, 0, 500, 0, 0, 0⟩ ⟨110, 0, 0, 499, 0, 0, 0⟩ ∧
    computeCpuPct ⟨100, 0, 0, 500, 0, 0, 0⟩ ⟨110, 0, 0, 499, 0, 0, 0⟩ = 111 ∧
    ¬ IsPercentage (computeCpuPct ⟨100, 0, 0, 500, 0, 0, 0⟩ ⟨110, 0, 0, 499, 0, 0, 0⟩) := by
  have hgrows : BusyGrows ⟨100, 0, 0, 500, 0, 0, 0⟩ ⟨110, 0, 0, 499, 0, 0, 0⟩ := by
    constructor
    all_goals decide
  exact ⟨hgrows, by decide, by decide⟩

end MiuiserPeruser.Rocksteady
