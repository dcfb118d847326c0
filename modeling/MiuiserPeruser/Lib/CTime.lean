import MiuiserPeruser.Lib.Scanf

/-!
# Time in C

Broken-down time in the Gregorian calendar, the numeric conversions of
`strftime` and `strptime`, and `localtime` and `mktime` under a time zone
rule. Instants are seconds since the epoch, and the reading of a local
clock is the instant at which a clock on UTC would read the same.

What the users of these functions rely on: the calendar gives an instant
back (`timegm_gmtime`), a text that was written field by field is read
field by field (`strptime_strftime`), and `mktime` goes back to the
instant up to the offset it assumes (`mktime_zeroDst`).
-/

namespace CTime

open CText

/-- `struct tm`, without the fields `mktime` does not read. -/
structure Tm where
  tmYear : Int
  tmMon : Int
  tmMday : Int
  tmHour : Int
  tmMin : Int
  tmSec : Int
  /-- Whether `tm_isdst` is positive, not 0. -/
  tmIsdst : Bool
  deriving DecidableEq

/-- `{0}`. -/
def Tm.zero : Tm := ⟨0, 0, 0, 0, 0, 0, false⟩

/-! ## The calendar -/

/-- The days before a year. Years start in March, so that the leap day is
the last one. -/
def daysBefore (year : Int) : Int := 365 * year + year / 4 - year / 100 + year / 400

/-- The year of a cycle of 400 years, and the day of the year. -/
def yearAndDay (day : Int) : Int × Int :=
  let century := min 3 (day / 36524)
  let inCentury := day - 36524 * century
  let leap := inCentury / 1461
  let inLeap := inCentury - 1461 * leap
  let year := min 3 (inLeap / 365)
  (100 * century + 4 * leap + year, inLeap - 365 * year)

/-- The days of a year before a month, counted from March. -/
def daysBeforeMonth (month : Int) : Int := (153 * month + 2) / 5

/-- The month a day of the year falls in, counted from March. -/
def monthOfDay (day : Int) : Int := (5 * day + 2) / 153

/-- `timegm`. 719468 days lie between March 1 of the year 0 and the epoch. -/
def timegm (tm : Tm) : Int :=
  let months := 12 * (tm.tmYear + 1900) + tm.tmMon - 2
  let days := daysBefore (months / 12) + daysBeforeMonth (months % 12) + (tm.tmMday - 1) - 719468
  86400 * days + 3600 * tm.tmHour + 60 * tm.tmMin + tm.tmSec

/-- `gmtime`. -/
def gmtime (t : Int) : Tm :=
  let days := t / 86400 + 719468
  let (year, day) := yearAndDay (days % 146097)
  let months := 12 * (400 * (days / 146097) + year) + monthOfDay day + 2
  { tmYear := months / 12 - 1900
    tmMon := months % 12
    tmMday := day - daysBeforeMonth (monthOfDay day) + 1
    tmHour := t % 86400 / 3600
    tmMin := t % 3600 / 60
    tmSec := t % 60
    tmIsdst := false }

theorem yearAndDay_spec {day : Int} (h0 : 0 ≤ day) (h : day < 146097) :
    daysBefore (yearAndDay day).1 + (yearAndDay day).2 = day ∧
      0 ≤ (yearAndDay day).1 ∧ (yearAndDay day).1 < 400 ∧
      0 ≤ (yearAndDay day).2 ∧ (yearAndDay day).2 < 366 := by
  obtain ⟨c, hc⟩ : ∃ c, min 3 (day / 36524) = c := ⟨_, rfl⟩
  obtain ⟨q, hq⟩ : ∃ q, (day - 36524 * c) / 1461 = q := ⟨_, rfl⟩
  obtain ⟨y, hy⟩ : ∃ y, min 3 ((day - 36524 * c - 1461 * q) / 365) = y := ⟨_, rfl⟩
  have heq : yearAndDay day =
      (100 * c + 4 * q + y, day - 36524 * c - 1461 * q - 365 * y) := by
    simp only [yearAndDay, hc, hq, hy]
  have hcentury : 0 ≤ c ∧ c ≤ 3 ∧ 0 ≤ day - 36524 * c ∧ day - 36524 * c ≤ 36524 := by omega
  have hleap : 0 ≤ q ∧ q ≤ 24 ∧ 0 ≤ day - 36524 * c - 1461 * q ∧
      day - 36524 * c - 1461 * q ≤ 1460 := by omega
  have hyear : 0 ≤ y ∧ y ≤ 3 ∧ 0 ≤ day - 36524 * c - 1461 * q - 365 * y ∧
      day - 36524 * c - 1461 * q - 365 * y ≤ 365 := by omega
  -- a century has no leap day of its own, so the divisions see one digit each
  have hdiv : (100 * c + 4 * q + y) / 4 = 25 * c + q ∧ (100 * c + 4 * q + y) / 100 = c ∧
      (100 * c + 4 * q + y) / 400 = 0 := by omega
  rw [heq]
  simp only [daysBefore, hdiv]
  omega

theorem daysBefore_cycle (cycle : Int) {year : Int} (h0 : 0 ≤ year) (h : year < 400) :
    daysBefore (400 * cycle + year) = 146097 * cycle + daysBefore year := by
  unfold daysBefore
  omega

theorem monthOfDay_spec {day : Int} (h0 : 0 ≤ day) (h : day < 366) :
    0 ≤ monthOfDay day ∧ monthOfDay day < 12 ∧ 0 ≤ day - daysBeforeMonth (monthOfDay day) ∧
      day - daysBeforeMonth (monthOfDay day) < 31 := by
  unfold monthOfDay daysBeforeMonth
  omega

section Gmtime

variable (t : Int)

/-- **The calendar gives the instant back.** -/
theorem timegm_gmtime : timegm (gmtime t) = t := by
  have hcycle := Int.emod_nonneg (t / 86400 + 719468) (b := 146097) (by decide)
  have hcycle' := Int.emod_lt_of_pos (t / 86400 + 719468) (b := 146097) (by decide)
  obtain ⟨hdays, hyear, hyear', hday, hday'⟩ := yearAndDay_spec hcycle hcycle'
  obtain ⟨hmonth, hmonth', -, -⟩ := monthOfDay_spec hday hday'
  simp only [timegm, gmtime]
  generalize yearAndDay ((t / 86400 + 719468) % 146097) = p at *
  generalize hcy : (t / 86400 + 719468) / 146097 = cycle
  generalize monthOfDay p.2 = month at *
  have hmonths : 12 * ((12 * (400 * cycle + p.1) + month + 2) / 12 - 1900 + 1900) +
      (12 * (400 * cycle + p.1) + month + 2) % 12 - 2 = 12 * (400 * cycle + p.1) + month := by
    omega
  have hdiv : (12 * (400 * cycle + p.1) + month) / 12 = 400 * cycle + p.1 := by omega
  have hmod : (12 * (400 * cycle + p.1) + month) % 12 = month := by omega
  rw [hmonths, hdiv, hmod, daysBefore_cycle cycle hyear hyear']
  omega

/-- The fields of a broken-down time are in their ranges. -/
structure Tm.InRange (tm : Tm) : Prop where
  mon : 0 ≤ tm.tmMon ∧ tm.tmMon ≤ 11
  mday : 1 ≤ tm.tmMday ∧ tm.tmMday ≤ 31
  hour : 0 ≤ tm.tmHour ∧ tm.tmHour ≤ 23
  min : 0 ≤ tm.tmMin ∧ tm.tmMin ≤ 59
  sec : 0 ≤ tm.tmSec ∧ tm.tmSec ≤ 59

theorem inRange_gmtime : (gmtime t).InRange := by
  have hcycle := Int.emod_nonneg (t / 86400 + 719468) (b := 146097) (by decide)
  have hcycle' := Int.emod_lt_of_pos (t / 86400 + 719468) (b := 146097) (by decide)
  obtain ⟨-, -, -, hday, hday'⟩ := yearAndDay_spec hcycle hcycle'
  obtain ⟨-, -, hmday, hmday'⟩ := monthOfDay_spec hday hday'
  simp only [gmtime]
  constructor
  · exact ⟨Int.emod_nonneg _ (by decide), by dsimp only; omega⟩
  · dsimp only; omega
  · dsimp only; omega
  · dsimp only; omega
  · dsimp only; omega

end Gmtime

/-! ## strftime and strptime -/

/-- A numeric conversion: how many digits it has, the values `strptime`
accepts, and the field. -/
structure TimeField where
  width : Nat
  lo : Nat
  hi : Nat
  get : Tm → Int
  set : Tm → Int → Tm

/-- `%Y`, `%m`, `%d`, `%H`, `%M` and `%S`. -/
def yearField : TimeField :=
  ⟨4, 0, 9999, fun tm => tm.tmYear + 1900, fun tm n => { tm with tmYear := n - 1900 }⟩
def monthField : TimeField :=
  ⟨2, 1, 12, fun tm => tm.tmMon + 1, fun tm n => { tm with tmMon := n - 1 }⟩
def dayField : TimeField := ⟨2, 1, 31, Tm.tmMday, fun tm n => { tm with tmMday := n }⟩
def hourField : TimeField := ⟨2, 0, 23, Tm.tmHour, fun tm n => { tm with tmHour := n }⟩
def minuteField : TimeField := ⟨2, 0, 59, Tm.tmMin, fun tm n => { tm with tmMin := n }⟩
def secondField : TimeField := ⟨2, 0, 60, Tm.tmSec, fun tm n => { tm with tmSec := n }⟩

/-- The pieces of a format. -/
inductive TimeSpec where
  | lit (c : Char)
  | num (f : TimeField)

def TimeSpec.width : TimeSpec → Nat
  | .lit _ => 1
  | .num f => f.width

/-- The number of a field, with zeros in front. -/
def TimeField.print (f : TimeField) (tm : Tm) : List Char :=
  (if f.get tm < 0 then ['-'] else []) ++ (decimal (f.get tm).natAbs).leftpad f.width '0'

/-- `strftime`, into a buffer that is large enough. -/
def strftime (format : List TimeSpec) (tm : Tm) : List Char :=
  format.flatMap fun
    | .lit c => [c]
    | .num f => f.print tm

/-- `conv_num`: at most `width` digits, and what follows them. -/
def TimeField.read (f : TimeField) (s : List Char) : Option (Nat × List Char) :=
  let digits := (s.takeWhile Char.isDigit).take f.width
  let n := digitsValue 10 digits
  if digits ≠ [] ∧ f.lo ≤ n ∧ n ≤ f.hi then some (n, s.drop digits.length) else none

/-- `strptime` into `tm`. It stops where the text does not match, and the
fields read so far stay. -/
def strptime : List TimeSpec → List Char → Tm → Tm
  | [], _, tm => tm
  | .lit c :: format, s, tm => if s.head? = some c then strptime format s.tail tm else tm
  | .num f :: format, s, tm =>
      match f.read s with
      | none => tm
      | some (n, rest) => strptime format rest (f.set tm n)

/-- The fields of a format, copied from one broken-down time to another. -/
def copyFields (format : List TimeSpec) (source target : Tm) : Tm :=
  format.foldl (fun tm spec =>
    match spec with
    | .lit _ => tm
    | .num f => f.set tm (f.get source)) target

/-- The field is in the range `strptime` accepts, and the range in the width. -/
structure TimeField.Fits (f : TimeField) (tm : Tm) : Prop where
  lo : f.lo ≤ f.get tm
  hi : f.get tm ≤ f.hi
  width : f.hi < 10 ^ f.width
  pos : 0 < f.width

theorem isDigit_leftpad {width n : Nat} :
    ∀ c ∈ (decimal n).leftpad width '0', c.isDigit = true := by
  intro c hc
  rcases List.mem_append.mp hc with hc | hc
  · rw [(List.mem_replicate.mp hc).2]
    decide
  · exact isDigitOf_decimal c hc

theorem length_leftpad_decimal {width n : Nat} (hwidth : 0 < width) (h : n < 10 ^ width) :
    ((decimal n).leftpad width '0').length = width := by
  have hlen := (Nat.length_toDigits_le_iff (n := n) (b := 10) (by decide) hwidth).mpr h
  rw [List.length_leftpad]
  exact max_eq_left hlen

section Print

variable {f : TimeField} {tm : Tm}

theorem TimeField.Fits.print_eq (h : f.Fits tm) :
    f.print tm = (decimal (f.get tm).natAbs).leftpad f.width '0' := by
  have hsign : ¬ f.get tm < 0 := by
    have := h.lo
    omega
  rw [TimeField.print, if_neg hsign, List.nil_append]

theorem TimeField.Fits.length_print (h : f.Fits tm) : (f.print tm).length = f.width := by
  obtain ⟨hlo, hhi, hwidth, hpos⟩ := id h
  rw [h.print_eq]
  exact length_leftpad_decimal hpos (by omega)

/-- A field that fits is read back, whatever follows it. -/
theorem TimeField.Fits.read_print (h : f.Fits tm) (rest : List Char) :
    f.read (f.print tm ++ rest) = some ((f.get tm).natAbs, rest) := by
  obtain ⟨hlo, hhi, hwidth, hpos⟩ := id h
  have hlength := h.length_print
  have hdigits : ((f.print tm ++ rest).takeWhile Char.isDigit).take f.width = f.print tm := by
    rw [h.print_eq] at hlength ⊢
    rw [List.takeWhile_append_of_pos isDigit_leftpad, List.take_left' hlength]
  have hvalue : digitsValue 10 (f.print tm) = (f.get tm).natAbs := by
    rw [h.print_eq, List.leftpad, digitsValue_zeros, digitsValue_decimal]
  have hne : f.print tm ≠ [] := List.ne_nil_of_length_pos (hlength ▸ hpos)
  simp only [TimeField.read, hdigits, hvalue, List.drop_left]
  exact if_pos ⟨hne, by omega, by omega⟩

end Print

section Format

variable {format : List TimeSpec} {tm : Tm}

theorem length_strftime (h : ∀ f, .num f ∈ format → f.Fits tm) :
    (strftime format tm).length = (format.map TimeSpec.width).sum := by
  unfold strftime
  rw [List.length_flatMap]
  congr 1
  refine List.map_congr_left fun spec hspec => ?_
  cases spec with
  | lit c => rfl
  | num f => exact (h f hspec).length_print

/-- **What was written field by field is read field by field.** -/
theorem strptime_strftime (h : ∀ f, .num f ∈ format → f.Fits tm) (target : Tm) :
    strptime format (strftime format tm) target = copyFields format tm target := by
  induction format generalizing target with
  | nil => rfl
  | cons spec format ih =>
      have hrest : ∀ f, .num f ∈ format → f.Fits tm := fun f hf => h f (List.mem_cons_of_mem _ hf)
      cases spec with
      | lit c => exact (if_pos rfl).trans (ih hrest target)
      | num f =>
          have hfits : f.Fits tm := h f List.mem_cons_self
          have hget : ((f.get tm).natAbs : Int) = f.get tm := by
            have := hfits.lo
            omega
          have hread := hfits.read_print (strftime format tm)
          show strptime (.num f :: format) (f.print tm ++ strftime format tm) target = _
          simp only [strptime, hread]
          rw [ih hrest, hget]
          rfl

end Format

/-! ## Time zones -/

/-- A time zone rule: the offset from UTC at every instant and whether it
is daylight saving time, and the offset `mktime` assumes for a reading of
the local clock and a `tm_isdst`. A reading with the `tm_isdst` it was
taken with leads to an instant at which the clock reads the same. -/
structure Zone where
  offset : Int → Int
  isdst : Int → Bool
  readOffset : Bool → Int → Int
  inverts : ∀ t u, u = t + offset t - readOffset (isdst t) (t + offset t) →
    u + offset u = t + offset t ∧ isdst u = isdst t

namespace Zone

variable (z : Zone)

/-- `localtime`. -/
def localtime (t : Int) : Tm := { gmtime (t + z.offset t) with tmIsdst := z.isdst t }

/-- `mktime`. -/
def mktime (tm : Tm) : Int := timegm tm - z.readOffset tm.tmIsdst (timegm tm)

/-- How far the local clock is ahead of the one `mktime` assumes when
`tm_isdst` is 0: the daylight saving that is in effect. -/
def saving (t : Int) : Int := z.offset t - z.readOffset false (t + z.offset t)

theorem timegm_localtime (t : Int) : timegm (z.localtime t) = t + z.offset t :=
  timegm_gmtime (t + z.offset t)

theorem inRange_localtime (t : Int) : (z.localtime t).InRange := by
  obtain ⟨hmon, hmday, hhour, hmin, hsec⟩ := inRange_gmtime (t + z.offset t)
  exact ⟨hmon, hmday, hhour, hmin, hsec⟩

/-- **With `tm_isdst` 0 the daylight saving is not taken back.** -/
theorem mktime_zeroDst (t : Int) :
    z.mktime { z.localtime t with tmIsdst := false } = t + z.saving t := by
  have hreading : timegm { z.localtime t with tmIsdst := false } = t + z.offset t :=
    z.timegm_localtime t
  show timegm _ - z.readOffset false (timegm _) = _
  rw [hreading, saving]
  omega

/-- At standard time nothing is saved, unless the clock reads the same
twice at standard time. -/
theorem saving_standard {t : Int} (hstandard : z.isdst t = false)
    (honce : ∀ u, z.isdst u = false → u + z.offset u = t + z.offset t → u = t) :
    z.saving t = 0 := by
  obtain ⟨hreading, hisdst⟩ := z.inverts t _ rfl
  have hsame := honce _ (hisdst.trans hstandard) hreading
  rw [hstandard] at hsame
  unfold saving
  omega

theorem withSummer_inverts (standard ahead : Int) (summer : Int → Bool) (t u : Int)
    (hu : u = t + (standard + if summer t then ahead else 0) -
      (standard + if summer t then ahead else 0)) :
    (u + (standard + if summer u then ahead else 0) =
      t + (standard + if summer t then ahead else 0)) ∧ summer u = summer t := by
  have hsame : u = t := by omega
  rw [hsame]
  exact ⟨rfl, rfl⟩

/-- A zone with one standard offset, whose clock is put ahead in summer. -/
def withSummer (standard ahead : Int) (summer : Int → Bool) : Zone where
  offset t := standard + if summer t then ahead else 0
  isdst := summer
  readOffset isdst _ := standard + if isdst then ahead else 0
  inverts := withSummer_inverts standard ahead summer

end Zone

end CTime
