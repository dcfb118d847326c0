import MiuiserPeruser.Lib.CTime
import MiuiserPeruser.Splinter.Accounting

/-!
# splinterd — silence gaps and the local clock

`sewer_db_record_emit` decides between a repeat and a resumption by the
time stamps of two calls. A stamp is the local clock without its offset,
and it is read back into a zeroed `struct tm`, so that `mktime` takes it
for standard time. The gap that is compared with the threshold is
therefore the real one plus the change of the daylight saving between the
calls: a clock put ahead makes a resumption out of a short gap, and a
clock put back hides a long one.

A call reads `time` for its stamp. All runs start from the schema.
-/

namespace MiuiserPeruser.Splinter

open CText CTime Sql

/-! ## The clock of a call -/

/-- The format of `now_iso` and of the two calls of `strptime`. -/
def isoFormat : List TimeSpec :=
  [.num yearField, .lit '-', .num monthField, .lit '-', .num dayField, .lit 'T', .num hourField,
    .lit ':', .num minuteField, .lit ':', .num secondField]

/-- `now_iso`, when `time` returns `t`. -/
def nowIso (z : Zone) (t : Int) : List Char := strftime isoFormat (z.localtime t)

/-- `strptime` into a zeroed `struct tm`, and `mktime`. -/
def stampTime (z : Zone) (stamp : List Char) : Int := z.mktime (strptime isoFormat stamp Tm.zero)

/-- A call of `sewer_db_record_emit` with what `time` returns in it, first
for its own stamp and then in a rollup. -/
structure TimedCall where
  source : String
  eventType : String
  detail : Option String
  time : Int
  rollupTime : Int
  deriving DecidableEq

def TimedCall.pair (c : TimedCall) : String × String := (c.source, c.eventType)

/-- The call with its time stamps. -/
def TimedCall.emit (z : Zone) (c : TimedCall) : EmitCall :=
  ⟨c.source, c.eventType, c.detail, .ofList (nowIso z c.time), .ofList (nowIso z c.rollupTime)⟩

def recordAt (z : Zone) (db : SewerDb) (c : TimedCall) : SewerDb × List SewerWrite :=
  sewerDbRecordEmit (stampTime z) db (c.emit z)

/-- The store after a run of calls. -/
def storeAfter (z : Zone) (calls : List TimedCall) : SewerDb :=
  (Machine.run (recordAt z) .schema calls).1

/-! ## What is to be decided -/

/-- The last of the calls for a pair. -/
def lastCall (calls : List TimedCall) (pair : String × String) : Option TimedCall :=
  calls.reverse.find? fun c => c.pair = pair

/-- A "resumed" transition of the pair is among the writes. -/
def WritesResumed (writes : List SewerWrite) (pair : String × String) : Prop :=
  ∃ row, .transition row ∈ writes ∧ row.pair = pair ∧ row.transitionType = .resumed

/-- **Silence is measured in real time**: a call for a pair that was seen
writes "resumed" exactly when the threshold has passed since the last
call for the pair. -/
def RealGaps (z : Zone) (calls : List TimedCall) : Prop :=
  ∀ before now after last, calls = before ++ now :: after → lastCall before now.pair = some last →
    (WritesResumed (recordAt z (storeAfter z before) now).2 now.pair ↔
      now.time - last.time ≥ gapThresholdSec)

/-- The change of the saving between two instants does not move their gap
across the threshold, in either direction. -/
def GapKept (z : Zone) (last now : Int) : Prop :=
  ¬ (gapThresholdSec - (z.saving now - z.saving last) ≤ now - last ∧
      now - last < gapThresholdSec) ∧
    ¬ (gapThresholdSec ≤ now - last ∧
      now - last < gapThresholdSec - (z.saving now - z.saving last))

/-- Every gap of a run is kept. -/
def GapsKept (z : Zone) (calls : List TimedCall) : Prop :=
  ∀ before now after last, calls = before ++ now :: after → lastCall before now.pair = some last →
    GapKept z last.time now.time

/-- The local year is one that `%Y` of `strptime` reads. -/
def FourDigitYear (z : Zone) (t : Int) : Prop :=
  0 ≤ (z.localtime t).tmYear + 1900 ∧ (z.localtime t).tmYear + 1900 ≤ 9999

instance (z : Zone) (t : Int) : Decidable (FourDigitYear z t) := inferInstanceAs (Decidable (_ ∧ _))

/-! ## A stamp and its reading -/

section Stamp

variable {z : Zone} {t : Int}

theorem fits_isoFormat (h : FourDigitYear z t) :
    ∀ f, .num f ∈ isoFormat → f.Fits (z.localtime t) := by
  obtain ⟨hlo, hhi⟩ := h
  obtain ⟨⟨hmon, hmon'⟩, ⟨hmday, hmday'⟩, ⟨hhour, hhour'⟩, ⟨hmin, hmin'⟩, ⟨hsec, hsec'⟩⟩ :=
    z.inRange_localtime t
  have hyear : yearField.Fits (z.localtime t) := ⟨hlo, hhi, by decide, by decide⟩
  have hmonth : monthField.Fits (z.localtime t) :=
    ⟨Int.le_add_of_sub_right_le hmon, Int.add_le_add_right hmon' 1, by decide, by decide⟩
  have hday : dayField.Fits (z.localtime t) := ⟨hmday, hmday', by decide, by decide⟩
  have hhours : hourField.Fits (z.localtime t) := ⟨hhour, hhour', by decide, by decide⟩
  have hminute : minuteField.Fits (z.localtime t) := ⟨hmin, hmin', by decide, by decide⟩
  have hsecond : secondField.Fits (z.localtime t) :=
    ⟨hsec, hsec'.trans (by decide), by decide, by decide⟩
  intro f hf
  simp only [isoFormat, List.mem_cons, TimeSpec.num.injEq, reduceCtorEq, false_or,
    List.not_mem_nil, or_false] at hf
  rcases hf with rfl | rfl | rfl | rfl | rfl | rfl
  · exact hyear
  · exact hmonth
  · exact hday
  · exact hhours
  · exact hminute
  · exact hsecond

/-- The stamp is read back but for `tm_isdst`, which it does not have. -/
theorem strptime_nowIso (h : FourDigitYear z t) :
    strptime isoFormat (nowIso z t) Tm.zero = { z.localtime t with tmIsdst := false } := by
  rw [nowIso, strptime_strftime (fits_isoFormat h)]
  have hyear : (z.localtime t).tmYear + 1900 - 1900 = (z.localtime t).tmYear :=
    Int.add_sub_cancel _ _
  have hmonth : (z.localtime t).tmMon + 1 - 1 = (z.localtime t).tmMon := Int.add_sub_cancel _ _
  simp only [copyFields, isoFormat, List.foldl_cons, List.foldl_nil, yearField, monthField,
    dayField, hourField, minuteField, secondField, Tm.zero, hyear, hmonth]

/-- **A stamp is read as the instant plus the daylight saving.** -/
theorem stampTime_nowIso (h : FourDigitYear z t) : stampTime z (nowIso z t) = t + z.saving t := by
  rw [stampTime, strptime_nowIso h, z.mktime_zeroDst]

theorem length_nowIso (h : FourDigitYear z t) : (nowIso z t).length = 19 :=
  length_strftime (fits_isoFormat h)

end Stamp

/-! ## A run and the last call of a pair -/

section Run

variable {z : Zone}

theorem lastCall_concat (calls : List TimedCall) (c : TimedCall) (pair : String × String) :
    lastCall (calls ++ [c]) pair = if c.pair = pair then some c else lastCall calls pair := by
  unfold lastCall
  rw [List.reverse_append, List.reverse_singleton, List.singleton_append, List.find?_cons]
  by_cases h : c.pair = pair
  · simp [h]
  · simp [h]

theorem lastCall_pair {calls : List TimedCall} {pair : String × String} {last : TimedCall}
    (h : lastCall calls pair = some last) : last ∈ calls ∧ last.pair = pair :=
  ⟨List.mem_reverse.mp (List.mem_of_find?_eq_some h), by simpa using List.find?_some h⟩

theorem storeAfter_concat (calls : List TimedCall) (c : TimedCall) :
    storeAfter z (calls ++ [c]) = (recordAt z (storeAfter z calls) c).1 := by
  unfold storeAfter
  rw [Machine.run_concat]

/-- A call replaces the row of its own pair, and the row has its stamp. -/
theorem lastSeen_recordAt (db : SewerDb) (c : TimedCall) (pair : String × String) :
    ((recordAt z db c).1.emitState.find? pair).map EmitRow.lastSeen =
      if c.pair = pair then some (c.emit z).ts
      else (db.emitState.find? pair).map EmitRow.lastSeen := by
  obtain ⟨rollup, hdone, heq, -⟩ := sewerDbRecordEmit_eq (stampTime z) db (c.emit z)
  have hstate : (recordAt z db c).1.emitState =
      db.emitState.upsert (upsertedState db (c.emit z)) := by
    rw [recordAt, heq]
    exact hdone.emitState
  have hpair : (upsertedState db (c.emit z)).pair = c.pair := upsertedState_pair db (c.emit z)
  rw [hstate, Table.find?_upsert, hpair]
  split
  · unfold upsertedState
    cases db.emitState.find? (c.emit z).pair with
    | none => rfl
    | some row => rfl
  · rfl

/-- The invariant of a run: `last_seen` is the stamp of the pair's last call. -/
theorem lastSeen_storeAfter (z : Zone) (calls : List TimedCall) (pair : String × String) :
    ((storeAfter z calls).emitState.find? pair).map EmitRow.lastSeen =
      (lastCall calls pair).map fun c => (c.emit z).ts := by
  induction calls using List.reverseRecOn with
  | nil => rfl
  | append_singleton calls c ih =>
      rw [storeAfter_concat, lastSeen_recordAt, lastCall_concat, ih]
      split
      · rfl
      · rfl

/-- "resumed" is written by the call itself, not by a rollup. -/
theorem writesResumed_iff (mktime : List Char → Int) (db : SewerDb) (c : EmitCall) :
    WritesResumed (sewerDbRecordEmit mktime db c).2 c.pair ↔
      transitionOf mktime db c = some .resumed := by
  have hrollup : ∀ row ts db, SewerWrite.transition row ∉ (maybeRollup ts db).2 := by
    intro row ts db
    unfold maybeRollup doRollup
    split <;> simp
  have hwrites : ∀ row, .transition row ∈ (sewerDbRecordEmit mktime db c).2 ↔
      ∃ t, transitionOf mktime db c = some t ∧
        row = ⟨c.source, c.eventType, t, c.ts, c.detail.getD ""⟩ := by
    intro row
    have hrows : .transition row ∈ (recordRows mktime db c).2 ↔
        ∃ t, transitionOf mktime db c = some t ∧
          row = ⟨c.source, c.eventType, t, c.ts, c.detail.getD ""⟩ := by
      simp [recordRows, eq_comm]
    unfold sewerDbRecordEmit
    simp only [List.mem_append]
    split
    · simp only [hrollup, or_false, hrows]
    · simp only [List.not_mem_nil, or_false, hrows]
  constructor
  · rintro ⟨row, hrow, -, htype⟩
    obtain ⟨t, ht, rfl⟩ := (hwrites row).mp hrow
    exact ht.trans (congrArg some htype)
  · intro h
    exact ⟨_, (hwrites _).mpr ⟨_, h, rfl⟩, rfl, rfl⟩

/-- **What the code measures**: the real gap plus the change of the saving. -/
theorem writesResumed_recordAt {before : List TimedCall} {now last : TimedCall}
    (hlast : lastCall before now.pair = some last) (hyear : FourDigitYear z last.time)
    (hyear' : FourDigitYear z now.time) :
    WritesResumed (recordAt z (storeAfter z before) now).2 now.pair ↔
      now.time + z.saving now.time - (last.time + z.saving last.time) ≥ gapThresholdSec := by
  have hseen := lastSeen_storeAfter z before now.pair
  rw [hlast] at hseen
  obtain ⟨row, hrow, hstamp⟩ := Option.map_eq_some_iff.mp hseen
  have hstamp : row.lastSeen.toList = nowIso z last.time := by
    rw [hstamp]
    exact String.toList_ofList
  have hts : (now.emit z).ts.toList = nowIso z now.time := String.toList_ofList
  have hlength := length_nowIso hyear
  have htake : (nowIso z last.time).take 31 = nowIso z last.time :=
    List.take_of_length_le (by omega)
  have hne : nowIso z last.time ≠ [] := List.ne_nil_of_length_pos (by omega)
  have hfind : (storeAfter z before).emitState.find? (now.emit z).pair = some row := hrow
  refine (writesResumed_iff _ _ _).trans ?_
  unfold transitionOf
  rw [hfind]
  simp only [hstamp, hts, htake, stampTime_nowIso hyear, stampTime_nowIso hyear']
  split
  · rename_i h
    exact iff_of_true rfl h.2
  · rename_i h
    exact iff_of_false (by simp) fun hge => h ⟨hne, hge⟩

theorem gapKept_iff (z : Zone) (last now : Int) :
    GapKept z last now ↔
      (now + z.saving now - (last + z.saving last) ≥ gapThresholdSec ↔
        now - last ≥ gapThresholdSec) := by
  unfold GapKept
  omega

/-- **Silence is measured in real time exactly in the runs whose gaps are
kept** by the changes of the daylight saving between the calls. -/
theorem realGaps_iff (z : Zone) (calls : List TimedCall)
    (hyears : ∀ c ∈ calls, FourDigitYear z c.time) : RealGaps z calls ↔ GapsKept z calls := by
  have hgap : ∀ {before now after last}, calls = before ++ now :: after →
      lastCall before now.pair = some last →
      (WritesResumed (recordAt z (storeAfter z before) now).2 now.pair ↔
        now.time + z.saving now.time - (last.time + z.saving last.time) ≥ gapThresholdSec) := by
    intro before now after last hcalls hlast
    subst hcalls
    have hmem : last ∈ before := (lastCall_pair hlast).1
    exact writesResumed_recordAt hlast (hyears last (List.mem_append_left _ hmem))
      (hyears now (by simp))
  constructor
  · intro h before now after last hcalls hlast
    have hreal := h before now after last hcalls hlast
    exact (gapKept_iff z _ _).mpr ((hgap hcalls hlast).symm.trans hreal)
  · intro h before now after last hcalls hlast
    have hkept := h before now after last hcalls hlast
    exact (hgap hcalls hlast).trans ((gapKept_iff z _ _).mp hkept)

/-- Calls with the same saving are apart by the real time. -/
theorem gapsKept_of_saving {calls : List TimedCall} {k : Int}
    (h : ∀ c ∈ calls, z.saving c.time = k) : GapsKept z calls := by
  intro before now after last hcalls hlast
  subst hcalls
  have hmem : last ∈ before := (lastCall_pair hlast).1
  have hnow : z.saving now.time = k := h now (by simp)
  have hlast : z.saving last.time = k := h last (List.mem_append_left _ hmem)
  unfold GapKept
  omega

/-- In particular calls at standard time, where the clock reads no time twice. -/
theorem gapsKept_of_standard {calls : List TimedCall}
    (hstandard : ∀ c ∈ calls, z.isdst c.time = false)
    (honce : ∀ c ∈ calls, ∀ u, z.isdst u = false → u + z.offset u = c.time + z.offset c.time →
      u = c.time) : GapsKept z calls :=
  gapsKept_of_saving fun c hc => z.saving_standard (hstandard c hc) (honce c hc)

end Run

/-! ## The changes of a year -/

/-- One hour ahead of UTC, and two hours from 2026-03-29 to 2026-10-25,
01:00 UTC. -/
def centralEurope : Zone :=
  .withSummer 3600 3600 fun t => 1774746000 ≤ t ∧ t < 1792890000

def emissionsAt (times : List Int) : List TimedCall :=
  times.map fun t => ⟨"krangd", "CONNECTION", none, t, t⟩

/-- An hour within the summer. -/
theorem summer_gap_real : RealGaps centralEurope (emissionsAt [1780000000, 1780003600]) :=
  (realGaps_iff centralEurope (emissionsAt [1780000000, 1780003600]) (by decide)).mpr
    (gapsKept_of_saving (k := 3600) (by decide))

/-- Of two calls for a pair, the second is one with a gap. -/
theorem RealGaps.second {z : Zone} {last now : TimedCall} (h : RealGaps z [last, now])
    (hpair : last.pair = now.pair) (hyear : FourDigitYear z last.time)
    (hyear' : FourDigitYear z now.time) :
    now.time + z.saving now.time - (last.time + z.saving last.time) ≥ gapThresholdSec ↔
      now.time - last.time ≥ gapThresholdSec := by
  have hlast : lastCall [last] now.pair = some last := by simp [lastCall, hpair]
  exact (writesResumed_recordAt hlast hyear hyear').symm.trans (h [last] now [] last rfl hlast)

/-- In spring 20 seconds are a resumption, and in autumn 40 minutes are none. -/
theorem clock_change_gaps :
    let spring := emissionsAt [1774745990, 1774746010]
    let autumn := emissionsAt [1792888200, 1792890600]
    spring.Pairwise (fun c d => c.time ≤ d.time) ∧ autumn.Pairwise (fun c d => c.time ≤ d.time) ∧
      ¬ RealGaps centralEurope spring ∧ ¬ RealGaps centralEurope autumn := by
  intro spring autumn
  refine ⟨by decide, by decide, fun h => ?_, fun h => ?_⟩
  · exact absurd (h.second rfl (by decide) (by decide)) (by decide)
  · exact absurd (h.second rfl (by decide) (by decide)) (by decide)

end MiuiserPeruser.Splinter
