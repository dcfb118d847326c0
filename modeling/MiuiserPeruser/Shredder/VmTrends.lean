import MiuiserPeruser.Lib.Word
import MiuiserPeruser.Shredder.Probe

/-!
# shredderd — OOM kills (`shredderd.c`)

`check_vm_trends` compares the counters of /proc/vmstat with those of the
poll before. A zero stands for three things: a counter that is zero, a poll
whose section was empty, and no poll at all. So the first kills after a zero
are missed, a gap in the readings hides the kills before its end, and the
zeros of a gap are compared with the reading before it, whose difference is
read as an `int`.

A poll reports what the HISTORY of readings says (`Killed`) exactly if the
poll before had a reading, unless nothing changed, and if the counter did
not grow by 2^31 (`oom_reported_iff`).
-/

namespace MiuiserPeruser.Shredder

open CText Probe Word

/-- `oom_kill`, `allocstall` and `pgsteal`; also the three statics that keep
them. -/
structure VmCounters where
  oomKill : UInt64
  allocstall : UInt64
  pgsteal : UInt64
  deriving DecidableEq

def VmCounters.zero : VmCounters := ⟨0, 0, 0⟩

def oomKey : List Char := "oom_kill".toList

/-- A counter of the section. -/
def storeVm (t : VmCounters) (key : List Char) (val : UInt64) : VmCounters :=
  if key = oomKey then { t with oomKill := val }
  else if "allocstall".toList.isPrefixOf key then { t with allocstall := t.allocstall + val }
  else if key = "pgsteal_kswapd".toList then { t with pgsteal := val }
  else t

/-- A line of the section. -/
def addVmLine (t : VmCounters) (line : List Char) : VmCounters :=
  let values := scanf (percentS 63 ++ percentLLU) line
  if values.length = 2 then storeVm t (textAt values 0) (.ofNat (numAt values 1).toNat) else t

/-- The counters of a section; an empty one has zeros. -/
def readVmstat (vmstat : List Char) : VmCounters := (lineTokens vmstat).foldl addVmLine .zero

/-- The change of a counter. -/
def vmDelta (last cur : UInt64) : Int := if 0 < last then intOf (cur - last) else 0

/-- What `check_vm_trends` prints. -/
structure VmReport where
  total : VmCounters
  oomDelta : Int
  allocDelta : Int
  deriving DecidableEq

def VmReport.trending (r : VmReport) : String :=
  if 0 < r.oomDelta then "OOM_KILL_DETECTED"
  else if 1000 < r.allocDelta then "HIGH_MEMORY_PRESSURE"
  else "stable"

def VmReport.json (r : VmReport) (size : Nat) : List Char :=
  snprintf size ("\x7b\"oom_kill_total\":".toList ++ decimal r.total.oomKill.toNat ++
    ",\"oom_kill_delta\":".toList ++ formatD r.oomDelta ++
    ",\"allocstall_total\":".toList ++ decimal r.total.allocstall.toNat ++
    ",\"allocstall_delta\":".toList ++ formatD r.allocDelta ++
    ",\"pgsteal_kswapd\":".toList ++ decimal r.total.pgsteal.toNat ++
    ",\"trending\":\"".toList ++ r.trending.toList ++ "\"\x7d".toList)

/-- `check_vm_trends`, with the statics before and after it. -/
def checkVmTrends (last : VmCounters) (p : ProbeState) : VmReport × VmCounters :=
  let cur := readVmstat (probeCopy p "VMSTAT".toList 1024).1
  ({ total := cur
     oomDelta := vmDelta last.oomKill cur.oomKill
     allocDelta := vmDelta last.allocstall cur.allocstall }, cur)

/-! ## Readings -/

/-- A counter of /proc/vmstat. -/
structure VmEntry where
  key : List Char
  value : Nat
  key_ne : key ≠ []
  word : ∀ c ∈ key, isspace c = false ∧ c ≠ '\x00'
  short : key.length ≤ 63
  fits : value < 2 ^ 64

def VmEntry.line (e : VmEntry) : List Char := e.key ++ ' ' :: decimal e.value

/-- A well-formed reading: the lines `grep` leaves of /proc/vmstat, one of
them for `oom_kill`, and together no more than a kilobyte. -/
structure VmReading where
  entries : List VmEntry
  oomKill : Nat
  oom : (entries.filter (·.key = oomKey)).map VmEntry.value = [oomKill]
  short : (textLines (entries.map VmEntry.line)).length ≤ 1024

def VmReading.text (r : VmReading) : List Char := textLines (r.entries.map VmEntry.line)

/-- The probe holds this reading, or an empty section or none. -/
def ShowsVmstat (p : ProbeState) : Option VmReading → Prop
  | none => (probeSectionRaw p "VMSTAT".toList).1.getD [] = []
  | some r => Delivers p "VMSTAT" r.text

/-- A poll. -/
structure VmPoll where
  probe : ProbeState
  reading : Option VmReading
  shows : ShowsVmstat probe reading

/-- The statics after some polls. -/
def afterVmPolls (polls : List VmPoll) : VmCounters :=
  polls.foldl (fun last p => (checkVmTrends last p.probe).2) .zero

/-- The report of a poll that follows others. -/
def vmReport (before : List VmPoll) (p : VmPoll) : VmReport :=
  (checkVmTrends (afterVmPolls before) p.probe).1

/-- The values of `oom_kill` that were read, oldest first. -/
def oomReadings (polls : List VmPoll) : List Nat :=
  (polls.filterMap VmPoll.reading).map VmReading.oomKill

/-- The counter never falls. -/
def OomMonotone (polls : List VmPoll) : Prop := (oomReadings polls).Pairwise (· ≤ ·)

/-- The poll has a reading, an earlier one had one, and the counter is greater
than in the latest of these, `e`. -/
def KilledSince (before : List VmPoll) (p : VmPoll) (e : Nat) : Prop :=
  (oomReadings before).getLast? = some e ∧ ∃ r, p.reading = some r ∧ e < r.oomKill

/-- What is to be reported: the kills, and how many. -/
structure OomReported (before : List VmPoll) (p : VmPoll) : Prop where
  trending : (vmReport before p).trending = "OOM_KILL_DETECTED" ↔ ∃ e, KilledSince before p e
  delta : ∀ e r, KilledSince before p e → p.reading = some r → (vmReport before p).oomDelta = r.oomKill - e

/-- The reading of the poll before. -/
def previousOom (before : List VmPoll) : Option Nat :=
  (before.getLast?.bind VmPoll.reading).map VmReading.oomKill

/-- A poll with a reading follows no other reading, or the counter did not
change, or the poll before had a reading that was not zero and less than
2^31 kills ago. A poll without a reading does not follow one whose counter
is, modulo 2^32, more than 2^31. -/
def OomComparable (before : List VmPoll) (p : VmPoll) : Prop :=
  match p.reading with
  | some r => ∀ e, (oomReadings before).getLast? = some e →
      r.oomKill = e ∨ ((previousOom before).isSome ∧ 0 < e ∧ r.oomKill - e < 2 ^ 31)
  | none => ∀ e, previousOom before = some e → e % 2 ^ 32 ≤ 2 ^ 31

/-! ## What is read -/

section Read

theorem VmEntry.line_isLine (e : VmEntry) : IsLine e.line ∧ '\r' ∉ e.line := by
  have hno : ∀ c, isspace c = true → c ≠ ' ' → c.isDigit = false → c ∉ e.line := by
    intro c hspace hblank hdigit hmem
    rcases List.mem_append.mp hmem with hkey | hrest
    · rw [(e.word c hkey).1] at hspace
      exact absurd hspace nofun
    · rcases List.mem_cons.mp hrest with rfl | hdec
      · exact hblank rfl
      · rw [isDigit_decimal hdec] at hdigit
        exact absurd hdigit nofun
  refine ⟨⟨?_, hno '\n' (by decide) (by decide) (by decide)⟩, hno '\r' (by decide) (by decide) (by decide)⟩
  rw [VmEntry.line]
  exact List.append_ne_nil_of_right_ne_nil _ (List.cons_ne_nil _ _)

theorem VmEntry.scanf_line (e : VmEntry) :
    scanf (percentS 63 ++ percentLLU) e.line = [.text e.key, .num e.value] := by
  have hblank : Stops (fun c => !isspace c) (' ' :: decimal e.value) := stops_cons.mpr (by decide)
  calc scanf (percentS 63 ++ percentLLU) e.line
      = .text e.key :: scanf percentLLU (' ' :: decimal e.value) :=
        scanf_word e.key_ne (fun c hc => (e.word c hc).1) e.short hblank
    _ = .text e.key :: scanf percentLLU (decimal e.value ++ []) := by rw [List.append_nil]; rfl
    _ = [.text e.key, .num e.value] := by
        rw [percentLLU, scanf_decimal (storeUnsigned_fits le_rfl e.fits) (stops_nil _)]
        rfl

theorem storeVm_oomKill (t : VmCounters) (key : List Char) (val : UInt64) :
    (storeVm t key val).oomKill = if key = oomKey then val else t.oomKill := by
  unfold storeVm
  by_cases hkey : key = oomKey
  · rw [if_pos hkey, if_pos hkey]
  · rw [if_neg hkey, if_neg hkey]
    split
    · rfl
    · split
      · rfl
      · rfl

/-- What a line does to the count of the kills. -/
theorem addVmLine_oomKill (t : VmCounters) (e : VmEntry) :
    (addVmLine t e.line).oomKill = if e.key = oomKey then .ofNat e.value else t.oomKill := by
  unfold addVmLine
  rw [e.scanf_line]
  exact storeVm_oomKill t e.key (.ofNat e.value)

theorem foldl_addVmLine_oomKill (entries : List VmEntry) (t : VmCounters) :
    ((entries.map VmEntry.line).foldl addVmLine t).oomKill.toNat =
      ((entries.filter (·.key = oomKey)).map VmEntry.value).getLastD t.oomKill.toNat := by
  induction entries generalizing t with
  | nil => rfl
  | cons e entries ih =>
      rw [List.map_cons, List.foldl_cons, ih, addVmLine_oomKill]
      by_cases hkey : e.key = oomKey
      · rw [if_pos hkey, List.filter_cons, if_pos (decide_eq_true hkey), List.map_cons, List.getLastD_cons,
          UInt64.toNat_ofNat_of_lt' e.fits]
      · rw [if_neg hkey, List.filter_cons, if_neg (by rw [decide_eq_true_eq]; exact hkey)]

/-- **The count a poll reads.** -/
theorem VmPoll.oomKill_eq (p : VmPoll) (last : VmCounters) :
    (checkVmTrends last p.probe).2.oomKill.toNat = (p.reading.map VmReading.oomKill).getD 0 := by
  have hshows := p.shows
  show (readVmstat (probeCopy p.probe "VMSTAT".toList 1024).1).oomKill.toNat = _
  cases hr : p.reading with
  | none =>
      rw [hr] at hshows
      have hempty : (probeCopy p.probe "VMSTAT".toList 1024).1 = [] := by
        unfold ShowsVmstat at hshows
        unfold probeCopy
        split
        · rfl
        · rename_i v st hv
          rw [hv] at hshows
          have hnil : v = [] := hshows
          rw [hnil]
          rfl
      rw [hempty]
      rfl
  | some r =>
      rw [hr] at hshows
      have hlines : ∀ l ∈ r.entries.map VmEntry.line, IsLine l ∧ '\r' ∉ l := by
        intro l hl
        obtain ⟨e, -, rfl⟩ := List.mem_map.mp hl
        exact e.line_isLine
      have hread : lineTokens (probeCopy p.probe "VMSTAT".toList 1024).1 = r.entries.map VmEntry.line := by
        rw [lineTokens_probeCopy hlines hshows (by decide)]
        exact cutTextLines_eq_self (fun l hl => (hlines l hl).1) r.short
      rw [readVmstat, hread, foldl_addVmLine_oomKill, r.oom]
      rfl

end Read

/-! ## The difference of two counters -/

section Delta

variable {last cur : UInt64}

theorem vmDelta_of_zero (h : last.toNat = 0) : vmDelta last cur = 0 := by
  refine if_neg fun hpos => ?_
  rw [UInt64.lt_iff_toNat_lt, h] at hpos
  exact absurd hpos (Nat.lt_irrefl 0)

theorem vmDelta_of_pos (h : 0 < last.toNat) : vmDelta last cur = intOf (cur - last) :=
  if_pos (UInt64.lt_iff_toNat_lt.mpr (by simpa using h))

/-- A counter that grew by less than 2^31. -/
theorem vmDelta_grown (h : 0 < last.toNat) (hle : last.toNat ≤ cur.toNat)
    (hsmall : cur.toNat - last.toNat < 2 ^ 31) : vmDelta last cur = (cur.toNat : Int) - last.toNat := by
  have hsub : (cur - last).toNat = cur.toNat - last.toNat :=
    UInt64.toNat_sub_of_le _ _ (UInt64.le_iff_toNat_le.mpr hle)
  rw [vmDelta_of_pos h, intOf_small (by omega), hsub]
  omega

/-- An `int` is below 2^31, and so no larger change is ever told. -/
theorem vmDelta_lt (last cur : UInt64) : vmDelta last cur < 2 ^ 31 := by
  unfold vmDelta
  split
  · rw [intOf, CText.wrap32, Int.bmod_def]
    split
    · omega
    · omega
  · decide

/-- The zeros of an empty section against the reading before. -/
theorem vmDelta_gap (h : 0 < last.toNat) (hzero : cur.toNat = 0) :
    0 < vmDelta last cur ↔ 2 ^ 31 < last.toNat % 2 ^ 32 := by
  have hlt := last.toNat_lt
  have hsub : (cur - last).toNat = 2 ^ 64 - last.toNat := by
    rw [UInt64.toNat_sub]
    omega
  rw [vmDelta_of_pos h, intOf, hsub, CText.wrap32, Int.bmod_def]
  split
  · omega
  · omega

end Delta

/-! ## The history of a run -/

section Run

variable {before : List VmPoll} {p : VmPoll}

/-- The statics keep the count of the poll before, or zero. -/
theorem afterVmPolls_oomKill (before : List VmPoll) :
    (afterVmPolls before).oomKill.toNat = (previousOom before).getD 0 := by
  cases before using List.reverseRecOn with
  | nil => rfl
  | append_singleton before q =>
      rw [afterVmPolls, List.foldl_append]
      simp only [List.foldl_cons, List.foldl_nil]
      rw [q.oomKill_eq, previousOom, List.getLast?_concat]
      rfl

/-- The reading of the poll before is the latest. -/
theorem latest_of_previousOom {e : Nat} (h : previousOom before = some e) :
    (oomReadings before).getLast? = some e := by
  cases before using List.reverseRecOn with
  | nil => exact absurd h nofun
  | append_singleton before q =>
      rw [previousOom, List.getLast?_concat] at h
      obtain ⟨r, hr, rfl⟩ := Option.map_eq_some_iff.mp h
      have hr : q.reading = some r := hr
      simp only [oomReadings, List.filterMap_append, List.filterMap_cons, List.filterMap_nil, hr,
        List.map_append, List.map_cons, List.map_nil, List.getLast?_concat]

theorem OomMonotone.le_of_latest (h : OomMonotone (before ++ [p])) {r : VmReading} {e : Nat}
    (hr : p.reading = some r) (he : (oomReadings before).getLast? = some e) : e ≤ r.oomKill := by
  have hsplit : oomReadings (before ++ [p]) = oomReadings before ++ [r.oomKill] := by
    simp only [oomReadings, List.filterMap_append, List.filterMap_cons, List.filterMap_nil, hr,
      List.map_append, List.map_cons, List.map_nil]
  rw [OomMonotone, hsplit, List.pairwise_append] at h
  exact h.2.2 e (List.mem_of_getLast? he) r.oomKill (List.mem_singleton_self _)

theorem vmReport_oomDelta : (vmReport before p).oomDelta =
    vmDelta (afterVmPolls before).oomKill (checkVmTrends (afterVmPolls before) p.probe).2.oomKill := rfl

theorem trending_iff (r : VmReport) : r.trending = "OOM_KILL_DETECTED" ↔ 0 < r.oomDelta := by
  unfold VmReport.trending
  constructor
  · intro h
    by_contra hnot
    rw [if_neg hnot] at h
    split at h
    · exact absurd h (by decide)
    · exact absurd h (by decide)
  · exact fun h => if_pos h

/-- A poll without a reading reports nothing, so its difference must not be
taken for kills. -/
theorem oomReported_of_gap (hr : p.reading = none) :
    OomReported before p ↔ ¬ 0 < (vmReport before p).oomDelta := by
  have hnone : ¬ ∃ e, KilledSince before p e := by
    rintro ⟨e, -, r, hread, -⟩
    rw [hr] at hread
    exact absurd hread nofun
  constructor
  · intro h hpos
    exact hnone (h.trending.mp ((trending_iff _).mpr hpos))
  · intro h
    refine ⟨iff_of_false (fun ht => h ((trending_iff _).mp ht)) hnone, ?_⟩
    intro e r _ hread
    rw [hr] at hread
    exact absurd hread nofun

/-- With a reading, the difference has to be that from the latest one. -/
theorem oomReported_of_reading {r : VmReading} (hr : p.reading = some r) {e : Nat}
    (he : (oomReadings before).getLast? = some e) (hle : e ≤ r.oomKill) :
    OomReported before p ↔ (0 < (vmReport before p).oomDelta ↔ e < r.oomKill) ∧
      (e < r.oomKill → (vmReport before p).oomDelta = r.oomKill - e) := by
  have hkilled : ∀ d, KilledSince before p d ↔ d = e ∧ e < r.oomKill := by
    intro d
    constructor
    · rintro ⟨hd, r', hr', hlt⟩
      rw [he] at hd
      rw [hr] at hr'
      obtain rfl := Option.some.inj hd
      obtain rfl := Option.some.inj hr'
      exact ⟨rfl, hlt⟩
    · rintro ⟨rfl, hlt⟩
      exact ⟨he, r, hr, hlt⟩
  have hsome : (∃ d, KilledSince before p d) ↔ e < r.oomKill := by
    constructor
    · rintro ⟨d, hd⟩
      exact ((hkilled d).mp hd).2
    · exact fun hlt => ⟨e, (hkilled e).mpr ⟨rfl, hlt⟩⟩
  constructor
  · intro h
    constructor
    · rw [← trending_iff, h.trending, hsome]
    · exact fun hlt => h.delta e r ((hkilled e).mpr ⟨rfl, hlt⟩) hr
  · rintro ⟨htrend, hdelta⟩
    constructor
    · rw [trending_iff, htrend, hsome]
    · intro d r' hd hr'
      obtain ⟨rfl, hlt⟩ := (hkilled d).mp hd
      rw [hr] at hr'
      obtain rfl := Option.some.inj hr'
      exact hdelta hlt

/-- At a gap the zeros must not look like kills. -/
theorem comparable_of_gap (hr : p.reading = none) : OomReported before p ↔ OomComparable before p := by
  have hlast := afterVmPolls_oomKill before
  have hcur := p.oomKill_eq (afterVmPolls before)
  rw [hr] at hcur
  rw [oomReported_of_gap hr, vmReport_oomDelta, OomComparable, hr]
  cases hprev : previousOom before with
  | none =>
      rw [hprev] at hlast
      rw [vmDelta_of_zero hlast]
      simp
  | some e =>
      rw [hprev] at hlast
      have hlast : (afterVmPolls before).oomKill.toNat = e := hlast
      simp only [Option.some.injEq, forall_eq']
      rcases Nat.eq_zero_or_pos e with hzero | hpos
      · rw [vmDelta_of_zero (hlast.trans hzero), hzero]
        simp
      · rw [vmDelta_gap (by omega) hcur, hlast, Nat.not_lt]

/-- The first reading of a run has nothing to be compared with. -/
theorem oomReported_of_first (he : (oomReadings before).getLast? = none) : OomReported before p := by
  have hlast := afterVmPolls_oomKill before
  have hprev : previousOom before = none := by
    cases hprev : previousOom before with
    | none => rfl
    | some e =>
        rw [latest_of_previousOom hprev] at he
        exact absurd he nofun
  rw [hprev] at hlast
  have hdelta : (vmReport before p).oomDelta = 0 := vmDelta_of_zero hlast
  have hnone : ∀ e, ¬ KilledSince before p e := by
    rintro e ⟨hlatest, -⟩
    rw [he] at hlatest
    exact absurd hlatest nofun
  refine ⟨?_, fun e r' hkill _ => absurd hkill (hnone e)⟩
  rw [trending_iff, hdelta]
  exact iff_of_false (by decide) fun ⟨e, hkill⟩ => hnone e hkill

/-- A later one is compared with the static, which has the latest reading or
zero. -/
theorem comparable_of_reading {r : VmReading} {e : Nat} (hr : p.reading = some r)
    (he : (oomReadings before).getLast? = some e) (hle : e ≤ r.oomKill) : OomReported before p ↔
      r.oomKill = e ∨ ((previousOom before).isSome ∧ 0 < e ∧ r.oomKill - e < 2 ^ 31) := by
  have hlast := afterVmPolls_oomKill before
  have hcur := p.oomKill_eq (afterVmPolls before)
  rw [hr] at hcur
  have hcur : (checkVmTrends (afterVmPolls before) p.probe).2.oomKill.toNat = r.oomKill := hcur
  rw [oomReported_of_reading hr he hle]
  cases hprev : previousOom before with
  | none =>
      rw [hprev] at hlast
      have hdelta : (vmReport before p).oomDelta = 0 := vmDelta_of_zero hlast
      rw [hdelta]
      simp only [Option.isSome_none, Bool.false_eq_true, false_and, or_false]
      omega
  | some d =>
      obtain rfl : d = e := Option.some.inj ((latest_of_previousOom hprev).symm.trans he)
      rw [hprev] at hlast
      have hlast : (afterVmPolls before).oomKill.toNat = d := hlast
      simp only [Option.isSome_some, true_and]
      rcases Nat.eq_zero_or_pos d with hzero | hpos
      · have hdelta : (vmReport before p).oomDelta = 0 := vmDelta_of_zero (hlast.trans hzero)
        rw [hdelta]
        omega
      · by_cases hsmall : r.oomKill - d < 2 ^ 31
        · have hdelta : (vmReport before p).oomDelta = (r.oomKill : Int) - d := by
            rw [vmReport_oomDelta, vmDelta_grown (by omega) (by omega) (by omega), hlast, hcur]
          rw [hdelta]
          omega
        · have hbound : (vmReport before p).oomDelta < 2 ^ 31 := vmDelta_lt _ _
          omega

end Run

/-- **OOM kills are reported exactly once each** at a poll exactly if its
counters can be compared with those of the poll before. -/
theorem oom_reported_iff (before : List VmPoll) (p : VmPoll) (h : OomMonotone (before ++ [p])) :
    OomReported before p ↔ OomComparable before p := by
  cases hr : p.reading with
  | none => exact comparable_of_gap hr
  | some r =>
      rw [OomComparable, hr]
      cases he : (oomReadings before).getLast? with
      | none => exact iff_of_true (oomReported_of_first he) (by simp)
      | some e =>
          rw [comparable_of_reading hr he (h.le_of_latest hr he)]
          simp only [Option.some.injEq, forall_eq']

/-! ## Two polls -/

theorem oomKey_word : ∀ c ∈ oomKey, isspace c = false ∧ c ≠ '\x00' :=
  forall_mem_of_all (by decide)

theorem oomKey_ne : oomKey ≠ [] := by decide

theorem oomKey_short : oomKey.length ≤ 63 := by decide

/-- A reading of `oom_kill` alone. -/
def killEntry (n : Nat) (h : n < 2 ^ 64) : VmEntry := ⟨oomKey, n, oomKey_ne, oomKey_word, oomKey_short, h⟩

theorem killEntry_oom (n : Nat) (h : n < 2 ^ 64) :
    ([killEntry n h].filter (·.key = oomKey)).map VmEntry.value = [n] := rfl

def killReading (n : Nat) (h : n < 2 ^ 64)
    (hshort : (textLines ([killEntry n h].map VmEntry.line)).length ≤ 1024) : VmReading :=
  ⟨[killEntry n h], n, killEntry_oom n h, hshort⟩

/-- The probe of that reading. -/
def killProbe (n : Nat) : ProbeState :=
  ⟨"==VMSTAT==\noom_kill ".toList ++ decimal n ++ "\n==LOADAVG==\n0.52\n".toList, true, []⟩

def killPoll (n : Nat) (h : n < 2 ^ 64)
    (hshort : (textLines ([killEntry n h].map VmEntry.line)).length ≤ 1024)
    (hshows : ShowsVmstat (killProbe n) (some (killReading n h hshort))) : VmPoll :=
  ⟨killProbe n, some (killReading n h hshort), hshows⟩

theorem killProbe_shows : ShowsVmstat (killProbe 5) (some (killReading 5 (by decide) (by decide))) ∧
    ShowsVmstat (killProbe 7) (some (killReading 7 (by decide) (by decide))) ∧
    ShowsVmstat (killProbe 0) (some (killReading 0 (by decide) (by decide))) ∧
    ShowsVmstat (killProbe 1) (some (killReading 1 (by decide) (by decide))) := by
  unfold ShowsVmstat Delivers
  decide +kernel

/-- From five kills to seven. -/
theorem oom_reported_iff_two :
    OomReported [killPoll 5 (by decide) (by decide) killProbe_shows.1]
      (killPoll 7 (by decide) (by decide) killProbe_shows.2.1) := by
  refine (oom_reported_iff _ _ ?_).mpr ?_
  · unfold OomMonotone
    decide
  · intro e he
    obtain rfl : 5 = e := Option.some.inj he
    exact .inr ⟨rfl, by decide, by decide⟩

/-- The first kill since the device was started. -/
theorem first_kill_missed :
    OomMonotone ([killPoll 0 (by decide) (by decide) killProbe_shows.2.2.1] ++
        [killPoll 1 (by decide) (by decide) killProbe_shows.2.2.2]) ∧
      ¬ OomReported [killPoll 0 (by decide) (by decide) killProbe_shows.2.2.1]
        (killPoll 1 (by decide) (by decide) killProbe_shows.2.2.2) := by
  constructor
  · unfold OomMonotone
    decide
  · intro h
    have htrend := h.trending.mpr ⟨0, rfl, _, rfl, by decide⟩
    exact absurd htrend (by decide +kernel)

end MiuiserPeruser.Shredder
