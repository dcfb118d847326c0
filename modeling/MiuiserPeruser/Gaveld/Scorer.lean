import MiuiserPeruser.Gaveld.Db
import MiuiserPeruser.Gaveld.Tier
import MiuiserPeruser.Gaveld.Weights

/-!
# gaveld — the scoring engine (`scorer.c`)

`scorer_process` twice: as the straight-line function of the source, and
as a sequence of program points with ONE database call between two
points, which is what another thread can see of it. `scorerProcess_eq`
ties the two: the points, taken without interruption, compute the
function.

Scores and weights are exact rationals. The foreground and thermal
multipliers are the constant 1 of the source.
-/

namespace MiuiserPeruser.Gaveld

namespace Scorer

def scoreToState (score : ℚ) : ThreatState :=
  if score ≥ threshJailed then .jailed
  else if score ≥ threshHouseArrest then .houseArrest
  else if score ≥ threshQuarantined then .quarantined
  else if score ≥ threshWarned then .warned
  else if score ≥ threshWatched then .watched
  else .clean

def recidivismMod (priorJails priorQuarantines : Nat) : ℚ :=
  if priorJails ≥ 2 then recidMultiJail
  else if priorJails ≥ 1 then recidSingleJail
  else if priorQuarantines ≥ 1 then recidQuarantine
  else recidNone

/-- The covariance multiplier and the stack bonus of a set of signals. -/
def covariance (ss : List String) : ℚ × ℚ :=
  let stackBonus : ℚ := if ss.length ≥ covStackMinSignals then covStackBonus else 1
  let has := fun sig => decide (sig ∈ ss)
  let cov : ℚ :=
    if has "INTEGRITY_VIOLATION" then covIntegrityViolation
    else if has "NETWORK_ANOMALY" && (has "CPU_HOG" || has "CPU_HOG_CRITICAL") then covNetworkCpu
    else if has "WAKELOCK_ANOMALY" && has "NETWORK_ANOMALY" then covWakelockNetwork
    else if has "THERMAL_CRITICAL" && has "CPU_HOG_CRITICAL" then covThermalCpuCritical
    else if (has "THERMAL_CRITICAL" || has "THERMAL_WARN") && has "NETWORK_ANOMALY" then
      covThermalNetwork
    else if has "CPU_THROTTLING" && has "WAKELOCK_ANOMALY" then covCpuWakelock
    else 1
  (cov, stackBonus)

/-- The weights table is used when the caller passes 0 or less, and 10 for
a signal the table gives no weight. -/
def effectiveWeight (signal : String) (baseWeight : ℚ) : ℚ :=
  if baseWeight ≤ 0 then
    if weightLookup signal > 0 then (weightLookup signal : ℚ) else 10
  else baseWeight

end Scorer

/-- The arguments of one `scorer_process` call, with what it reads from
its environment: the time, and the content of the sovereignty list. -/
structure ScorerCall where
  source : String
  signal : String
  weight : ℚ
  now : Int
  list : SovereigntyList
  deriving DecidableEq

def ScorerCall.since (c : ScorerCall) : Int := windowStart c.now

/-- `score_result_t`. -/
structure ScoreResult where
  source : String
  prevScore : ℚ
  newScore : ℚ
  delta : ℚ
  state : ThreatState
  priorJails : Nat
  priorQuarantines : Nat
  deriving DecidableEq

namespace Scorer

/-- The multipliers, from the loaded record and the signals of the window. -/
def modifiers (c : ScorerCall) (record : Threat) (ss : List String) : Modifiers :=
  { tier := tierModifier c.list c.source,
    cov := (covariance ss).1,
    stack := (covariance ss).2,
    recid := recidivismMod record.priorJails record.priorQuarantines,
    userCtx := 1,
    situational := 1 }

/-- `addition`. -/
def addition (c : ScorerCall) (record : Threat) (ss : List String) : ℚ :=
  let m := modifiers c record ss
  effectiveWeight c.signal c.weight * m.userCtx * m.situational * m.cov * m.stack * m.recid * m.tier

/-- The two clamps, in the order of the source. -/
def clamp (x : ℚ) : ℚ :=
  let y := if x > maxScore then maxScore else x
  if y < scoreFloor then scoreFloor else y

/-- `rec` after the modifiers are applied, as it is written back. -/
def rescored (c : ScorerCall) (record : Threat) (ss : List String) : Threat :=
  let prev := record.score
  let new := clamp (prev + addition c record ss)
  { record with
    priorJails :=
      if scoreToState new = .jailed ∧ scoreToState prev ≠ .jailed
      then record.priorJails + 1 else record.priorJails,
    priorQuarantines :=
      if scoreToState new = .quarantined ∧ scoreToState prev ≠ .quarantined
      then record.priorQuarantines + 1 else record.priorQuarantines,
    score := new,
    state := scoreToState new,
    lastUpdated := c.now }

/-- The row of `scoring_log` for the scoring of `record`. -/
def logRow (c : ScorerCall) (record : Threat) (ss : List String) : ScoringRow :=
  { epoch := c.now, source := c.source, signal := c.signal,
    baseWeight := effectiveWeight c.signal c.weight,
    finalAddition := addition c record ss,
    prevScore := record.score,
    newScore := (rescored c record ss).score,
    state := (rescored c record ss).state,
    modifiers := modifiers c record ss }

/-- `*out`. -/
def result (c : ScorerCall) (record : Threat) (ss : List String) : ScoreResult :=
  let record' := rescored c record ss
  { source := c.source, prevScore := record.score, newScore := record'.score,
    delta := record'.score - record.score, state := record'.state,
    priorJails := record'.priorJails, priorQuarantines := record'.priorQuarantines }

end Scorer

open Scorer

/-- `scorer_process`, from its time reading on. -/
def scorerProcess (db : Db) (c : ScorerCall) : Db × ScoreResult :=
  let record := dbThreatLoad db c.source
  let db := dbSignalInsert db c.source c.signal c.now
  let db := dbSignalPrune db c.since
  let ss := dbSignalDistinct db c.source c.since
  let db := dbThreatUpsert db (rescored c record ss)
  let db := dbScoringLogInsert db (logRow c record ss)
  (db, result c record ss)

/-! ## Program points -/

/-- Where a call stands: the next database call, and the locals it needs. -/
inductive ScorerPc where
  | load
  | insert (record : Threat)
  | prune (record : Threat)
  | distinct (record : Threat)
  | upsert (record : Threat) (ss : List String)
  | log (row : ScoringRow) (res : ScoreResult)
  | done (res : ScoreResult)
  deriving DecidableEq

/-- One database call of `scorer_process`. -/
def scorerStep (db : Db) (c : ScorerCall) : ScorerPc → Db × ScorerPc
  | .load => (db, .insert (dbThreatLoad db c.source))
  | .insert record => (dbSignalInsert db c.source c.signal c.now, .prune record)
  | .prune record => (dbSignalPrune db c.since, .distinct record)
  | .distinct record => (db, .upsert record (dbSignalDistinct db c.source c.since))
  | .upsert record ss =>
      (dbThreatUpsert db (rescored c record ss),
        .log (logRow c record ss) (result c record ss))
  | .log row res => (dbScoringLogInsert db row, .done res)
  | .done res => (db, .done res)

/-- Six uninterrupted steps are the function. -/
theorem scorerProcess_eq (db : Db) (c : ScorerCall) :
    (fun p : Db × ScorerPc => scorerStep p.1 c p.2)^[6] (db, .load) =
      ((scorerProcess db c).1, .done (scorerProcess db c).2) := rfl

/-! ## What one scoring does to a score -/

theorem recidivismMod_pos (j q : Nat) : 0 < recidivismMod j q := by
  unfold recidivismMod
  split_ifs <;> norm_num

theorem covariance_pos (ss : List String) : 0 < (covariance ss).1 ∧ 0 < (covariance ss).2 := by
  constructor
  · simp only [covariance]
    split_ifs <;> norm_num
  · simp only [covariance]
    split_ifs <;> norm_num

theorem effectiveWeight_pos (signal : String) (w : ℚ) : 0 < effectiveWeight signal w := by
  unfold effectiveWeight
  split_ifs with h1 h2
  · exact_mod_cast h2
  · norm_num
  · exact not_le.mp h1

/-- Whatever weight the caller supplies, a scoring ADDS. -/
theorem addition_pos (c : ScorerCall) (record : Threat) (ss : List String) :
    0 < addition c record ss := by
  have hw := effectiveWeight_pos c.signal c.weight
  have hc := covariance_pos ss
  have hr := recidivismMod_pos record.priorJails record.priorQuarantines
  have ht := tierModifier_pos c.list c.source
  simp only [addition, modifiers, mul_one]
  exact mul_pos (mul_pos (mul_pos (mul_pos hw hc.1) hc.2) hr) ht

theorem clamp_eq_min {x : ℚ} (h : 0 ≤ x) : clamp x = min 100 x := by
  simp only [clamp, maxScore, scoreFloor, gt_iff_lt]
  rcases lt_or_ge 100 x with hx | hx
  · rw [if_pos hx, if_neg (by norm_num), min_eq_left hx.le]
  · rw [if_neg (not_lt.mpr hx), if_neg (not_lt.mpr h), min_eq_right hx]

/-- The new score of a record with a score that is not negative. -/
theorem rescored_score {c : ScorerCall} {record : Threat} {ss : List String}
    (h : 0 ≤ record.score) :
    (rescored c record ss).score = min 100 (record.score + addition c record ss) :=
  clamp_eq_min (add_nonneg h (addition_pos c record ss).le)

theorem rescored_state (c : ScorerCall) (record : Threat)
    (ss : List String) :
    (rescored c record ss).state = scoreToState (rescored c record ss).score := by
  simp only [rescored]

@[simp] theorem rescored_source (c : ScorerCall) (record : Threat)
    (ss : List String) : (rescored c record ss).source = record.source := by
  simp only [rescored]

/-- A scoring never lowers a score of the 0..100 range. -/
theorem le_rescored_score (c : ScorerCall) {record : Threat}
    (ss : List String) (h0 : 0 ≤ record.score) (h1 : record.score ≤ 100) :
    record.score ≤ (rescored c record ss).score := by
  rw [rescored_score h0]
  have := addition_pos c record ss
  exact le_min h1 (by linarith)

/-! ## What one scoring does to the tables -/

/-- The signals the scoring sees: its own is already in the window. -/
def seenSignals (db : Db) (c : ScorerCall) : List String :=
  dbSignalDistinct (dbSignalPrune (dbSignalInsert db c.source c.signal c.now) c.since)
    c.source c.since

/-- What a scoring sees depends on the window of its source only. -/
theorem seenSignals_congr {db db' : Db} {c : ScorerCall}
    (h : signalsSince db.signalWindow c.source c.since =
      signalsSince db'.signalWindow c.source c.since) : seenSignals db c = seenSignals db' c := by
  refine dbSignalDistinct_congr ?_
  have spared : ∀ db : Db, signalsSince
      (dbSignalPrune (dbSignalInsert db c.source c.signal c.now) c.since).signalWindow c.source
        c.since = signalsSince db.signalWindow c.source c.since ++
          signalsSince [⟨c.source, c.signal, c.now⟩] c.source c.since := by
    intro db
    rw [signalsSince_prune fun r hr => (mem_signalsSince.mp hr).2.2.le]
    exact signalsSince_insert db ⟨c.source, c.signal, c.now⟩ c.source c.since
  rw [spared, spared, h]

/-- A scoring changes the row of its own source and no other. -/
theorem dbThreatLoad_scorerProcess (db : Db) (c : ScorerCall) (source : String) :
    dbThreatLoad (scorerProcess db c).1 source =
      if c.source = source then rescored c (dbThreatLoad db source) (seenSignals db c)
      else dbThreatLoad db source := by
  have hload : dbThreatLoad (scorerProcess db c).1 source =
      if (rescored c (dbThreatLoad db c.source) (seenSignals db c)).source = source
      then rescored c (dbThreatLoad db c.source) (seenSignals db c)
      else dbThreatLoad db source :=
    dbThreatLoad_upsert _ _ source
  rw [hload, rescored_source, dbThreatLoad_source]
  by_cases hs : c.source = source
  · rw [if_pos hs, if_pos hs, hs]
  · rw [if_neg hs, if_neg hs]

/-- A scoring appends its row to the log. -/
theorem scorerProcess_scoringLog (db : Db) (c : ScorerCall) :
    (scorerProcess db c).1.scoringLog =
      db.scoringLog ++ [logRow c (dbThreatLoad db c.source) (seenSignals db c)] := rfl

end MiuiserPeruser.Gaveld
