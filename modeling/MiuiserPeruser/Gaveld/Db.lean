import Mathlib.Data.List.Sort
import Mathlib.Data.List.Dedup
import MiuiserPeruser.Lib.Table
import MiuiserPeruser.Gaveld.Config

/-!
# gaveld — the database (`db.h`, `db.c`)

The tables of `gaveld.db` that the judicial pipeline reads and writes,
and the `db_*` functions over them. Each function takes the db mutex for
its whole body, so one call is one atomic action of a thread; a SQL
statement is assumed to succeed. Tables with an AUTOINCREMENT id are
lists in id order; tables with a TEXT PRIMARY KEY are `Sql.Table`s.

`audit_log` is written and read by the audit thread alone and stands with
it in `Gaveld.Audit`.
-/

namespace MiuiserPeruser.Gaveld

open Sql

/-- The six states of the score ladder, named as in `score_to_state`. -/
inductive ThreatState where
  | clean | watched | warned | quarantined | houseArrest | jailed
  deriving DecidableEq, Repr

/-- The `verdict` column: a state of the ladder, or one of the outcomes
`verdict_process` and `resolve_entry` write beside them. -/
inductive Verdict where
  | state (s : ThreatState)
  | iaReferral
  | dismissedStale
  | dismissed
  | consentDenied
  deriving DecidableEq, Repr

/-- The verdicts that reach an app only through the consent gate. -/
def Verdict.contains : Verdict → Bool
  | .state .quarantined | .state .houseArrest | .state .jailed => true
  | _ => false

/-- The `status` column of `cases`. -/
inductive CaseStatus where
  | pendingJudgement
  | suspended
  | judged (v : Verdict)
  deriving DecidableEq, Repr

/-! ## Rows -/

/-- `db_threat_t`, a row of `threat_scores`. -/
structure Threat where
  source : String
  score : ℚ
  state : ThreatState
  priorJails : Nat
  priorQuarantines : Nat
  lastUpdated : Int
  deriving DecidableEq

/-- A row of `signal_window`. -/
structure SignalRow where
  source : String
  signal : String
  epoch : Int
  deriving DecidableEq

/-- `db_case_t`, a row of `cases`. -/
structure CaseRow where
  caseId : String
  source : String
  signal : String
  score : ℚ
  context : String
  status : CaseStatus
  created : Int
  deriving DecidableEq

/-- `db_verdict_t`, a row of `verdicts`. -/
structure VerdictRow where
  caseId : String
  source : String
  verdict : Verdict
  score : ℚ
  epoch : Int
  consentRequired : Bool
  consentGranted : Bool
  mitreId : String
  mitreTactic : String
  deriving DecidableEq

/-- A row of `criminal_record`. -/
structure CriminalRow where
  source : String
  verdict : Verdict
  reason : String
  actor : String
  epoch : Int
  deriving DecidableEq

/-- The multipliers of one scoring, the `modifiers` column of `scoring_log`. -/
structure Modifiers where
  tier : ℚ
  cov : ℚ
  stack : ℚ
  recid : ℚ
  userCtx : ℚ
  situational : ℚ
  deriving DecidableEq

/-- A row of `scoring_log`. -/
structure ScoringRow where
  epoch : Int
  source : String
  signal : String
  baseWeight : ℚ
  finalAddition : ℚ
  prevScore : ℚ
  newScore : ℚ
  state : ThreatState
  modifiers : Modifiers
  deriving DecidableEq

/-- What a user can be asked to do about a request that times out: the
only action the code ever sets is to hold it and notify again. -/
inductive TimeoutAction where
  | hold
  deriving DecidableEq, Repr

/-- `consent_request_t`, which has the fields of `db_consent_t`: a row of
`consent_queue` and the request of a pending slot. -/
structure ConsentRequest where
  caseId : String
  source : String
  verdict : Verdict
  score : ℚ
  queued : Int
  timeoutSecs : Int
  timeoutAction : TimeoutAction
  deriving DecidableEq

/-- The database. -/
structure Db where
  threatScores : Table Threat Threat.source
  signalWindow : List SignalRow
  cases : Table CaseRow CaseRow.caseId
  verdicts : List VerdictRow
  criminalRecord : List CriminalRow
  scoringLog : List ScoringRow
  consentQueue : Table ConsentRequest ConsentRequest.caseId

/-- `db_init_schema` on a new file: every table empty. -/
def Db.empty : Db := ⟨.empty, [], .empty, [], [], [], .empty⟩

/-! ## threat_scores -/

/-- The defaults `db_threat_load` returns when the source has no row. -/
def Threat.fresh (source : String) : Threat := ⟨source, 0, .clean, 0, 0, 0⟩

def dbThreatLoad (db : Db) (source : String) : Threat :=
  (db.threatScores.find? source).getD (.fresh source)

def dbThreatUpsert (db : Db) (rec : Threat) : Db :=
  { db with threatScores := db.threatScores.upsert rec }

/-- The first `max` rows in table order. What the copy of a source that fills
its 255 bytes is read as is added in `Gaveld.DecayTicks`. -/
def dbThreatAll (db : Db) (max : Nat) : List Threat := db.threatScores.rows.take max

/-! ## signal_window -/

def dbSignalInsert (db : Db) (source signal : String) (epoch : Int) : Db :=
  { db with signalWindow := db.signalWindow ++ [⟨source, signal, epoch⟩] }

def dbSignalPrune (db : Db) (cutoff : Int) : Db :=
  { db with signalWindow := db.signalWindow.filter fun r => ¬ r.epoch < cutoff }

/-- Where the signal window starts for a call that read the time `now`:
`window_start` in the scorer, `active_since` in the decay tick. -/
def windowStart (now : Int) : Int := now - signalWindowSec

/-- The rows of a source newer than `since`: the WHERE clause of both
window queries. -/
def signalsSince (window : List SignalRow) (source : String) (since : Int) : List SignalRow :=
  window.filter fun r => r.source = source ∧ r.epoch > since

/-- Up to 16 distinct signals, in the order of the index
`idx_sw_source_epoch` that serves the query: by epoch, then by id. -/
def dbSignalDistinct (db : Db) (source : String) (since : Int) : List String :=
  let rows := (signalsSince db.signalWindow source since).insertionSort
    fun a b => a.epoch ≤ b.epoch
  ((rows.map SignalRow.signal).reverse.dedup.reverse).take 16

def dbSignalActive (db : Db) (source : String) (since : Int) : Bool :=
  signalsSince db.signalWindow source since ≠ []

/-! ## cases -/

def dbCaseInsert (db : Db) (c : CaseRow) : Db := { db with cases := db.cases.insertOrIgnore c }

def dbCaseUpdateStatus (db : Db) (caseId : String) (status : CaseStatus) : Db :=
  { db with cases := db.cases.update caseId (fun r => { r with status := status }) fun _ => rfl }

/-! ## verdicts and criminal_record -/

def dbVerdictInsert (db : Db) (v : VerdictRow) : Db := { db with verdicts := db.verdicts ++ [v] }

def dbVerdictCountRecent (db : Db) (source : String) (verdict : Verdict) (since : Int) : Nat :=
  (db.verdicts.filter fun v => v.source = source ∧ v.verdict = verdict ∧ v.epoch > since).length

def dbCriminalRecordInsert (db : Db) (r : CriminalRow) : Db :=
  { db with criminalRecord := db.criminalRecord ++ [r] }

/-! ## scoring_log -/

def dbScoringLogInsert (db : Db) (r : ScoringRow) : Db :=
  { db with scoringLog := db.scoringLog ++ [r] }

/-! ## consent_queue -/

def dbConsentInsert (db : Db) (c : ConsentRequest) : Db :=
  { db with consentQueue := db.consentQueue.insertOrReplace c }

def dbConsentRemove (db : Db) (caseId : String) : Db :=
  { db with consentQueue := db.consentQueue.delete caseId }

/-- The first `max` rows, oldest `queued` first. -/
def dbConsentPending (db : Db) (max : Nat) : List ConsentRequest :=
  (db.consentQueue.rows.insertionSort fun a b => a.queued ≤ b.queued).take max

/-! ## Facts about the queries -/

theorem dbThreatLoad_source (db : Db) (source : String) :
    (dbThreatLoad db source).source = source := by
  unfold dbThreatLoad
  cases h : db.threatScores.find? source with
  | none => rfl
  | some r => exact Table.key_of_find? h

/-- An upsert changes what is loaded for its own source and no other. -/
theorem dbThreatLoad_upsert (db : Db) (r : Threat) (source : String) :
    dbThreatLoad (dbThreatUpsert db r) source =
      if r.source = source then r else dbThreatLoad db source := by
  simp only [dbThreatLoad, dbThreatUpsert, Table.find?_upsert]
  by_cases h : r.source = source
  · rw [if_pos h, if_pos h, Option.getD_some]
  · rw [if_neg h, if_neg h]

/-- A row of the table is what is loaded for its source. -/
theorem dbThreatLoad_of_mem {db : Db} {r : Threat} (h : r ∈ db.threatScores.rows) :
    dbThreatLoad db r.source = r := by
  rw [dbThreatLoad, Table.find?_eq_some.mpr ⟨h, rfl⟩, Option.getD_some]

theorem dbThreatLoad_congr {db db' : Db} (h : db.threatScores = db'.threatScores)
    (source : String) : dbThreatLoad db source = dbThreatLoad db' source := by
  rw [dbThreatLoad, dbThreatLoad, h]

theorem dbThreatAll_nodup (db : Db) (max : Nat) :
    ((dbThreatAll db max).map Threat.source).Nodup :=
  ((List.take_sublist max _).map _).nodup db.threatScores.nodup

theorem dbVerdictCountRecent_pos {db : Db} {source : String} {verdict : Verdict} {since : Int} :
    dbVerdictCountRecent db source verdict since ≠ 0 ↔
      ∃ v ∈ db.verdicts, v.source = source ∧ v.verdict = verdict ∧ v.epoch > since := by
  rw [dbVerdictCountRecent, ← Nat.pos_iff_ne_zero, List.length_pos_iff_exists_mem]
  simp [List.mem_filter]

/-! The window queries read the rows of `signalsSince` and nothing else. -/

theorem dbSignalDistinct_congr {db db' : Db} {source : String} {since : Int}
    (h : signalsSince db.signalWindow source since = signalsSince db'.signalWindow source since) :
    dbSignalDistinct db source since = dbSignalDistinct db' source since := by
  simp only [dbSignalDistinct, h]

theorem dbSignalActive_congr {db db' : Db} {source : String} {since : Int}
    (h : signalsSince db.signalWindow source since = signalsSince db'.signalWindow source since) :
    dbSignalActive db source since = dbSignalActive db' source since := by
  simp only [dbSignalActive, h]

theorem signalsSince_insert (db : Db) (r : SignalRow) (source : String) (since : Int) :
    signalsSince (dbSignalInsert db r.source r.signal r.epoch).signalWindow source since =
      signalsSince db.signalWindow source since ++ signalsSince [r] source since :=
  List.filter_append _ _

theorem signalsSince_singleton_ne {r : SignalRow} {source : String} (h : r.source ≠ source)
    (since : Int) : signalsSince [r] source since = [] := by
  simp [signalsSince, h]

/-- A prune that spares the rows a query counts does not change its result. -/
theorem signalsSince_prune {db : Db} {cutoff since : Int} {source : String}
    (h : ∀ r ∈ signalsSince db.signalWindow source since, cutoff ≤ r.epoch) :
    signalsSince (dbSignalPrune db cutoff).signalWindow source since =
      signalsSince db.signalWindow source since := by
  simp only [dbSignalPrune, signalsSince, List.filter_filter]
  refine List.filter_congr fun r hr => ?_
  by_cases hc : r.source = source ∧ r.epoch > since
  · have := h r (List.mem_filter.mpr ⟨hr, by simpa using hc⟩)
    simp [hc, this]
  · simp [hc]

theorem mem_signalsSince {window : List SignalRow} {source : String} {since : Int} {r : SignalRow} :
    r ∈ signalsSince window source since ↔ r ∈ window ∧ r.source = source ∧ since < r.epoch := by
  simp [signalsSince]

theorem dbSignalActive_iff {db : Db} {source : String} {since : Int} :
    dbSignalActive db source since = true ↔
      ∃ r ∈ db.signalWindow, r.source = source ∧ r.epoch > since := by
  simp [dbSignalActive, signalsSince]

end MiuiserPeruser.Gaveld
