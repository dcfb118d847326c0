import MiuiserPeruser.Gaveld.Scoring
import MiuiserPeruser.Gaveld.Verdict

/-!
# gaveld — the threads

The daemon's threads as program points over one shared state `Sys`. Two
consecutive points are separated by at most ONE access another thread
can observe: a `db_*` call, a clock reading, a look at the lock file or
the sovereignty list, or a critical section of a queue's or the pending
table's mutex.

Three kinds of work are shared by several threads and defined once:
`workerStep` (scoring, case assembly and decay ticks, on the scorer,
decay and socket threads) and `emitStep` (`verdict_emit`, on the verdict
and consent threads).

The consent thread holds `g_mutex` while it polls the table and gives it
up inside `resolve_entry`; a thread that needs the mutex waits.

A step also reports EVENTS, which the safety properties speak about.
The audit thread takes no part in judging; `Gaveld.Audit` adds it.
-/

namespace MiuiserPeruser.Gaveld

/-- What the daemon reads of the world: the wall clock in milliseconds,
whether `internal_affairs.lock` exists, and the sovereignty list. -/
structure Env where
  clock : Int
  iaLock : Bool
  sovereignty : SovereigntyList
  deriving DecidableEq

/-- `time(NULL)`. -/
def Env.time (env : Env) : Int := env.clock / 1000

/-! ## Events -/

/-- The two threads that write verdicts and enforce. -/
inductive Actor where
  | verdict | consent
  deriving DecidableEq, Repr

inductive Event where
  /-- `make_case_id` read the clock. -/
  | assembled (c : CaseRecord) (ms : Int)
  /-- `db_case_insert` of a case. -/
  | inserted (c : CaseRecord)
  /-- The verdict queue was full, and its oldest case was dropped. -/
  | dropped (c : CaseRecord)
  /-- `apply_floor_jailed` read the clock for a case. -/
  | floor (c : CaseRecord) (now : Int)
  /-- `db_case_update_status` on behalf of a case of a source and score. -/
  | statusUpdate (caseId source : String) (score : ℚ) (status : CaseStatus)
  /-- `db_verdict_insert`. -/
  | verdictRow (actor : Actor) (row : VerdictRow)
  /-- `db_consent_insert`. -/
  | queued (req : ConsentRequest)
  /-- `consent_enqueue` made a slot active. -/
  | activated (i : Slot) (req : ConsentRequest)
  /-- `consent_enqueue` found no free slot. -/
  | refused (req : ConsentRequest)
  /-- The reload read no more than the table's size, and left this row out. -/
  | notLoaded (req : ConsentRequest)
  /-- `consent_reply`, with the slot it found. -/
  | reply (caseId : String) (approved : Bool) (target : Option (Slot × ConsentRequest))
  /-- `resolve_entry` was entered. -/
  | resolve (i : Slot) (req : ConsentRequest) (approved : Bool)
  /-- `resolve_entry` returned. -/
  | resolved (i : Slot) (req : ConsentRequest) (approved : Bool)
  /-- `enforce_execute`, with the commands it ran. -/
  | enforce (actor : Actor) (source : String) (verdict : Verdict) (caseId : String) (score : ℚ)
      (cmds : List Cmd)
  /-- The process ended, or was killed, and was started again. -/
  | restart
  deriving DecidableEq

/-! ## Program points -/

/-- Where `cases_assemble` stands. -/
inductive AssemblePc where
  | time
  | caseId (now : Int)
  | insert (c : CaseRecord)
  | dismiss (c : CaseRecord)
  | push (c : CaseRecord)
  deriving DecidableEq

/-- A thread that scores, assembles cases or runs decay ticks. -/
inductive Worker where
  | off
  | idle
  | scoreBegin (r : IngestRecord)
  | scoring (r : IngestRecord) (c : ScorerCall) (pc : ScorerPc)
  | assembling (r : IngestRecord) (result : ScoreResult) (pc : AssemblePc)
  | decayBegin
  | decayTime
  | decaying (now : Int) (pc : DecayPc)
  deriving DecidableEq

/-- Where `verdict_emit` stands. -/
inductive EmitPc where
  | time
  | insert (now : Int)
  | criminal (now : Int)
  | status
  deriving DecidableEq

/-- Where the verdict thread stands. Between `iaCheck` and the return to
`loop` it is inside `verdict_process`. -/
inductive VerdictPc where
  | off
  | loop
  | dequeue
  | iaCheck (c : CaseRecord)
  | suspend (c : CaseRecord)
  | freshTime (c : CaseRecord)
  | freshQuery (c : CaseRecord) (cutoff : Int)
  | cap (c : CaseRecord)
  | floorTime (c : CaseRecord)
  | floorHouseArrest (c : CaseRecord) (since : Int)
  | floorQuarantined (c : CaseRecord) (since : Int) (priorHa : Nat)
  | emit (c : CaseRecord) (verdict : Verdict) (granted : Bool) (pc : EmitPc)
  | enforce (c : CaseRecord)
  | queueTime (c : CaseRecord) (state : ThreatState)
  | consentInsert (req : ConsentRequest)
  | enqueue (req : ConsentRequest)
  deriving DecidableEq

/-- Where the consent thread stands. At `poll` it holds `g_mutex`; from
`remove` to `relock` it is inside `resolve_entry`, without it. -/
inductive ConsentPc where
  | off
  | reloadRead
  | reload (rest : List ConsentRequest)
  | loop
  | poll (now : Int) (i : Nat)
  | remove (now : Int) (i : Slot) (req : ConsentRequest) (approved : Bool)
  | emit (now : Int) (i : Slot) (req : ConsentRequest) (approved : Bool) (pc : EmitPc)
  | enforce (now : Int) (i : Slot) (req : ConsentRequest)
  | relock (now : Int) (i : Slot) (req : ConsentRequest) (approved : Bool)
  deriving DecidableEq

/-- Where `main` stands: the start sequence, the accept loop (`accepting`
is its `select` and `accept`) with what it does for the current client,
and the shutdown sequence. -/
inductive MainPc where
  | startDecay | startIngest | startVerdict | resetPending | startConsent | startScorer
  | serving (w : Worker)
  | accepting
  | replying (caseId : String) (approved : Bool)
  | stopConsent | joinConsent | stopVerdict | stopCases | joinVerdict
  | stopIngest | joinIngest | joinScorer | stopDecay | joinDecay | exited
  deriving DecidableEq

/-! ## The shared state -/

/-- The environment, the database, which both outlive the process, and
the process: its queues and tables, the running flags of its modules, and
its threads. -/
structure Sys where
  env : Env
  db : Db
  ingestQueue : List IngestRecord
  verdictQueue : List CaseRecord
  pending : PendingTable
  stopping : Bool
  ingestAlive : Bool
  ingestRunning : Bool
  casesRunning : Bool
  verdictRunning : Bool
  consentRunning : Bool
  decayRunning : Bool
  main : MainPc
  scorer : Worker
  decay : Worker
  verdict : VerdictPc
  consent : ConsentPc

/-- A process about to start its threads, on a database. -/
def Sys.boot (env : Env) (db : Db) : Sys :=
  { env, db, ingestQueue := [], verdictQueue := [], pending := .clear, stopping := false,
    ingestAlive := false, ingestRunning := false, casesRunning := true, verdictRunning := false,
    consentRunning := false, decayRunning := false,
    main := .startDecay, scorer := .off, decay := .off, verdict := .off, consent := .off }

/-- The consent thread holds `g_mutex`. -/
def Sys.consentLocked (s : Sys) : Bool :=
  match s.consent with
  | .poll _ _ => true
  | _ => false

/-! ## Workers -/

/-- `tier_modifier` opens the sovereignty list after the window query. -/
def ScorerCall.readList (list : SovereigntyList) (c : ScorerCall) : ScorerPc → ScorerCall
  | .distinct _ => { c with list := list }
  | _ => c

/-- One step of `cases_assemble`. -/
def assembleStep (s : Sys) (r : IngestRecord) (result : ScoreResult) :
    AssemblePc → Sys × Worker × List Event
  | .time => (s, .assembling r result (.caseId s.env.time), [])
  | .caseId now =>
      let c := assembled r result now s.env.clock
      (s, .assembling r result (.insert c), [.assembled c s.env.clock])
  | .insert c =>
      ({ s with db := dbCaseInsert s.db c.row },
        .assembling r result (if c.belowThreshold then .dismiss c else .push c), [.inserted c])
  | .dismiss c =>
      ({ s with db := dbCaseUpdateStatus s.db c.caseId (.judged .dismissed) }, .idle,
        [.statusUpdate c.caseId c.source c.score (.judged .dismissed)])
  | .push c =>
      let (queue, old) := queuePush verdictQueueSize s.verdictQueue c
      ({ s with verdictQueue := queue }, .idle, old.toList.map .dropped)

/-- One step of a worker. -/
def workerStep (s : Sys) : Worker → Sys × Worker × List Event
  | .off => (s, .off, [])
  | .idle => (s, .idle, [])
  | .scoreBegin r =>
      (s, .scoring r ⟨r.source, r.signal, r.weight, s.env.time, s.env.sovereignty⟩ .load, [])
  | .scoring r c pc =>
      let c := c.readList s.env.sovereignty pc
      let (db, pc') := scorerStep s.db c pc
      ({ s with db },
        match pc' with
        | .done result => .assembling r result .time
        | pc' => .scoring r c pc', [])
  | .assembling r result pc => assembleStep s r result pc
  | .decayBegin => (s, if s.env.iaLock then .idle else .decayTime, [])
  | .decayTime => (s, .decaying s.env.time .all, [])
  | .decaying now pc =>
      let (db, pc') := decayStep s.db now pc
      ({ s with db },
        match pc' with
        | .done => .idle
        | pc' => .decaying now pc', [])

/-! ## `verdict_emit` -/

/-- One step of `verdict_emit`; `none` when it returns. -/
def emitStep (env : Env) (db : Db) (actor : Actor) (e : Emission) :
    EmitPc → Db × Option EmitPc × List Event
  | .time => (db, some (.insert env.time), [])
  | .insert now =>
      (dbVerdictInsert db (e.row now), some (if e.verdict.contains then .criminal now else .status),
        [.verdictRow actor (e.row now)])
  | .criminal now => (dbCriminalRecordInsert db (e.criminalRow now), some .status, [])
  | .status =>
      (dbCaseUpdateStatus db e.caseId (.judged e.verdict), none,
        [.statusUpdate e.caseId e.source e.score (.judged e.verdict)])

/-! ## The verdict thread -/

/-- Steps 6 to 8 of `verdict_process`: what becomes of a capped state. -/
def route (c : CaseRecord) : ThreatState → VerdictPc
  | .warned => .emit c (.state .warned) true .time
  | .quarantined => .queueTime c .quarantined
  | .houseArrest => .queueTime c .houseArrest
  | .jailed => .queueTime c .jailed
  | .clean | .watched => .emit c .dismissed false .time

/-- `consent_enqueue`: into the first free slot, or refused. -/
def enqueueRequest (s : Sys) (req : ConsentRequest) : Sys × List Event :=
  match freeSlot s.pending with
  | some i => ({ s with pending := consentEnqueue s.pending i req }, [.activated i req])
  | none => (s, [.refused req])

def verdictStep (s : Sys) : Sys × List Event :=
  match s.verdict with
  | .off => (s, [])
  | .loop => ({ s with verdict := if s.verdictRunning then .dequeue else .off }, [])
  | .dequeue =>
      match s.verdictQueue with
      | c :: rest => ({ s with verdictQueue := rest, verdict := .iaCheck c }, [])
      -- the wait inside cases_dequeue ends with a push or with cases_stop
      | [] => ({ s with verdict := if s.casesRunning then .dequeue else .off }, [])
  | .iaCheck c =>
      ({ s with verdict :=
          if s.env.iaLock then .suspend c
          else if tierIsOwnDaemon c.source then .emit c .iaReferral false .time
          else .freshTime c }, [])
  | .suspend c =>
      ({ s with db := dbCaseUpdateStatus s.db c.caseId .suspended, verdict := .loop },
        [.statusUpdate c.caseId c.source c.score .suspended])
  | .freshTime c => ({ s with verdict := .freshQuery c (freshCutoff s.env.time) }, [])
  | .freshQuery c cutoff =>
      ({ s with verdict :=
          if dbSignalActive s.db c.source cutoff then .cap c
          else .emit c .dismissedStale false .time }, [])
  | .cap c =>
      let state := applySovereigntyCap s.env.sovereignty c.source c.state
      -- only JAILED has a floor to pass
      ({ s with verdict := if state = .jailed then .floorTime c else route c state }, [])
  | .floorTime c =>
      ({ s with verdict := .floorHouseArrest c (sessionStart s.env.time) },
        [.floor c s.env.time])
  | .floorHouseArrest c since =>
      let priorHa := dbVerdictCountRecent s.db c.source (.state .houseArrest) since
      ({ s with verdict := .floorQuarantined c since priorHa }, [])
  | .floorQuarantined c since priorHa =>
      let priorQ := dbVerdictCountRecent s.db c.source (.state .quarantined) since
      ({ s with verdict := route c (applyFloorJailed priorHa priorQ) }, [])
  | .emit c verdict granted pc =>
      let (db, pc', es) := emitStep s.env s.db .verdict (c.emission verdict granted) pc
      ({ s with
          db,
          verdict := match pc' with
            | some pc' => .emit c verdict granted pc'
            | none => if verdict = .state .warned then .enforce c else .loop }, es)
  | .enforce c =>
      ({ s with verdict := .loop },
        [.enforce .verdict c.source (.state .warned) c.caseId c.score
          (enforceExecute s.env.sovereignty c.source (.state .warned))])
  | .queueTime c state =>
      ({ s with verdict := .consentInsert (c.request state s.env.time) }, [])
  | .consentInsert req =>
      ({ s with db := dbConsentInsert s.db req, verdict := .enqueue req }, [.queued req])
  | .enqueue req =>
      -- consent_enqueue waits for g_mutex
      if s.consentLocked then (s, [])
      else
        let (s, es) := enqueueRequest s req
        ({ s with verdict := .loop }, es)

/-! ## The consent thread -/

/-- One slot of a poll. A slot with a reply is given up and handed to
`resolve_entry`. -/
def pollSlot (s : Sys) (now : Int) (i : Slot) : Sys × List Event :=
  match s.pending i with
  | none => ({ s with consent := .poll now (i + 1) }, [])
  | some p =>
      match p.reply with
      | none =>
          ({ s with
              pending := Function.update s.pending i (some (p.polled now)),
              consent := .poll now (i + 1) }, [])
      | some approved =>
          ({ s with
              pending := Function.update s.pending i none,
              consent := .remove now i p.req approved }, [.resolve i p.req approved])

def consentStep (s : Sys) : Sys × List Event :=
  match s.consent with
  | .off => (s, [])
  | .reloadRead =>
      let rows := dbConsentPending s.db consentQueueSize
      ({ s with consent := .reload rows },
        (s.db.consentQueue.rows.filter fun r => r ∉ rows).map .notLoaded)
  | .reload [] => ({ s with consent := .loop }, [])
  | .reload (req :: rest) =>
      let (s, es) := enqueueRequest s req
      ({ s with consent := .reload rest }, es)
  | .loop =>
      if ¬ s.consentRunning then ({ s with consent := .off }, [])
      else if (List.finRange consentQueueSize).any fun i => (s.pending i).isSome then
        ({ s with consent := .poll s.env.time 0 }, [])
      else (s, [])
  | .poll now i =>
      if h : i < consentQueueSize then pollSlot s now ⟨i, h⟩
      else ({ s with consent := .loop }, [])
  | .remove now i req approved =>
      ({ s with db := dbConsentRemove s.db req.caseId, consent := .emit now i req approved .time },
        [])
  | .emit now i req approved pc =>
      let (db, pc', es) := emitStep s.env s.db .consent (req.emission approved) pc
      ({ s with
          db,
          consent := match pc' with
            | some pc' => .emit now i req approved pc'
            | none => if approved then .enforce now i req else .relock now i req approved }, es)
  | .enforce now i req =>
      ({ s with consent := .relock now i req true },
        [.enforce .consent req.source req.verdict req.caseId req.score
          (enforceExecute s.env.sovereignty req.source req.verdict)])
  | .relock now i req approved =>
      ({ s with consent := .poll now (i + 1) }, [.resolved i req approved])

end MiuiserPeruser.Gaveld
