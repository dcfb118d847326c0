import Mathlib.Data.Fintype.Basic
import MiuiserPeruser.Gaveld.Moves

/-!
# gaveld — the daemon (`gaveld.c`)

The whole daemon as one step function over labels: a label lets one
thread take a step, hands it a message, or changes the environment.
`restart` ends the process in whatever state it is — after a graceful
shutdown or in the middle of anything — and starts it again on the same
database; it may happen at any time.

`QUERY|STATUS` only reads and answers the client, and is left out here.
-/

namespace MiuiserPeruser.Gaveld

/-- A message on the socket. -/
inductive ClientMsg where
  | signal (r : IngestRecord)
  | queryDecay
  | approve (caseId : String)
  | deny (caseId : String)
  deriving DecidableEq

inductive Label where
  | main | verdict | consent | scorer | decay
  /-- The ingest thread pushes a parsed record. -/
  | ingest (r : IngestRecord)
  /-- `main` accepts a client and reads its message. -/
  | client (m : ClientMsg)
  /-- SIGTERM or SIGINT. -/
  | shutdown
  | restart
  | setClock (ms : Int)
  | setLock (present : Bool)
  | setSovereignty (list : SovereigntyList)
  deriving DecidableEq

/-! ## The main thread -/

/-- What `handle_client` starts for a message. -/
def handleClient : ClientMsg → MainPc
  | .signal r => .serving (.scoreBegin r)
  | .queryDecay => .serving .decayBegin
  | .approve caseId => .replying caseId true
  | .deny caseId => .replying caseId false

/-- `consent_reply`. -/
def replyRequest (s : Sys) (caseId : String) (approved : Bool) : Sys × List Event :=
  let target := (findPending s.pending caseId).bind fun i =>
    (s.pending i).map fun p => (i, p.req)
  match target with
  | some (i, _) =>
      ({ s with pending := consentReply s.pending i approved }, [.reply caseId approved target])
  | none => (s, [.reply caseId approved none])

/-- One step of `main`. The joins wait for their thread to be off; a
`select` without a client times out. The ingest thread has no program
point here: `Gaveld.Blocking` adds it, with the wait of its join. -/
def mainStep (s : Sys) : Sys × List Event :=
  match s.main with
  | .startDecay => ({ s with decayRunning := true, decay := .idle, main := .startIngest }, [])
  | .startIngest =>
      ({ s with ingestRunning := true, ingestAlive := true, main := .startVerdict }, [])
  | .startVerdict =>
      ({ s with verdictRunning := true, verdict := .loop, main := .resetPending }, [])
  | .resetPending => ({ s with pending := .clear, main := .startConsent }, [])
  | .startConsent =>
      ({ s with consentRunning := true, consent := .reloadRead, main := .startScorer }, [])
  | .startScorer => ({ s with scorer := .idle, main := .serving .idle }, [])
  | .serving .idle => ({ s with main := if s.stopping then .stopConsent else .accepting }, [])
  | .accepting => ({ s with main := .serving .idle }, [])
  | .serving w =>
      let (s, w, es) := workerStep s w
      ({ s with main := .serving w }, es)
  | .replying caseId approved =>
      if s.consentLocked then (s, [])
      else
        let (s, es) := replyRequest s caseId approved
        ({ s with main := .serving .idle }, es)
  | .stopConsent =>
      -- consent_stop takes g_mutex to clear the flag
      if s.consentLocked then (s, [])
      else ({ s with consentRunning := false, main := .joinConsent }, [])
  | .joinConsent => ({ s with main := if s.consent = .off then .stopVerdict else .joinConsent }, [])
  | .stopVerdict => ({ s with verdictRunning := false, main := .stopCases }, [])
  | .stopCases => ({ s with casesRunning := false, main := .joinVerdict }, [])
  | .joinVerdict => ({ s with main := if s.verdict = .off then .stopIngest else .joinVerdict }, [])
  | .stopIngest => ({ s with ingestRunning := false, main := .joinIngest }, [])
  | .joinIngest => ({ s with ingestAlive := false, main := .joinScorer }, [])
  | .joinScorer => ({ s with main := if s.scorer = .off then .stopDecay else .joinScorer }, [])
  | .stopDecay => ({ s with decayRunning := false, main := .joinDecay }, [])
  | .joinDecay => ({ s with main := if s.decay = .off then .exited else .joinDecay }, [])
  | .exited => (s, [])

/-! ## The other threads -/

/-- `scorer_thread_fn`: the next record of the ingest queue, or a step of
the work on the last one. -/
def scorerThreadStep (s : Sys) : Sys × List Event :=
  match s.scorer with
  | .idle =>
      match s.ingestQueue with
      | r :: rest =>
          ({ s with ingestQueue := rest, scorer := if r.isQuery then .idle else .scoreBegin r }, [])
      | [] => ({ s with scorer := if s.ingestRunning then .idle else .off }, [])
  | w =>
      let (s, w, es) := workerStep s w
      ({ s with scorer := w }, es)

/-- `decay_thread`; its sleep may end at any time. -/
def decayThreadStep (s : Sys) : Sys × List Event :=
  match s.decay with
  | .idle => ({ s with decay := if s.decayRunning then .decayBegin else .off }, [])
  | w =>
      let (s, w, es) := workerStep s w
      ({ s with decay := w }, es)

/-! ## The daemon -/

def step (s : Sys) : Label → Sys × List Event
  | .main => mainStep s
  | .verdict => verdictStep s
  | .consent => consentStep s
  | .scorer => scorerThreadStep s
  | .decay => decayThreadStep s
  | .ingest r =>
      if s.ingestAlive then
        ({ s with ingestQueue := (queuePush ingestQueueSize s.ingestQueue r).1 }, [])
      else (s, [])
  | .client m =>
      if s.main = .accepting then ({ s with main := handleClient m }, []) else (s, [])
  | .shutdown => ({ s with stopping := true }, [])
  | .restart => (.boot s.env s.db, [.restart])
  | .setClock ms => ({ s with env := { s.env with clock := ms } }, [])
  | .setLock present => ({ s with env := { s.env with iaLock := present } }, [])
  | .setSovereignty list => ({ s with env := { s.env with sovereignty := list } }, [])

/-- The state and the trace of a run, from the first start of the daemon
on an empty database. -/
def runFrom (env : Env) (ls : List Label) : Sys × List Event :=
  Machine.run step (.boot env .empty) ls

/-- The clock does not go back. -/
def ClockForward (s : Sys) : Label → Prop
  | .setClock ms => s.env.clock ≤ ms
  | _ => True

instance (s : Sys) : ∀ l, Decidable (ClockForward s l)
  | .setClock ms => inferInstanceAs (Decidable (s.env.clock ≤ ms))
  | .main | .verdict | .consent | .scorer | .decay | .ingest _ | .client _ | .shutdown | .restart
  | .setLock _ | .setSovereignty _ => isTrue trivial

/-! ## Scripts -/

/-- The start sequence of `main`, to its accept loop. -/
def startUp : List Label := List.replicate 6 .main

/-- `main` accepts a client and serves its signal to the end: the scoring
and the assembly of its case. -/
def submit (r : IngestRecord) : List Label :=
  [.main, .client (.signal r)] ++ List.replicate 11 .main

/-- `main` accepts a client and serves its reply. -/
def answer (m : ClientMsg) : List Label := [.main, .client m, .main]

/-- The daemon starts, and asks the user to quarantine an app. -/
def askQuarantine : List Label :=
  startUp ++ List.replicate 2 .consent ++
    submit ⟨false, "com.example.app", "ROOTKIT_MODULE", 55, ""⟩ ++ List.replicate 9 .verdict

/-- The user approves a case, and the consent thread polls all slots once. -/
def approve (caseId : String) : List Label :=
  answer (.approve caseId) ++ List.replicate 41 .consent

/-! ## Workers -/

/-- The three threads that run workers. -/
inductive Role where
  | socket | scorer | decay
  deriving DecidableEq

instance : Fintype Role := ⟨{.socket, .scorer, .decay}, fun role => by cases role <;> decide⟩

def Role.label : Role → Label
  | .socket => .main
  | .scorer => .scorer
  | .decay => .decay

def Sys.worker (s : Sys) : Role → Worker
  | .socket => match s.main with
    | .serving w => w
    | _ => .off
  | .scorer => s.scorer
  | .decay => s.decay

def Sys.setWorker (s : Sys) (w : Worker) : Role → Sys
  | .socket => { s with main := .serving w }
  | .scorer => { s with scorer := w }
  | .decay => { s with decay := w }

/-- In the middle of a scoring, an assembly or a tick. -/
def Worker.working : Worker → Bool
  | .off | .idle => false
  | _ => true

/-- At the start of a scoring or a tick, or not working: nothing has been
computed yet. -/
def Worker.fresh : Worker → Bool
  | .off | .idle | .scoreBegin _ | .decayBegin => true
  | _ => false

/-- The step of a thread whose worker is working. -/
theorem step_worker {s : Sys} {role : Role} (h : (s.worker role).working = true) :
    step s role.label =
      ((workerStep s (s.worker role)).1.setWorker (workerStep s (s.worker role)).2.1 role,
        (workerStep s (s.worker role)).2.2) := by
  cases role with
  | socket =>
      cases hm : s.main with
      | serving w =>
          simp only [Sys.worker, hm] at h
          cases w with
          | off | idle => cases h
          | scoreBegin | scoring | assembling | decayBegin | decayTime | decaying =>
              simp only [Role.label, step, mainStep, Sys.worker, hm, Sys.setWorker]
      | _ => simp [Sys.worker, hm, Worker.working] at h
  | scorer =>
      cases hw : s.scorer with
      | off | idle => simp [Sys.worker, hw, Worker.working] at h
      | scoreBegin | scoring | assembling | decayBegin | decayTime | decaying =>
          simp only [Role.label, step, scorerThreadStep, Sys.worker, hw, Sys.setWorker]
  | decay =>
      cases hw : s.decay with
      | off | idle => simp [Sys.worker, hw, Worker.working] at h
      | scoreBegin | scoring | assembling | decayBegin | decayTime | decaying =>
          simp only [Role.label, step, decayThreadStep, Sys.worker, hw, Sys.setWorker]

/-! ## What a step leaves alone -/

/-- The judicial side of the state: what the verdict and consent threads
work on. -/
structure Bench where
  verdict : VerdictPc
  consent : ConsentPc
  pending : PendingTable
  verdicts : List VerdictRow
  consentQueue : Sql.Table ConsentRequest ConsentRequest.caseId

def Sys.bench (s : Sys) : Bench :=
  ⟨s.verdict, s.consent, s.pending, s.db.verdicts, s.db.consentQueue⟩

/-- The events of case assembly. -/
def Event.clerical : Event → Bool
  | .assembled _ _ | .inserted _ | .dropped _ | .statusUpdate _ _ _ _ => true
  | _ => false

/-- A worker keeps to scores, the signal window, cases and the verdict queue. -/
theorem workerStep_frame (s : Sys) (w : Worker) :
    (workerStep s w).1 =
      { s with
        db := { s.db with
          threatScores := (workerStep s w).1.db.threatScores,
          signalWindow := (workerStep s w).1.db.signalWindow,
          scoringLog := (workerStep s w).1.db.scoringLog,
          cases := (workerStep s w).1.db.cases },
        verdictQueue := (workerStep s w).1.verdictQueue } ∧
    ∀ e ∈ (workerStep s w).2.2, e.clerical = true := by
  cases w with
  | scoring r c pc => cases pc <;> exact ⟨rfl, by simp [workerStep]⟩
  | assembling r result pc =>
      cases pc with
      | push c =>
          refine ⟨rfl, fun e he => ?_⟩
          obtain ⟨x, -, rfl⟩ := List.mem_map.mp he
          rfl
      | time | caseId | insert | dismiss =>
          exact ⟨rfl, by simp [workerStep, assembleStep, Event.clerical]⟩
  | decaying now pc => cases pc <;> exact ⟨rfl, by simp [workerStep]⟩
  | off | idle | scoreBegin | decayBegin | decayTime => exact ⟨rfl, by simp [workerStep]⟩

/-! ## The start sequence -/

/-- A worker of the decay thread. -/
def Worker.ticking : Worker → Bool
  | .off | .idle | .decayBegin | .decayTime | .decaying _ _ => true
  | _ => false

/-- The verdict thread is not inside `verdict_process`. -/
def VerdictPc.idle : VerdictPc → Bool
  | .off | .loop | .dequeue => true
  | _ => false

/-- The scorer thread and the socket are not up yet: no case can be assembled. -/
def MainPc.starting : MainPc → Bool
  | .startDecay | .startIngest | .startVerdict | .resetPending | .startConsent | .startScorer => true
  | _ => false

/-- Before `consent_start` creates its thread. -/
def MainPc.beforeConsent : MainPc → Bool
  | .startDecay | .startIngest | .startVerdict | .resetPending | .startConsent => true
  | _ => false

/-- What the order of the start sequence guarantees: the threads that
judge are up before the first case can be assembled. -/
structure Orderly (s : Sys) : Prop where
  ticking : s.decay.ticking = true
  decayOff : s.main = .startDecay → s.decay = .off
  quiet : s.main.starting = true → s.scorer = .off ∧ s.verdictQueue = [] ∧ s.verdict.idle = true
  clear : s.main.beforeConsent = true → s.pending = .clear ∧ s.consent = .off

theorem workerStep_ticking {s : Sys} {w : Worker} (h : w.ticking = true) :
    (workerStep s w).2.1.ticking = true ∧
      (workerStep s w).1.verdictQueue = s.verdictQueue ∧
      (workerStep s w).1.db.cases = s.db.cases ∧ (workerStep s w).2.2 = [] := by
  cases w with
  | decaying now pc =>
      cases pc with
      | active row rest =>
          refine ⟨?_, rfl, rfl, rfl⟩
          simp only [workerStep, decayStep]
          split <;> cases rest <;> rfl
      | upsert row rest =>
          refine ⟨?_, rfl, rfl, rfl⟩
          simp only [workerStep, decayStep]
          cases rest <;> rfl
      | all =>
          refine ⟨?_, rfl, rfl, rfl⟩
          simp only [workerStep, decayStep]
          cases dbThreatAll s.db decayMaxRows <;> rfl
      | prune | done => exact ⟨rfl, rfl, rfl, rfl⟩
  | decayBegin =>
      refine ⟨?_, rfl, rfl, rfl⟩
      simp only [workerStep]
      split <;> rfl
  | off | idle | decayTime => exact ⟨rfl, rfl, rfl, rfl⟩
  | scoreBegin | scoring | assembling => cases h

theorem orderly_boot (env : Env) (db : Db) : Orderly (.boot env db) :=
  ⟨rfl, fun _ => rfl, fun _ => ⟨rfl, rfl, rfl⟩, fun _ => ⟨rfl, rfl⟩⟩

theorem starting_of_beforeConsent {pc : MainPc} (h : pc.beforeConsent = true) :
    pc.starting = true := by
  cases pc <;> first | rfl | cases h

theorem orderly_main {s : Sys} (h : Orderly s) : Orderly (mainStep s).1 := by
  unfold mainStep
  cases hm : s.main with
  | serving w =>
      cases w with
      | idle =>
          refine ⟨h.ticking, ?_, ?_, ?_⟩ <;> cases s.stopping <;> intro h <;> cases h
      | off | scoreBegin | scoring | assembling | decayBegin | decayTime | decaying =>
          refine ⟨?_, (fun h => by cases h), (fun h => by cases h), (fun h => by cases h)⟩
          simp only
          rw [(workerStep_frame s _).1]
          exact h.ticking
  | startDecay =>
      have hq := h.quiet (by rw [hm]; rfl)
      have hc := h.clear (by rw [hm]; rfl)
      exact ⟨rfl, (fun h => by cases h), fun _ => hq, fun _ => hc⟩
  | startIngest =>
      have hq := h.quiet (by rw [hm]; rfl)
      have hc := h.clear (by rw [hm]; rfl)
      exact ⟨h.ticking, (fun h => by cases h), fun _ => hq, fun _ => hc⟩
  | startVerdict =>
      have hq := h.quiet (by rw [hm]; rfl)
      have hc := h.clear (by rw [hm]; rfl)
      exact ⟨h.ticking, (fun h => by cases h), fun _ => ⟨hq.1, hq.2.1, rfl⟩, fun _ => hc⟩
  | resetPending =>
      have hq := h.quiet (by rw [hm]; rfl)
      have hc := h.clear (by rw [hm]; rfl)
      exact ⟨h.ticking, (fun h => by cases h), fun _ => hq, fun _ => ⟨rfl, hc.2⟩⟩
  | startConsent =>
      have hq := h.quiet (by rw [hm]; rfl)
      exact ⟨h.ticking, (fun h => by cases h), fun _ => hq, (fun h => by cases h)⟩
  | replying caseId approved =>
      simp only
      split
      · exact h
      · simp only [replyRequest]
        split <;>
          exact ⟨h.ticking, (fun h => by cases h), (fun h => by cases h), (fun h => by cases h)⟩
  | stopConsent =>
      simp only
      split
      · exact h
      · exact ⟨h.ticking, (fun h => by cases h), (fun h => by cases h), (fun h => by cases h)⟩
  | joinConsent | joinVerdict | joinScorer | joinDecay =>
      refine ⟨h.ticking, ?_, ?_, ?_⟩ <;> simp only <;> split <;> intro h <;> cases h
  | startScorer | accepting | stopVerdict | stopCases | stopIngest | joinIngest | stopDecay =>
      exact ⟨h.ticking, (fun h => by cases h), (fun h => by cases h), (fun h => by cases h)⟩
  | exited => exact h

theorem verdictStep_frame (s : Sys) :
    (verdictStep s).1 =
      { s with
        db := (verdictStep s).1.db,
        verdictQueue := (verdictStep s).1.verdictQueue,
        pending := (verdictStep s).1.pending,
        verdict := (verdictStep s).1.verdict } :=
  (verdictStep_move s).frame

/-- With nothing in the queue and no case in hand, the verdict thread idles. -/
theorem VerdictMove.idle {s s' : Sys} {pc : VerdictPc} {es : List Event}
    (m : VerdictMove s pc s' es) (hqueue : s.verdictQueue = []) (hidle : pc.idle = true) :
    s'.verdictQueue = [] ∧ s'.verdict.idle = true ∧ s'.pending = s.pending := by
  cases m with
  | off | stop | listen | wait | closed => exact ⟨hqueue, rfl, rfl⟩
  | take hq =>
      rw [hqueue] at hq
      cases hq
  | _ => cases hidle

theorem orderly_verdict {s : Sys} (h : Orderly s) : Orderly (verdictStep s).1 := by
  have hframe := verdictStep_frame s
  have hmain : (verdictStep s).1.main = s.main := by rw [hframe]
  have hdecay : (verdictStep s).1.decay = s.decay := by rw [hframe]
  have hscorer : (verdictStep s).1.scorer = s.scorer := by rw [hframe]
  have hconsent : (verdictStep s).1.consent = s.consent := by rw [hframe]
  have still : s.main.starting = true → (verdictStep s).1.verdictQueue = [] ∧
      (verdictStep s).1.verdict.idle = true ∧ (verdictStep s).1.pending = s.pending := by
    intro hst
    obtain ⟨-, hqueue, hidle⟩ := h.quiet hst
    exact (verdictStep_move s).idle hqueue hidle
  refine ⟨hdecay ▸ h.ticking, fun hm => ?_, fun hst => ?_, fun hb => ?_⟩
  · rw [hdecay]
    exact h.decayOff (hmain ▸ hm)
  · rw [hmain] at hst
    exact ⟨hscorer ▸ (h.quiet hst).1, (still hst).1, (still hst).2.1⟩
  · rw [hmain] at hb
    rw [(still (starting_of_beforeConsent hb)).2.2, hconsent]
    exact h.clear hb

theorem consentStep_frame (s : Sys) :
    (consentStep s).1 =
      { s with
        db := (consentStep s).1.db,
        pending := (consentStep s).1.pending,
        consent := (consentStep s).1.consent } :=
  (consentStep_move s).frame

theorem consentStep_off {s : Sys} (h : s.consent = .off) : consentStep s = (s, []) := by
  simp only [consentStep, h]

theorem orderly_scorer {s : Sys} (h : Orderly s) : Orderly (scorerThreadStep s).1 := by
  unfold scorerThreadStep
  cases hw : s.scorer with
  | off => simpa only [workerStep, ← hw] using h
  | idle =>
      -- the thread is up, so the start sequence is over
      have hst : s.main.starting ≠ true := fun hst => by
        rw [(h.quiet hst).1] at hw
        cases hw
      cases s.ingestQueue with
      | nil | cons =>
          exact ⟨h.ticking, h.decayOff, fun hb => absurd hb hst,
            fun hb => absurd (starting_of_beforeConsent hb) hst⟩
  | scoreBegin | scoring | assembling | decayBegin | decayTime | decaying =>
      have hst : s.main.starting ≠ true := fun hst => by
        rw [(h.quiet hst).1] at hw
        cases hw
      simp only
      rw [(workerStep_frame s _).1]
      exact ⟨h.ticking, h.decayOff, fun hb => absurd hb hst,
        fun hb => absurd (starting_of_beforeConsent hb) hst⟩

theorem orderly_decay {s : Sys} (h : Orderly s) : Orderly (decayThreadStep s).1 := by
  have ht := h.ticking
  unfold decayThreadStep
  cases hw : s.decay with
  | idle =>
      refine ⟨?_, fun hm => ?_, h.quiet, h.clear⟩
      · simp only
        split <;> rfl
      · rw [h.decayOff hm] at hw
        cases hw
  | off | scoreBegin | scoring | assembling | decayBegin | decayTime | decaying =>
      rw [hw] at ht
      -- a tick leaves the verdict queue alone, also during the start sequence
      obtain ⟨htick, hqueue, -, -⟩ := workerStep_ticking (s := s) ht
      refine ⟨htick, ?_, ?_, ?_⟩
      all_goals
        simp only
        rw [(workerStep_frame s _).1, hqueue]
      · intro hm
        have hoff := (h.decayOff hm).symm.trans hw
        first | rfl | cases hoff
      · exact h.quiet
      · exact h.clear

theorem orderly_step (s : Sys) (l : Label) (h : Orderly s) : Orderly (step s l).1 := by
  cases l with
  | main => exact orderly_main h
  | verdict => exact orderly_verdict h
  | consent =>
      by_cases hc : s.consent = .off
      · simpa only [step, consentStep_off hc] using h
      · simp only [step]
        rw [consentStep_frame s]
        exact ⟨h.ticking, h.decayOff, h.quiet, fun hb => absurd (h.clear hb).2 hc⟩
  | scorer => exact orderly_scorer h
  | decay => exact orderly_decay h
  | ingest r =>
      simp only [step]
      split <;> exact ⟨h.ticking, h.decayOff, h.quiet, h.clear⟩
  | client m =>
      simp only [step]
      split
      · cases m <;>
          exact ⟨h.ticking, (fun h => by cases h), (fun h => by cases h), (fun h => by cases h)⟩
      · exact h
  | restart => exact orderly_boot s.env s.db
  | shutdown | setClock | setLock | setSovereignty =>
      exact ⟨h.ticking, h.decayOff, h.quiet, h.clear⟩

/-! ## The environment -/

/-- What a label makes of the environment; the daemon only reads it. -/
def envAfter (env : Env) : Label → Env
  | .setClock ms => { env with clock := ms }
  | .setLock present => { env with iaLock := present }
  | .setSovereignty list => { env with sovereignty := list }
  | _ => env

theorem replyRequest_frame (s : Sys) (caseId : String) (approved : Bool) :
    (replyRequest s caseId approved).1 =
      { s with pending := (replyRequest s caseId approved).1.pending } := by
  simp only [replyRequest]
  split <;> rfl

theorem mainStep_env (s : Sys) : (mainStep s).1.env = s.env := by
  unfold mainStep
  cases s.main with
  | serving w =>
      cases w with
      | idle => rfl
      | off | scoreBegin | scoring | assembling | decayBegin | decayTime | decaying =>
          simp only
          rw [(workerStep_frame s _).1]
  | replying caseId approved =>
      simp only
      split
      · rfl
      · simp only
        rw [replyRequest_frame]
  | stopConsent =>
      simp only
      split <;> rfl
  | _ => rfl

theorem step_env (s : Sys) (l : Label) : (step s l).1.env = envAfter s.env l := by
  cases l with
  | main => exact mainStep_env s
  | verdict =>
      simp only [step]
      rw [verdictStep_frame]
      rfl
  | consent =>
      simp only [step]
      rw [consentStep_frame]
      rfl
  | scorer =>
      simp only [step, scorerThreadStep]
      cases s.scorer with
      | idle => cases s.ingestQueue <;> rfl
      | off | scoreBegin | scoring | assembling | decayBegin | decayTime | decaying =>
          simp only
          rw [(workerStep_frame s _).1]
          rfl
  | decay =>
      simp only [step, decayThreadStep]
      cases s.decay with
      | idle => rfl
      | off | scoreBegin | scoring | assembling | decayBegin | decayTime | decaying =>
          simp only
          rw [(workerStep_frame s _).1]
          rfl
  | ingest r =>
      simp only [step]
      split <;> rfl
  | client m =>
      simp only [step]
      split <;> rfl
  | shutdown | restart | setClock | setLock | setSovereignty => rfl

/-! ## The kinds of steps -/

/-- The labels that can reach the judicial side. -/
inductive Judicial (s : Sys) : Label → Prop where
  | verdict : Judicial s .verdict
  | consent : Judicial s .consent
  | restart : Judicial s .restart
  | startVerdict : s.main = .startVerdict → Judicial s .main
  | resetPending : s.main = .resetPending → Judicial s .main
  | startConsent : s.main = .startConsent → Judicial s .main
  | replying {caseId : String} {approved : Bool} :
      s.main = .replying caseId approved → s.consentLocked = false → Judicial s .main

theorem step_startVerdict {s : Sys} (hm : s.main = .startVerdict) :
    step s .main =
      ({ s with verdictRunning := true, verdict := .loop, main := .resetPending }, []) := by
  simp only [step, mainStep, hm]

theorem step_resetPending {s : Sys} (hm : s.main = .resetPending) :
    step s .main = ({ s with pending := .clear, main := .startConsent }, []) := by
  simp only [step, mainStep, hm]

theorem step_startConsent {s : Sys} (hm : s.main = .startConsent) :
    step s .main =
      ({ s with consentRunning := true, consent := .reloadRead, main := .startScorer }, []) := by
  simp only [step, mainStep, hm]

theorem step_replying {s : Sys} {caseId : String} {approved : Bool}
    (hm : s.main = .replying caseId approved) (hl : s.consentLocked = false) :
    step s .main =
      ({ (replyRequest s caseId approved).1 with main := .serving .idle },
        (replyRequest s caseId approved).2) := by
  simp only [step, mainStep, hm, hl, Bool.false_eq_true, if_false]

/-- A step that moves neither a working worker nor the judicial side: the
start and stop sequences, waiting, and changes of the environment. -/
structure Idle (s : Sys) (r : Sys × List Event) : Prop where
  bench : r.1.bench = s.bench
  db : r.1.db = s.db
  queue : r.1.verdictQueue = s.verdictQueue
  silent : r.2 = []
  workers : ∀ role, r.1.worker role = s.worker role ∨
    (s.worker role).working = false ∧ (r.1.worker role).fresh = true

theorem Idle.refl (s : Sys) : Idle s (s, []) := ⟨rfl, rfl, rfl, rfl, fun _ => .inl rfl⟩

/-- Steps of `main` outside the workers and the judicial side. -/
theorem idle_main {s : Sys} (ho : Orderly s) (hw : (s.worker .socket).working = false)
    (hj : ¬ Judicial s .main) : Idle s (mainStep s) := by
  have keep : ∀ r : Sys, r.bench = s.bench → r.db = s.db → r.verdictQueue = s.verdictQueue →
      r.scorer = s.scorer → r.decay = s.decay → (r.worker .socket).fresh = true →
      Idle s (r, []) := by
    intro r hb hd hq hs hdec hf
    refine ⟨hb, hd, hq, rfl, fun role => ?_⟩
    cases role with
    | socket => exact .inr ⟨hw, hf⟩
    | scorer => exact .inl hs
    | decay => exact .inl hdec
  unfold mainStep
  cases hm : s.main with
  | startVerdict => exact absurd (.startVerdict hm) hj
  | resetPending => exact absurd (.resetPending hm) hj
  | startConsent => exact absurd (.startConsent hm) hj
  | replying caseId approved =>
      cases hl : s.consentLocked with
      | true => exact Idle.refl s
      | false => exact absurd (.replying hm hl) hj
  | serving w =>
      cases w with
      | idle => exact keep _ rfl rfl rfl rfl rfl (by cases s.stopping <;> rfl)
      | off => exact keep _ rfl rfl rfl rfl rfl rfl
      | scoreBegin | scoring | assembling | decayBegin | decayTime | decaying =>
          simp [Sys.worker, hm, Worker.working] at hw
  | startDecay =>
      refine ⟨rfl, rfl, rfl, rfl, fun role => ?_⟩
      cases role with
      | socket => exact .inr ⟨hw, rfl⟩
      | scorer => exact .inl rfl
      | decay => exact .inr ⟨by rw [Sys.worker, ho.decayOff hm]; rfl, rfl⟩
  | startScorer =>
      refine ⟨rfl, rfl, rfl, rfl, fun role => ?_⟩
      cases role with
      | socket => exact .inr ⟨hw, rfl⟩
      | scorer => exact .inr ⟨by rw [Sys.worker, (ho.quiet (by rw [hm]; rfl)).1]; rfl, rfl⟩
      | decay => exact .inl rfl
  | stopConsent =>
      simp only
      split
      · exact Idle.refl s
      · exact keep _ rfl rfl rfl rfl rfl rfl
  | joinConsent =>
      refine keep _ rfl rfl rfl rfl rfl ?_
      by_cases hoff : s.consent = .off <;> simp [Sys.worker, hoff, Worker.fresh]
  | joinVerdict =>
      refine keep _ rfl rfl rfl rfl rfl ?_
      by_cases hoff : s.verdict = .off <;> simp [Sys.worker, hoff, Worker.fresh]
  | joinScorer =>
      refine keep _ rfl rfl rfl rfl rfl ?_
      by_cases hoff : s.scorer = .off <;> simp [Sys.worker, hoff, Worker.fresh]
  | joinDecay =>
      refine keep _ rfl rfl rfl rfl rfl ?_
      by_cases hoff : s.decay = .off <;> simp [Sys.worker, hoff, Worker.fresh]
  | startIngest | accepting | stopVerdict | stopCases | stopIngest | joinIngest | stopDecay =>
      exact keep _ rfl rfl rfl rfl rfl rfl
  | exited => exact Idle.refl s

/-- The scorer thread between two records. -/
theorem idle_scorer {s : Sys} (hw : (s.worker .scorer).working = false) :
    Idle s (scorerThreadStep s) := by
  unfold scorerThreadStep
  cases hs : s.scorer with
  | idle =>
      cases s.ingestQueue with
      | nil | cons =>
          refine ⟨rfl, rfl, rfl, rfl, fun role => ?_⟩
          cases role with
          | scorer => exact .inr ⟨hw, by simp only [Sys.worker]; split <;> rfl⟩
          | socket | decay => exact .inl rfl
  | off => simpa only [workerStep, ← hs] using Idle.refl s
  | scoreBegin | scoring | assembling | decayBegin | decayTime | decaying =>
      simp [Sys.worker, hs, Worker.working] at hw

/-- The decay thread between two ticks. -/
theorem idle_decay {s : Sys} (hw : (s.worker .decay).working = false) :
    Idle s (decayThreadStep s) := by
  unfold decayThreadStep
  cases hs : s.decay with
  | idle =>
      refine ⟨rfl, rfl, rfl, rfl, fun role => ?_⟩
      cases role with
      | decay => exact .inr ⟨hw, by simp only [Sys.worker]; split <;> rfl⟩
      | socket | scorer => exact .inl rfl
  | off => simpa only [workerStep, ← hs] using Idle.refl s
  | scoreBegin | scoring | assembling | decayBegin | decayTime | decaying =>
      simp [Sys.worker, hs, Worker.working] at hw

/-- Every step is one of these three kinds. -/
theorem step_kind {s : Sys} (ho : Orderly s) (l : Label) :
    (∃ role : Role, l = role.label ∧ (s.worker role).working = true) ∨ Judicial s l ∨
      Idle s (step s l) := by
  cases l with
  | verdict => exact .inr (.inl .verdict)
  | consent => exact .inr (.inl .consent)
  | restart => exact .inr (.inl .restart)
  | main =>
      by_cases hw : (s.worker .socket).working = true
      · exact .inl ⟨.socket, rfl, hw⟩
      · by_cases hj : Judicial s .main
        · exact .inr (.inl hj)
        · exact .inr (.inr (idle_main ho (by simpa using hw) hj))
  | scorer =>
      by_cases hw : (s.worker .scorer).working = true
      · exact .inl ⟨.scorer, rfl, hw⟩
      · exact .inr (.inr (idle_scorer (by simpa using hw)))
  | decay =>
      by_cases hw : (s.worker .decay).working = true
      · exact .inl ⟨.decay, rfl, hw⟩
      · exact .inr (.inr (idle_decay (by simpa using hw)))
  | ingest r =>
      refine .inr (.inr ?_)
      simp only [step]
      split
      · exact ⟨rfl, rfl, rfl, rfl, fun role => by cases role <;> exact .inl rfl⟩
      · exact Idle.refl s
  | client m =>
      refine .inr (.inr ?_)
      simp only [step]
      split
      · rename_i hm
        refine ⟨rfl, rfl, rfl, rfl, fun role => ?_⟩
        cases role with
        | socket => exact .inr ⟨by simp [Sys.worker, hm, Worker.working], by cases m <;> rfl⟩
        | scorer | decay => exact .inl rfl
      · exact Idle.refl s
  | shutdown | setClock | setLock | setSovereignty =>
      exact .inr (.inr ⟨rfl, rfl, rfl, rfl, fun role => by cases role <;> exact .inl rfl⟩)

/-- The worker that moves, and what it leaves alone. -/
theorem step_worker_frame {s : Sys} {role : Role} (h : (s.worker role).working = true) :
    (step s role.label).1.bench = s.bench ∧ (∀ e ∈ (step s role.label).2, e.clerical = true) ∧
      ∀ other, other ≠ role → (step s role.label).1.worker other = s.worker other := by
  obtain ⟨hframe, hev⟩ := workerStep_frame s (s.worker role)
  rw [step_worker h]
  refine ⟨?_, hev, fun other hne => ?_⟩
  · rw [hframe]
    cases role <;> rfl
  · rw [hframe]
    cases role <;> cases other <;> first | rfl | exact absurd rfl hne

/-- A step outside the judicial labels leaves the judicial side alone and
reports only case assembly. -/
theorem step_bench {s : Sys} (ho : Orderly s) {l : Label} (hj : ¬ Judicial s l) :
    (step s l).1.bench = s.bench ∧ ∀ e ∈ (step s l).2, e.clerical = true := by
  rcases step_kind ho l with ⟨role, rfl, hw⟩ | h | h
  · exact ⟨(step_worker_frame hw).1, (step_worker_frame hw).2.1⟩
  · exact absurd h hj
  · exact ⟨h.bench, by simp [h.silent]⟩

theorem setWorker_db (s : Sys) (w : Worker) (role : Role) : (s.setWorker w role).db = s.db := by
  cases role <;> rfl

theorem setWorker_worker (s : Sys) (w : Worker) (role : Role) :
    (s.setWorker w role).worker role = w := by
  cases role <;> rfl

/-- What a step does to a worker: nothing, start it afresh where it was not
working or was killed, or let it take its own step. -/
theorem step_worker_cases {s : Sys} (ho : Orderly s) (l : Label) (role : Role) :
    (step s l).1.worker role = s.worker role ∨
      (l = .restart ∨ (s.worker role).working = false) ∧
        ((step s l).1.worker role).fresh = true ∨
      l = role.label ∧ (s.worker role).working = true ∧
        (step s l).1.worker role = (workerStep s (s.worker role)).2.1 := by
  have started : ∀ s' : Sys, s'.scorer = s.scorer → s'.decay = s.decay →
      (s.worker .socket).working = false → (s'.worker .socket).fresh = true →
      s'.worker role = s.worker role ∨
        (l = .restart ∨ (s.worker role).working = false) ∧ (s'.worker role).fresh = true := by
    intro s' hscorer hdecay hidle hfresh
    cases role with
    | socket => exact .inr ⟨.inr hidle, hfresh⟩
    | scorer => exact .inl hscorer
    | decay => exact .inl hdecay
  rcases step_kind ho l with ⟨role', rfl, hw⟩ | hj | hi
  · by_cases hrole : role = role'
    · subst hrole
      refine .inr (.inr ⟨rfl, hw, ?_⟩)
      rw [step_worker hw, setWorker_worker]
    · exact .inl ((step_worker_frame hw).2.2 role hrole)
  · cases hj with
    | verdict =>
        refine .inl ?_
        simp only [step]
        rw [verdictStep_frame]
        cases role <;> rfl
    | consent =>
        refine .inl ?_
        simp only [step]
        rw [consentStep_frame]
        cases role <;> rfl
    | restart => exact .inr (.inl ⟨.inl rfl, by cases role <;> rfl⟩)
    | startVerdict hm | resetPending hm | startConsent hm =>
        simp only [step, mainStep, hm]
        rw [or_assoc.symm]
        exact .inl (started _ rfl rfl (by simp [Sys.worker, hm, Worker.working]) rfl)
    | replying hm hl =>
        rw [step_replying hm hl]
        rw [replyRequest_frame, or_assoc.symm]
        exact .inl (started _ rfl rfl (by simp [Sys.worker, hm, Worker.working]) rfl)
  · exact (hi.workers role).imp_right fun h => .inl ⟨.inr h.1, h.2⟩

/-- What holds where the verdict thread is idle and is kept by its own
steps is kept by every step. -/
theorem step_verdict_pc {V : VerdictPc → Prop} {s : Sys} (ho : Orderly s) (l : Label)
    (idle : ∀ pc : VerdictPc, pc.idle = true → V pc) (h : V s.verdict)
    (hv : l = .verdict → V (verdictStep s).1.verdict) : V (step s l).1.verdict := by
  by_cases hj : Judicial s l
  · cases hj with
    | verdict => exact hv rfl
    | consent =>
        simp only [step]
        rw [consentStep_frame]
        exact h
    | restart => exact idle _ rfl
    | startVerdict hm =>
        rw [step_startVerdict hm]
        exact idle _ rfl
    | resetPending hm | startConsent hm =>
        simp only [step, mainStep, hm]
        exact h
    | replying hm hl =>
        rw [step_replying hm hl]
        rw [replyRequest_frame]
        exact h
  · have hb : (step s l).1.verdict = s.verdict := congrArg Bench.verdict (step_bench ho hj).1
    rw [hb]
    exact h

/-- What a step does to the consent thread. -/
theorem step_consent_cases {s : Sys} (ho : Orderly s) (l : Label) :
    (step s l).1.consent = s.consent ∨
      l = .consent ∧ (step s l).1.consent = (consentStep s).1.consent ∨
      l = .main ∧ s.main = .startConsent ∧ (step s l).1.consent = .reloadRead ∨
      l = .restart ∧ (step s l).1.consent = .off := by
  by_cases hj : Judicial s l
  · cases hj with
    | verdict =>
        refine .inl ?_
        simp only [step]
        rw [verdictStep_frame]
    | consent => exact .inr (.inl ⟨rfl, rfl⟩)
    | restart => exact .inr (.inr (.inr ⟨rfl, rfl⟩))
    | startVerdict hm | resetPending hm => exact .inl (by simp only [step, mainStep, hm])
    | startConsent hm => exact .inr (.inr (.inl ⟨rfl, hm, by rw [step_startConsent hm]⟩))
    | replying hm hl =>
        refine .inl ?_
        rw [step_replying hm hl]
        rw [replyRequest_frame]
  · exact .inl (congrArg Bench.consent (step_bench ho hj).1)

/-- The start sequence leads to `consent_start` and does not come back. -/
theorem step_beforeConsent (s : Sys) {l : Label} (hl : l ≠ .restart) :
    (step s l).1.main.beforeConsent = s.main.beforeConsent ∨ l = .main ∧ s.main = .startConsent := by
  cases l with
  | main =>
      unfold step mainStep
      cases hm : s.main with
      | startConsent => exact .inr ⟨rfl, rfl⟩
      | serving w =>
          refine .inl ?_
          cases w with
          | idle => cases s.stopping <;> rfl
          | off | scoreBegin | scoring | assembling | decayBegin | decayTime | decaying => rfl
      | replying caseId approved =>
          refine .inl ?_
          simp only
          split
          · rw [hm]
          · rfl
      | stopConsent =>
          refine .inl ?_
          simp only
          split
          · rw [hm]
          · rfl
      | joinConsent | joinVerdict | joinScorer | joinDecay =>
          refine .inl ?_
          simp only
          split <;> rfl
      | exited => exact .inl (by rw [hm])
      | startDecay | startIngest | startVerdict | resetPending | startScorer | accepting
      | stopVerdict | stopCases | stopIngest | joinIngest | stopDecay => exact .inl rfl
  | verdict =>
      refine .inl ?_
      simp only [step]
      rw [verdictStep_frame]
  | consent =>
      refine .inl ?_
      simp only [step]
      rw [consentStep_frame]
  | scorer =>
      refine .inl ?_
      simp only [step, scorerThreadStep]
      cases s.scorer with
      | idle => cases s.ingestQueue <;> rfl
      | off | scoreBegin | scoring | assembling | decayBegin | decayTime | decaying =>
          simp only
          rw [(workerStep_frame s _).1]
  | decay =>
      refine .inl ?_
      simp only [step, decayThreadStep]
      cases s.decay with
      | idle => rfl
      | off | scoreBegin | scoring | assembling | decayBegin | decayTime | decaying =>
          simp only
          rw [(workerStep_frame s _).1]
  | ingest r =>
      refine .inl ?_
      simp only [step]
      split <;> rfl
  | client m =>
      refine .inl ?_
      simp only [step]
      split
      · rename_i hm
        rw [hm]
        cases m <;> rfl
      · rfl
  | restart => exact absurd rfl hl
  | shutdown | setClock | setLock | setSovereignty => exact .inl rfl

end MiuiserPeruser.Gaveld
