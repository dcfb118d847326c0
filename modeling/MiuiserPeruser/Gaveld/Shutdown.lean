import Mathlib.Data.Prod.Lex
import MiuiserPeruser.Gaveld.System

/-!
# gaveld — the shutdown sequence (`main`, `*_stop`)

`main` stops its threads in the reverse order of their start, and waits
for each: `consent_stop` for `g_mutex` first. The order matters. The
verdict thread may wait for `g_mutex`, which the consent thread holds
while it polls, and it is joined after the consent thread is gone; the
scorer thread drains its queue before it ends. What `main` waits for from
outside the daemon is in `Gaveld.Blocking`.

`Winding` says which flags are down and which threads are gone at each
point of `main`. Over it, `choose` names the thread `main` is waiting
for, and `rank` is lowered by a step of that thread.
-/

namespace MiuiserPeruser.Gaveld

/-- A step of one of the daemon's own threads: no message arrives, and the
clock, the lock file and the list stay as they are. -/
def Label.ofThread : Label → Bool
  | .main | .verdict | .consent | .scorer | .decay => true
  | _ => false

/-! ## What is down at each point of the shutdown -/

/-- How far `main` has come in its shutdown sequence. -/
def MainPc.stage : MainPc → Nat
  | .joinConsent => 1
  | .stopVerdict => 2
  | .stopCases => 3
  | .joinVerdict => 4
  | .stopIngest => 5
  | .joinIngest => 6
  | .joinScorer => 7
  | .stopDecay => 8
  | .joinDecay => 9
  | .exited => 10
  | _ => 0

structure Winding (s : Sys) : Prop where
  served : s.main ≠ .serving .off
  consentRunning : 1 ≤ s.main.stage → s.consentRunning = false
  consent : 2 ≤ s.main.stage → s.consent = .off
  verdictRunning : 3 ≤ s.main.stage → s.verdictRunning = false
  casesRunning : 4 ≤ s.main.stage → s.casesRunning = false
  verdict : 5 ≤ s.main.stage → s.verdict = .off
  ingestRunning : 6 ≤ s.main.stage → s.ingestRunning = false
  ingestAlive : 7 ≤ s.main.stage → s.ingestAlive = false
  scorer : 8 ≤ s.main.stage → s.scorer = .off
  decayRunning : 9 ≤ s.main.stage → s.decayRunning = false
  decay : 10 ≤ s.main.stage → s.decay = .off

theorem winding_boot (env : Env) (db : Db) : Winding (.boot env db) := by
  constructor <;> simp [Sys.boot, MainPc.stage]

/-- Before the shutdown sequence there is nothing to say. -/
theorem Winding.of_stage_zero {s : Sys} (hserved : s.main ≠ .serving .off)
    (h : s.main.stage = 0) : Winding s := by
  constructor <;> first | exact hserved | (intro hle; omega)

/-- A worker never turns itself off. -/
theorem workerStep_ne_off {s : Sys} {w : Worker} (h : w ≠ .off) : (workerStep s w).2.1 ≠ .off := by
  cases w with
  | off => exact absurd rfl h
  | scoring r c pc =>
      simp only [workerStep]
      split <;> simp
  | assembling r result pc => cases pc <;> simp [workerStep, assembleStep]
  | decayBegin =>
      simp only [workerStep]
      split <;> simp
  | decaying now pc =>
      simp only [workerStep]
      split <;> simp
  | idle | scoreBegin | decayTime => simp [workerStep]

theorem winding_main {s : Sys} (h : Winding s) : Winding (mainStep s).1 := by
  cases hm : s.main with
  | serving w =>
      cases w with
      | off => exact absurd hm h.served
      | idle =>
          refine .of_stage_zero ?_ ?_ <;> simp only [mainStep, hm] <;> split <;> simp [MainPc.stage]
      | scoreBegin | scoring | assembling | decayBegin | decayTime | decaying =>
          have hworking : (s.worker .socket).working = true := by
            simp only [Sys.worker, hm, Worker.working]
          have hstep := step_worker hworking
          simp only [Role.label, step, Sys.worker, hm] at hstep
          rw [hstep]
          refine .of_stage_zero (fun hoff => ?_) rfl
          exact workerStep_ne_off (by simp) (MainPc.serving.inj hoff)
  | replying caseId approved =>
      simp only [mainStep, hm]
      split
      · exact h
      · exact .of_stage_zero (by simp) rfl
  | stopConsent =>
      simp only [mainStep, hm]
      split
      · exact h
      · constructor <;> simp [MainPc.stage]
  | startDecay | startIngest | startVerdict | resetPending | startConsent | startScorer
  | accepting =>
      exact .of_stage_zero (by simp [mainStep, hm]) (by simp [mainStep, hm, MainPc.stage])
  | joinConsent | joinVerdict | joinScorer | joinDecay =>
      -- the join passes on that its thread is off
      obtain ⟨-, h1, h2, h3, h4, h5, h6, h7, h8, h9, h10⟩ := h
      simp only [hm, MainPc.stage] at h1 h2 h3 h4 h5 h6 h7 h8 h9 h10
      simp only [mainStep, hm]
      split <;> constructor <;> simp_all [MainPc.stage]
  | stopVerdict | stopCases | stopIngest | joinIngest | stopDecay | exited =>
      obtain ⟨-, h1, h2, h3, h4, h5, h6, h7, h8, h9, h10⟩ := h
      simp only [hm, MainPc.stage] at h1 h2 h3 h4 h5 h6 h7 h8 h9 h10
      constructor <;> simp_all [mainStep, MainPc.stage]

/-- A step of another thread: it leaves `main` and the flags alone, and a
thread that is off stays off. -/
theorem Winding.aside {s s' : Sys} (h : Winding s) (hmain : s'.main = s.main)
    (hconsentRunning : s'.consentRunning = s.consentRunning)
    (hverdictRunning : s'.verdictRunning = s.verdictRunning)
    (hcasesRunning : s'.casesRunning = s.casesRunning)
    (hingestRunning : s'.ingestRunning = s.ingestRunning)
    (hingestAlive : s'.ingestAlive = s.ingestAlive)
    (hdecayRunning : s'.decayRunning = s.decayRunning)
    (hconsent : s.consent = .off → s'.consent = .off)
    (hverdict : s.verdict = .off → s'.verdict = .off)
    (hscorer : s.scorer = .off → s'.scorer = .off)
    (hdecay : s.decay = .off → s'.decay = .off) : Winding s' where
  served := hmain ▸ h.served
  consentRunning := by rw [hmain, hconsentRunning]; exact h.consentRunning
  consent := by rw [hmain]; exact fun hle => hconsent (h.consent hle)
  verdictRunning := by rw [hmain, hverdictRunning]; exact h.verdictRunning
  casesRunning := by rw [hmain, hcasesRunning]; exact h.casesRunning
  verdict := by rw [hmain]; exact fun hle => hverdict (h.verdict hle)
  ingestRunning := by rw [hmain, hingestRunning]; exact h.ingestRunning
  ingestAlive := by rw [hmain, hingestAlive]; exact h.ingestAlive
  scorer := by rw [hmain]; exact fun hle => hscorer (h.scorer hle)
  decayRunning := by rw [hmain, hdecayRunning]; exact h.decayRunning
  decay := by rw [hmain]; exact fun hle => hdecay (h.decay hle)

theorem winding_verdict {s : Sys} (h : Winding s) : Winding (verdictStep s).1 := by
  have hoff : s.verdict = .off → (verdictStep s).1.verdict = .off := by
    intro hoff
    simp only [verdictStep, hoff]
  refine h.aside ?_ ?_ ?_ ?_ ?_ ?_ ?_ ?_ hoff ?_ ?_ <;> rw [verdictStep_frame s] <;> exact id

theorem winding_consent {s : Sys} (h : Winding s) : Winding (consentStep s).1 := by
  have hoff : s.consent = .off → (consentStep s).1.consent = .off := by
    intro hoff
    rw [consentStep_off hoff, hoff]
  refine h.aside ?_ ?_ ?_ ?_ ?_ ?_ ?_ hoff ?_ ?_ ?_ <;> rw [consentStep_frame s] <;> exact id

/-- What a step of the scorer thread leaves alone. -/
theorem scorerThreadStep_frame (s : Sys) :
    (scorerThreadStep s).1 =
      { s with
        db := (scorerThreadStep s).1.db,
        ingestQueue := (scorerThreadStep s).1.ingestQueue,
        verdictQueue := (scorerThreadStep s).1.verdictQueue,
        scorer := (scorerThreadStep s).1.scorer } := by
  unfold scorerThreadStep
  split
  · split <;> rfl
  · simp only
    rw [(workerStep_frame s _).1]

theorem decayThreadStep_frame (s : Sys) :
    (decayThreadStep s).1 =
      { s with
        db := (decayThreadStep s).1.db,
        verdictQueue := (decayThreadStep s).1.verdictQueue,
        decay := (decayThreadStep s).1.decay } := by
  unfold decayThreadStep
  split
  · rfl
  · simp only
    rw [(workerStep_frame s _).1]

theorem winding_scorer {s : Sys} (h : Winding s) : Winding (scorerThreadStep s).1 := by
  have hoff : s.scorer = .off → (scorerThreadStep s).1.scorer = .off := by
    intro hoff
    simp only [scorerThreadStep, hoff, workerStep]
  refine h.aside ?_ ?_ ?_ ?_ ?_ ?_ ?_ ?_ ?_ hoff ?_ <;> rw [scorerThreadStep_frame s] <;> exact id

theorem winding_decay {s : Sys} (h : Winding s) : Winding (decayThreadStep s).1 := by
  have hoff : s.decay = .off → (decayThreadStep s).1.decay = .off := by
    intro hoff
    simp only [decayThreadStep, hoff, workerStep]
  refine h.aside ?_ ?_ ?_ ?_ ?_ ?_ ?_ ?_ ?_ ?_ hoff <;> rw [decayThreadStep_frame s] <;> exact id

theorem winding_step (s : Sys) (l : Label) (h : Winding s) : Winding (step s l).1 := by
  cases l with
  | main => exact winding_main h
  | verdict => exact winding_verdict h
  | consent => exact winding_consent h
  | scorer => exact winding_scorer h
  | decay => exact winding_decay h
  | ingest r =>
      simp only [step]
      split
      · exact h.aside rfl rfl rfl rfl rfl rfl rfl id id id id
      · exact h
  | client m =>
      simp only [step]
      split
      · exact .of_stage_zero (by cases m <;> simp [handleClient]) (by cases m <;> rfl)
      · exact h
  | restart => exact winding_boot s.env s.db
  | shutdown | setClock | setLock | setSovereignty =>
      exact h.aside rfl rfl rfl rfl rfl rfl rfl id id id id

/-! ## How much is left to do -/

/-- Steps of a tick that are left. -/
def DecayPc.rank : DecayPc → Nat
  | .all => 2 * decayMaxRows + 5
  | .active _ rest => 2 * rest.length + 5
  | .upsert _ rest => 2 * rest.length + 4
  | .prune => 3
  | .done => 2

def AssemblePc.rank : AssemblePc → Nat
  | .time => 5
  | .caseId _ => 4
  | .insert _ => 3
  | .dismiss _ | .push _ => 2

def ScorerPc.rank : ScorerPc → Nat
  | .load => 12
  | .insert _ => 11
  | .prune _ => 10
  | .distinct _ => 9
  | .upsert _ _ => 8
  | .log _ _ => 7
  | .done _ => 6

/-- Steps to the end of what a worker is doing. -/
def Worker.rank : Worker → Nat
  | .off => 0
  | .idle => 1
  | .scoreBegin _ => 13
  | .scoring _ _ pc => pc.rank
  | .assembling _ _ pc => pc.rank
  | .decayBegin => 2 * decayMaxRows + 7
  | .decayTime => 2 * decayMaxRows + 6
  | .decaying _ pc => pc.rank

theorem DecayPc.rank_loop (rest : List Threat) : (DecayPc.loop rest).rank ≤ 2 * rest.length + 3 := by
  cases rest with
  | nil => exact le_rfl
  | cons row rest =>
      simp only [DecayPc.loop, DecayPc.rank, List.length_cons]
      omega

theorem decayStep_rank (db : Db) (now : Int) {pc : DecayPc} (h : pc ≠ .done) :
    (decayStep db now pc).2.rank < pc.rank := by
  cases pc with
  | all =>
      have hlen : (dbThreatAll db decayMaxRows).length ≤ decayMaxRows := List.length_take_le _ _
      calc (DecayPc.loop (dbThreatAll db decayMaxRows)).rank
          ≤ 2 * (dbThreatAll db decayMaxRows).length + 3 := DecayPc.rank_loop _
        _ < 2 * decayMaxRows + 5 := by omega
  | active row rest =>
      show (ite _ (DecayPc.loop rest) (.upsert row rest)).rank < 2 * rest.length + 5
      split
      · exact (DecayPc.rank_loop rest).trans_lt (by omega)
      · exact Nat.lt_succ_self _
  | upsert row rest => exact (DecayPc.rank_loop rest).trans_lt (Nat.lt_succ_self _)
  | prune => exact Nat.lt_succ_self 2
  | done => exact absurd rfl h

/-- A worker that is at work comes nearer to its end with each step. -/
theorem workerStep_rank (s : Sys) {w : Worker} (h : w.working = true) :
    (workerStep s w).2.1.rank < w.rank := by
  cases w with
  | off | idle => cases h
  | scoreBegin r => simp [workerStep, Worker.rank, ScorerPc.rank]
  | scoring r c pc =>
      cases pc <;> simp [workerStep, scorerStep, Worker.rank, ScorerPc.rank, AssemblePc.rank]
  | assembling r result pc =>
      cases pc with
      | insert c =>
          simp only [workerStep, assembleStep, Worker.rank]
          split <;> simp [AssemblePc.rank]
      | time | caseId | dismiss | push =>
          simp [workerStep, assembleStep, Worker.rank, AssemblePc.rank]
  | decayBegin =>
      simp only [workerStep]
      split <;> simp [Worker.rank]
  | decayTime => simp [workerStep, Worker.rank, DecayPc.rank]
  | decaying now pc =>
      by_cases hdone : pc = .done
      · subst hdone
        simp [workerStep, decayStep, Worker.rank, DecayPc.rank]
      · have hless := decayStep_rank s.db now hdone
        simp only [workerStep, Worker.rank]
        cases hpc : (decayStep s.db now pc).2 with
        | done =>
            rw [hpc] at hless
            simp only [DecayPc.rank] at hless
            exact Nat.lt_of_succ_lt hless
        | all | active | upsert | prune =>
            rw [hpc] at hless
            exact hless

/-- Steps to the end of the verdict thread, once its flags are down. -/
def VerdictPc.rank : VerdictPc → Nat
  | .off => 0
  | .loop => 1
  | .dequeue => 14
  | .iaCheck _ => 13
  | .suspend _ => 2
  | .freshTime _ => 12
  | .freshQuery _ _ => 11
  | .cap _ => 10
  | .floorTime _ => 9
  | .floorHouseArrest _ _ => 8
  | .floorQuarantined _ _ _ => 7
  | .emit _ _ _ .time => 6
  | .emit _ _ _ (.insert _) => 5
  | .emit _ _ _ (.criminal _) => 4
  | .emit _ _ _ .status => 3
  | .enforce _ => 2
  | .queueTime _ _ => 4
  | .consentInsert _ => 3
  | .enqueue _ => 2

theorem route_rank (c : CaseRecord) (state : ThreatState) : (route c state).rank ≤ 6 := by
  cases state <;> simp [route, VerdictPc.rank]

/-- With the flags down and `g_mutex` free, every step of the verdict
thread brings it nearer to its end. -/
theorem VerdictMove.rank_lt {s s' : Sys} {pc : VerdictPc} {es : List Event}
    (m : VerdictMove s pc s' es) (hoff : pc ≠ .off) (hverdict : s.verdictRunning = false)
    (hcases : s.casesRunning = false) (hfree : s.consentLocked = false) :
    s'.verdict.rank < pc.rank := by
  cases m with
  | off => exact absurd rfl hoff
  | listen h => rw [hverdict] at h; cases h
  | wait _ h => rw [hcases] at h; cases h
  | blocked h => rw [hfree] at h; cases h
  | capped | floorQuarantined => exact (route_rank _ _).trans_lt (by simp [VerdictPc.rank])
  | @emitInsert c verdict granted now =>
      simp only
      split <;> simp [VerdictPc.rank]
  | _ => simp [VerdictPc.rank]

/-- Steps to the end of the consent thread, once its flag is down. A slot
that is resolved takes eight of them. -/
def ConsentPc.rank : ConsentPc → Nat
  | .off => 0
  | .loop => 1
  | .poll _ i => 8 * (consentQueueSize - i) + 2
  | .relock _ i _ _ => 8 * (consentQueueSize - (i + 1)) + 3
  | .enforce _ i _ => 8 * (consentQueueSize - (i + 1)) + 4
  | .emit _ i _ _ .status => 8 * (consentQueueSize - (i + 1)) + 5
  | .emit _ i _ _ (.criminal _) => 8 * (consentQueueSize - (i + 1)) + 6
  | .emit _ i _ _ (.insert _) => 8 * (consentQueueSize - (i + 1)) + 7
  | .emit _ i _ _ .time => 8 * (consentQueueSize - (i + 1)) + 8
  | .remove _ i _ _ => 8 * (consentQueueSize - (i + 1)) + 9
  | .reload rest => rest.length + 2
  | .reloadRead => consentQueueSize + 3

/-- Every step of the consent thread brings it nearer to its end, or to
the top of its loop. -/
theorem ConsentMove.rank_lt {s s' : Sys} {pc : ConsentPc} {es : List Event}
    (m : ConsentMove s pc s' es) (hoff : pc ≠ .off)
    (hloop : pc = .loop → s.consentRunning = false) : s'.consent.rank < pc.rank := by
  cases m with
  | off => exact absurd rfl hoff
  | wake h | sleep h => rw [hloop rfl] at h; cases h
  | reloadRead =>
      have hlen : (dbConsentPending s.db consentQueueSize).length ≤ consentQueueSize :=
        List.length_take_le _ _
      simp only [ConsentPc.rank]
      omega
  | @skip now i | @look now i =>
      have hi := i.isLt
      simp only [ConsentPc.rank]
      omega
  | @resolve now i =>
      have hi := i.isLt
      simp only [ConsentPc.rank]
      omega
  | @emitInsert now t i =>
      simp only
      split <;> simp [ConsentPc.rank]
  | _ => simp [ConsentPc.rank]

/-- Steps of `main` that are left, not counting what it waits for. -/
def MainPc.rank : MainPc → Nat
  | .startDecay => 21
  | .startIngest => 20
  | .startVerdict => 19
  | .resetPending => 18
  | .startConsent => 17
  | .startScorer => 16
  | .accepting | .replying _ _ => 13
  | .serving _ => 12
  | .stopConsent => 11
  | pc => 11 - pc.stage

/-! ## The thread to wait for -/

/-- The thread `main` cannot go on without. -/
def choose (s : Sys) : Label :=
  match s.main with
  | .replying _ _ | .stopConsent => if s.consentLocked then .consent else .main
  | .joinConsent => if s.consent = .off then .main else .consent
  | .joinVerdict => if s.verdict = .off then .main else .verdict
  | .joinScorer => if s.scorer = .off then .main else .scorer
  | .joinDecay => if s.decay = .off then .main else .decay
  | _ => .main

theorem choose_ofThread (s : Sys) : (choose s).ofThread = true := by
  unfold choose
  split <;> first | rfl | (split <;> rfl)

/-- What that thread has left to do. -/
def waitRank (s : Sys) : Nat :=
  match s.main with
  | .serving w => w.rank
  | .replying _ _ | .stopConsent | .joinConsent => s.consent.rank
  | .joinVerdict => s.verdict.rank
  | .joinScorer => 13 * s.ingestQueue.length + s.scorer.rank
  | .joinDecay => s.decay.rank
  | _ => 0

/-- What is left of the shutdown. -/
def shutdownRank (s : Sys) : Nat × Nat := (s.main.rank, waitRank s)

/-- `main` comes a point further. -/
def Shorter : Nat × Nat → Nat × Nat → Prop := Prod.Lex (· < ·) (· < ·)

theorem shorter_wf : WellFounded Shorter := WellFounded.prod_lex Nat.lt_wfRel.wf Nat.lt_wfRel.wf

theorem Shorter.further {s s' : Sys} (h : s'.main.rank < s.main.rank) :
    Shorter (shutdownRank s') (shutdownRank s) := .left _ _ h

/-- `main` stays where it is, and what it waits for comes nearer. -/
theorem Shorter.nearer {s s' : Sys} (hmain : s'.main = s.main) (h : waitRank s' < waitRank s) :
    Shorter (shutdownRank s') (shutdownRank s) := by
  unfold shutdownRank
  rw [hmain]
  exact .right _ h

theorem consentStep_nearer {s : Sys} (hoff : s.consent ≠ .off)
    (hloop : s.consent = .loop → s.consentRunning = false)
    (hwait : ∀ s' : Sys, s'.main = s.main → waitRank s' = s'.consent.rank) :
    Shorter (shutdownRank (consentStep s).1) (shutdownRank s) := by
  have hmain : (consentStep s).1.main = s.main := by rw [consentStep_frame s]
  refine .nearer hmain ?_
  rw [hwait _ hmain, hwait s rfl]
  exact (consentStep_move s).rank_lt hoff hloop

theorem scorerThreadStep_rank {s : Sys} (hoff : s.scorer ≠ .off) (hrun : s.ingestRunning = false) :
    13 * (scorerThreadStep s).1.ingestQueue.length + (scorerThreadStep s).1.scorer.rank <
      13 * s.ingestQueue.length + s.scorer.rank := by
  cases hw : s.scorer with
  | off => exact absurd hw hoff
  | idle =>
      cases hq : s.ingestQueue with
      | nil => simp [scorerThreadStep, hw, hq, hrun, Worker.rank]
      | cons r rest =>
          simp only [scorerThreadStep, hw, hq, List.length_cons]
          split <;> simp only [Worker.rank] <;> omega
  | scoreBegin | scoring | assembling | decayBegin | decayTime | decaying =>
      have hless := workerStep_rank s (w := s.scorer) (by rw [hw]; rfl)
      simp only [scorerThreadStep, hw]
      rw [hw] at hless
      rw [(workerStep_frame s _).1]
      exact Nat.add_lt_add_left hless _

theorem decayThreadStep_rank {s : Sys} (hoff : s.decay ≠ .off) (hrun : s.decayRunning = false) :
    (decayThreadStep s).1.decay.rank < s.decay.rank := by
  cases hw : s.decay with
  | off => exact absurd hw hoff
  | idle => simp [decayThreadStep, hw, hrun, Worker.rank]
  | scoreBegin | scoring | assembling | decayBegin | decayTime | decaying =>
      have hless := workerStep_rank s (w := s.decay) (by rw [hw]; rfl)
      simp only [decayThreadStep, hw]
      rw [hw] at hless
      exact hless

/-- `main` is not kept waiting by a thread that is gone, or by a mutex that
is free: its own step takes it further. -/
theorem mainStep_further {s : Sys} (h : Winding s) (hstop : s.stopping = true)
    (hex : s.main ≠ .exited) (hchoose : choose s = .main) :
    Shorter (shutdownRank (mainStep s).1) (shutdownRank s) := by
  cases hm : s.main with
  | serving w =>
      by_cases hw : w.working = true
      · have hworking : (s.worker .socket).working = true := by
          simpa only [Sys.worker, hm] using hw
        have hstep := step_worker hworking
        simp only [Role.label, step, Sys.worker, hm] at hstep
        rw [hstep]
        have hless := workerStep_rank s hw
        unfold shutdownRank waitRank
        rw [hm]
        exact .right _ hless
      · refine .further ?_
        cases w with
        | off => exact absurd hm h.served
        | idle => simp [mainStep, hm, hstop, MainPc.rank]
        | _ => exact absurd rfl hw
  | replying caseId approved =>
      refine .further ?_
      have hfree : s.consentLocked = false := by
        simp only [choose, hm] at hchoose
        by_contra hlock
        rw [if_pos (Bool.eq_true_of_not_eq_false hlock)] at hchoose
        cases hchoose
      simp [mainStep, hm, hfree, MainPc.rank]
  | stopConsent =>
      refine .further ?_
      have hfree : s.consentLocked = false := by
        simp only [choose, hm] at hchoose
        by_contra hlock
        rw [if_pos (Bool.eq_true_of_not_eq_false hlock)] at hchoose
        cases hchoose
      simp [mainStep, hm, hfree, MainPc.rank, MainPc.stage]
  | joinConsent | joinVerdict | joinScorer | joinDecay =>
      -- the thread is joined
      refine .further ?_
      simp only [choose, hm] at hchoose
      split at hchoose
      · rename_i hoff
        simp [mainStep, hm, hoff, MainPc.rank, MainPc.stage]
      · cases hchoose
  | exited => exact absurd hm hex
  | startDecay | startIngest | startVerdict | resetPending | startConsent | startScorer | accepting
  | stopVerdict | stopCases | stopIngest | joinIngest | stopDecay =>
      exact .further (by simp [mainStep, hm, MainPc.rank, MainPc.stage])

/-- The consent thread holds the mutex only while it polls. -/
theorem consentLocked_poll {s : Sys} (h : s.consentLocked = true) :
    s.consent ≠ .off ∧ s.consent ≠ .loop := by
  unfold Sys.consentLocked at h
  constructor <;>
  · intro heq
    rw [heq] at h
    cases h

/-- **Progress.** Once the daemon is told to stop, a step of the thread it
waits for takes it nearer to its end. -/
theorem shutdown_progress {s : Sys} (h : Winding s) (hstop : s.stopping = true)
    (hex : s.main ≠ .exited) :
    Shorter (shutdownRank (step s (choose s)).1) (shutdownRank s) := by
  by_cases hchoose : choose s = .main
  · rw [hchoose]
    exact mainStep_further h hstop hex hchoose
  · unfold choose at hchoose ⊢
    cases hm : s.main with
    | replying caseId approved =>
        simp only [hm] at hchoose ⊢
        split at hchoose
        · rename_i hlock
          obtain ⟨hoff, hloop⟩ := consentLocked_poll hlock
          rw [if_pos hlock]
          refine consentStep_nearer hoff (fun heq => absurd heq hloop) fun s' hs' => ?_
          simp only [waitRank, hs', hm]
        · exact absurd rfl hchoose
    | stopConsent =>
        simp only [hm] at hchoose ⊢
        split at hchoose
        · rename_i hlock
          obtain ⟨hoff, hloop⟩ := consentLocked_poll hlock
          rw [if_pos hlock]
          refine consentStep_nearer hoff (fun heq => absurd heq hloop) fun s' hs' => ?_
          simp only [waitRank, hs', hm]
        · exact absurd rfl hchoose
    | joinConsent =>
        simp only [hm] at hchoose ⊢
        split at hchoose
        · exact absurd rfl hchoose
        · rename_i hoff
          rw [if_neg hoff]
          refine consentStep_nearer hoff (fun _ => h.consentRunning (by rw [hm]; decide)) fun s' hs' => ?_
          simp only [waitRank, hs', hm]
    | joinVerdict =>
        simp only [hm] at hchoose ⊢
        split at hchoose
        · exact absurd rfl hchoose
        · rename_i hoff
          rw [if_neg hoff]
          have hmain : (verdictStep s).1.main = s.main := by rw [verdictStep_frame s]
          refine Shorter.nearer hmain ?_
          show waitRank (verdictStep s).1 < _
          simp only [waitRank, hmain, hm]
          -- the consent thread is gone, so the mutex is free
          have hfree : s.consentLocked = false := by
            rw [Sys.consentLocked, h.consent (by rw [hm]; decide)]
          exact (verdictStep_move s).rank_lt hoff (h.verdictRunning (by rw [hm]; decide))
            (h.casesRunning (by rw [hm]; decide)) hfree
    | joinScorer =>
        simp only [hm] at hchoose ⊢
        split at hchoose
        · exact absurd rfl hchoose
        · rename_i hoff
          rw [if_neg hoff]
          have hmain : (scorerThreadStep s).1.main = s.main := by rw [scorerThreadStep_frame s]
          refine Shorter.nearer hmain ?_
          show waitRank (scorerThreadStep s).1 < _
          simp only [waitRank, hmain, hm]
          exact scorerThreadStep_rank hoff (h.ingestRunning (by rw [hm]; decide))
    | joinDecay =>
        simp only [hm] at hchoose ⊢
        split at hchoose
        · exact absurd rfl hchoose
        · rename_i hoff
          rw [if_neg hoff]
          have hmain : (decayThreadStep s).1.main = s.main := by rw [decayThreadStep_frame s]
          refine Shorter.nearer hmain ?_
          show waitRank (decayThreadStep s).1 < _
          simp only [waitRank, hmain, hm]
          exact decayThreadStep_rank hoff (h.decayRunning (by rw [hm]; decide))
    | _ =>
        simp only [hm] at hchoose
        exact absurd trivial hchoose

theorem step_stopping (s : Sys) {l : Label} (hl : l.ofThread = true) :
    (step s l).1.stopping = s.stopping := by
  cases l with
  | main =>
      simp only [step]
      unfold mainStep
      split <;> try rfl
      · simp only
        rw [(workerStep_frame s _).1]
      · split
        · rfl
        · simp only
          rw [replyRequest_frame s]
      · split <;> rfl
  | verdict => simp only [step]; rw [verdictStep_frame s]
  | consent => simp only [step]; rw [consentStep_frame s]
  | scorer => simp only [step]; rw [scorerThreadStep_frame s]
  | decay => simp only [step]; rw [decayThreadStep_frame s]
  | _ => cases hl

end MiuiserPeruser.Gaveld
