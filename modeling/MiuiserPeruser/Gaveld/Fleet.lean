import MiuiserPeruser.Gaveld.Approval
import MiuiserPeruser.Gaveld.CaseIdentity

/-!
# gaveld — the court and its own fleet

The fleet's daemons report to the court under their own names, and
`OWN_DAEMONS` keeps the court from judging a reporter. The table is kept
by hand, and two reporters are not in it: `nulld` and `overlordd`.

A name comes into the daemon with a signal and in no other way
(`step_reported`), and leaves it through `verdict_process`. So a run that
hears nothing from these two spares the fleet; and a case of theirs that
is looked at by `verdict_process` ends in a verdict or in `consent_queue`.
-/

namespace MiuiserPeruser.Gaveld

/-! ## The names -/

/-- The names the fleet's daemons and the `superhero` binary pass to
`gaveld_emit`. -/
def fleetNames : List String :=
  ["tigerclawd", "rahzerd", "granitord", "nulld", "bebopd", "fugitoidd", "rocksteadyd",
   "shredderd", "metalheadd", "ratkingd", "burned", "overlordd", "leatherheadd", "superhero"]

/-- The reporters the court does not know. -/
def unlistedNames : List String := ["nulld", "overlordd"]

theorem fleetNames_unlisted :
    (fleetNames.filter fun name => !tierIsOwnDaemon name) = unlistedNames := by decide +kernel

theorem mem_unlistedNames {name : String} :
    name ∈ unlistedNames ↔ name ∈ fleetNames ∧ tierIsOwnDaemon name = false := by
  rw [← fleetNames_unlisted, List.mem_filter, Bool.not_eq_true']

/-- The fleet is not punished: no enforcement, no consent row, and no
verdict but IA_REFERRAL. -/
structure FleetSpared (s : Sys) (tr : List Event) : Prop where
  enforced : ∀ actor source verdict caseId score cmds,
    .enforce actor source verdict caseId score cmds ∈ tr → source ∉ fleetNames
  queued : ∀ req, .queued req ∈ tr → req.source ∉ fleetNames
  rows : ∀ req ∈ s.db.consentQueue.rows, req.source ∉ fleetNames
  verdicts : ∀ row ∈ s.db.verdicts, row.source ∈ fleetNames → row.verdict = .iaReferral

/-- The source `verdict_process` is about to test for an own daemon. -/
def VerdictPc.tested : VerdictPc → List String
  | .iaCheck c => [c.source]
  | _ => []

/-- Without the lock, `verdict_process` does not test a case of a reporter
the court does not know. -/
def KnownReporter (s : Sys) (l : Label) : Prop :=
  l = .verdict → s.env.iaLock = false → ∀ source ∈ s.verdict.tested, source ∉ unlistedNames

instance (s : Sys) (l : Label) : Decidable (KnownReporter s l) :=
  inferInstanceAs (Decidable (l = .verdict → s.env.iaLock = false →
    ∀ source ∈ s.verdict.tested, source ∉ unlistedNames))

/-! ## Where a name comes from -/

/-- The sources a worker is working on. -/
def Worker.sources : Worker → List String
  | .scoreBegin r => [r.source]
  | .scoring _ c (.log _ res) | .scoring _ c (.done res) => [c.source, res.source]
  | .scoring _ c _ => [c.source]
  | .assembling _ res _ => [res.source]
  | _ => []

/-- The daemon has a report of the source in its hands. -/
def Sys.Reported (s : Sys) (source : String) : Prop :=
  source ∈ s.ingestQueue.map IngestRecord.source ∨ (∃ role, source ∈ (s.worker role).sources) ∨
    ∃ c, s.Holds c ∧ c.source = source

/-- The signal a label hands to the daemon. -/
def Label.signal? : Label → Option IngestRecord
  | .ingest r | .client (.signal r) => some r
  | _ => none

theorem workerStep_sources {s : Sys} {w : Worker} {source : String}
    (h : source ∈ (workerStep s w).2.1.sources) : source ∈ w.sources := by
  cases w with
  | scoring r c pc =>
      cases pc with
      | load | insert | prune | distinct => exact h
      | upsert =>
          -- the result is of the source of the call
          rcases List.mem_cons.mp h with rfl | h
          · exact List.mem_singleton_self _
          · exact h
      | log | done => exact List.mem_cons_of_mem _ h
  | assembling r res pc =>
      cases pc with
      | time | caseId => exact h
      | insert c =>
          simp only [workerStep, assembleStep] at h
          split at h <;> exact h
      | dismiss | push => cases h
  | scoreBegin => exact h
  | decayBegin =>
      simp only [workerStep] at h
      split at h <;> cases h
  | decaying now pc =>
      simp only [workerStep] at h
      split at h <;> cases h
  | off | idle | decayTime => cases h

/-- A worker's own step. -/
theorem step_worker_sources {s : Sys} {role : Role} (role' : Role) {source : String}
    (hw : (s.worker role').working = true)
    (h : source ∈ ((step s role'.label).1.worker role).sources) :
    source ∈ (s.worker role).sources := by
  by_cases hrole : role = role'
  · subst hrole
    rw [step_worker hw, setWorker_worker] at h
    exact workerStep_sources h
  · rwa [(step_worker_frame hw).2.2 role hrole] at h

/-- A step that leaves the threads of two workers alone has no more sources
if it has none for the third. -/
theorem worker_sources_keep {s s' : Sys} {role : Role} {source : String} (hscorer : s'.scorer = s.scorer)
    (hdecay : s'.decay = s.decay)
    (hsocket : source ∈ (s'.worker .socket).sources → source ∈ (s.worker .socket).sources)
    (h : source ∈ (s'.worker role).sources) : source ∈ (s.worker role).sources := by
  cases role with
  | socket => exact hsocket h
  | scorer =>
      simp only [Sys.worker, hscorer] at h
      exact h
  | decay =>
      simp only [Sys.worker, hdecay] at h
      exact h

/-- `main` takes up no signal by itself: between two clients its worker is
idle. -/
theorem mainStep_sources {s : Sys} {role : Role} {source : String}
    (h : source ∈ ((mainStep s).1.worker role).sources) : source ∈ (s.worker role).sources := by
  by_cases hw : (s.worker .socket).working = true
  · exact step_worker_sources .socket hw h
  have keep : ∀ s' : Sys, s'.scorer = s.scorer → s'.decay = s.decay →
      (s'.worker .socket).sources = [] → source ∈ (s'.worker role).sources →
      source ∈ (s.worker role).sources := by
    intro s' hscorer hdecay hsocket h
    refine worker_sources_keep hscorer hdecay (fun hmem => ?_) h
    rw [hsocket] at hmem
    exact absurd hmem List.not_mem_nil
  cases hm : s.main with
  | serving w =>
      cases w with
      | idle =>
          simp only [mainStep, hm] at h
          refine keep _ ?_ ?_ ?_ h
          · rfl
          · rfl
          · cases s.stopping <;> rfl
      | off =>
          simp only [mainStep, hm] at h
          refine keep _ ?_ ?_ ?_ h <;> rfl
      | scoreBegin | scoring | assembling | decayBegin | decayTime | decaying =>
          simp [Sys.worker, hm, Worker.working] at hw
  | replying caseId approved =>
      simp only [mainStep, hm] at h
      split at h
      · exact h
      · rw [replyRequest_frame] at h
        refine keep _ ?_ ?_ ?_ h <;> rfl
  | stopConsent =>
      simp only [mainStep, hm] at h
      split at h
      · exact h
      · refine keep _ ?_ ?_ ?_ h <;> rfl
  | joinConsent =>
      simp only [mainStep, hm] at h
      refine keep _ ?_ ?_ ?_ h
      · rfl
      · rfl
      · by_cases hoff : s.consent = .off <;> simp [Sys.worker, hoff, Worker.sources]
  | joinVerdict =>
      simp only [mainStep, hm] at h
      refine keep _ ?_ ?_ ?_ h
      · rfl
      · rfl
      · by_cases hoff : s.verdict = .off <;> simp [Sys.worker, hoff, Worker.sources]
  | joinScorer =>
      simp only [mainStep, hm] at h
      refine keep _ ?_ ?_ ?_ h
      · rfl
      · rfl
      · by_cases hoff : s.scorer = .off <;> simp [Sys.worker, hoff, Worker.sources]
  | joinDecay =>
      simp only [mainStep, hm] at h
      refine keep _ ?_ ?_ ?_ h
      · rfl
      · rfl
      · by_cases hoff : s.decay = .off <;> simp [Sys.worker, hoff, Worker.sources]
  | startDecay =>
      simp only [mainStep, hm] at h
      cases role with
      | socket | decay => cases h
      | scorer => exact h
  | startScorer =>
      simp only [mainStep, hm] at h
      cases role with
      | socket | scorer => cases h
      | decay => exact h
  | startIngest | startVerdict | resetPending | startConsent | accepting | stopVerdict | stopCases
  | stopIngest | joinIngest | stopDecay =>
      simp only [mainStep, hm] at h
      refine keep _ ?_ ?_ ?_ h <;> rfl
  | exited =>
      simp only [mainStep, hm] at h
      exact h

theorem reported_worker {s : Sys} (role : Role) {source : String}
    (h : source ∈ (s.worker role).sources) : s.Reported source := .inr (.inl ⟨role, h⟩)

/-- The threads are the same, so their reports are. -/
theorem reported_of_same {s s' : Sys} {role : Role} {source : String} (hmain : s'.main = s.main)
    (hscorer : s'.scorer = s.scorer) (hdecay : s'.decay = s.decay)
    (h : source ∈ (s'.worker role).sources) : s.Reported source := by
  refine reported_worker role (worker_sources_keep hscorer hdecay (fun hmem => ?_) h)
  simp only [Sys.worker, hmain] at hmem
  exact hmem

/-- An idle scorer takes up a report of the ingest queue. -/
theorem scorerStep_sources {s : Sys} {role : Role} {source : String}
    (h : source ∈ ((step s .scorer).1.worker role).sources) : s.Reported source := by
  by_cases hw : (s.worker .scorer).working = true
  · exact reported_worker role (step_worker_sources .scorer hw h)
  cases hs : s.scorer with
  | idle =>
      simp only [step, scorerThreadStep, hs] at h
      cases hq : s.ingestQueue with
      | nil =>
          simp only [hq] at h
          cases role with
          | socket => exact reported_worker .socket h
          | decay => exact reported_worker .decay h
          | scorer =>
              simp only [Sys.worker] at h
              split at h <;> cases h
      | cons r rest =>
          simp only [hq] at h
          cases role with
          | socket => exact reported_worker .socket h
          | decay => exact reported_worker .decay h
          | scorer =>
              simp only [Sys.worker] at h
              split at h
              · cases h
              · obtain rfl := List.mem_singleton.mp h
                exact .inl (by rw [hq]; exact List.mem_cons_self)
  | off =>
      simp only [step, scorerThreadStep, hs, workerStep] at h
      refine reported_of_same ?_ ?_ ?_ h
      · rfl
      · exact hs.symm
      · rfl
  | scoreBegin | scoring | assembling | decayBegin | decayTime | decaying =>
      simp [Sys.worker, hs, Worker.working] at hw

/-- The decay thread takes up none. -/
theorem decayStep_sources {s : Sys} {role : Role} {source : String}
    (h : source ∈ ((step s .decay).1.worker role).sources) : s.Reported source := by
  by_cases hw : (s.worker .decay).working = true
  · exact reported_worker role (step_worker_sources .decay hw h)
  cases hs : s.decay with
  | idle =>
      simp only [step, decayThreadStep, hs] at h
      cases role with
      | socket => exact reported_worker .socket h
      | scorer => exact reported_worker .scorer h
      | decay =>
          simp only [Sys.worker] at h
          split at h <;> cases h
  | off =>
      simp only [step, decayThreadStep, hs, workerStep] at h
      refine reported_of_same ?_ ?_ ?_ h
      · rfl
      · rfl
      · exact hs.symm
  | scoreBegin | scoring | assembling | decayBegin | decayTime | decaying =>
      simp [Sys.worker, hs, Worker.working] at hw

/-- A report in the hands of a worker was in the daemon before, or was just
handed in. -/
theorem step_sources {s : Sys} {l : Label} {role : Role} {source : String}
    (h : source ∈ ((step s l).1.worker role).sources) :
    s.Reported source ∨ ∃ r, l.signal? = some r ∧ r.source = source := by
  cases l with
  | main => exact .inl (reported_worker role (mainStep_sources h))
  | verdict =>
      simp only [step] at h
      rw [verdictStep_frame] at h
      refine .inl (reported_of_same ?_ ?_ ?_ h) <;> rfl
  | consent =>
      simp only [step] at h
      rw [consentStep_frame] at h
      refine .inl (reported_of_same ?_ ?_ ?_ h) <;> rfl
  | scorer => exact .inl (scorerStep_sources h)
  | decay => exact .inl (decayStep_sources h)
  | ingest r =>
      simp only [step] at h
      split at h <;> (refine .inl (reported_of_same ?_ ?_ ?_ h) <;> rfl)
  | client m =>
      simp only [step] at h
      split at h
      · cases role with
        | socket =>
            cases m with
            | signal r =>
                obtain rfl := List.mem_singleton.mp h
                exact .inr ⟨r, rfl, rfl⟩
            | queryDecay | approve | deny => cases h
        | scorer => exact .inl (reported_worker .scorer h)
        | decay => exact .inl (reported_worker .decay h)
      · exact .inl (reported_worker role h)
  | restart => cases role <;> cases h
  | shutdown | setClock | setLock | setSovereignty =>
      refine .inl (reported_of_same ?_ ?_ ?_ h) <;> rfl

/-- `main` leaves the ingest queue as it is, or empties it. -/
theorem mainStep_ingestQueue {s : Sys} {r : IngestRecord} (h : r ∈ (step s .main).1.ingestQueue) :
    r ∈ s.ingestQueue := by
  unfold step mainStep at h
  cases hm : s.main with
  | serving w =>
      cases w with
      | idle => simpa only [hm] using h
      | off | scoreBegin | scoring | assembling | decayBegin | decayTime | decaying =>
          simp only [hm] at h
          rwa [(workerStep_frame s _).1] at h
  | replying caseId approved =>
      simp only [hm] at h
      split at h
      · exact h
      · simp only at h
        rwa [replyRequest_frame] at h
  | stopConsent =>
      simp only [hm] at h
      split at h <;> exact h
  | startDecay | startIngest | startVerdict | resetPending | startConsent | startScorer
  | accepting | joinConsent | stopVerdict | stopCases | joinVerdict | stopIngest | joinIngest
  | joinScorer | stopDecay | joinDecay | exited => simpa only [hm] using h

/-- The scorer takes reports out of it. -/
theorem scorerStep_ingestQueue {s : Sys} {r : IngestRecord} (h : r ∈ (step s .scorer).1.ingestQueue) :
    r ∈ s.ingestQueue := by
  simp only [step, scorerThreadStep] at h
  cases hs : s.scorer with
  | idle =>
      rw [hs] at h
      cases hq : s.ingestQueue with
      | nil =>
          rw [hq] at h
          exact h
      | cons r' rest =>
          rw [hq] at h
          exact List.mem_cons_of_mem _ h
  | off | scoreBegin | scoring | assembling | decayBegin | decayTime | decaying =>
      rw [hs] at h
      simp only at h
      rwa [(workerStep_frame s _).1] at h

theorem decayStep_ingestQueue {s : Sys} {r : IngestRecord} (h : r ∈ (step s .decay).1.ingestQueue) :
    r ∈ s.ingestQueue := by
  simp only [step, decayThreadStep] at h
  cases hs : s.decay with
  | idle =>
      rw [hs] at h
      exact h
  | off | scoreBegin | scoring | assembling | decayBegin | decayTime | decaying =>
      rw [hs] at h
      simp only at h
      rwa [(workerStep_frame s _).1] at h

/-- Only the ingest thread fills the ingest queue. -/
theorem step_ingestQueue {s : Sys} {l : Label} {r : IngestRecord}
    (h : r ∈ (step s l).1.ingestQueue) : r ∈ s.ingestQueue ∨ l.signal? = some r := by
  cases l with
  | main => exact .inl (mainStep_ingestQueue h)
  | verdict =>
      simp only [step] at h
      rw [verdictStep_frame] at h
      exact .inl h
  | consent =>
      simp only [step] at h
      rw [consentStep_frame] at h
      exact .inl h
  | scorer => exact .inl (scorerStep_ingestQueue h)
  | decay => exact .inl (decayStep_ingestQueue h)
  | ingest r' =>
      simp only [step] at h
      split at h
      · rcases mem_queuePush h with rfl | h
        · exact .inr rfl
        · exact .inl h
      · exact .inl h
  | client m =>
      simp only [step] at h
      split at h <;> exact .inl h
  | restart => cases h
  | shutdown | setClock | setLock | setSovereignty => exact .inl h

/-- **Where a name comes from**: a report of it is in the daemon already, or
a signal brings it. -/
theorem step_reported {s : Sys} (ho : Orderly s) {l : Label} {source : String}
    (h : (step s l).1.Reported source) :
    s.Reported source ∨ ∃ r, l.signal? = some r ∧ r.source = source := by
  rcases h with h | ⟨role, h⟩ | ⟨c, hc, rfl⟩
  · obtain ⟨r, hr, rfl⟩ := List.mem_map.mp h
    rcases step_ingestQueue hr with hr | hr
    · exact .inl (.inl (List.mem_map_of_mem hr))
    · exact .inr ⟨r, hr, rfl⟩
  · exact step_sources h
  · refine .inl ?_
    rcases step_holds ho hc with hc | ⟨ms, hnew⟩
    · exact .inr (.inr ⟨c, hc, rfl⟩)
    · cases step_emits ho hnew with
      | assembled hw => exact reported_worker _ (by rw [hw]; exact List.mem_singleton_self _)

/-- No signal of the run is from a reporter the court does not know. -/
def NoUnlistedSignal (ls : List Label) : Prop :=
  ∀ l ∈ ls, ∀ r, l.signal? = some r → r.source ∉ unlistedNames

/-- What is not heard is not tested. -/
theorem knownReporter_of_signals {env : Env} {ls : List Label} (h : NoUnlistedSignal ls) :
    Machine.Meets step KnownReporter (.boot env .empty) ls := by
  let silent (s : Sys) : Prop := ∀ source, s.Reported source → source ∉ unlistedNames
  have hok : Machine.Meets step
      (fun _ l => ∀ r, l.signal? = some r → r.source ∉ unlistedNames) (.boot env .empty) ls :=
    Machine.meets_of_forall (fun l => ∀ r, Label.signal? l = some r → r.source ∉ unlistedNames) h
  refine Machine.Meets.of_invariant (P := fun s => Orderly s ∧ silent s) ?_ ?_ ls _ ?_ hok
  · intro s l ⟨ho, hs⟩ hl
    refine ⟨orderly_step s l ho, fun source hsource => ?_⟩
    rcases step_reported ho hsource with hold | ⟨r, hr, rfl⟩
    · exact hs source hold
    · exact hl r hr
  · intro s l ⟨ho, hs⟩ hl hv hlock source hsource
    -- the tested case is held, so its source is reported
    cases hpc : s.verdict with
    | iaCheck c =>
        rw [hpc] at hsource
        obtain rfl := List.mem_singleton.mp hsource
        refine hs c.source (.inr (.inr ⟨c, .inr (.inr ?_), rfl⟩))
        rw [hpc]
        exact List.mem_singleton_self _
    | _ =>
        rw [hpc] at hsource
        cases hsource
  · refine ⟨orderly_boot env .empty, fun source hsource => ?_⟩
    rcases hsource with h | ⟨role, h⟩ | ⟨c, hc, -⟩
    · cases h
    · cases role <;> cases h
    · obtain ⟨ms, hms⟩ := (heldInv_run env [] c hc).mem
      cases hms

/-! ## Sparing the fleet -/

/-- What `verdict_process` has established about its case. -/
def VerdictPc.Spares : VerdictPc → Prop
  | .freshTime c | .freshQuery c _ | .cap c | .floorTime c | .floorHouseArrest c _
  | .floorQuarantined c _ _ | .enforce c | .queueTime c _ => c.source ∉ fleetNames
  | .emit c verdict _ _ => c.source ∈ fleetNames → verdict = .iaReferral
  | _ => True

/-- What an event may say about its source. -/
def Event.Spares : Event → Prop
  | .enforce _ source _ _ _ _ => source ∉ fleetNames
  | .queued req => req.source ∉ fleetNames
  | .verdictRow _ row => row.source ∈ fleetNames → row.verdict = .iaReferral
  | _ => True

structure SparingInv (s : Sys) (tr : List Event) : Prop where
  verdict : s.verdict.Spares
  requests : ∀ req, s.InFlight req → req.source ∉ fleetNames
  events : ∀ e ∈ tr, e.Spares

theorem spares_idle {pc : VerdictPc} (h : pc.idle = true) : pc.Spares := by
  cases pc <;> trivial

theorem route_spares {c : CaseRecord} (h : c.source ∉ fleetNames) (state : ThreatState) :
    (route c state).Spares := by
  cases state with
  | clean | watched | warned => exact fun hc => absurd hc h
  | quarantined | houseArrest | jailed => exact h

theorem VerdictMove.keepsSpares {s s' : Sys} {pc : VerdictPc} {es : List Event}
    (m : VerdictMove s pc s' es) (known : s.env.iaLock = false →
      ∀ source ∈ pc.tested, source ∉ unlistedNames) (h : pc.Spares) : s'.verdict.Spares := by
  cases m with
  | refer => exact fun _ => rfl
  | examine hlock hown =>
      -- a fleet name that is not an own daemon is unlisted
      intro hfleet
      exact known hlock _ (List.mem_singleton_self _) (mem_unlistedNames.mpr ⟨hfleet, hown⟩)
  | stale => exact fun hc => absurd hc h
  | capped | floorQuarantined => exact route_spares h _
  | warn =>
      -- an IA_REFERRAL is not a warning
      intro hfleet
      cases h hfleet
  | freshTime | active | jailed | floorTime | floorHouseArrest | emitTime | emitInsert
  | emitCriminal => exact h
  | _ => trivial

theorem emits_spares {s : Sys} {l : Label} {e : Event} (hv : s.verdict.Spares)
    (hreq : ∀ req, s.InFlight req → req.source ∉ fleetNames) (h : Emits s l e) : e.Spares := by
  cases h with
  | verdictRow hpc | verdictEnforce hpc =>
      rw [hpc] at hv
      exact hv
  | queued hpc => exact hreq _ (.inr (by rw [hpc]; exact List.mem_singleton_self _))
  | consentRow hpc =>
      rename_i req approved
      have hspared := hreq req (.inl (filed_consent (by rw [hpc]; exact List.mem_singleton_self _)))
      exact fun hfleet => absurd hfleet hspared
  | consentEnforce hpc =>
      exact hreq _ (.inl (filed_consent (by rw [hpc]; exact List.mem_singleton_self _)))
  | _ => trivial

theorem SparingInv.step {s : Sys} {tr : List Event} (ho : Orderly s) (h : SparingInv s tr)
    {l : Label} (hl : KnownReporter s l) : SparingInv (step s l).1 (tr ++ (step s l).2) where
  verdict := step_verdict_pc ho l (fun _ => spares_idle) h.verdict
    fun hv => (verdictStep_move s).keepsSpares (hl hv) h.verdict
  requests := by
    refine requests_step (R := fun _ req => req.source ∉ fleetNames) tr [] ho (fun _ => id)
      (fun r req hsame hr => hsame.source ▸ hr) h.requests fun c state hv => ?_
    have hspared := h.verdict
    rw [hv] at hspared
    exact hspared
  events := by
    intro e he
    rcases List.mem_append.mp he with he | he
    · exact h.events e he
    · exact emits_spares h.verdict h.requests (step_emits ho he)

theorem sparingInv_run {env : Env} {ls : List Label}
    (h : Machine.Meets Gaveld.step KnownReporter (.boot env .empty) ls) :
    SparingInv (runFrom env ls).1 (runFrom env ls).2 := by
  have both : Orderly (runFrom env ls).1 ∧ SparingInv (runFrom env ls).1 (runFrom env ls).2 := by
    refine Machine.run_invariant_of_meets (P := fun s tr => Orderly s ∧ SparingInv s tr) ?_ ?_ h
    · refine ⟨orderly_boot env .empty, trivial, fun req hreq => ?_, by simp⟩
      rcases hreq with (h | ⟨i, p, hp, -⟩ | h) | h
      · cases h
      · cases hp
      · cases h
      · cases h
    · intro s tr l ⟨ho, hs⟩ hl
      exact ⟨orderly_step s l ho, hs.step ho hl⟩
  exact both.2

theorem fleetSpared_of_known {env : Env} {ls : List Label}
    (h : Machine.Meets step KnownReporter (.boot env .empty) ls) :
    FleetSpared (runFrom env ls).1 (runFrom env ls).2 := by
  have inv := sparingInv_run h
  refine ⟨fun actor source verdict caseId score cmds he => inv.events _ he,
    fun req he => inv.events _ he, fun req hreq => inv.requests req (.inl (filed_row hreq)), ?_⟩
  intro row hrow
  have hrows : (runFrom env ls).1.db.verdicts = (runFrom env ls).2.filterMap Event.row? :=
    (consentInv_run env ls).rows
  rw [hrows] at hrow
  obtain ⟨e, he, hr⟩ := List.mem_filterMap.mp hrow
  cases e with
  | verdictRow actor row' =>
      obtain rfl := Option.some.inj hr
      exact inv.events _ he
  | _ => cases hr

/-! ## What an examined reporter ends in -/

/-- With the verdict thread alone running, the fleet is not spared for long. -/
def Dooms (s : Sys) (tr : List Event) : Prop :=
  ∃ k, ¬ FleetSpared (Machine.exec step (s, tr) (List.replicate k .verdict)).1
    (Machine.exec step (s, tr) (List.replicate k .verdict)).2

theorem dooms_now {s : Sys} {tr : List Event} (h : ¬ FleetSpared s tr) : Dooms s tr := ⟨0, h⟩

theorem dooms_step {s : Sys} {tr : List Event}
    (h : Dooms (verdictStep s).1 (tr ++ (verdictStep s).2)) : Dooms s tr := by
  obtain ⟨k, hk⟩ := h
  refine ⟨k + 1, ?_⟩
  rw [List.replicate_succ]
  exact hk

section Examined

variable {s : Sys} {tr : List Event} {c : CaseRecord} (hfleet : c.source ∈ fleetNames)

include hfleet

/-- A verdict other than IA_REFERRAL is recorded. -/
theorem dooms_emit {verdict : Verdict} {granted : Bool} (hverdict : verdict ≠ .iaReferral)
    (h : s.verdict = .emit c verdict granted .time) : Dooms s tr := by
  refine dooms_step ?_
  simp only [verdictStep, h, emitStep]
  refine dooms_step ?_
  simp only [verdictStep, emitStep]
  refine dooms_now fun hspared => hverdict ?_
  exact hspared.verdicts _ (List.mem_append_right _ (List.mem_singleton_self _)) hfleet

/-- A consent request is put into the table. -/
theorem dooms_queue {state : ThreatState} (h : s.verdict = .queueTime c state) : Dooms s tr := by
  refine dooms_step ?_
  simp only [verdictStep, h]
  refine dooms_step ?_
  simp only [verdictStep]
  refine dooms_now fun hspared => ?_
  exact hspared.rows _ (Sql.Table.mem_insertOrReplace.mpr (.inr rfl)) hfleet

theorem dooms_route {state : ThreatState} (h : s.verdict = route c state) : Dooms s tr := by
  cases state with
  | clean | watched | warned =>
      refine dooms_emit hfleet ?_ h
      simp
  | quarantined | houseArrest | jailed => exact dooms_queue hfleet h

theorem dooms_cap (h : s.verdict = .cap c) : Dooms s tr := by
  refine dooms_step ?_
  simp only [verdictStep, h]
  by_cases hjailed : applySovereigntyCap s.env.sovereignty c.source c.state = .jailed
  · -- JAILED has two prior verdicts to be counted first
    rw [if_pos hjailed]
    refine dooms_step ?_
    simp only [verdictStep]
    refine dooms_step ?_
    simp only [verdictStep]
    refine dooms_step ?_
    simp only [verdictStep]
    exact dooms_route hfleet rfl
  · rw [if_neg hjailed]
    exact dooms_route hfleet rfl

theorem dooms_examined (h : s.verdict = .freshTime c) : Dooms s tr := by
  refine dooms_step ?_
  simp only [verdictStep, h]
  refine dooms_step ?_
  simp only [verdictStep]
  by_cases hactive : dbSignalActive s.db c.source (freshCutoff s.env.time) = true
  · rw [if_pos hactive]
    exact dooms_cap hfleet rfl
  · rw [if_neg hactive]
    refine dooms_emit hfleet ?_ rfl
    simp

end Examined

/-- A case the court does not know the reporter of. -/
theorem dooms_unknown {s : Sys} {tr : List Event} (h : ¬ KnownReporter s .verdict) : Dooms s tr := by
  unfold KnownReporter at h
  push Not at h
  obtain ⟨-, hlock, source, hsource, hunlisted⟩ := h
  cases hpc : s.verdict with
  | iaCheck c =>
      rw [hpc] at hsource
      obtain rfl := List.mem_singleton.mp hsource
      obtain ⟨hfleet, hown⟩ := mem_unlistedNames.mp hunlisted
      refine dooms_step ?_
      simp only [verdictStep, hpc, hlock, hown, Bool.false_eq_true, if_false]
      exact dooms_examined hfleet rfl
  | _ =>
      rw [hpc] at hsource
      cases hsource

/-- **The court spares the reporters it knows, and no other.** In every run:
(a) if no case of `nulld` or `overlordd` comes to the own-daemon test of
`verdict_process`, nobody of the fleet is enforced against, asked about or
given a verdict but IA_REFERRAL; (b) none does in a run without signals of
these two; (c) one that does is punished, once the verdict thread has gone
on with it. -/
theorem fleet_spared_while_known (env : Env) (ls : List Label) :
    (Machine.Meets step KnownReporter (.boot env .empty) ls →
      FleetSpared (runFrom env ls).1 (runFrom env ls).2) ∧
    (NoUnlistedSignal ls → Machine.Meets step KnownReporter (.boot env .empty) ls) ∧
    (¬ KnownReporter (runFrom env ls).1 .verdict →
      ∃ k, ¬ FleetSpared
        (Machine.exec step (runFrom env ls) (List.replicate k .verdict)).1
        (Machine.exec step (runFrom env ls) (List.replicate k .verdict)).2) :=
  ⟨fleetSpared_of_known, knownReporter_of_signals, dooms_unknown⟩

/-- `nulld` has seen 500 KB leave an idle phone, and says so. -/
def idleReport : IngestRecord :=
  ⟨false, "nulld", "IDLE_DATA_TRANSMISSION", 500,
    "DATA TRANSMITTED while idle: 500KB tx, 12KB rx after 60s idle"⟩

/-- A report comes through the pipe, and the scorer thread takes it up: the
scoring and the assembly of its case. -/
def report (r : IngestRecord) : List Label := .ingest r :: List.replicate 12 .scorer

/-- A report of `shredderd` is referred, and one of `nulld` is a case against
`nulld`. -/
theorem fleet_spared_while_known_reports :
    let env : Env := ⟨1000000, false, none⟩
    let heard := startUp ++ report ⟨false, "shredderd", "ROOTKIT_MODULE", 600, ""⟩ ++
      List.replicate 5 .verdict
    let unheard := startUp ++ report idleReport ++ List.replicate 2 .verdict
    (NoUnlistedSignal heard ∧
      (runFrom env heard).1.db.verdicts.map (fun row => (row.source, row.verdict)) =
        [("shredderd", .iaReferral)] ∧
      FleetSpared (runFrom env heard).1 (runFrom env heard).2) ∧
    ¬ KnownReporter (runFrom env unheard).1 .verdict ∧
      ∃ k, ¬ FleetSpared
        (Machine.exec step (runFrom env unheard) (List.replicate k .verdict)).1
        (Machine.exec step (runFrom env unheard) (List.replicate k .verdict)).2 := by
  intro env heard unheard
  have hsignals : NoUnlistedSignal heard := by
    intro l hl r hr
    simp only [heard, startUp, report, List.mem_append, List.mem_cons, List.mem_replicate] at hl
    rcases hl with (⟨-, rfl⟩ | rfl | ⟨-, rfl⟩) | ⟨-, rfl⟩
    · cases hr
    · obtain rfl := Option.some.inj hr
      decide +kernel
    · cases hr
    · cases hr
  have hunknown : ¬ KnownReporter (runFrom env unheard).1 .verdict := by decide +kernel
  obtain ⟨hspared, hknown, -⟩ := fleet_spared_while_known env heard
  refine ⟨⟨hsignals, by decide +kernel, hspared (hknown hsignals)⟩, hunknown, ?_⟩
  exact (fleet_spared_while_known env unheard).2.2 hunknown

/-- The user is asked to put `nulld` under HOUSE_ARREST for its report. -/
theorem nulld_is_punished :
    ¬ ∀ (env : Env) (ls : List Label), FleetSpared (runFrom env ls).1 (runFrom env ls).2 := by
  intro h
  let ls : List Label := startUp ++ report idleReport ++ List.replicate 11 .verdict
  have asked : (runFrom ⟨1000000, false, none⟩ ls).1.db.consentQueue.rows.map
      (fun req => (req.source, req.verdict)) = [("nulld", .state .houseArrest)] := by
    decide +kernel
  obtain ⟨req, hreq, hpair⟩ := List.mem_map.mp (asked ▸ List.mem_singleton_self _)
  refine (h ⟨1000000, false, none⟩ ls).rows req hreq ?_
  have hname : req.source = "nulld" := congrArg Prod.fst hpair
  rw [hname]
  decide +kernel

end MiuiserPeruser.Gaveld
