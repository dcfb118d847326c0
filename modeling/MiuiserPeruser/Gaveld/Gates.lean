import MiuiserPeruser.Gaveld.Emits

/-!
# gaveld — the gates at the moment of enforcement

`verdict_process` checks that `internal_affairs.lock` is absent and that
the source has a signal of the last 60 seconds, and a WARNED case is then
enforced at once. `resolve_entry` checks NEITHER: it enforces a
containment whenever the user's approval is taken up, hours or a restart
later. Here the gates are followed from the point where a thread commits
to an enforcement to the call itself.
-/

namespace MiuiserPeruser.Gaveld

/-- Both gates are open for the source, now. -/
def Sys.gatesOpen (s : Sys) (source : String) : Bool :=
  !s.env.iaLock && dbSignalActive s.db source (freshCutoff s.env.time)

/-- The gates are open for the source an event enforces. -/
def Event.gated (s : Sys) : Event → Bool
  | .enforce _ source _ _ _ _ => s.gatesOpen source
  | _ => true

/-- Every `enforce_execute` of the step is called with the gates open. -/
def GatesAtEnforcement (s : Sys) (l : Label) : Prop := ∀ e ∈ (step s l).2, e.gated s = true

instance (s : Sys) (l : Label) : Decidable (GatesAtEnforcement s l) :=
  inferInstanceAs (Decidable (∀ e ∈ (step s l).2, e.gated s = true))

/-! ## From the commitment to the call -/

/-- The source the verdict thread is about to enforce: it has passed the
gates with a WARNED case. -/
def VerdictPc.enforcing : VerdictPc → List String
  | .cap c => if c.state = .warned then [c.source] else []
  | .emit c verdict _ _ => if verdict = .state .warned then [c.source] else []
  | .enforce c => [c.source]
  | _ => []

/-- The source the consent thread is about to enforce. -/
def ConsentPc.enforcing : ConsentPc → List String
  | .remove _ _ req true | .emit _ _ req true _ | .enforce _ _ req => [req.source]
  | _ => []

def Sys.enforcing (s : Sys) : List String := s.verdict.enforcing ++ s.consent.enforcing

/-- The source a step commits its thread to enforce. -/
def commits (s : Sys) : Label → List String
  | .verdict =>
      match s.verdict with
      | .freshQuery c cutoff =>
          if c.state = .warned ∧ dbSignalActive s.db c.source cutoff then [c.source] else []
      | _ => []
  | .consent =>
      match s.consent with
      | .poll _ i =>
          if h : i < consentQueueSize then
            match s.pending ⟨i, h⟩ with
            | some ⟨req, _, some true⟩ => [req.source]
            | _ => []
          else []
      | _ => []
  | _ => []

/-- The time a scoring or a tick in progress has read is not after `t`. -/
def Worker.readBy (t : Int) : Worker → Bool
  | .scoring _ c _ => c.now ≤ t
  | .decaying now _ => now ≤ t
  | _ => true

/-- A change of the environment closes no gate on a thread that is
committed, and does not set the clock back behind a reading in use. -/
def Undisturbed (s : Sys) : Label → Prop
  | .setLock present => present = true → s.enforcing = []
  | .setClock ms => (∀ role, (s.worker role).readBy (ms / 1000) = true) ∧
      ∀ source ∈ s.enforcing, dbSignalActive s.db source (freshCutoff (ms / 1000)) = true
  | _ => True

/-- A step that commits its thread finds the gates open, and the
environment leaves those alone that are committed. -/
def GateSafe (s : Sys) (l : Label) : Prop :=
  (∀ source ∈ commits s l, s.gatesOpen source = true) ∧ Undisturbed s l

instance (s : Sys) : ∀ l, Decidable (Undisturbed s l)
  | .setLock present => inferInstanceAs (Decidable (present = true → s.enforcing = []))
  | .setClock ms => inferInstanceAs (Decidable ((∀ role, (s.worker role).readBy (ms / 1000) = true) ∧
      ∀ source ∈ s.enforcing, dbSignalActive s.db source (freshCutoff (ms / 1000)) = true))
  | .main | .verdict | .consent | .scorer | .decay | .ingest _ | .client _ | .shutdown | .restart
  | .setSovereignty _ => isTrue trivial

instance (s : Sys) (l : Label) : Decidable (GateSafe s l) :=
  inferInstanceAs (Decidable ((∀ source ∈ commits s l, s.gatesOpen source = true) ∧
    Undisturbed s l))

structure GateInv (s : Sys) : Prop where
  readings : ∀ role, (s.worker role).readBy s.env.time = true
  gates : ∀ source ∈ s.enforcing, s.gatesOpen source = true

/-! ## The signal window -/

/-- A worker removes no row of the last 60 seconds: it prunes at 120
seconds before a time it has read. -/
theorem workerStep_window {s : Sys} {w : Worker} (hw : w.readBy s.env.time = true) {r : SignalRow}
    (hr : r ∈ s.db.signalWindow) (hfresh : freshCutoff s.env.time < r.epoch) :
    r ∈ (workerStep s w).1.db.signalWindow := by
  have kept : ∀ now, now ≤ s.env.time →
      r ∈ (dbSignalPrune s.db (windowStart now)).signalWindow := by
    intro now hnow
    have hnew : ¬ r.epoch < windowStart now := by
      simp only [freshCutoff, floorCleanSignalMaxAgeSec] at hfresh
      simp only [windowStart, signalWindowSec]
      omega
    exact List.mem_filter.mpr ⟨hr, decide_eq_true hnew⟩
  cases w with
  | scoring rec c pc =>
      cases pc with
      | insert => exact List.mem_append_left _ hr
      | prune =>
          refine kept c.now ?_
          simpa [Worker.readBy] using hw
      | load | distinct | upsert | log | done => exact hr
  | assembling rec result pc => cases pc <;> exact hr
  | decaying now pc =>
      cases pc with
      | prune => exact kept now (by simpa [Worker.readBy] using hw)
      | all | active | upsert | done => exact hr
  | off | idle | scoreBegin | decayBegin | decayTime => exact hr

theorem VerdictMove.window {s s' : Sys} {pc : VerdictPc} {es : List Event}
    (m : VerdictMove s pc s' es) : s'.db.signalWindow = s.db.signalWindow := by
  cases m <;> rfl

theorem ConsentMove.window {s s' : Sys} {pc : ConsentPc} {es : List Event}
    (m : ConsentMove s pc s' es) : s'.db.signalWindow = s.db.signalWindow := by
  cases m <;> rfl

theorem step_window {s : Sys} (ho : Orderly s) (h : GateInv s) (l : Label) {r : SignalRow}
    (hr : r ∈ s.db.signalWindow) (hfresh : freshCutoff s.env.time < r.epoch) :
    r ∈ (step s l).1.db.signalWindow := by
  rcases step_kind ho l with ⟨role, rfl, hw⟩ | hj | hi
  · rw [step_worker hw, setWorker_db]
    exact workerStep_window (h.readings role) hr hfresh
  · cases hj with
    | verdict => exact (verdictStep_move s).window ▸ hr
    | consent => exact (consentStep_move s).window ▸ hr
    | restart => exact hr
    | startVerdict hm | resetPending hm | startConsent hm =>
        simp only [step, mainStep, hm]
        exact hr
    | replying hm hl =>
        rw [step_replying hm hl]
        rw [replyRequest_frame]
        exact hr
  · exact hi.db ▸ hr

/-! ## One step -/

theorem workerStep_readBy (s : Sys) {w : Worker} (h : w.readBy s.env.time = true) :
    (workerStep s w).2.1.readBy s.env.time = true := by
  cases w with
  | scoring rec c pc =>
      have hnow : c.now ≤ s.env.time := by simpa [Worker.readBy] using h
      cases pc with
      | log | done => rfl
      | load | insert | prune | distinct | upsert =>
          simpa [workerStep, scorerStep, ScorerCall.readList, Worker.readBy] using hnow
  | assembling rec result pc => cases pc <;> rfl
  | decaying now pc =>
      have hnow : now ≤ s.env.time := by simpa [Worker.readBy] using h
      simp only [workerStep]
      split
      · rfl
      · simpa [Worker.readBy] using hnow
  | scoreBegin | decayTime => simp [workerStep, Worker.readBy]
  | decayBegin =>
      simp only [workerStep]
      split <;> rfl
  | off | idle => rfl

theorem GateInv.readings_step {s : Sys} (ho : Orderly s) (h : GateInv s) {l : Label}
    (hl : GateSafe s l) (role : Role) :
    ((step s l).1.worker role).readBy (step s l).1.env.time = true := by
  rcases step_worker_cases ho l role with heq | ⟨-, hfresh⟩ | ⟨rfl, -, heq⟩
  · rw [heq, step_env]
    cases l with
    | setClock ms => exact hl.2.1 role
    | _ => exact h.readings role
  · cases hw : (step s l).1.worker role with
    | off | idle | scoreBegin | assembling | decayBegin | decayTime => rfl
    | scoring | decaying =>
        rw [hw] at hfresh
        cases hfresh
  · rw [heq, step_env]
    cases role <;> exact workerStep_readBy s (h.readings _)

/-- Open gates stay open for a source that a thread is committed to. -/
theorem GateInv.gates_stay {s : Sys} (ho : Orderly s) (h : GateInv s) {l : Label}
    (hl : GateSafe s l) {source : String}
    (hsource : source ∈ s.enforcing ∨ source ∈ commits s l) (hopen : s.gatesOpen source = true) :
    (step s l).1.gatesOpen source = true := by
  simp only [Sys.gatesOpen, Bool.and_eq_true, Bool.not_eq_true'] at hopen ⊢
  obtain ⟨hlock, hfresh⟩ := hopen
  obtain ⟨r, hr, hrs, hre⟩ := dbSignalActive_iff.mp hfresh
  have hkept := step_window ho h l hr hre
  rw [step_env]
  cases l with
  | setLock present =>
      cases present with
      | true =>
          rw [hl.2 rfl] at hsource
          rcases hsource with hs | hs <;> cases hs
      | false => exact ⟨rfl, dbSignalActive_iff.mpr ⟨r, hkept, hrs, hre⟩⟩
  | setClock ms =>
      refine ⟨hlock, ?_⟩
      rcases hsource with hs | hs
      · exact hl.2.2 source hs
      · cases hs
  | _ => exact ⟨hlock, dbSignalActive_iff.mpr ⟨r, hkept, hrs, hre⟩⟩

/-! ## Who is committed -/

theorem route_enforcing {c : CaseRecord} {state : ThreatState} {source : String}
    (h : source ∈ (route c state).enforcing) : state = .warned ∧ source = c.source := by
  cases state with
  | warned => exact ⟨rfl, List.mem_singleton.mp h⟩
  | clean | watched | quarantined | houseArrest | jailed => cases h

theorem VerdictMove.enforcing {s s' : Sys} {pc : VerdictPc} {es : List Event} {source : String}
    (m : VerdictMove s pc s' es) (hv : s.verdict = pc) (h : source ∈ s'.verdict.enforcing) :
    source ∈ pc.enforcing ∨ source ∈ commits s .verdict := by
  cases m with
  | active hactive =>
      simp only [VerdictPc.enforcing] at h
      split at h
      · rename_i hw
        refine .inr ?_
        simpa [commits, hv, hw, hactive] using h
      · cases h
  | capped =>
      obtain ⟨hw, rfl⟩ := route_enforcing h
      refine .inl ?_
      simp [VerdictPc.enforcing, applySovereigntyCap_warned.mp hw]
  | floorQuarantined =>
      obtain ⟨hw, -⟩ := route_enforcing h
      unfold applyFloorJailed at hw
      split at hw <;> cases hw
  | emitTime | emitInsert | emitCriminal | warn => exact .inl h
  | _ => cases h

theorem ConsentMove.enforcing {s s' : Sys} {pc : ConsentPc} {es : List Event} {source : String}
    (m : ConsentMove s pc s' es) (hc : s.consent = pc) (h : source ∈ s'.consent.enforcing) :
    source ∈ pc.enforcing ∨ source ∈ commits s .consent := by
  cases m with
  | @resolve now i p approved hp hr =>
      obtain ⟨req, lastNotified, reply⟩ := p
      obtain rfl : reply = some approved := hr
      cases approved with
      | true =>
          refine .inr ?_
          simpa [commits, hc, hp, ConsentPc.enforcing] using h
      | false => cases h
  | remove | emitTime | emitInsert | emitCriminal =>
      rename_i approved
      cases approved with
      | true => exact .inl h
      | false => cases h
  | approve => exact .inl h
  | _ => cases h

/-- A thread is committed because it was, or because its step commits it. -/
theorem step_enforcing {s : Sys} (ho : Orderly s) {l : Label} {source : String}
    (h : source ∈ (step s l).1.enforcing) : source ∈ s.enforcing ∨ source ∈ commits s l := by
  rcases List.mem_append.mp h with h | h
  · let V (pc : VerdictPc) : Prop :=
      ∀ src ∈ pc.enforcing, src ∈ s.enforcing ∨ src ∈ commits s l
    have hidle : ∀ pc : VerdictPc, pc.idle = true → V pc := by
      intro pc hpc src hsrc
      cases pc with
      | off | loop | dequeue => cases hsrc
      | _ => cases hpc
    refine step_verdict_pc (V := V) ho l hidle
      (fun src hsrc => .inl (List.mem_append_left _ hsrc)) ?_ source h
    rintro rfl src hsrc
    exact ((verdictStep_move s).enforcing rfl hsrc).imp_left (List.mem_append_left _)
  · rcases step_consent_cases ho l with heq | ⟨rfl, heq⟩ | ⟨-, -, heq⟩ | ⟨-, heq⟩
    · rw [heq] at h
      exact .inl (List.mem_append_right _ h)
    · rw [heq] at h
      exact ((consentStep_move s).enforcing rfl h).imp_left (List.mem_append_right _)
    · rw [heq] at h
      cases h
    · rw [heq] at h
      cases h

theorem GateInv.step {s : Sys} (ho : Orderly s) (h : GateInv s) {l : Label} (hl : GateSafe s l) :
    GateInv (step s l).1 where
  readings := h.readings_step ho hl
  gates := by
    intro source hsource
    have hfrom := step_enforcing ho hsource
    refine h.gates_stay ho hl hfrom ?_
    exact hfrom.elim (h.gates source) (hl.1 source)

/-- The call itself is made by a committed thread. -/
theorem GateInv.gated {s : Sys} (ho : Orderly s) (h : GateInv s) (l : Label) :
    GatesAtEnforcement s l := by
  intro e he
  cases step_emits ho he with
  | verdictEnforce hv =>
      refine h.gates _ (List.mem_append_left _ ?_)
      rw [hv]
      exact List.mem_singleton_self _
  | consentEnforce hc =>
      refine h.gates _ (List.mem_append_right _ ?_)
      rw [hc]
      exact List.mem_singleton_self _
  | _ => rfl

/-- **The gates at the moment of enforcement.** In every run whose steps
are all `GateSafe`, every `enforce_execute` is called while the lock is
absent and the source has a signal of the last 60 seconds. -/
theorem gates_open_at_enforcement (env : Env) (ls : List Label)
    (hsafe : Machine.Meets step GateSafe (.boot env .empty) ls) :
    Machine.Meets step GatesAtEnforcement (.boot env .empty) ls := by
  refine Machine.Meets.of_invariant (P := fun s => Orderly s ∧ GateInv s) ?_ ?_ ls _ ?_ hsafe
  · rintro s l ⟨ho, h⟩ hl
    exact ⟨orderly_step s l ho, h.step ho hl⟩
  · rintro s l ⟨ho, h⟩ -
    exact h.gated ho l
  · refine ⟨orderly_boot env .empty, fun role => ?_, fun source hsource => ?_⟩
    · cases role <;> rfl
    · cases hsource

/-- An approval that is taken up at once finds the gates open. -/
theorem gates_open_at_enforcement_quarantine :
    let env : Env := ⟨1000000, false, none⟩
    let ls := askQuarantine ++ approve "case_1000000"
    Machine.Meets step GateSafe (.boot env .empty) ls ∧
      .enforce .consent "com.example.app" (.state .quarantined) "case_1000000" 55
        [.amForceStop "com.example.app"] ∈ (runFrom env ls).2 ∧
      Machine.Meets step GatesAtEnforcement (.boot env .empty) ls := by
  intro env ls
  have hsafe : Machine.Meets step GateSafe (.boot env .empty) ls := by decide +kernel
  exact ⟨hsafe, by decide +kernel, gates_open_at_enforcement env ls hsafe⟩

/-- The lock is raised and an hour passes before the user approves: the
app is stopped all the same. -/
theorem gates_may_be_closed :
    ¬ ∀ (env : Env) (ls : List Label), Machine.Meets step GatesAtEnforcement (.boot env .empty) ls := by
  intro h
  have closed : ¬ Machine.Meets step GatesAtEnforcement (.boot ⟨1000000, false, none⟩ .empty)
      (askQuarantine ++ [.setLock true, .setClock 4600000] ++ approve "case_1000000") := by
    decide +kernel
  exact closed (h _ _)

end MiuiserPeruser.Gaveld
