import MiuiserPeruser.Gaveld.Threads

/-!
# gaveld — the moves of the verdict and the consent thread

`VerdictMove s pc s' es` lists, once, what a step of the verdict thread
at `pc` can do: the guard it passed, the state it leaves and the events
it reports. `ConsentMove` is the same list for the consent thread. An
invariant of a thread is then a case analysis on its moves, with the
guard of each branch at hand, and not on the program.
-/

namespace MiuiserPeruser.Gaveld

/-! ## The verdict thread -/

inductive VerdictMove (s : Sys) : VerdictPc → Sys → List Event → Prop where
  | off : VerdictMove s .off { s with verdict := .off } []
  | stop : s.verdictRunning = false → VerdictMove s .loop { s with verdict := .off } []
  | listen : s.verdictRunning = true → VerdictMove s .loop { s with verdict := .dequeue } []
  | take {c : CaseRecord} {rest : List CaseRecord} : s.verdictQueue = c :: rest →
      VerdictMove s .dequeue { s with verdictQueue := rest, verdict := .iaCheck c } []
  | wait : s.verdictQueue = [] → s.casesRunning = true →
      VerdictMove s .dequeue { s with verdict := .dequeue } []
  | closed : s.verdictQueue = [] → s.casesRunning = false →
      VerdictMove s .dequeue { s with verdict := .off } []
  | locked {c : CaseRecord} : s.env.iaLock = true →
      VerdictMove s (.iaCheck c) { s with verdict := .suspend c } []
  | refer {c : CaseRecord} : s.env.iaLock = false → tierIsOwnDaemon c.source = true →
      VerdictMove s (.iaCheck c) { s with verdict := .emit c .iaReferral false .time } []
  | examine {c : CaseRecord} : s.env.iaLock = false → tierIsOwnDaemon c.source = false →
      VerdictMove s (.iaCheck c) { s with verdict := .freshTime c } []
  | suspend {c : CaseRecord} :
      VerdictMove s (.suspend c)
        { s with db := dbCaseUpdateStatus s.db c.caseId .suspended, verdict := .loop }
        [.statusUpdate c.caseId c.source c.score .suspended]
  | freshTime {c : CaseRecord} :
      VerdictMove s (.freshTime c)
        { s with verdict := .freshQuery c (freshCutoff s.env.time) } []
  | active {c : CaseRecord} {cutoff : Int} : dbSignalActive s.db c.source cutoff = true →
      VerdictMove s (.freshQuery c cutoff) { s with verdict := .cap c } []
  | stale {c : CaseRecord} {cutoff : Int} : dbSignalActive s.db c.source cutoff = false →
      VerdictMove s (.freshQuery c cutoff)
        { s with verdict := .emit c .dismissedStale false .time } []
  | jailed {c : CaseRecord} :
      applySovereigntyCap s.env.sovereignty c.source c.state = .jailed →
      VerdictMove s (.cap c) { s with verdict := .floorTime c } []
  | capped {c : CaseRecord} :
      applySovereigntyCap s.env.sovereignty c.source c.state ≠ .jailed →
      VerdictMove s (.cap c)
        { s with
          verdict := route c (applySovereigntyCap s.env.sovereignty c.source c.state) } []
  | floorTime {c : CaseRecord} :
      VerdictMove s (.floorTime c)
        { s with verdict := .floorHouseArrest c (sessionStart s.env.time) } [.floor c s.env.time]
  | floorHouseArrest {c : CaseRecord} {since : Int} :
      VerdictMove s (.floorHouseArrest c since)
        { s with
          verdict := .floorQuarantined c since
            (dbVerdictCountRecent s.db c.source (.state .houseArrest) since) } []
  | floorQuarantined {c : CaseRecord} {since : Int} {priorHa : Nat} :
      VerdictMove s (.floorQuarantined c since priorHa)
        { s with
          verdict := route c (applyFloorJailed priorHa
            (dbVerdictCountRecent s.db c.source (.state .quarantined) since)) } []
  | emitTime {c : CaseRecord} {verdict : Verdict} {granted : Bool} :
      VerdictMove s (.emit c verdict granted .time)
        { s with verdict := .emit c verdict granted (.insert s.env.time) } []
  | emitInsert {c : CaseRecord} {verdict : Verdict} {granted : Bool} {now : Int} :
      VerdictMove s (.emit c verdict granted (.insert now))
        { s with
          db := dbVerdictInsert s.db ((c.emission verdict granted).row now)
          verdict := .emit c verdict granted (if verdict.contains then .criminal now else .status) }
        [.verdictRow .verdict ((c.emission verdict granted).row now)]
  | emitCriminal {c : CaseRecord} {verdict : Verdict} {granted : Bool} {now : Int} :
      VerdictMove s (.emit c verdict granted (.criminal now))
        { s with
          db := dbCriminalRecordInsert s.db ((c.emission verdict granted).criminalRow now)
          verdict := .emit c verdict granted .status } []
  | warn {c : CaseRecord} {granted : Bool} :
      VerdictMove s (.emit c (.state .warned) granted .status)
        { s with
          db := dbCaseUpdateStatus s.db c.caseId (.judged (.state .warned)), verdict := .enforce c }
        [.statusUpdate c.caseId c.source c.score (.judged (.state .warned))]
  | judge {c : CaseRecord} {verdict : Verdict} {granted : Bool} : verdict ≠ .state .warned →
      VerdictMove s (.emit c verdict granted .status)
        { s with db := dbCaseUpdateStatus s.db c.caseId (.judged verdict), verdict := .loop }
        [.statusUpdate c.caseId c.source c.score (.judged verdict)]
  | enforce {c : CaseRecord} :
      VerdictMove s (.enforce c) { s with verdict := .loop }
        [.enforce .verdict c.source (.state .warned) c.caseId c.score
          (enforceExecute s.env.sovereignty c.source (.state .warned))]
  | queueTime {c : CaseRecord} {state : ThreatState} :
      VerdictMove s (.queueTime c state)
        { s with verdict := .consentInsert (c.request state s.env.time) } []
  | consentInsert {req : ConsentRequest} :
      VerdictMove s (.consentInsert req)
        { s with db := dbConsentInsert s.db req, verdict := .enqueue req } [.queued req]
  | blocked {req : ConsentRequest} : s.consentLocked = true →
      VerdictMove s (.enqueue req) { s with verdict := .enqueue req } []
  | activate {req : ConsentRequest} {i : Slot} : s.consentLocked = false →
      freeSlot s.pending = some i →
      VerdictMove s (.enqueue req)
        { s with pending := consentEnqueue s.pending i req, verdict := .loop } [.activated i req]
  | refuse {req : ConsentRequest} : s.consentLocked = false → freeSlot s.pending = none →
      VerdictMove s (.enqueue req) { s with verdict := .loop } [.refused req]

theorem Sys.verdict_eta {s : Sys} {pc : VerdictPc} (h : s.verdict = pc) :
    { s with verdict := pc } = s := by
  rw [← h]

/-- **Every step of the verdict thread is a move.** -/
theorem verdictStep_move (s : Sys) :
    VerdictMove s s.verdict (verdictStep s).1 (verdictStep s).2 := by
  unfold verdictStep
  cases hv : s.verdict with
  | off =>
      have still : VerdictMove s .off { s with verdict := .off } [] := .off
      rwa [Sys.verdict_eta hv] at still
  | loop =>
      by_cases hr : s.verdictRunning = true
      · simpa only [if_pos hr] using VerdictMove.listen hr
      · simpa only [if_neg hr] using VerdictMove.stop (Bool.eq_false_iff.mpr hr)
  | dequeue =>
      simp only
      split
      · rename_i c rest hq
        exact .take hq
      · rename_i hq
        by_cases hr : s.casesRunning = true
        · simpa only [if_pos hr] using VerdictMove.wait hq hr
        · simpa only [if_neg hr] using VerdictMove.closed hq (Bool.eq_false_iff.mpr hr)
  | iaCheck c =>
      by_cases hlock : s.env.iaLock = true
      · simpa only [if_pos hlock] using VerdictMove.locked hlock
      · have hlock' : s.env.iaLock = false := Bool.eq_false_iff.mpr hlock
        by_cases hown : tierIsOwnDaemon c.source = true
        · simpa only [if_neg hlock, if_pos hown] using VerdictMove.refer hlock' hown
        · simpa only [if_neg hlock, if_neg hown] using
            VerdictMove.examine hlock' (Bool.eq_false_iff.mpr hown)
  | suspend c => exact .suspend
  | freshTime c => exact .freshTime
  | freshQuery c cutoff =>
      by_cases hactive : dbSignalActive s.db c.source cutoff = true
      · simpa only [if_pos hactive] using VerdictMove.active hactive
      · simpa only [if_neg hactive] using VerdictMove.stale (Bool.eq_false_iff.mpr hactive)
  | cap c =>
      by_cases hj : applySovereigntyCap s.env.sovereignty c.source c.state = .jailed
      · simpa only [if_pos hj] using VerdictMove.jailed hj
      · simpa only [if_neg hj] using VerdictMove.capped hj
  | floorTime c => exact .floorTime
  | floorHouseArrest c since => exact .floorHouseArrest
  | floorQuarantined c since priorHa => exact .floorQuarantined
  | emit c verdict granted pc =>
      cases pc with
      | time => exact .emitTime
      | insert now => exact .emitInsert
      | criminal now => exact .emitCriminal
      | status =>
          by_cases hw : verdict = .state .warned
          · subst hw
            exact .warn
          · simp only [emitStep, if_neg hw]
            exact .judge hw
  | enforce c => exact .enforce
  | queueTime c state => exact .queueTime
  | consentInsert req => exact .consentInsert
  | enqueue req =>
      by_cases hlock : s.consentLocked = true
      · have still : VerdictMove s (.enqueue req) { s with verdict := .enqueue req } [] :=
          .blocked hlock
        rw [Sys.verdict_eta hv] at still
        simpa only [if_pos hlock] using still
      · have hlock' : s.consentLocked = false := Bool.eq_false_iff.mpr hlock
        simp only [if_neg hlock, enqueueRequest]
        split
        · rename_i i hf
          exact .activate hlock' hf
        · rename_i hf
          exact .refuse hlock' hf

/-- The verdict thread touches the database, its queue, the slots and itself. -/
theorem VerdictMove.frame {s s' : Sys} {pc : VerdictPc} {es : List Event}
    (m : VerdictMove s pc s' es) :
    s' = { s with
      db := s'.db, verdictQueue := s'.verdictQueue, pending := s'.pending, verdict := s'.verdict } := by
  cases m <;> rfl

/-! ## The consent thread -/

inductive ConsentMove (s : Sys) : ConsentPc → Sys → List Event → Prop where
  | off : ConsentMove s .off { s with consent := .off } []
  | reloadRead :
      ConsentMove s .reloadRead
        { s with consent := .reload (dbConsentPending s.db consentQueueSize) }
        ((s.db.consentQueue.rows.filter fun r => r ∉ dbConsentPending s.db consentQueueSize).map
          .notLoaded)
  | reloaded : ConsentMove s (.reload []) { s with consent := .loop } []
  | reactivate {req : ConsentRequest} {rest : List ConsentRequest} {i : Slot} :
      freeSlot s.pending = some i →
      ConsentMove s (.reload (req :: rest))
        { s with pending := consentEnqueue s.pending i req, consent := .reload rest }
        [.activated i req]
  | refuse {req : ConsentRequest} {rest : List ConsentRequest} : freeSlot s.pending = none →
      ConsentMove s (.reload (req :: rest)) { s with consent := .reload rest } [.refused req]
  | stop : s.consentRunning = false → ConsentMove s .loop { s with consent := .off } []
  | wake {i : Slot} {p : Pending} : s.consentRunning = true → s.pending i = some p →
      ConsentMove s .loop { s with consent := .poll s.env.time 0 } []
  | sleep : s.consentRunning = true → (∀ i, s.pending i = none) →
      ConsentMove s .loop { s with consent := .loop } []
  | skip {now : Int} {i : Slot} : s.pending i = none →
      ConsentMove s (.poll now i) { s with consent := .poll now (i + 1) } []
  | look {now : Int} {i : Slot} {p : Pending} : s.pending i = some p → p.reply = none →
      ConsentMove s (.poll now i)
        { s with
          pending := Function.update s.pending i (some (p.polled now))
          consent := .poll now (i + 1) } []
  | resolve {now : Int} {i : Slot} {p : Pending} {approved : Bool} : s.pending i = some p →
      p.reply = some approved →
      ConsentMove s (.poll now i)
        { s with
          pending := Function.update s.pending i none
          consent := .remove now i p.req approved } [.resolve i p.req approved]
  | polled {now : Int} {i : Nat} : consentQueueSize ≤ i →
      ConsentMove s (.poll now i) { s with consent := .loop } []
  | remove {now : Int} {i : Slot} {req : ConsentRequest} {approved : Bool} :
      ConsentMove s (.remove now i req approved)
        { s with
          db := dbConsentRemove s.db req.caseId
          consent := .emit now i req approved .time } []
  | emitTime {now : Int} {i : Slot} {req : ConsentRequest} {approved : Bool} :
      ConsentMove s (.emit now i req approved .time)
        { s with consent := .emit now i req approved (.insert s.env.time) } []
  | emitInsert {now t : Int} {i : Slot} {req : ConsentRequest} {approved : Bool} :
      ConsentMove s (.emit now i req approved (.insert t))
        { s with
          db := dbVerdictInsert s.db ((req.emission approved).row t)
          consent := .emit now i req approved
            (if (req.emission approved).verdict.contains then .criminal t else .status) }
        [.verdictRow .consent ((req.emission approved).row t)]
  | emitCriminal {now t : Int} {i : Slot} {req : ConsentRequest} {approved : Bool} :
      ConsentMove s (.emit now i req approved (.criminal t))
        { s with
          db := dbCriminalRecordInsert s.db ((req.emission approved).criminalRow t)
          consent := .emit now i req approved .status } []
  | approve {now : Int} {i : Slot} {req : ConsentRequest} :
      ConsentMove s (.emit now i req true .status)
        { s with
          db := dbCaseUpdateStatus s.db req.caseId (.judged (req.emission true).verdict)
          consent := .enforce now i req }
        [.statusUpdate req.caseId req.source req.score (.judged (req.emission true).verdict)]
  | deny {now : Int} {i : Slot} {req : ConsentRequest} :
      ConsentMove s (.emit now i req false .status)
        { s with
          db := dbCaseUpdateStatus s.db req.caseId (.judged (req.emission false).verdict)
          consent := .relock now i req false }
        [.statusUpdate req.caseId req.source req.score (.judged (req.emission false).verdict)]
  | enforce {now : Int} {i : Slot} {req : ConsentRequest} :
      ConsentMove s (.enforce now i req) { s with consent := .relock now i req true }
        [.enforce .consent req.source req.verdict req.caseId req.score
          (enforceExecute s.env.sovereignty req.source req.verdict)]
  | relock {now : Int} {i : Slot} {req : ConsentRequest} {approved : Bool} :
      ConsentMove s (.relock now i req approved) { s with consent := .poll now (i + 1) }
        [.resolved i req approved]

theorem Sys.consent_eta {s : Sys} {pc : ConsentPc} (h : s.consent = pc) :
    { s with consent := pc } = s := by
  rw [← h]

theorem pollSlot_move (s : Sys) (now : Int) (i : Slot) :
    ConsentMove s (.poll now i) (pollSlot s now i).1 (pollSlot s now i).2 := by
  unfold pollSlot
  split
  · rename_i hp
    exact .skip hp
  · rename_i p hp
    split
    · rename_i hr
      exact .look hp hr
    · rename_i approved hr
      exact .resolve hp hr

/-- **Every step of the consent thread is a move.** -/
theorem consentStep_move (s : Sys) :
    ConsentMove s s.consent (consentStep s).1 (consentStep s).2 := by
  unfold consentStep
  cases hc : s.consent with
  | off =>
      have still : ConsentMove s .off { s with consent := .off } [] := .off
      rwa [Sys.consent_eta hc] at still
  | reloadRead => exact .reloadRead
  | reload rest =>
      cases rest with
      | nil => exact .reloaded
      | cons req rest =>
          simp only [enqueueRequest]
          split
          · rename_i i hf
            exact .reactivate hf
          · rename_i hf
            exact .refuse hf
  | loop =>
      simp only
      split
      · rename_i hr
        exact .stop (Bool.eq_false_iff.mpr hr)
      · rename_i hr
        have hr := not_not.mp hr
        split
        · rename_i hany
          obtain ⟨i, -, hi⟩ := List.any_eq_true.mp hany
          obtain ⟨p, hp⟩ := Option.isSome_iff_exists.mp hi
          exact .wake hr hp
        · rename_i hany
          have still : ConsentMove s .loop { s with consent := .loop } [] := by
            refine .sleep hr fun i => Option.not_isSome_iff_eq_none.mp fun hi => hany ?_
            exact List.any_eq_true.mpr ⟨i, List.mem_finRange i, hi⟩
          rwa [Sys.consent_eta hc] at still
  | poll now i =>
      simp only
      split
      · rename_i hi
        exact pollSlot_move s now ⟨i, hi⟩
      · rename_i hi
        exact .polled (Nat.not_lt.mp hi)
  | remove now i req approved => exact .remove
  | emit now i req approved pc =>
      cases pc with
      | time => exact .emitTime
      | insert t => exact .emitInsert
      | criminal t => exact .emitCriminal
      | status =>
          cases approved with
          | true => exact .approve
          | false => exact .deny
  | enforce now i req => exact .enforce
  | relock now i req approved => exact .relock

/-- The consent thread touches the database, its table and itself. -/
theorem ConsentMove.frame {s s' : Sys} {pc : ConsentPc} {es : List Event}
    (m : ConsentMove s pc s' es) :
    s' = { s with db := s'.db, pending := s'.pending, consent := s'.consent } := by
  cases m <;> rfl

end MiuiserPeruser.Gaveld
