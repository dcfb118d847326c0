import MiuiserPeruser.Gaveld.CaseIdentity
import MiuiserPeruser.Gaveld.Ledger

/-!
# gaveld — the pending table and `consent_queue`

The two books of pending consents agree whenever nothing is in hand, as
long as case ids are distinct. `Agreement` puts the `Ledger` over the
daemon's state, next to what makes a filed id new: a case that is not yet
filed is in ONE place, and its id has no row.

Two rows may lack a slot by design: the table has a fixed number of
slots, and the reload reads no more rows than that. The verdict thread
is started before the reload; a request it files before the reload has
read the table is reloaded and seated twice, which `ReloadFirst` leaves
out.
-/

namespace MiuiserPeruser.Gaveld

open History

/-! ## Cases that are not filed -/

def Worker.caseIds (w : Worker) : List String := w.cases.map CaseRecord.caseId

/-- The ids of the cases that have no row in `consent_queue` yet. -/
def Sys.unfiled (s : Sys) : List String :=
  (s.worker .socket).caseIds ++ (s.worker .scorer).caseIds ++ (s.worker .decay).caseIds ++
    (s.queuedIds ++ s.verdict.undecided)

/-- The ids named by some events. -/
def newIds (es : List Event) : List String := (assembledCases es).map CaseRecord.caseId

theorem count_queuePush (size : Nat) (queue : List CaseRecord) (c : CaseRecord) (caseId : String) :
    ((queuePush size queue c).1.map CaseRecord.caseId).count caseId ≤
      [c.caseId].count caseId + (queue.map CaseRecord.caseId).count caseId := by
  unfold queuePush
  split
  · have htail : (queue.tail.map CaseRecord.caseId).count caseId ≤
        (queue.map CaseRecord.caseId).count caseId :=
      ((List.tail_sublist queue).map _).count_le _
    simp only [List.map_append, List.map_cons, List.map_nil, List.count_append]
    omega
  · simp only [List.map_append, List.map_cons, List.map_nil, List.count_append]
    omega

/-- A worker moves its case to the queue, or names a new one. -/
theorem count_workerStep (s : Sys) (w : Worker) (caseId : String) :
    (workerStep s w).2.1.caseIds.count caseId + (workerStep s w).1.queuedIds.count caseId ≤
      w.caseIds.count caseId + s.queuedIds.count caseId +
        (newIds (workerStep s w).2.2).count caseId := by
  have still : ∀ (w' : Worker) (es : List Event), w'.cases = [] →
      w'.caseIds.count caseId + s.queuedIds.count caseId ≤
        w.caseIds.count caseId + s.queuedIds.count caseId + (newIds es).count caseId := by
    intro w' es hw'
    rw [Worker.caseIds, hw']
    simp only [List.map_nil, List.count_nil]
    omega
  cases w with
  | scoring r call pc => cases pc <;> exact still _ [] rfl
  | assembling r result pc =>
      cases pc with
      | time => exact still _ [] rfl
      | caseId now =>
          -- the new id is counted among the ids of the step's events
          have hnone : (Worker.assembling r result (.caseId now)).caseIds = [] := rfl
          rw [hnone]
          simp only [workerStep, assembleStep, Worker.caseIds, Worker.cases, newIds, assembledCases,
            Event.assembledCase?, List.filterMap_cons, List.filterMap_nil, List.map_cons,
            List.map_nil, List.count_nil]
          omega
      | insert c =>
          have hsame : (workerStep s (.assembling r result (.insert c))).2.1.caseIds =
              [c.caseId] := by
            simp only [workerStep, assembleStep]
            split <;> rfl
          rw [hsame]
          exact Nat.le_add_right _ _
      | dismiss c => exact still _ _ rfl
      | push c =>
          have hpush := count_queuePush verdictQueueSize s.verdictQueue c caseId
          simp only [workerStep, assembleStep, Worker.caseIds, Worker.cases, Sys.queuedIds,
            List.map_nil, List.map_cons, List.count_nil] at hpush ⊢
          omega
  | decaying now pc =>
      refine still _ [] ?_
      simp only [workerStep]
      split <;> rfl
  | decayBegin =>
      refine still _ [] ?_
      simp only [workerStep]
      split <;> rfl
  | off | idle | scoreBegin | decayTime => exact still _ [] rfl

/-- The verdict thread takes its case from the queue, and lets it go. -/
theorem VerdictMove.count {s s' : Sys} {pc : VerdictPc} {es : List Event}
    (m : VerdictMove s pc s' es) (caseId : String) :
    (s'.queuedIds ++ s'.verdict.undecided).count caseId ≤
      (s.queuedIds ++ pc.undecided).count caseId := by
  have keep : s'.queuedIds = s.queuedIds → s'.verdict.undecided = pc.undecided →
      (s'.queuedIds ++ s'.verdict.undecided).count caseId ≤
        (s.queuedIds ++ pc.undecided).count caseId := by
    intro hqueue hundecided
    rw [hqueue, hundecided]
  have leave : s'.queuedIds = s.queuedIds → s'.verdict.undecided = [] →
      (s'.queuedIds ++ s'.verdict.undecided).count caseId ≤
        (s.queuedIds ++ pc.undecided).count caseId := by
    intro hqueue hundecided
    rw [hqueue, hundecided, List.append_nil, List.count_append]
    omega
  cases m with
  | take hq =>
      simp only [Sys.queuedIds, hq, VerdictPc.undecided, List.map_cons, List.count_append,
        List.count_cons, List.count_nil]
      omega
  | capped | floorQuarantined => exact keep rfl (route_undecided _ _)
  | suspend | warn | judge | enforce | consentInsert => exact leave rfl rfl
  | _ => exact keep rfl rfl

/-- Outside the workers and the verdict thread, a step keeps the queue and
the verdict thread, or clears them. -/
theorem step_docket {s : Sys} (ho : Orderly s) {l : Label} (hl : l ≠ .verdict)
    (hw : ∀ role, l = role.label → (s.worker role).working = false) :
    ((step s l).1.queuedIds = s.queuedIds ∨ (step s l).1.queuedIds = []) ∧
      ((step s l).1.verdict.undecided = s.verdict.undecided ∨
        (step s l).1.verdict.undecided = []) := by
  rcases step_kind ho l with ⟨role, rfl, hrole⟩ | hj | hi
  · rw [hw role rfl] at hrole
    cases hrole
  · cases hj with
    | verdict => exact absurd rfl hl
    | consent =>
        simp only [step]
        rw [consentStep_frame]
        exact ⟨.inl rfl, .inl rfl⟩
    | restart => exact ⟨.inr rfl, .inr rfl⟩
    | startVerdict hm =>
        rw [step_startVerdict hm]
        exact ⟨.inl rfl, .inr rfl⟩
    | resetPending hm | startConsent hm =>
        exact ⟨.inl (by simp only [step, mainStep, hm]; rfl), .inl (by simp only [step, mainStep, hm])⟩
    | replying hm hlock =>
        rw [step_replying hm hlock]
        rw [replyRequest_frame]
        exact ⟨.inl rfl, .inl rfl⟩
  · have hverdict : (step s l).1.verdict = s.verdict := congrArg Bench.verdict hi.bench
    exact ⟨.inl (by rw [Sys.queuedIds, hi.queue]; rfl), .inl (by rw [hverdict])⟩

theorem caseIds_of_fresh {w : Worker} (h : w.fresh = true) : w.caseIds = [] := by
  cases w with
  | off | idle | scoreBegin | decayBegin => rfl
  | _ => cases h

/-- **A case is in one place**: a step moves ids, drops them, or names a
new one. -/
theorem count_step {s : Sys} (ho : Orderly s) (l : Label) (caseId : String) :
    (step s l).1.unfiled.count caseId ≤
      s.unfiled.count caseId + (newIds (step s l).2).count caseId := by
  by_cases hw : ∃ role : Role, l = role.label ∧ (s.worker role).working = true
  · obtain ⟨role, rfl, hw⟩ := hw
    obtain ⟨hbench, -, hother⟩ := step_worker_frame hw
    have hcount := count_workerStep s (s.worker role) caseId
    have hself : (step s role.label).1.worker role = (workerStep s (s.worker role)).2.1 := by
      rw [step_worker hw, setWorker_worker]
    have hqueue : (step s role.label).1.queuedIds =
        (workerStep s (s.worker role)).1.queuedIds := by
      rw [step_worker hw]
      cases role <;> rfl
    have hevents : (step s role.label).2 = (workerStep s (s.worker role)).2.2 := by
      rw [step_worker hw]
    have hverdict : (step s role.label).1.verdict = s.verdict := congrArg Bench.verdict hbench
    rw [← hself, ← hqueue, ← hevents] at hcount
    simp only [Sys.unfiled, List.count_append, hverdict]
    cases role with
    | socket =>
        rw [hother .scorer (by decide), hother .decay (by decide)]
        omega
    | scorer =>
        rw [hother .socket (by decide), hother .decay (by decide)]
        omega
    | decay =>
        rw [hother .socket (by decide), hother .scorer (by decide)]
        omega
  · have hidle : ∀ role : Role, l = role.label → (s.worker role).working = false := by
      intro role hl
      cases hr : (s.worker role).working with
      | false => rfl
      | true => exact absurd ⟨role, hl, hr⟩ hw
    have hworkers : ∀ role, ((step s l).1.worker role).caseIds.count caseId ≤
        (s.worker role).caseIds.count caseId := by
      intro role
      rcases step_worker_cases ho l role with heq | ⟨-, hfresh⟩ | ⟨hl, hwork, -⟩
      · rw [heq]
      · rw [caseIds_of_fresh hfresh, List.count_nil]
        exact Nat.zero_le _
      · exact absurd ⟨role, hl, hwork⟩ hw
    have hdocket : ((step s l).1.queuedIds ++ (step s l).1.verdict.undecided).count caseId ≤
        (s.queuedIds ++ s.verdict.undecided).count caseId := by
      by_cases hl : l = .verdict
      · subst hl
        exact (verdictStep_move s).count caseId
      · obtain ⟨hq, hv⟩ := step_docket ho hl hidle
        rw [List.count_append, List.count_append]
        rcases hq with hq | hq <;> rcases hv with hv | hv <;> rw [hq, hv] <;>
          simp only [List.count_nil] <;> omega
    have h₁ := hworkers .socket
    have h₂ := hworkers .scorer
    have h₃ := hworkers .decay
    simp only [Sys.unfiled, List.count_append] at hdocket ⊢
    omega

/-! ## The books of the daemon -/

/-- A request that has a row and waits for its slot. -/
def VerdictPc.inHand : VerdictPc → List ConsentRequest
  | .enqueue req => [req]
  | _ => []

/-- A request that has a row and waits for its slot, or has given its slot
up and still has the row. -/
def ConsentPc.inHand : ConsentPc → List ConsentRequest
  | .reload rest => rest
  | .remove _ _ req _ => [req]
  | _ => []

def Sys.inHand (s : Sys) : List ConsentRequest := s.consent.inHand ++ s.verdict.inHand

/-- The reload has not read the table yet. -/
def Sys.Unread (s : Sys) : Prop := s.main.beforeConsent = true ∨ s.consent = .reloadRead

/-- This process found no free slot for the case, or did not reload it. -/
def Excused (tr : List Event) (caseId : String) : Prop :=
  ∃ req : ConsentRequest, req.caseId = caseId ∧
    (Since (fun e => e ≠ .restart) (.refused req) tr ∨
      Since (fun e => e ≠ .restart) (.notLoaded req) tr)

/-- At `db_consent_insert`. -/
def VerdictPc.filing : VerdictPc → Bool
  | .consentInsert _ => true
  | _ => false

/-- The verdict thread files no request before the reload has read the table. -/
def ReloadFirst (s : Sys) (l : Label) : Prop :=
  l = .verdict → s.consent = .reloadRead → s.verdict.filing = false

instance (s : Sys) (l : Label) : Decidable (ReloadFirst s l) :=
  inferInstanceAs (Decidable (l = .verdict → s.consent = .reloadRead → s.verdict.filing = false))

structure Agreement (s : Sys) (tr : List Event) : Prop where
  ledger : Ledger s.db.consentQueue s.pending s.inHand fun caseId => s.Unread ∨ Excused tr caseId
  unread : s.Unread → s.pending = .clear ∧ s.inHand = []
  unfiled : s.unfiled.Nodup
  fresh : ∀ caseId ∈ s.unfiled, caseId ∉ s.consentIds

theorem Excused.append {tr es : List Event} {caseId : String} (h : Excused tr caseId)
    (hes : ∀ e ∈ es, e ≠ .restart) : Excused (tr ++ es) caseId := by
  obtain ⟨req, hid, h⟩ := h
  exact ⟨req, hid, h.imp (fun h => h.append hes) fun h => h.append hes⟩

/-- An event that excuses a case, among the last ones. -/
theorem excused_of_mem {tr es : List Event} {e : Event} {req : ConsentRequest} (he : e ∈ es)
    (hreq : e = .refused req ∨ e = .notLoaded req) (hes : ∀ e ∈ es, e ≠ .restart) :
    Excused (tr ++ es) req.caseId := by
  obtain ⟨pre, post, rfl⟩ := List.append_of_mem he
  have hsince : Since (fun e => e ≠ .restart) e (tr ++ (pre ++ e :: post)) :=
    ⟨post, ⟨tr ++ pre, by simp⟩, fun x hx => hes x (by simp [hx])⟩
  rcases hreq with rfl | rfl
  · exact ⟨req, rfl, .inl hsince⟩
  · exact ⟨req, rfl, .inr hsince⟩

/-! ## The verdict thread -/

theorem route_inHand (c : CaseRecord) (state : ThreatState) : (route c state).inHand = [] := by
  cases state <;> rfl

/-- What a thread in the middle of a booking implies. -/
theorem Agreement.read {s : Sys} {tr : List Event} (h : Agreement s tr) (req : ConsentRequest)
    (hreq : req ∈ s.inHand) : ¬ s.Unread := by
  intro hu
  rw [(h.unread hu).2] at hreq
  cases hreq

section Steps

variable {s s' : Sys} {tr es : List Event}

theorem Agreement.ledger_verdict {pc : VerdictPc} (m : VerdictMove s pc s' es)
    (hv : s.verdict = pc) (ho : Orderly s) (h : Agreement s tr) (hl : ReloadFirst s .verdict) :
    Ledger s'.db.consentQueue s'.pending s'.inHand
        (fun caseId => s'.Unread ∨ Excused (tr ++ es) caseId) ∧
      (s'.Unread → s'.pending = .clear ∧ s'.inHand = []) := by
  have running : ∀ e ∈ es, e ≠ .restart := by cases m <;> simp
  have hunread : s'.Unread ↔ s.Unread := by
    unfold Sys.Unread
    rw [m.frame]
  have hledger : Ledger s.db.consentQueue s.pending s.inHand fun caseId =>
      s'.Unread ∨ Excused (tr ++ es) caseId :=
    h.ledger.waive fun caseId => Or.imp hunread.mpr fun h => h.append running
  -- a move without a booking
  have keep : s'.db.consentQueue = s.db.consentQueue → s'.pending = s.pending →
      s'.verdict.inHand = pc.inHand →
      Ledger s'.db.consentQueue s'.pending s'.inHand
          (fun caseId => s'.Unread ∨ Excused (tr ++ es) caseId) ∧
        (s'.Unread → s'.pending = .clear ∧ s'.inHand = []) := by
    intro hrows hpending hhand
    have hhand' : s'.inHand = s.inHand := by
      have hconsent : s'.consent = s.consent := by rw [m.frame]
      rw [Sys.inHand, Sys.inHand, hhand, hv, hconsent]
    rw [hrows, hpending, hhand']
    exact ⟨hledger, fun hu => h.unread (hunread.mp hu)⟩
  cases m with
  | @consentInsert req =>
      have hread : ¬ s.Unread := by
        rintro (hb | hr)
        · have hidle := (ho.quiet (starting_of_beforeConsent hb)).2.2
          rw [hv] at hidle
          cases hidle
        · have hfiling := hl rfl hr
          rw [hv] at hfiling
          cases hfiling
      have hnew : ∀ r ∈ s.db.consentQueue.rows, r.caseId ≠ req.caseId := by
        intro r hr hid
        have hmem : req.caseId ∈ s.unfiled := by simp [Sys.unfiled, hv, VerdictPc.undecided]
        exact h.fresh _ hmem (List.mem_map.mpr ⟨r, hr, hid⟩)
      have hhand : s.inHand = s.consent.inHand := by simp [Sys.inHand, hv, VerdictPc.inHand]
      rw [hhand] at hledger
      refine ⟨(hledger.file hnew).perm ?_, fun hu => absurd (hunread.mp hu) hread⟩
      exact (List.perm_append_singleton req s.consent.inHand).symm
  | @activate req i _ hf =>
      have hhand : s.inHand = s.consent.inHand ++ [req] := by simp [Sys.inHand, hv, VerdictPc.inHand]
      have hread : ¬ s.Unread := h.read req (by rw [hhand]; simp)
      rw [hhand] at hledger
      have hfirst := hledger.perm (List.perm_append_singleton req s.consent.inHand)
      refine ⟨?_, fun hu => absurd (hunread.mp hu) hread⟩
      simpa only [Sys.inHand, VerdictPc.inHand, List.append_nil] using
        hfirst.seat (freeSlot_some hf)
  | @refuse req =>
      have hhand : s.inHand = s.consent.inHand ++ [req] := by simp [Sys.inHand, hv, VerdictPc.inHand]
      have hread : ¬ s.Unread := h.read req (by rw [hhand]; simp)
      rw [hhand] at hledger
      have hfirst := hledger.perm (List.perm_append_singleton req s.consent.inHand)
      have hexcused : Excused (tr ++ [.refused req]) req.caseId :=
        excused_of_mem (List.mem_singleton_self _) (.inl rfl) running
      refine ⟨?_, fun hu => absurd (hunread.mp hu) hread⟩
      simpa only [Sys.inHand, VerdictPc.inHand, List.append_nil] using
        hfirst.refuse (.inr hexcused)
  | capped | floorQuarantined => exact keep rfl rfl (route_inHand _ _)
  | _ => exact keep rfl rfl rfl

/-! ## The consent thread -/

/-- The rows the reload leaves out are reported. -/
theorem ledger_reload {waived : String → Prop}
    (hwaived : ∀ r ∈ s.db.consentQueue.rows, r ∉ dbConsentPending s.db consentQueueSize →
      waived r.caseId) :
    Ledger s.db.consentQueue .clear (dbConsentPending s.db consentQueueSize) waived := by
  have hperm := List.perm_insertionSort (fun a b : ConsentRequest => a.queued ≤ b.queued)
    s.db.consentQueue.rows
  have hmem : ∀ r ∈ dbConsentPending s.db consentQueueSize, r ∈ s.db.consentQueue.rows :=
    fun r hr => hperm.mem_iff.mp (List.mem_of_mem_take hr)
  have hnodup : ((dbConsentPending s.db consentQueueSize).map ConsentRequest.caseId).Nodup :=
    ((List.take_sublist _ _).map _).nodup ((hperm.map _).nodup_iff.mpr s.db.consentQueue.nodup)
  refine Ledger.reload hmem hnodup fun r hr => ?_
  by_cases hin : r ∈ dbConsentPending s.db consentQueueSize
  · exact .inl hin
  · exact .inr (hwaived r hr hin)

theorem Agreement.ledger_consent {pc : ConsentPc} (m : ConsentMove s pc s' es)
    (hc : s.consent = pc) (ho : Orderly s) (h : Agreement s tr) :
    Ledger s'.db.consentQueue s'.pending s'.inHand
        (fun caseId => s'.Unread ∨ Excused (tr ++ es) caseId) ∧
      (s'.Unread → s'.pending = .clear ∧ s'.inHand = []) := by
  have running : ∀ e ∈ es, e ≠ .restart := by
    cases m with
    | reloadRead =>
        intro e he
        obtain ⟨req, -, rfl⟩ := List.mem_map.mp he
        simp
    | _ => simp
  -- before consent_start the table may still be unread
  by_cases hoff : pc = .off
  · subst hoff
    cases m
    rw [Sys.consent_eta hc, List.append_nil]
    exact ⟨h.ledger, h.unread⟩
  have hmain : s.main.beforeConsent = false := by
    cases hb : s.main.beforeConsent with
    | false => rfl
    | true => exact absurd (hc ▸ (ho.clear hb).2) hoff
  have hread' : ¬ s'.Unread := by
    rintro (hb | hr)
    · rw [m.frame] at hb
      rw [show s.main.beforeConsent = true from hb] at hmain
      cases hmain
    · cases m <;> cases hr
  refine ⟨?_, fun hu => absurd hu hread'⟩
  by_cases hreload : pc = .reloadRead
  · subst hreload
    obtain ⟨hclear, hhand⟩ := h.unread (.inr hc)
    have hverdict : s.verdict.inHand = [] := (List.append_eq_nil_iff.mp hhand).2
    cases m
    simp only [Sys.inHand, ConsentPc.inHand, hverdict, List.append_nil, hclear]
    refine ledger_reload fun r hr hin => .inr (excused_of_mem ?_ (.inr rfl) running)
    exact List.mem_map_of_mem (List.mem_filter.mpr ⟨hr, by simpa using hin⟩)
  have hread : ¬ s.Unread := by
    rintro (hb | hr)
    · rw [hb] at hmain
      cases hmain
    · exact hreload (hc ▸ hr)
  have hhand : s.inHand = pc.inHand ++ s.verdict.inHand := by rw [Sys.inHand, hc]
  have hledger : Ledger s.db.consentQueue s.pending (pc.inHand ++ s.verdict.inHand) fun caseId =>
      s'.Unread ∨ Excused (tr ++ es) caseId := by
    rw [← hhand]
    exact h.ledger.waive fun caseId => Or.imp (fun hu => absurd hu hread) fun h => h.append running
  cases m with
  | off => exact absurd rfl hoff
  | reloadRead => exact absurd rfl hreload
  | reactivate hf => exact hledger.seat (freeSlot_some hf)
  | refuse =>
      exact hledger.refuse (.inr (excused_of_mem (List.mem_singleton_self _) (.inl rfl) running))
  | look hp => exact hledger.revise _ hp (Pending.polled_same _ _).1
  | resolve hp => exact hledger.take hp
  | remove => exact hledger.strike
  | _ => exact hledger

/-! ## The main thread and restarts -/

theorem inHand_idle {pc : VerdictPc} (h : pc.idle = true) : pc.inHand = [] := by
  cases pc with
  | off | loop | dequeue => rfl
  | _ => cases h

/-- Before the reload both books may be blank. -/
theorem ledger_unread (tr : List Event) (hu : s.Unread) (hp : s.pending = .clear) (hh : s.inHand = []) :
    Ledger s.db.consentQueue s.pending s.inHand (fun caseId => s.Unread ∨ Excused tr caseId) ∧
      (s.Unread → s.pending = .clear ∧ s.inHand = []) := by
  refine ⟨?_, fun _ => ⟨hp, hh⟩⟩
  rw [hp, hh]
  exact Ledger.blank fun r hr => .inl hu

theorem Agreement.ledger_reply (h : Agreement s tr) (caseId : String) (approved : Bool) :
    let s' := (replyRequest s caseId approved).1
    let es := (replyRequest s caseId approved).2
    Ledger s'.db.consentQueue s'.pending s'.inHand
        (fun caseId => s.Unread ∨ Excused (tr ++ es) caseId) ∧
      (s.Unread → s'.pending = .clear ∧ s'.inHand = []) := by
  have running : ∀ target, ∀ e ∈ [Event.reply caseId approved target], e ≠ .restart := by simp
  have hledger : ∀ target, Ledger s.db.consentQueue s.pending s.inHand fun id =>
      s.Unread ∨ Excused (tr ++ [.reply caseId approved target]) id := fun target =>
    h.ledger.waive fun id => Or.imp_right fun h => h.append (running target)
  rcases replyRequest_cases s caseId approved with heq | ⟨i, p, hp, -, heq⟩
  · rw [heq]
    exact ⟨hledger none, h.unread⟩
  · rw [heq]
    refine ⟨?_, fun hu => ?_⟩
    · have hrev := (hledger (some (i, p.req))).revise { p with reply := some approved } hp
        (.refl p.req)
      simp only [consentReply, hp, Option.map_some]
      exact hrev
    · rw [(h.unread hu).1] at hp
      cases hp

theorem Agreement.ledger_step (ho : Orderly s) (h : Agreement s tr) {l : Label}
    (hl : ReloadFirst s l) :
    Ledger (step s l).1.db.consentQueue (step s l).1.pending (step s l).1.inHand
        (fun caseId => (step s l).1.Unread ∨ Excused (tr ++ (step s l).2) caseId) ∧
      ((step s l).1.Unread → (step s l).1.pending = .clear ∧ (step s l).1.inHand = []) := by
  by_cases hj : Judicial s l
  · cases hj with
    | verdict => exact h.ledger_verdict (verdictStep_move s) rfl ho hl
    | consent => exact h.ledger_consent (consentStep_move s) rfl ho
    | restart => exact ledger_unread _ (.inl rfl) rfl rfl
    | startVerdict hm =>
        obtain ⟨hclear, hoff⟩ := ho.clear (by rw [hm]; rfl)
        rw [step_startVerdict hm]
        exact ledger_unread _ (.inl rfl) hclear (by rw [Sys.inHand, hoff]; rfl)
    | resetPending hm =>
        have hoff := (ho.clear (by rw [hm]; rfl)).2
        have hidle := inHand_idle (ho.quiet (by rw [hm]; rfl)).2.2
        rw [step_resetPending hm]
        exact ledger_unread _ (.inl rfl) rfl (by rw [Sys.inHand, hoff, hidle]; rfl)
    | startConsent hm =>
        have hclear := (ho.clear (by rw [hm]; rfl)).1
        have hidle := inHand_idle (ho.quiet (by rw [hm]; rfl)).2.2
        rw [step_startConsent hm]
        exact ledger_unread _ (.inr rfl) hclear (by rw [Sys.inHand, hidle]; rfl)
    | replying hm hlock =>
        rename_i caseId approved
        have hunread : ({ (replyRequest s caseId approved).1 with main := .serving .idle } : Sys).Unread ↔
            s.Unread := by
          unfold Sys.Unread
          rw [replyRequest_frame, hm]
          exact Iff.rfl
        obtain ⟨hledger, hclear⟩ := h.ledger_reply caseId approved
        rw [step_replying hm hlock]
        exact ⟨hledger.waive fun id => Or.imp_left hunread.mpr, fun hu => hclear (hunread.mp hu)⟩
  · have hrestart : l ≠ .restart := fun hl => hj (hl ▸ .restart)
    have hb := (step_bench ho hj).1
    have hrows : (step s l).1.db.consentQueue = s.db.consentQueue := congrArg Bench.consentQueue hb
    have hpending : (step s l).1.pending = s.pending := congrArg Bench.pending hb
    have hconsent : (step s l).1.consent = s.consent := congrArg Bench.consent hb
    have hverdict : (step s l).1.verdict = s.verdict := congrArg Bench.verdict hb
    have hhand : (step s l).1.inHand = s.inHand := by
      rw [Sys.inHand, Sys.inHand, hconsent, hverdict]
    have hunread : (step s l).1.Unread ↔ s.Unread := by
      rcases step_beforeConsent s hrestart with hbefore | ⟨rfl, hm⟩
      · rw [Sys.Unread, Sys.Unread, hbefore, hconsent]
      · exact absurd (.startConsent hm) hj
    rw [hrows, hpending, hhand]
    refine ⟨h.ledger.waive fun id => ?_, fun hu => h.unread (hunread.mp hu)⟩
    exact Or.imp hunread.mpr fun he => he.append (step_running ho hrestart)

/-! ## New ids -/

theorem undecided_known {pc : VerdictPc} {caseId : String} (h : caseId ∈ pc.undecided) :
    (∃ c ∈ pc.cases, c.caseId = caseId) ∨ ∃ req ∈ pc.requests, req.caseId = caseId := by
  cases pc with
  | consentInsert req =>
      exact .inr ⟨req, List.mem_singleton_self _, (List.mem_singleton.mp h).symm⟩
  | off | loop | dequeue | enforce | enqueue => cases h
  | iaCheck c | suspend c | freshTime c | freshQuery c | cap c | floorTime c | floorHouseArrest c
  | floorQuarantined c | emit c | queueTime c =>
      exact .inl ⟨c, List.mem_singleton_self _, (List.mem_singleton.mp h).symm⟩

theorem newIds_append (es es' : List Event) : newIds (es ++ es') = newIds es ++ newIds es' := by
  simp only [newIds, assembledCases, List.filterMap_append, List.map_append]

/-- An id in use was named before. -/
theorem known_id (hs : SubjectInv s tr) {caseId : String}
    (h : caseId ∈ s.unfiled ∨ caseId ∈ s.consentIds) : caseId ∈ newIds tr := by
  have held : ∀ c, s.Holds c → c.caseId = caseId → caseId ∈ newIds tr := fun c hc hid =>
    List.mem_map.mpr ⟨c, hs.assembled hc, hid⟩
  have asked : ∀ req, s.InFlight req → req.caseId = caseId → caseId ∈ newIds tr := by
    intro req hreq hid
    obtain ⟨c, hc, hsub⟩ := hs.requests req hreq
    exact List.mem_map.mpr ⟨c, hc, (congrArg Subject.caseId hsub).trans hid⟩
  have worker : ∀ role, caseId ∈ (s.worker role).caseIds → caseId ∈ newIds tr := by
    intro role h
    obtain ⟨c, hc, hid⟩ := List.mem_map.mp h
    exact held c (.inl ⟨role, hc⟩) hid
  rcases h with h | h
  · simp only [Sys.unfiled, List.mem_append] at h
    rcases h with ((h | h) | h) | h | h
    · exact worker .socket h
    · exact worker .scorer h
    · exact worker .decay h
    · obtain ⟨c, hc, hid⟩ := List.mem_map.mp h
      exact held c (.inr (.inl hc)) hid
    · rcases undecided_known h with ⟨c, hc, hid⟩ | ⟨req, hreq, hid⟩
      · exact held c (.inr (.inr hc)) hid
      · exact asked req (.inr hreq) hid
  · obtain ⟨r, hr, hid⟩ := List.mem_map.mp h
    exact asked r (.inl (filed_row hr)) hid

/-- An id that is named now is not in use. -/
theorem unused_id (hs : SubjectInv s tr) {es : List Event} (hn : (newIds (tr ++ es)).Nodup)
    {caseId : String} (h : caseId ∈ newIds es) : caseId ∉ s.unfiled ∧ caseId ∉ s.consentIds := by
  rw [newIds_append] at hn
  have hdisj := (List.nodup_append.mp hn).2.2
  exact ⟨fun hu => hdisj caseId (known_id hs (.inl hu)) caseId h rfl,
    fun hu => hdisj caseId (known_id hs (.inr hu)) caseId h rfl⟩

theorem Agreement.unfiled_step (ho : Orderly s) (h : Agreement s tr) (hs : SubjectInv s tr)
    {l : Label} (hn : (newIds (tr ++ (step s l).2)).Nodup) : (step s l).1.unfiled.Nodup := by
  refine List.nodup_iff_count_le_one.mpr fun caseId => ?_
  have hcount := count_step ho l caseId
  have hold := List.nodup_iff_count_le_one.mp h.unfiled caseId
  by_cases hnew : caseId ∈ newIds (step s l).2
  · have hzero : s.unfiled.count caseId = 0 := List.count_eq_zero.mpr (unused_id hs hn hnew).1
    rw [newIds_append] at hn
    have hone := List.nodup_iff_count_le_one.mp (List.nodup_append.mp hn).2.1 caseId
    omega
  · have hzero : (newIds (step s l).2).count caseId = 0 := List.count_eq_zero.mpr hnew
    omega

theorem VerdictMove.consentIds {pc : VerdictPc} (m : VerdictMove s pc s' es) {caseId : String}
    (h : caseId ∈ s'.consentIds) :
    caseId ∈ s.consentIds ∨ ∃ req, pc = .consentInsert req ∧ caseId = req.caseId := by
  cases m with
  | consentInsert =>
      obtain ⟨r, hr, hid⟩ := List.mem_map.mp h
      rcases Sql.Table.mem_insertOrReplace.mp hr with ⟨hr, -⟩ | rfl
      · exact .inl (List.mem_map.mpr ⟨r, hr, hid⟩)
      · exact .inr ⟨r, rfl, hid.symm⟩
  | _ => exact .inl h

theorem ConsentMove.consentIds {pc : ConsentPc} (m : ConsentMove s pc s' es) {caseId : String}
    (h : caseId ∈ s'.consentIds) : caseId ∈ s.consentIds := by
  cases m with
  | remove =>
      obtain ⟨r, hr, hid⟩ := List.mem_map.mp h
      exact List.mem_map.mpr ⟨r, (Sql.Table.mem_delete.mp hr).1, hid⟩
  | _ => exact h

/-- A new row of `consent_queue` is the one the verdict thread files. -/
theorem consentIds_step (ho : Orderly s) {l : Label} {caseId : String}
    (h : caseId ∈ (step s l).1.consentIds) :
    caseId ∈ s.consentIds ∨
      l = .verdict ∧ ∃ req, s.verdict = .consentInsert req ∧ caseId = req.caseId := by
  have same : (step s l).1.db.consentQueue = s.db.consentQueue → caseId ∈ s.consentIds := by
    intro hrows
    rwa [Sys.consentIds, hrows] at h
  by_cases hj : Judicial s l
  · cases hj with
    | verdict => exact ((verdictStep_move s).consentIds h).imp_right fun h => ⟨rfl, h⟩
    | consent => exact .inl ((consentStep_move s).consentIds h)
    | restart => exact .inl h
    | startVerdict hm | resetPending hm | startConsent hm =>
        exact .inl (same (by simp only [step, mainStep, hm]))
    | replying hm hlock =>
        refine .inl (same ?_)
        rw [step_replying hm hlock]
        rw [replyRequest_frame]
  · exact .inl (same (congrArg Bench.consentQueue (step_bench ho hj).1))

theorem Agreement.fresh_step (ho : Orderly s) (h : Agreement s tr) (hs : SubjectInv s tr)
    {l : Label} (hn : (newIds (tr ++ (step s l).2)).Nodup) :
    ∀ caseId ∈ (step s l).1.unfiled, caseId ∉ (step s l).1.consentIds := by
  intro caseId hmem hrow
  have hcount := count_step ho l caseId
  have hpos := List.count_pos_iff.mpr hmem
  have hunfiled : caseId ∈ s.unfiled ∨ caseId ∈ newIds (step s l).2 := by
    by_cases hnew : caseId ∈ newIds (step s l).2
    · exact .inr hnew
    · have hzero := List.count_eq_zero.mpr hnew
      exact .inl (List.count_pos_iff.mp (by omega))
  rcases consentIds_step ho hrow with hold | ⟨rfl, req, hv, rfl⟩
  · exact hunfiled.elim (fun hu => h.fresh caseId hu hold) fun hnew => (unused_id hs hn hnew).2 hold
  · -- the id has just left its one place
    have hnodup := h.unfiled
    have hsplit : s.unfiled = (step s .verdict).1.unfiled ++ [req.caseId] := by
      simp [Sys.unfiled, step, verdictStep, hv, VerdictPc.undecided, Sys.queuedIds, Sys.worker]
    rw [hsplit] at hnodup
    exact (List.nodup_append.mp hnodup).2.2 _ hmem _ (List.mem_singleton_self _) rfl

theorem Agreement.step (ho : Orderly s) (h : Agreement s tr) (hs : SubjectInv s tr) {l : Label}
    (hl : ReloadFirst s l) (hn : (newIds (tr ++ (step s l).2)).Nodup) :
    Agreement (step s l).1 (tr ++ (step s l).2) where
  ledger := (h.ledger_step ho hl).1
  unread := (h.ledger_step ho hl).2
  unfiled := h.unfiled_step ho hs hn
  fresh := h.fresh_step ho hs hn

end Steps

theorem agreement_run (env : Env) (ls : List Label)
    (hreload : Machine.Meets step ReloadFirst (.boot env .empty) ls)
    (hids : (newIds (runFrom env ls).2).Nodup) :
    Agreement (runFrom env ls).1 (runFrom env ls).2 := by
  have all : Orderly (runFrom env ls).1 ∧ SubjectInv (runFrom env ls).1 (runFrom env ls).2 ∧
      ((newIds (runFrom env ls).2).Nodup → Agreement (runFrom env ls).1 (runFrom env ls).2) := by
    refine Machine.run_invariant_of_meets (P := fun s tr => Orderly s ∧ SubjectInv s tr ∧
      ((newIds tr).Nodup → Agreement s tr)) ?_ ?_ hreload
    · refine ⟨orderly_boot env .empty, subjectInv_run env [], fun _ => ?_⟩
      obtain ⟨hledger, hunread⟩ := ledger_unread (s := .boot env .empty) [] (.inl rfl) rfl rfl
      exact ⟨hledger, hunread, List.nodup_nil, fun caseId h => by cases h⟩
    · rintro s tr l ⟨ho, hs, h⟩ hl
      refine ⟨orderly_step s l ho, hs.step ho l, fun hn => ?_⟩
      have hold : (newIds tr).Nodup := by
        rw [newIds_append] at hn
        exact (List.nodup_append.mp hn).1
      exact (h hold).step ho hs hl hn
  exact all.2.2 hids

/-! ## At rest -/

/-- Outside the reload and outside `resolve_entry`. -/
def ConsentPc.settled : ConsentPc → Bool
  | .off | .loop | .poll _ _ => true
  | _ => false

/-- No `verdict_process` and no `resolve_entry` is in progress, and the
reload of this process has finished. -/
def Sys.AtRest (s : Sys) : Prop :=
  s.verdict.idle = true ∧ s.consent.settled = true ∧ s.main.beforeConsent = false

theorem Sys.AtRest.settled {s : Sys} (h : s.AtRest) : ¬ s.Unread ∧ s.inHand = [] := by
  obtain ⟨hverdict, hconsent, hmain⟩ := h
  have hempty : s.consent.inHand = [] ∧ s.consent ≠ .reloadRead := by
    cases hc : s.consent with
    | off | loop | poll => exact ⟨rfl, by simp⟩
    | _ =>
        rw [hc] at hconsent
        cases hconsent
  refine ⟨?_, by rw [Sys.inHand, hempty.1, inHand_idle hverdict]; rfl⟩
  rintro (hb | hr)
  · rw [hb] at hmain
    cases hmain
  · exact hempty.2 hr

/-- **The pending table and `consent_queue` agree.** In every run whose
case ids are distinct and in which the reload reads the table before the
verdict thread files, at every state at rest: no two slots are of one
case; every slot has a row that is the same up to its time in queue; and
every row has such a slot, unless this process found all slots taken for
it, or did not reload it for being past the size of the table. -/
theorem pending_table_agrees (env : Env) (ls : List Label)
    (hids : (newIds (runFrom env ls).2).Nodup)
    (hreload : Machine.Meets step ReloadFirst (.boot env .empty) ls)
    (hrest : (runFrom env ls).1.AtRest) :
    let s := (runFrom env ls).1
    let tr := (runFrom env ls).2
    (∀ i j p q, s.pending i = some p → s.pending j = some q → p.req.caseId = q.req.caseId →
      i = j) ∧
    (∀ i p, s.pending i = some p → ∃ r ∈ s.db.consentQueue.rows, r.Same p.req) ∧
    ∀ r ∈ s.db.consentQueue.rows,
      (∃ i p, s.pending i = some p ∧ r.Same p.req) ∨ Excused tr r.caseId := by
  intro s tr
  have hledger := (agreement_run env ls hreload hids).ledger
  obtain ⟨hread, hhand⟩ := hrest.settled
  rw [hhand] at hledger
  obtain ⟨hunique, hrow, hslot⟩ := hledger.settled
  refine ⟨hunique, hrow, fun r hr => (hslot r hr).imp_right fun hw => ?_⟩
  exact hw.resolve_left hread

/-- A request that is reloaded after a restart has its slot back. -/
theorem pending_table_agrees_reloaded :
    let env : Env := ⟨1000000, false, none⟩
    let ls := askQuarantine ++ [.restart] ++ startUp ++ List.replicate 3 .consent
    (runFrom env ls).1.AtRest ∧ (runFrom env ls).1.consentIds = ["case_1000000"] ∧
      ((runFrom env ls).1.pending ⟨0, by decide⟩).isSome = true ∧
      ∀ i p, (runFrom env ls).1.pending i = some p →
        ∃ r ∈ (runFrom env ls).1.db.consentQueue.rows, r.Same p.req := by
  intro env ls
  have hids : (newIds (runFrom env ls).2).Nodup := by decide +kernel
  have hreload : Machine.Meets step ReloadFirst (.boot env .empty) ls := by decide +kernel
  have hrest : (runFrom env ls).1.AtRest := by
    refine ⟨?_, ?_, ?_⟩ <;> decide +kernel
  refine ⟨hrest, by decide +kernel, by decide +kernel, ?_⟩
  obtain ⟨-, hrow, -⟩ := pending_table_agrees env ls hids hreload hrest
  exact hrow

/-- Signals for one app, a thousand seconds apart, each judged before the
next arrives. -/
def signalBurst (n : Nat) : List Label :=
  (List.range n).flatMap fun k =>
    [.setClock (1000000 + 1000000 * (k : Int))] ++
      submit ⟨false, "app", "ROOTKIT_MODULE", 55, ""⟩ ++ List.replicate 12 .verdict

/-- The 33rd request finds all slots taken: its row stays without one. -/
theorem row_without_slot :
    ¬ ∀ (env : Env) (ls : List Label), (newIds (runFrom env ls).2).Nodup →
      (runFrom env ls).1.AtRest → ∀ r ∈ (runFrom env ls).1.db.consentQueue.rows,
        ∃ i p, (runFrom env ls).1.pending i = some p ∧ p.req.caseId = r.caseId := by
  intro h
  let env : Env := ⟨1000000, false, none⟩
  let ls := startUp ++ List.replicate 2 .consent ++ signalBurst 33
  have hend : (caseReadings (runFrom env ls).2).Nodup ∧ (runFrom env ls).1.AtRest ∧
      (runFrom env ls).1.db.consentQueue.rows.length = 33 := by
    rw [runFrom, Machine.run_eq, Sys.AtRest]
    decide +kernel
  obtain ⟨hread, hrest, hlength⟩ := hend
  have hids : (newIds (runFrom env ls).2).Nodup := by
    rw [newIds, ids_eq (subjectInv_run env ls).named]
    exact hread.map makeCaseId_injective
  -- the rows are of different cases, so with slots for all of them there were 33 slots
  have hslots : (runFrom env ls).1.consentIds ⊆ (List.finRange consentQueueSize).filterMap fun i =>
      ((runFrom env ls).1.pending i).map fun p => p.req.caseId := by
    intro caseId hid
    obtain ⟨r, hr, rfl⟩ := List.mem_map.mp hid
    obtain ⟨i, p, hp, hslot⟩ := h env ls hids hrest r hr
    exact List.mem_filterMap.mpr ⟨i, List.mem_finRange i, by rw [hp, Option.map_some, hslot]⟩
  have hle := ((runFrom env ls).1.db.consentQueue.nodup.subperm hslots).length_le
  have hfew := hle.trans (List.length_filterMap_le _ _)
  rw [List.length_map, hlength, List.length_finRange] at hfew
  exact absurd hfew (by decide)

end MiuiserPeruser.Gaveld
