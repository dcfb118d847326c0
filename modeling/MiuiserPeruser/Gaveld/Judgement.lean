import MiuiserPeruser.Gaveld.Docket

/-!
# gaveld — what becomes of a case

A row of `cases` is PENDING_JUDGEMENT from its insertion to the first
status update. In between some thread ATTENDS to the case — the worker
that assembles it, the verdict queue, `verdict_process`, the consent gate
— and hands it on before it lets go. Two things are deliberately not
handed on: the queue drops its oldest entry when it is full, and a restart
forgets everything but the database, of which only `consent_queue` is
read back. So a restart loses exactly the pending cases that have no row
there.
-/

namespace MiuiserPeruser.Gaveld

/-! ## Attending to a case -/

/-- The case a worker has inserted and not yet routed. -/
def Worker.routing : Worker → List String
  | .assembling _ _ (.dismiss c) | .assembling _ _ (.push c) => [c.caseId]
  | _ => []

/-- The case whose answer `resolve_entry` is recording. -/
def ConsentPc.answering : ConsentPc → List String
  | .emit _ _ req _ _ => [req.caseId]
  | _ => []

/-- Somebody attends to the case. -/
def Sys.Attends (s : Sys) (caseId : String) : Prop :=
  (∃ role, caseId ∈ (s.worker role).routing) ∨ caseId ∈ s.queuedIds ∨ caseId ∈ s.verdict.undecided ∨
    caseId ∈ s.consentIds ∨ caseId ∈ s.consent.answering

theorem attends_queue {s : Sys} {caseId : String} (h : caseId ∈ s.queuedIds) : s.Attends caseId :=
  .inr (.inl h)

theorem attends_verdict {s : Sys} {caseId : String} (h : caseId ∈ s.verdict.undecided) : s.Attends caseId :=
  .inr (.inr (.inl h))

theorem attends_row {s : Sys} {caseId : String} (h : caseId ∈ s.consentIds) : s.Attends caseId :=
  .inr (.inr (.inr (.inl h)))

theorem attends_consent {s : Sys} {caseId : String} (h : caseId ∈ s.consent.answering) : s.Attends caseId :=
  .inr (.inr (.inr (.inr h)))

/-- The case was dropped by the full verdict queue. -/
def Dropped (tr : List Event) (caseId : String) : Prop := ∃ c, .dropped c ∈ tr ∧ c.caseId = caseId

/-- A restart of the run found the case PENDING_JUDGEMENT, and no
`consent_queue` row of it. -/
def LostAtRestart (env : Env) (ls : List Label) (caseId : String) : Prop :=
  ∃ pre post, ls = pre ++ .restart :: post ∧
    (∃ row ∈ (runFrom env pre).1.db.cases.rows,
      row.caseId = caseId ∧ row.status = .pendingJudgement) ∧
    caseId ∉ (runFrom env pre).1.consentIds

theorem Dropped.append {tr : List Event} {caseId : String} (h : Dropped tr caseId) (es : List Event) :
    Dropped (tr ++ es) caseId := by
  obtain ⟨c, hc, hid⟩ := h
  exact ⟨c, List.mem_append_left es hc, hid⟩

theorem LostAtRestart.concat {env : Env} {ls : List Label} {caseId : String}
    (h : LostAtRestart env ls caseId) (l : Label) : LostAtRestart env (ls ++ [l]) caseId := by
  obtain ⟨pre, post, rfl, hrow⟩ := h
  exact ⟨pre, post ++ [l], by rw [List.append_assoc, List.cons_append], hrow⟩

/-- The step updates the status of the case. -/
def Updates (es : List Event) (caseId : String) : Prop :=
  ∃ source score status, .statusUpdate caseId source score status ∈ es

/-! ## Handing on -/

section HandOver

variable {s : Sys} {caseId : String}

theorem workerStep_routing {w : Worker} (h : caseId ∈ w.routing) :
    caseId ∈ (workerStep s w).1.queuedIds ∨ Updates (workerStep s w).2.2 caseId := by
  cases w with
  | assembling r result pc =>
      cases pc with
      | dismiss c =>
          obtain rfl := List.mem_singleton.mp h
          exact .inr ⟨_, _, _, List.mem_singleton_self _⟩
      | push c =>
          obtain rfl := List.mem_singleton.mp h
          exact .inl (List.mem_map.mpr ⟨c, self_mem_queuePush _ _ _, rfl⟩)
      | time | caseId | insert => cases h
  | _ => cases h

theorem workerStep_keepsQueue (w : Worker) (h : caseId ∈ s.queuedIds) :
    caseId ∈ (workerStep s w).1.queuedIds ∨ Dropped (workerStep s w).2.2 caseId := by
  cases w with
  | assembling r result pc =>
      cases pc with
      | push c' =>
          obtain ⟨c, hc, rfl⟩ := List.mem_map.mp h
          rcases queuePush_keeps verdictQueueSize s.verdictQueue c' hc with hk | hd
          · exact .inl (List.mem_map.mpr ⟨c, hk, rfl⟩)
          · refine .inr ⟨c, ?_, rfl⟩
            simp [workerStep, assembleStep, hd]
      | time | caseId | insert | dismiss => exact .inl h
  | _ => exact .inl h

/-- `verdict_process` lets go of a case once its status is updated or its
consent row is written. -/
theorem VerdictMove.undecided {s' : Sys} {pc : VerdictPc} {es : List Event}
    (m : VerdictMove s pc s' es) (h : caseId ∈ pc.undecided) :
    caseId ∈ s'.verdict.undecided ∨ caseId ∈ s'.consentIds ∨ Updates es caseId := by
  cases m with
  | capped | floorQuarantined =>
      refine .inl ?_
      simp only [route_undecided]
      exact h
  | suspend | warn | judge =>
      obtain rfl := List.mem_singleton.mp h
      exact .inr (.inr ⟨_, _, _, List.mem_singleton_self _⟩)
  | @consentInsert req =>
      obtain rfl := List.mem_singleton.mp h
      refine .inr (.inl (List.mem_map.mpr ⟨req, ?_, rfl⟩))
      exact Sql.Table.mem_insertOrReplace.mpr (.inr rfl)
  | off | stop | listen | take | wait | closed | enforce | blocked | activate | refuse => cases h
  | _ => exact .inl h

theorem VerdictMove.keepsQueue {s' : Sys} {pc : VerdictPc} {es : List Event}
    (m : VerdictMove s pc s' es) (h : caseId ∈ s.queuedIds) :
    caseId ∈ s'.queuedIds ∨ caseId ∈ s'.verdict.undecided := by
  cases m with
  | take hq =>
      obtain ⟨c, hc, rfl⟩ := List.mem_map.mp h
      rw [hq] at hc
      rcases List.mem_cons.mp hc with rfl | hc
      · exact .inr (List.mem_singleton_self _)
      · exact .inl (List.mem_map.mpr ⟨c, hc, rfl⟩)
  | _ => exact .inl h

theorem VerdictMove.keepsRow {s' : Sys} {pc : VerdictPc} {es : List Event}
    (m : VerdictMove s pc s' es) (h : caseId ∈ s.consentIds) : caseId ∈ s'.consentIds := by
  cases m with
  | @consentInsert req =>
      -- INSERT OR REPLACE: a row with the same caseId takes its place
      obtain ⟨r, hr, rfl⟩ := List.mem_map.mp h
      by_cases hid : r.caseId = req.caseId
      · exact List.mem_map.mpr ⟨req, Sql.Table.mem_insertOrReplace.mpr (.inr rfl), hid.symm⟩
      · exact List.mem_map.mpr ⟨r, Sql.Table.mem_insertOrReplace.mpr (.inl ⟨hr, hid⟩), rfl⟩
  | _ => exact h

theorem ConsentMove.answering {s' : Sys} {pc : ConsentPc} {es : List Event}
    (m : ConsentMove s pc s' es) (h : caseId ∈ pc.answering) :
    caseId ∈ s'.consent.answering ∨ Updates es caseId := by
  cases m with
  | emitTime | emitInsert | emitCriminal => exact .inl h
  | approve | deny =>
      obtain rfl := List.mem_singleton.mp h
      exact .inr ⟨_, _, _, List.mem_singleton_self _⟩
  | _ => cases h

/-- `resolve_entry` removes the row before it records the answer. -/
theorem ConsentMove.keepsRow {s' : Sys} {pc : ConsentPc} {es : List Event}
    (m : ConsentMove s pc s' es) (h : caseId ∈ s.consentIds) :
    caseId ∈ s'.consentIds ∨ caseId ∈ s'.consent.answering := by
  cases m with
  | @remove now i req approved =>
      obtain ⟨r, hr, rfl⟩ := List.mem_map.mp h
      by_cases hid : r.caseId = req.caseId
      · exact .inr (List.mem_singleton.mpr hid)
      · exact .inl (List.mem_map.mpr ⟨r, Sql.Table.mem_delete.mpr ⟨hr, hid⟩, rfl⟩)
  | _ => exact .inl h

theorem Sys.Attends.keep {s' : Sys} (h : s.Attends caseId)
    (hworker : ∀ role, caseId ∈ (s.worker role).routing → caseId ∈ (s'.worker role).routing)
    (hqueue : s'.verdictQueue = s.verdictQueue)
    (hverdict : caseId ∈ s.verdict.undecided → caseId ∈ s'.verdict.undecided)
    (hrows : s'.db.consentQueue = s.db.consentQueue)
    (hconsent : caseId ∈ s.consent.answering → caseId ∈ s'.consent.answering) : s'.Attends caseId := by
  rcases h with ⟨role, h⟩ | h | h | h | h
  · exact .inl ⟨role, hworker role h⟩
  · exact attends_queue (by rwa [Sys.queuedIds, hqueue])
  · exact attends_verdict (hverdict h)
  · exact attends_row (by rwa [Sys.consentIds, hrows])
  · exact attends_consent (hconsent h)

theorem routing_nil {w : Worker} (h : w.working = false) : w.routing = [] := by
  cases w with
  | off | idle => rfl
  | _ => cases h

/-- The step of a working worker. -/
theorem attends_worker {role : Role} (hw : (s.worker role).working = true) (h : s.Attends caseId) :
    (step s role.label).1.Attends caseId ∨ Dropped (step s role.label).2 caseId ∨
      Updates (step s role.label).2 caseId := by
  obtain ⟨hbench, -, hother⟩ := step_worker_frame hw
  have hev : (step s role.label).2 = (workerStep s (s.worker role)).2.2 := by rw [step_worker hw]
  have hqueue : (step s role.label).1.queuedIds =
      (workerStep s (s.worker role)).1.queuedIds := by
    rw [step_worker hw]
    cases role <;> rfl
  rw [hev]
  rcases h with ⟨other, h⟩ | h | h | h | h
  · by_cases hrole : other = role
    · subst hrole
      rcases workerStep_routing (s := s) h with h | h
      · exact .inl (attends_queue (hqueue ▸ h))
      · exact .inr (.inr h)
    · exact .inl (.inl ⟨other, by rwa [hother other hrole]⟩)
  · rcases workerStep_keepsQueue (s.worker role) h with h | h
    · exact .inl (attends_queue (hqueue ▸ h))
    · exact .inr (.inl h)
  · have hverdict : (step s role.label).1.verdict = s.verdict := congrArg Bench.verdict hbench
    exact .inl (attends_verdict (by rwa [hverdict]))
  · have hrows : (step s role.label).1.db.consentQueue = s.db.consentQueue :=
      congrArg Bench.consentQueue hbench
    exact .inl (attends_row (by rwa [Sys.consentIds, hrows]))
  · have hconsent : (step s role.label).1.consent = s.consent := congrArg Bench.consent hbench
    exact .inl (attends_consent (by rwa [hconsent]))

theorem VerdictMove.attends {s' : Sys} {es : List Event} (m : VerdictMove s s.verdict s' es)
    (h : s.Attends caseId) : s'.Attends caseId ∨ Updates es caseId := by
  rcases h with ⟨role, h⟩ | h | h | h | h
  · refine .inl (.inl ⟨role, ?_⟩)
    rw [m.frame]
    cases role <;> exact h
  · exact .inl ((m.keepsQueue h).elim attends_queue attends_verdict)
  · rcases m.undecided h with h | h | h
    · exact .inl (attends_verdict h)
    · exact .inl (attends_row h)
    · exact .inr h
  · exact .inl (attends_row (m.keepsRow h))
  · refine .inl (attends_consent ?_)
    rw [m.frame]
    exact h

theorem ConsentMove.attends {s' : Sys} {es : List Event} (m : ConsentMove s s.consent s' es)
    (h : s.Attends caseId) : s'.Attends caseId ∨ Updates es caseId := by
  rcases h with ⟨role, h⟩ | h | h | h | h
  · refine .inl (.inl ⟨role, ?_⟩)
    rw [m.frame]
    cases role <;> exact h
  · refine .inl (attends_queue ?_)
    rw [m.frame]
    exact h
  · refine .inl (attends_verdict ?_)
    rw [m.frame]
    exact h
  · exact .inl ((m.keepsRow h).elim attends_row attends_consent)
  · exact (m.answering h).imp_left attends_consent

/-- **No hand-over loses a case.** Whoever attends to a case still does
after a step, unless the full queue dropped it, its status was updated,
or the process was restarted. -/
theorem attends_step (ho : Orderly s) {l : Label} (hl : l ≠ .restart) (h : s.Attends caseId) :
    (step s l).1.Attends caseId ∨ Dropped (step s l).2 caseId ∨ Updates (step s l).2 caseId := by
  rcases step_kind ho l with ⟨role, rfl, hw⟩ | hj | hi
  · exact attends_worker hw h
  · have started : ∀ {s' : Sys}, (s.worker .socket).working = false → s'.scorer = s.scorer →
        s'.decay = s.decay → ∀ role, caseId ∈ (s.worker role).routing →
          caseId ∈ (s'.worker role).routing := by
      intro s' hidle hscorer hdecay role hr
      cases role with
      | socket =>
          rw [routing_nil hidle] at hr
          cases hr
      | scorer => rwa [Sys.worker, hscorer]
      | decay => rwa [Sys.worker, hdecay]
    cases hj with
    | verdict => exact ((verdictStep_move s).attends h).imp_right .inr
    | consent => exact ((consentStep_move s).attends h).imp_right .inr
    | restart => exact absurd rfl hl
    | startVerdict hm =>
        have hidle := undecided_nil (ho.quiet (by rw [hm]; rfl)).2.2
        have hsocket : (s.worker .socket).working = false := by simp [Sys.worker, hm, Worker.working]
        rw [step_startVerdict hm]
        refine .inl (h.keep (started hsocket rfl rfl) rfl (fun h => ?_) rfl id)
        rw [hidle] at h
        cases h
    | resetPending hm =>
        have hsocket : (s.worker .socket).working = false := by simp [Sys.worker, hm, Worker.working]
        rw [step_resetPending hm]
        exact .inl (h.keep (started hsocket rfl rfl) rfl id rfl id)
    | startConsent hm =>
        have hoff := (ho.clear (by rw [hm]; rfl)).2
        have hsocket : (s.worker .socket).working = false := by simp [Sys.worker, hm, Worker.working]
        rw [step_startConsent hm]
        refine .inl (h.keep (started hsocket rfl rfl) rfl id rfl fun h => ?_)
        rw [hoff] at h
        cases h
    | replying hm hlock =>
        have hsocket : (s.worker .socket).working = false := by simp [Sys.worker, hm, Worker.working]
        rw [step_replying hm hlock]
        rw [replyRequest_frame]
        exact .inl (h.keep (started hsocket rfl rfl) rfl id rfl id)
  · refine .inl (h.keep (fun role hr => ?_) hi.queue ?_ (by rw [hi.db]) ?_)
    · rcases hi.workers role with heq | ⟨hidle, -⟩
      · rwa [heq]
      · rw [routing_nil hidle] at hr
        cases hr
    · have hverdict : (step s l).1.verdict = s.verdict := congrArg Bench.verdict hi.bench
      rw [hverdict]
      exact id
    · have hconsent : (step s l).1.consent = s.consent := congrArg Bench.consent hi.bench
      rw [hconsent]
      exact id

end HandOver

/-! ## Pending rows -/

/-- A row that is pending after some updates was pending before them and
not among those updated, or has just been inserted. -/
theorem pending_of_foldl {es : List Event} {t : Sql.Table CaseRow CaseRow.caseId} {row : CaseRow}
    (hes : ∀ caseId source score status, .statusUpdate caseId source score status ∈ es →
      status ≠ .pendingJudgement)
    (h : row ∈ (es.foldl Event.onCases t).rows) (hrow : row.status = .pendingJudgement) :
    row ∈ t.rows ∧ ¬ Updates es row.caseId ∨ ∃ c, .inserted c ∈ es ∧ c.caseId = row.caseId := by
  induction es generalizing t with
  | nil => exact .inl ⟨h, fun ⟨_, _, _, hu⟩ => by cases hu⟩
  | cons e es ih =>
      have hes' : ∀ caseId source score status, .statusUpdate caseId source score status ∈ es →
          status ≠ .pendingJudgement :=
        fun caseId source score status hu => hes caseId source score status (List.mem_cons_of_mem _ hu)
      rcases ih hes' h with ⟨hmem, hnone⟩ | ⟨c, hc, hid⟩
      · have later : ∀ {caseId : String}, Updates (e :: es) caseId →
            (∃ source score status, e = .statusUpdate caseId source score status) ∨ Updates es caseId := by
          rintro caseId ⟨source, score, status, hu⟩
          rcases List.mem_cons.mp hu with hu | hu
          · exact .inl ⟨source, score, status, hu.symm⟩
          · exact .inr ⟨source, score, status, hu⟩
        cases e with
        | inserted c =>
            -- INSERT OR IGNORE: an old row of the id stays as it was
            rcases Sql.Table.mem_insertOrIgnore.mp hmem with hold | ⟨rfl, -⟩
            · refine .inl ⟨hold, fun hu => ?_⟩
              rcases later hu with ⟨_, _, _, heq⟩ | hu
              · cases heq
              · exact hnone hu
            · exact .inr ⟨c, List.mem_cons_self, rfl⟩
        | statusUpdate caseId source score status =>
            obtain ⟨r, hr, rfl⟩ :=
              (Sql.Table.mem_update (fun r : CaseRow => { r with status := status })
                fun _ => rfl).mp hmem
            by_cases hid : r.caseId = caseId
            · rw [if_pos hid] at hrow
              exact absurd hrow (hes caseId source score status List.mem_cons_self)
            · rw [if_neg hid] at hnone ⊢
              refine .inl ⟨hr, fun hu => ?_⟩
              rcases later hu with ⟨_, _, _, heq⟩ | hu
              · exact hid (Event.statusUpdate.inj heq).1.symm
              · exact hnone hu
        | _ =>
            refine .inl ⟨hmem, fun hu => ?_⟩
            rcases later hu with ⟨_, _, _, heq⟩ | hu
            · cases heq
            · exact hnone hu
      · exact .inr ⟨c, List.mem_cons_of_mem _ hc, hid⟩

/-- What holds after the labels `ls` of a run: the state is the run's, and
every pending row is accounted for. -/
structure PendingInv (env : Env) (s : Sys) (tr : List Event) (ls : List Label) : Prop where
  here : s = (runFrom env ls).1
  orderly : Orderly s
  attended : ∀ row ∈ s.db.cases.rows, row.status = .pendingJudgement →
    s.Attends row.caseId ∨ Dropped tr row.caseId ∨ LostAtRestart env ls row.caseId

/-- What a restart finds pending either waits in `consent_queue`, which
outlives the process, or is lost here. -/
theorem PendingInv.restart {env : Env} {s : Sys} {tr : List Event} {ls : List Label}
    (h : PendingInv env s tr ls) {row : CaseRow} (hrow : row ∈ s.db.cases.rows)
    (hpending : row.status = .pendingJudgement) :
    (step s .restart).1.Attends row.caseId ∨ LostAtRestart env (ls ++ [.restart]) row.caseId := by
  by_cases hq : row.caseId ∈ s.consentIds
  · exact .inl (attends_row hq)
  · rw [h.here] at hrow hq
    exact .inr ⟨ls, [], rfl, ⟨row, hrow, rfl, hpending⟩, hq⟩

theorem PendingInv.step {env : Env} {s : Sys} {tr : List Event} {ls : List Label}
    (h : PendingInv env s tr ls) (l : Label) :
    PendingInv env (step s l).1 (tr ++ (step s l).2) (ls ++ [l]) where
  here := by
    rw [runFrom, Machine.run_concat, ← runFrom, ← h.here]
  orderly := orderly_step s l h.orderly
  attended := by
    intro row hrow hpending
    have judged : ∀ caseId source score status,
        .statusUpdate caseId source score status ∈ (Gaveld.step s l).2 → status ≠ .pendingJudgement := by
      intro caseId source score status hu
      cases step_emits h.orderly hu <;> simp
    rw [step_onCases h.orderly] at hrow
    rcases pending_of_foldl judged hrow hpending with ⟨hold, hnone⟩ | ⟨c, hc, hid⟩
    · by_cases hl : l = .restart
      · subst hl
        exact (h.restart hold hpending).imp_right .inr
      · rcases h.attended row hold hpending with ha | hd | hb
        · rcases attends_step h.orderly hl ha with ha | hd | hu
          · exact .inl ha
          · obtain ⟨c, hc, hid⟩ := hd
            exact .inr (.inl ⟨c, List.mem_append_right tr hc, hid⟩)
          · exact absurd hu hnone
        · exact .inr (.inl (hd.append _))
        · exact .inr (.inr (hb.concat l))
    · -- a new row: the worker that inserted it goes on with its case
      cases step_emits h.orderly hc with
      | inserted hw =>
          rename_i role r result
          have hworking : (s.worker role).working = true := by rw [hw]; rfl
          refine .inl (.inl ⟨role, ?_⟩)
          rw [step_worker hworking, setWorker_worker, hw, ← hid]
          simp only [workerStep, assembleStep]
          split <;> exact List.mem_singleton_self _

theorem pendingInv_run (env : Env) (ls : List Label) :
    PendingInv env (runFrom env ls).1 (runFrom env ls).2 ls := by
  refine Machine.run_history (P := PendingInv env) ?_ (fun s tr ls l h => h.step l) ls
  exact ⟨rfl, orderly_boot env .empty, fun row hrow => by cases hrow⟩

/-- **No pending case is forgotten, but at a restart without a consent
row.** In every state of every run, with bursts, shutdowns and restarts:

* a row that is PENDING_JUDGEMENT is attended to — by the worker that has
  just inserted it, in the verdict queue, in `verdict_process`, by its
  `consent_queue` row, or by the `resolve_entry` that is recording its
  answer — unless the full queue dropped the case, or a restart found it
  pending without a `consent_queue` row;
* a restart schedules nothing for judgement again: every case in the
  verdict queue and in `verdict_process` was assembled since the last one. -/
theorem pending_cases_attended (env : Env) (ls : List Label) :
    let s := (runFrom env ls).1
    let tr := (runFrom env ls).2
    (∀ row ∈ s.db.cases.rows, row.status = .pendingJudgement →
      s.Attends row.caseId ∨ Dropped tr row.caseId ∨ LostAtRestart env ls row.caseId) ∧
    ∀ c, c ∈ s.verdictQueue ∨ c ∈ s.verdict.cases → AssembledSinceStart c tr :=
  ⟨(pendingInv_run env ls).attended, fun c hc =>
    heldInv_run env ls c (hc.elim (fun h => .inr (.inl h)) fun h => .inr (.inr h))⟩

/-- A case waits in the verdict queue when the process is restarted: its
row stays PENDING_JUDGEMENT, and nothing will judge it. -/
theorem restart_forgets_pending :
    ¬ ∀ (env : Env) (ls : List Label),
      let s := (runFrom env ls).1
      ∀ row ∈ s.db.cases.rows, row.status = .pendingJudgement →
        row.caseId ∈ s.queuedIds ∨ row.caseId ∈ s.verdict.undecided ∨ row.caseId ∈ s.consentIds := by
  intro h
  have forgotten := h ⟨1000000, false, none⟩
    (startUp ++ submit ⟨false, "com.example.app", "ROOTKIT_MODULE", 55, ""⟩ ++ [.restart] ++ startUp)
  revert forgotten
  decide +kernel

end MiuiserPeruser.Gaveld
