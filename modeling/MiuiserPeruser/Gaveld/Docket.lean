import MiuiserPeruser.Lib.History
import MiuiserPeruser.Gaveld.Emits

/-!
# gaveld — the docket

Where cases are: in the worker that assembles them, in the verdict queue,
in `verdict_process`. A step makes a new one in ONE place, where
`make_case_id` names it, and a restart forgets them all. The `cases`
table outlives the process; it is a function of the trace.
-/

namespace MiuiserPeruser.Gaveld

open History

/-! ## Holding a case -/

def Worker.cases : Worker → List CaseRecord
  | .assembling _ _ (.insert c) | .assembling _ _ (.dismiss c) | .assembling _ _ (.push c) => [c]
  | _ => []

def VerdictPc.cases : VerdictPc → List CaseRecord
  | .iaCheck c | .suspend c | .freshTime c | .freshQuery c _ | .cap c | .floorTime c
  | .floorHouseArrest c _ | .floorQuarantined c _ _ | .emit c _ _ _ | .enforce c
  | .queueTime c _ => [c]
  | _ => []

/-- The case record is somewhere in the daemon. -/
def Sys.Holds (s : Sys) (c : CaseRecord) : Prop :=
  (∃ role, c ∈ (s.worker role).cases) ∨ c ∈ s.verdictQueue ∨ c ∈ s.verdict.cases

theorem workerStep_cases {s : Sys} {w : Worker} {c : CaseRecord}
    (h : c ∈ (workerStep s w).2.1.cases) :
    c ∈ w.cases ∨ ∃ ms, .assembled c ms ∈ (workerStep s w).2.2 := by
  cases w with
  | scoring r call pc => cases pc <;> cases h
  | assembling r result pc =>
      cases pc with
      | caseId now =>
          obtain rfl := List.mem_singleton.mp h
          exact .inr ⟨_, List.mem_singleton_self _⟩
      | insert c' =>
          refine .inl ?_
          simp only [workerStep, assembleStep] at h
          split at h <;> exact h
      | time | dismiss | push => cases h
  | decaying now pc =>
      simp only [workerStep] at h
      split at h <;> cases h
  | decayBegin =>
      simp only [workerStep] at h
      split at h <;> cases h
  | off | idle | scoreBegin | decayTime => cases h

theorem workerStep_queue {s : Sys} {w : Worker} {c : CaseRecord}
    (h : c ∈ (workerStep s w).1.verdictQueue) : c ∈ s.verdictQueue ∨ c ∈ w.cases := by
  cases w with
  | assembling r result pc =>
      cases pc with
      | push c' =>
          rcases mem_queuePush h with rfl | h
          · exact .inr (List.mem_singleton_self _)
          · exact .inl h
      | time | caseId | insert | dismiss => exact .inl h
  | _ => exact .inl h

theorem route_cases {c c' : CaseRecord} {state : ThreatState} (h : c' ∈ (route c state).cases) :
    c' = c := by
  cases state <;> exact List.mem_singleton.mp h

theorem VerdictMove.holds {s s' : Sys} {pc : VerdictPc} {es : List Event} {c : CaseRecord}
    (m : VerdictMove s pc s' es) (h : c ∈ s'.verdict.cases) : c ∈ pc.cases ∨ c ∈ s.verdictQueue := by
  cases m with
  | take hq =>
      obtain rfl := List.mem_singleton.mp h
      exact .inr (hq ▸ List.mem_cons_self)
  | capped | floorQuarantined => exact .inl (List.mem_singleton.mpr (route_cases h))
  | off | stop | listen | wait | closed | suspend | judge | enforce | queueTime | consentInsert
  | blocked | activate | refuse => cases h
  | _ => exact .inl h

theorem VerdictMove.queue {s s' : Sys} {pc : VerdictPc} {es : List Event} {c : CaseRecord}
    (m : VerdictMove s pc s' es) (h : c ∈ s'.verdictQueue) : c ∈ s.verdictQueue := by
  cases m with
  | take hq => exact hq ▸ List.mem_cons_of_mem _ h
  | _ => exact h

theorem step_queue {s : Sys} (ho : Orderly s) {l : Label} {c : CaseRecord}
    (h : c ∈ (step s l).1.verdictQueue) :
    c ∈ s.verdictQueue ∨ ∃ role, c ∈ (s.worker role).cases := by
  rcases step_kind ho l with ⟨role, rfl, hw⟩ | hj | hi
  · have hq : (step s role.label).1.verdictQueue =
        (workerStep s (s.worker role)).1.verdictQueue := by
      rw [step_worker hw]
      cases role <;> rfl
    rw [hq] at h
    exact (workerStep_queue h).imp_right fun h => ⟨role, h⟩
  · refine .inl ?_
    cases hj with
    | verdict => exact (verdictStep_move s).queue h
    | consent =>
        simp only [step] at h
        rw [consentStep_frame] at h
        exact h
    | restart => cases h
    | startVerdict hm | resetPending hm | startConsent hm =>
        simp only [step, mainStep, hm] at h
        exact h
    | replying hm hl =>
        rw [step_replying hm hl] at h
        rw [replyRequest_frame] at h
        exact h
  · rw [hi.queue] at h
    exact .inl h

/-- **Where a case comes from**: it was held before, or `make_case_id` has
just named it. -/
theorem step_holds {s : Sys} (ho : Orderly s) {l : Label} {c : CaseRecord}
    (h : (step s l).1.Holds c) : s.Holds c ∨ ∃ ms, .assembled c ms ∈ (step s l).2 := by
  rcases h with ⟨role, h⟩ | h | h
  · rcases step_worker_cases ho l role with heq | ⟨-, hfresh⟩ | ⟨rfl, hw, heq⟩
    · exact .inl (.inl ⟨role, heq ▸ h⟩)
    · cases hw : (step s l).1.worker role with
      | assembling =>
          rw [hw] at hfresh
          cases hfresh
      | _ =>
          rw [hw] at h
          cases h
    · rw [heq] at h
      refine (workerStep_cases h).imp (fun h => .inl ⟨role, h⟩) fun h => ?_
      rw [step_worker hw]
      exact h
  · exact .inl ((step_queue ho h).elim (fun h => .inr (.inl h)) .inl)
  · let V (pc : VerdictPc) : Prop := ∀ c ∈ pc.cases, s.Holds c
    have hidle : ∀ pc : VerdictPc, pc.idle = true → V pc := by
      intro pc hpc c' hc'
      cases pc with
      | off | loop | dequeue => cases hc'
      | _ => cases hpc
    refine .inl (step_verdict_pc (V := V) ho l hidle (fun c' hc' => .inr (.inr hc')) ?_ c h)
    intro _ c' hc'
    exact ((verdictStep_move s).holds hc').elim (fun h => .inr (.inr h)) fun h => .inr (.inl h)

/-- The case was assembled, and the process has not been restarted since. -/
def AssembledSinceStart (c : CaseRecord) (tr : List Event) : Prop :=
  ∃ ms, Since (fun e => e ≠ .restart) (.assembled c ms) tr

theorem AssembledSinceStart.mem {c : CaseRecord} {tr : List Event} (h : AssembledSinceStart c tr) :
    ∃ ms, .assembled c ms ∈ tr := by
  obtain ⟨ms, mid, hsuf, -⟩ := h
  exact ⟨ms, hsuf.subset List.mem_cons_self⟩

/-- A case the daemon holds was assembled by this process. -/
def HeldInv (s : Sys) (tr : List Event) : Prop := ∀ c, s.Holds c → AssembledSinceStart c tr

theorem HeldInv.step {s : Sys} {tr : List Event} (ho : Orderly s) (h : HeldInv s tr) (l : Label) :
    HeldInv (step s l).1 (tr ++ (step s l).2) := by
  intro c hc
  by_cases hl : l = .restart
  · subst hl
    rcases hc with ⟨role, hc⟩ | hc | hc
    · cases role <;> cases hc
    · cases hc
    · cases hc
  · have running := step_running ho hl
    rcases step_holds ho hc with hold | ⟨ms, hnew⟩
    · obtain ⟨ms, hsince⟩ := h c hold
      exact ⟨ms, hsince.append running⟩
    · obtain ⟨pre, post, hsplit⟩ := List.append_of_mem hnew
      refine ⟨ms, post, ⟨tr ++ pre, by rw [hsplit]; simp⟩, fun e he => running e ?_⟩
      rw [hsplit]
      exact List.mem_append_right _ (List.mem_cons_of_mem _ he)

theorem heldInv_run (env : Env) (ls : List Label) :
    HeldInv (runFrom env ls).1 (runFrom env ls).2 := by
  refine Machine.run_invariant_under (Q := Orderly) (orderly_boot env .empty) orderly_step ?_
    (fun s tr l ho h => h.step ho l) ls
  rintro c (⟨role, hc⟩ | hc | hc)
  · cases role <;> cases hc
  · cases hc
  · cases hc

/-! ## Case ids -/

def Sys.queuedIds (s : Sys) : List String := s.verdictQueue.map CaseRecord.caseId

def Sys.consentIds (s : Sys) : List String :=
  s.db.consentQueue.rows.map ConsentRequest.caseId

/-- The case `verdict_process` has not yet decided or queued for consent. -/
def VerdictPc.undecided : VerdictPc → List String
  | .iaCheck c | .suspend c | .freshTime c | .freshQuery c _ | .cap c | .floorTime c
  | .floorHouseArrest c _ | .floorQuarantined c _ _ | .emit c _ _ _ | .queueTime c _ => [c.caseId]
  | .consentInsert req => [req.caseId]
  | _ => []

theorem undecided_nil {pc : VerdictPc} (h : pc.idle = true) : pc.undecided = [] := by
  cases pc with
  | off | loop | dequeue => rfl
  | _ => cases h

theorem route_undecided (c : CaseRecord) (state : ThreatState) :
    (route c state).undecided = [c.caseId] := by
  cases state <;> rfl

/-! ## The `cases` table -/

theorem caseId_setStatus (status : CaseStatus) (r : CaseRow) :
    ({ r with status := status } : CaseRow).caseId = r.caseId := rfl

/-- What an event does to the `cases` table. -/
def Event.onCases (t : Sql.Table CaseRow CaseRow.caseId) : Event → Sql.Table CaseRow CaseRow.caseId
  | .inserted c => t.insertOrIgnore c.row
  | .statusUpdate caseId _ _ status =>
      t.update caseId (fun r => { r with status := status }) (caseId_setStatus status)
  | _ => t

theorem workerStep_onCases (s : Sys) (w : Worker) :
    (workerStep s w).1.db.cases = (workerStep s w).2.2.foldl Event.onCases s.db.cases := by
  cases w with
  | scoring r c pc => cases pc <;> rfl
  | assembling r result pc =>
      cases pc with
      | push c =>
          simp only [workerStep, assembleStep]
          cases (queuePush verdictQueueSize s.verdictQueue c).2 <;> rfl
      | time | caseId | insert | dismiss => rfl
  | decaying now pc => cases pc <;> rfl
  | off | idle | scoreBegin | decayBegin | decayTime => rfl

theorem VerdictMove.onCases {s s' : Sys} {pc : VerdictPc} {es : List Event}
    (m : VerdictMove s pc s' es) : s'.db.cases = es.foldl Event.onCases s.db.cases := by
  cases m <;> rfl

theorem ConsentMove.onCases {s s' : Sys} {pc : ConsentPc} {es : List Event}
    (m : ConsentMove s pc s' es) : s'.db.cases = es.foldl Event.onCases s.db.cases := by
  cases m with
  | reloadRead =>
      have skip : ∀ (rows : List ConsentRequest) (t : Sql.Table CaseRow CaseRow.caseId),
          (rows.map Event.notLoaded).foldl Event.onCases t = t := by
        intro rows
        induction rows with
        | nil => exact fun _ => rfl
        | cons r rows ih => exact fun t => ih t
      exact (skip _ _).symm
  | _ => rfl

theorem step_onCases {s : Sys} (ho : Orderly s) (l : Label) :
    (step s l).1.db.cases = (step s l).2.foldl Event.onCases s.db.cases := by
  rcases step_kind ho l with ⟨role, rfl, hw⟩ | hj | hi
  · rw [step_worker hw, setWorker_db]
    exact workerStep_onCases s _
  · cases hj with
    | verdict => exact (verdictStep_move s).onCases
    | consent => exact (consentStep_move s).onCases
    | restart => rfl
    | startVerdict hm | resetPending hm | startConsent hm => simp only [step, mainStep, hm, List.foldl]
    | replying hm hl =>
        rename_i caseId approved
        rw [step_replying hm hl]
        rcases replyRequest_cases s caseId approved with heq | ⟨i, p, -, -, heq⟩ <;> rw [heq] <;> rfl
  · rw [hi.db, hi.silent]
    rfl

/-- The table is what the trace made of it. -/
theorem cases_run (env : Env) (ls : List Label) :
    (runFrom env ls).1.db.cases = (runFrom env ls).2.foldl Event.onCases .empty := by
  refine Machine.run_invariant_under (Q := Orderly)
    (P := fun s tr => s.db.cases = tr.foldl Event.onCases .empty)
    (orderly_boot env .empty) orderly_step rfl (fun s tr l ho h => ?_) ls
  rw [step_onCases ho, h, List.foldl_append]

/-- A row keeps all it says about its case but the status. -/
def CaseRow.Same (r q : CaseRow) : Prop := { r with status := q.status } = q

theorem onCases_keeps (e : Event) {t : Sql.Table CaseRow CaseRow.caseId} {r : CaseRow}
    (h : r ∈ t.rows) : ∃ q ∈ (e.onCases t).rows, r.Same q := by
  cases e with
  | inserted c => exact ⟨r, Sql.Table.mem_insertOrIgnore.mpr (.inl h), rfl⟩
  | statusUpdate caseId source score status =>
      refine ⟨_, (Sql.Table.mem_update (fun r => { r with status := status }) fun _ => rfl).mpr
        ⟨r, h, rfl⟩, ?_⟩
      split <;> rfl
  | _ => exact ⟨r, h, rfl⟩

theorem mem_onCases {e : Event} {t : Sql.Table CaseRow CaseRow.caseId} {q : CaseRow}
    (h : q ∈ (e.onCases t).rows) :
    (∃ r ∈ t.rows, r.Same q) ∨ ∃ c, e = .inserted c ∧ q = c.row := by
  cases e with
  | inserted c =>
      rcases Sql.Table.mem_insertOrIgnore.mp h with h | ⟨rfl, -⟩
      · exact .inl ⟨q, h, rfl⟩
      · exact .inr ⟨c, rfl, rfl⟩
  | statusUpdate caseId source score status =>
      obtain ⟨r, hr, rfl⟩ :=
        (Sql.Table.mem_update (fun r : CaseRow => { r with status := status }) fun _ => rfl).mp h
      exact .inl ⟨r, hr, by split <;> rfl⟩
  | _ => exact .inl ⟨q, h, rfl⟩

theorem CaseRow.Same.trans {r q p : CaseRow} (h₁ : r.Same q) (h₂ : q.Same p) : r.Same p := by
  unfold CaseRow.Same at *
  rw [← h₂, ← h₁]

/-- Every row is of a case that was inserted. -/
theorem inserted_of_row {tr : List Event} {q : CaseRow}
    (h : q ∈ (tr.foldl Event.onCases .empty).rows) : ∃ c, .inserted c ∈ tr ∧ c.row.Same q := by
  induction tr using List.reverseRecOn generalizing q with
  | nil => cases h
  | append_singleton tr e ih =>
      rw [List.foldl_append] at h
      rcases mem_onCases h with ⟨r, hr, hsame⟩ | ⟨c, rfl, rfl⟩
      · obtain ⟨c, hc, hcr⟩ := ih hr
        exact ⟨c, List.mem_append_left _ hc, hcr.trans hsame⟩
      · exact ⟨c, by simp, rfl⟩

/-- A case that was inserted has a row of its id. -/
theorem row_of_inserted {tr : List Event} {c : CaseRecord} (h : .inserted c ∈ tr) :
    ∃ q ∈ (tr.foldl Event.onCases .empty).rows, q.caseId = c.caseId := by
  induction tr using List.reverseRecOn with
  | nil => cases h
  | append_singleton tr e ih =>
      rw [List.foldl_append]
      rcases List.mem_append.mp h with h | h
      · obtain ⟨r, hr, hid⟩ := ih h
        obtain ⟨q, hq, hsame⟩ := onCases_keeps e hr
        exact ⟨q, hq, by rw [← hsame]; exact hid⟩
      · obtain rfl := List.mem_singleton.mp h
        by_cases hkey : c.caseId ∈ (tr.foldl Event.onCases .empty).rows.map CaseRow.caseId
        · obtain ⟨r, hr, hid⟩ := List.mem_map.mp hkey
          exact ⟨r, Sql.Table.mem_insertOrIgnore.mpr (.inl hr), hid⟩
        · exact ⟨c.row, Sql.Table.mem_insertOrIgnore.mpr (.inr ⟨rfl, hkey⟩), rfl⟩

end MiuiserPeruser.Gaveld
