import MiuiserPeruser.Gaveld.System

/-!
# gaveld — which step reports which event

`Emits s l e` lists, once, every event a step can report with the state
it is reported from. A claim about an event is then a case analysis on
this list, not on the program.
-/

namespace MiuiserPeruser.Gaveld

inductive Emits (s : Sys) : Label → Event → Prop where
  | assembled {role : Role} {r : IngestRecord} {result : ScoreResult} {now : Int} :
      s.worker role = .assembling r result (.caseId now) →
      Emits s role.label (.assembled (assembled r result now s.env.clock) s.env.clock)
  | inserted {role : Role} {r : IngestRecord} {result : ScoreResult} {c : CaseRecord} :
      s.worker role = .assembling r result (.insert c) → Emits s role.label (.inserted c)
  | dismissed {role : Role} {r : IngestRecord} {result : ScoreResult} {c : CaseRecord} :
      s.worker role = .assembling r result (.dismiss c) →
      Emits s role.label (.statusUpdate c.caseId c.source c.score (.judged .dismissed))
  | dropped {role : Role} {r : IngestRecord} {result : ScoreResult} {c old : CaseRecord} :
      s.worker role = .assembling r result (.push c) →
      (queuePush verdictQueueSize s.verdictQueue c).2 = some old →
      Emits s role.label (.dropped old)
  | suspended {c : CaseRecord} : s.verdict = .suspend c →
      Emits s .verdict (.statusUpdate c.caseId c.source c.score .suspended)
  | floor {c : CaseRecord} : s.verdict = .floorTime c → Emits s .verdict (.floor c s.env.time)
  | verdictRow {c : CaseRecord} {verdict : Verdict} {granted : Bool} {now : Int} :
      s.verdict = .emit c verdict granted (.insert now) →
      Emits s .verdict (.verdictRow .verdict ((c.emission verdict granted).row now))
  | verdictStatus {c : CaseRecord} {verdict : Verdict} {granted : Bool} :
      s.verdict = .emit c verdict granted .status →
      Emits s .verdict (.statusUpdate c.caseId c.source c.score (.judged verdict))
  | verdictEnforce {c : CaseRecord} : s.verdict = .enforce c →
      Emits s .verdict (.enforce .verdict c.source (.state .warned) c.caseId c.score
        (enforceExecute s.env.sovereignty c.source (.state .warned)))
  | queued {req : ConsentRequest} : s.verdict = .consentInsert req → Emits s .verdict (.queued req)
  | activated {req : ConsentRequest} {i : Slot} : s.verdict = .enqueue req →
      freeSlot s.pending = some i → Emits s .verdict (.activated i req)
  | refused {req : ConsentRequest} : s.verdict = .enqueue req → freeSlot s.pending = none →
      Emits s .verdict (.refused req)
  | notLoaded {req : ConsentRequest} : s.consent = .reloadRead → req ∈ s.db.consentQueue.rows →
      req ∉ dbConsentPending s.db consentQueueSize → Emits s .consent (.notLoaded req)
  | reloaded {req : ConsentRequest} {rest : List ConsentRequest} {i : Slot} :
      s.consent = .reload (req :: rest) → freeSlot s.pending = some i →
      Emits s .consent (.activated i req)
  | reloadRefused {req : ConsentRequest} {rest : List ConsentRequest} :
      s.consent = .reload (req :: rest) → freeSlot s.pending = none →
      Emits s .consent (.refused req)
  | resolve {now : Int} {i : Slot} {p : Pending} {approved : Bool} : s.consent = .poll now i →
      s.pending i = some p → p.reply = some approved →
      Emits s .consent (.resolve i p.req approved)
  | consentRow {now t : Int} {i : Slot} {req : ConsentRequest} {approved : Bool} :
      s.consent = .emit now i req approved (.insert t) →
      Emits s .consent (.verdictRow .consent ((req.emission approved).row t))
  | consentStatus {now : Int} {i : Slot} {req : ConsentRequest} {approved : Bool} :
      s.consent = .emit now i req approved .status →
      Emits s .consent (.statusUpdate req.caseId req.source req.score
        (.judged (req.emission approved).verdict))
  | consentEnforce {now : Int} {i : Slot} {req : ConsentRequest} : s.consent = .enforce now i req →
      Emits s .consent (.enforce .consent req.source req.verdict req.caseId req.score
        (enforceExecute s.env.sovereignty req.source req.verdict))
  | resolved {now : Int} {i : Slot} {req : ConsentRequest} {approved : Bool} :
      s.consent = .relock now i req approved → Emits s .consent (.resolved i req approved)
  | reply {caseId : String} {approved : Bool} {i : Slot} {p : Pending} :
      s.main = .replying caseId approved → s.pending i = some p → p.req.caseId = caseId →
      Emits s .main (.reply caseId approved (some (i, p.req)))
  | unknownReply {caseId : String} {approved : Bool} : s.main = .replying caseId approved →
      Emits s .main (.reply caseId approved none)
  | restart : Emits s .restart .restart

theorem worker_emits {s : Sys} {role : Role} {e : Event}
    (h : e ∈ (workerStep s (s.worker role)).2.2) : Emits s role.label e := by
  cases hw : s.worker role with
  | assembling r result pc =>
      rw [hw] at h
      cases pc with
      | time => cases h
      | caseId now =>
          obtain rfl := List.mem_singleton.mp h
          exact .assembled hw
      | insert c =>
          obtain rfl := List.mem_singleton.mp h
          exact .inserted hw
      | dismiss c =>
          obtain rfl := List.mem_singleton.mp h
          exact .dismissed hw
      | push c =>
          obtain ⟨old, hold, rfl⟩ := List.mem_map.mp h
          exact .dropped hw (Option.mem_toList.mp hold)
  | scoring r c pc => rw [hw] at h; cases pc <;> cases h
  | decaying now pc => rw [hw] at h; cases pc <;> cases h
  | off | idle | scoreBegin | decayBegin | decayTime => rw [hw] at h; cases h

theorem VerdictMove.emits {s s' : Sys} {pc : VerdictPc} {es : List Event} {e : Event}
    (m : VerdictMove s pc s' es) (hv : s.verdict = pc) (h : e ∈ es) : Emits s .verdict e := by
  cases m with
  | suspend =>
      obtain rfl := List.mem_singleton.mp h
      exact .suspended hv
  | floorTime =>
      obtain rfl := List.mem_singleton.mp h
      exact .floor hv
  | emitInsert =>
      obtain rfl := List.mem_singleton.mp h
      exact .verdictRow hv
  | warn | judge =>
      obtain rfl := List.mem_singleton.mp h
      exact .verdictStatus hv
  | enforce =>
      obtain rfl := List.mem_singleton.mp h
      exact .verdictEnforce hv
  | consentInsert =>
      obtain rfl := List.mem_singleton.mp h
      exact .queued hv
  | activate _ hf =>
      obtain rfl := List.mem_singleton.mp h
      exact .activated hv hf
  | refuse _ hf =>
      obtain rfl := List.mem_singleton.mp h
      exact .refused hv hf
  | _ => cases h

theorem ConsentMove.emits {s s' : Sys} {pc : ConsentPc} {es : List Event} {e : Event}
    (m : ConsentMove s pc s' es) (hc : s.consent = pc) (h : e ∈ es) : Emits s .consent e := by
  cases m with
  | reloadRead =>
      obtain ⟨req, hreq, rfl⟩ := List.mem_map.mp h
      obtain ⟨hrow, hnot⟩ := List.mem_filter.mp hreq
      exact .notLoaded hc hrow (by simpa using hnot)
  | reactivate hf =>
      obtain rfl := List.mem_singleton.mp h
      exact .reloaded hc hf
  | refuse hf =>
      obtain rfl := List.mem_singleton.mp h
      exact .reloadRefused hc hf
  | resolve hp hr =>
      obtain rfl := List.mem_singleton.mp h
      exact .resolve hc hp hr
  | emitInsert =>
      obtain rfl := List.mem_singleton.mp h
      exact .consentRow hc
  | approve | deny =>
      obtain rfl := List.mem_singleton.mp h
      exact .consentStatus hc
  | enforce =>
      obtain rfl := List.mem_singleton.mp h
      exact .consentEnforce hc
  | relock =>
      obtain rfl := List.mem_singleton.mp h
      exact .resolved hc
  | _ => cases h

/-- `consent_reply` finds an active slot of the case, or nothing. -/
theorem replyRequest_cases (s : Sys) (caseId : String) (approved : Bool) :
    replyRequest s caseId approved = (s, [.reply caseId approved none]) ∨
      ∃ i p, s.pending i = some p ∧ p.req.caseId = caseId ∧
        replyRequest s caseId approved =
          ({ s with pending := consentReply s.pending i approved },
            [.reply caseId approved (some (i, p.req))]) := by
  unfold replyRequest
  cases hf : findPending s.pending caseId with
  | none => exact .inl rfl
  | some i =>
      obtain ⟨p, hp, hid⟩ := findPending_some hf
      refine .inr ⟨i, p, hp, hid, ?_⟩
      simp [hp]

theorem step_emits {s : Sys} (ho : Orderly s) {l : Label} {e : Event} (h : e ∈ (step s l).2) :
    Emits s l e := by
  rcases step_kind ho l with ⟨role, rfl, hw⟩ | hj | hi
  · rw [step_worker hw] at h
    exact worker_emits h
  · cases hj with
    | verdict => exact (verdictStep_move s).emits rfl h
    | consent => exact (consentStep_move s).emits rfl h
    | restart =>
        obtain rfl := List.mem_singleton.mp h
        exact .restart
    | startVerdict hm | resetPending hm | startConsent hm =>
        simp only [step, mainStep, hm] at h
        cases h
    | replying hm hl =>
        rename_i caseId approved
        rw [step_replying hm hl] at h
        rcases replyRequest_cases s caseId approved with heq | ⟨i, p, hp, hid, heq⟩
        · rw [heq] at h
          obtain rfl := List.mem_singleton.mp h
          exact .unknownReply hm
        · rw [heq] at h
          obtain rfl := List.mem_singleton.mp h
          exact .reply hm hp hid
  · rw [hi.silent] at h
    cases h

/-- Only a restart reports one. -/
theorem step_running {s : Sys} (ho : Orderly s) {l : Label} (hl : l ≠ .restart) :
    ∀ e ∈ (step s l).2, e ≠ .restart := by
  intro e he
  cases step_emits ho he with
  | restart => exact absurd rfl hl
  | _ => simp

end MiuiserPeruser.Gaveld
