import MiuiserPeruser.Gaveld.Emits

/-!
# gaveld — where cases and consent requests come from

A case lives in a worker, in the verdict queue or in `verdict_process`;
a consent request in `consent_queue`, in a slot, or in the hands of the
verdict or the consent thread — also across restarts, since the reload
brings back rows that were requests before. The two inversions of this
module say that a step makes a new one in ONE place each: a case where
`make_case_id` names it, a request where `verdict_process` builds it.
-/

namespace MiuiserPeruser.Gaveld

/-! ## Requests -/

def VerdictPc.requests : VerdictPc → List ConsentRequest
  | .consentInsert req | .enqueue req => [req]
  | _ => []

def ConsentPc.requests : ConsentPc → List ConsentRequest
  | .reload rest => rest
  | .remove _ _ req _ | .emit _ _ req _ _ | .enforce _ _ req | .relock _ _ req _ => [req]
  | _ => []

/-- The request is filed: in `consent_queue`, in a slot, or in the hands
of the consent thread. -/
def Sys.Filed (s : Sys) (req : ConsentRequest) : Prop :=
  req ∈ s.db.consentQueue.rows ∨ (∃ i p, s.pending i = some p ∧ p.req = req) ∨
    req ∈ s.consent.requests

/-- The request is somewhere in the daemon or its database. -/
def Sys.InFlight (s : Sys) (req : ConsentRequest) : Prop :=
  s.Filed req ∨ req ∈ s.verdict.requests

theorem filed_row {s : Sys} {req : ConsentRequest} (h : req ∈ s.db.consentQueue.rows) :
    s.Filed req := .inl h

theorem filed_slot {s : Sys} {i : Slot} {p : Pending} (h : s.pending i = some p) :
    s.Filed p.req := .inr (.inl ⟨i, p, h, rfl⟩)

theorem filed_consent {s : Sys} {req : ConsentRequest} (h : req ∈ s.consent.requests) :
    s.Filed req := .inr (.inr h)

/-- A step that keeps the table and the slots, and hands the consent
thread only what was filed. -/
theorem filed_of_thread {s s' : Sys} {req : ConsentRequest} (h : s'.Filed req)
    (hrows : s'.db.consentQueue = s.db.consentQueue) (hpending : s'.pending = s.pending)
    (hconsent : ∀ r ∈ s'.consent.requests, s.Filed r) : s.Filed req := by
  rcases h with h | ⟨i, p, hp, rfl⟩ | h
  · exact filed_row (hrows ▸ h)
  · exact filed_slot (hpending ▸ hp)
  · exact hconsent req h

theorem route_requests (c : CaseRecord) (state : ThreatState) : (route c state).requests = [] := by
  cases state <;> rfl

/-- The verdict thread files the request in its hands. -/
theorem VerdictMove.filed {s s' : Sys} {pc : VerdictPc} {es : List Event} {req : ConsentRequest}
    (m : VerdictMove s pc s' es) (h : s'.Filed req) : s.Filed req ∨ req ∈ pc.requests := by
  have kept : ∀ r ∈ s.consent.requests, s.Filed r := fun r => filed_consent
  cases m with
  | consentInsert =>
      rcases h with h | ⟨i, p, hp, rfl⟩ | h
      · rcases Sql.Table.mem_insertOrReplace.mp h with ⟨h, -⟩ | rfl
        · exact .inl (filed_row h)
        · exact .inr (List.mem_singleton_self _)
      · exact .inl (filed_slot hp)
      · exact .inl (filed_consent h)
  | activate =>
      rcases h with h | ⟨i, p, hp, rfl⟩ | h
      · exact .inl (filed_row h)
      · rcases slot_of_update hp with ⟨-, heq⟩ | ⟨-, hold⟩
        · obtain rfl := Option.some.inj heq
          exact .inr (List.mem_singleton_self _)
        · exact .inl (filed_slot hold)
      · exact .inl (filed_consent h)
  | _ => exact .inl (filed_of_thread h rfl rfl kept)

/-- Only `verdict_process` builds a request, once it has read the clock. -/
theorem VerdictMove.requests {s s' : Sys} {pc : VerdictPc} {es : List Event}
    {req : ConsentRequest} (m : VerdictMove s pc s' es) (h : req ∈ s'.verdict.requests) :
    req ∈ pc.requests ∨ ∃ c state, pc = .queueTime c state ∧ req = c.request state s.env.time := by
  cases m with
  | capped | floorQuarantined => simp only [route_requests, List.not_mem_nil] at h
  | queueTime => exact .inr ⟨_, _, rfl, List.mem_singleton.mp h⟩
  | consentInsert | blocked => exact .inl h
  | _ => cases h

/-- The consent thread only takes up what is filed; a poll may touch its
request, and keeps what it asks for. -/
theorem ConsentMove.filed {s s' : Sys} {pc : ConsentPc} {es : List Event} {req : ConsentRequest}
    (m : ConsentMove s pc s' es) (held : ∀ r ∈ pc.requests, s.Filed r) (h : s'.Filed req) :
    ∃ r, s.Filed r ∧ r.Same req := by
  have same : s.Filed req → ∃ r, s.Filed r ∧ r.Same req := fun h => ⟨req, h, .refl req⟩
  cases m with
  | reloadRead =>
      refine same (filed_of_thread h rfl rfl fun r hr => ?_)
      exact filed_row ((List.mem_insertionSort _).mp (List.mem_of_mem_take hr))
  | reactivate =>
      rcases h with h | ⟨i, p, hp, rfl⟩ | h
      · exact same (filed_row h)
      · rcases slot_of_update hp with ⟨-, heq⟩ | ⟨-, hold⟩
        · obtain rfl := Option.some.inj heq
          exact same (held _ List.mem_cons_self)
        · exact same (filed_slot hold)
      · exact same (held req (List.mem_cons_of_mem _ h))
  | refuse => exact same (filed_of_thread h rfl rfl fun r hr => held r (List.mem_cons_of_mem _ hr))
  | look hp hr =>
      rcases h with h | ⟨j, p', hp', rfl⟩ | h
      · exact same (filed_row h)
      · rcases slot_of_update hp' with ⟨-, heq⟩ | ⟨-, hold⟩
        · obtain rfl := Option.some.inj heq
          exact ⟨_, filed_slot hp, (Pending.polled_same _ _).1⟩
        · exact same (filed_slot hold)
      · cases h
  | resolve hp hr =>
      rcases h with h | ⟨j, p', hp', rfl⟩ | h
      · exact same (filed_row h)
      · rcases slot_of_update hp' with ⟨-, heq⟩ | ⟨-, hold⟩
        · cases heq
        · exact same (filed_slot hold)
      · obtain rfl := List.mem_singleton.mp h
        exact same (filed_slot hp)
  | remove =>
      rcases h with h | ⟨i, p, hp, rfl⟩ | h
      · exact same (filed_row (Sql.Table.mem_delete.mp h).1)
      · exact same (filed_slot hp)
      · exact same (held req h)
  | emitTime | emitInsert | emitCriminal | approve | deny | enforce =>
      exact same (filed_of_thread h rfl rfl held)
  | off | reloaded | stop | wake | sleep | skip | polled | relock =>
      exact same (filed_of_thread h rfl rfl fun r hr => by cases hr)

/-- **Where a filed request comes from**: it was filed before, up to its
time in queue, or the verdict thread has just filed it. -/
theorem step_filed {s : Sys} (ho : Orderly s) {l : Label} {req : ConsentRequest}
    (h : (step s l).1.Filed req) :
    (∃ r, s.Filed r ∧ r.Same req) ∨ l = .verdict ∧ req ∈ s.verdict.requests := by
  have kept : ∀ r ∈ s.consent.requests, s.Filed r := fun r => filed_consent
  by_cases hj : Judicial s l
  · cases hj with
    | verdict =>
        exact ((verdictStep_move s).filed h).imp (fun h => ⟨req, h, .refl req⟩) fun h => ⟨rfl, h⟩
    | consent => exact .inl ((consentStep_move s).filed (fun r => filed_consent) h)
    | restart =>
        rcases h with h | ⟨i, p, hp, -⟩ | h
        · exact .inl ⟨req, filed_row h, .refl req⟩
        · cases hp
        · cases h
    | startVerdict hm =>
        rw [step_startVerdict hm] at h
        exact .inl ⟨req, filed_of_thread h rfl rfl kept, .refl req⟩
    | resetPending hm =>
        rw [step_resetPending hm] at h
        have hclear := (ho.clear (by rw [hm]; rfl)).1
        exact .inl ⟨req, filed_of_thread h rfl hclear.symm kept, .refl req⟩
    | startConsent hm =>
        rw [step_startConsent hm] at h
        exact .inl ⟨req, filed_of_thread h rfl rfl (fun r hr => by cases hr), .refl req⟩
    | replying hm hl =>
        rename_i caseId approved
        rw [step_replying hm hl] at h
        rcases replyRequest_cases s caseId approved with heq | ⟨i, p, hp, -, heq⟩
        · rw [heq] at h
          exact .inl ⟨req, h, .refl req⟩
        · rw [heq] at h
          rcases h with h | ⟨j, p', hp', rfl⟩ | h
          · exact .inl ⟨req, filed_row h, .refl req⟩
          · by_cases hj : j = i
            · subst hj
              simp only [consentReply, hp, Function.update_self, Option.map_some,
                Option.some.injEq] at hp'
              exact .inl ⟨p.req, filed_slot hp, hp' ▸ .refl p.req⟩
            · simp only [consentReply, Function.update_of_ne hj] at hp'
              exact .inl ⟨p'.req, filed_slot hp', .refl _⟩
          · exact .inl ⟨req, filed_consent h, .refl req⟩
  · have hb := (step_bench ho hj).1
    refine .inl ⟨req, filed_of_thread h (congrArg Bench.consentQueue hb)
      (congrArg Bench.pending hb) (fun r hr => ?_), .refl req⟩
    have hconsent : (step s l).1.consent = s.consent := congrArg Bench.consent hb
    exact filed_consent (hconsent ▸ hr)

/-- **Where a request comes from**: it was in flight before, up to its time
in queue, or `verdict_process` has just built it. -/
theorem step_inFlight {s : Sys} (ho : Orderly s) {l : Label} {req : ConsentRequest}
    (h : (step s l).1.InFlight req) :
    (∃ r, s.InFlight r ∧ r.Same req) ∨
      ∃ c state, s.verdict = .queueTime c state ∧ req = c.request state s.env.time := by
  rcases h with h | h
  · rcases step_filed ho h with ⟨r, hr, hsame⟩ | ⟨-, hr⟩
    · exact .inl ⟨r, .inl hr, hsame⟩
    · exact .inl ⟨req, .inr hr, .refl req⟩
  · have held : ∀ r ∈ (step s l).1.verdict.requests, r ∈ s.verdict.requests ∨
        ∃ c state, s.verdict = .queueTime c state ∧ r = c.request state s.env.time := by
      let V (pc : VerdictPc) : Prop := ∀ r ∈ pc.requests, r ∈ s.verdict.requests ∨
        ∃ c state, s.verdict = .queueTime c state ∧ r = c.request state s.env.time
      have hidle : ∀ pc : VerdictPc, pc.idle = true → V pc := by
        intro pc hpc r hr
        cases pc with
        | consentInsert | enqueue => cases hpc
        | _ => cases hr
      exact step_verdict_pc (V := V) ho l hidle (fun r hr => .inl hr)
        fun _ r => (verdictStep_move s).requests
    exact (held req h).imp_left fun hr => ⟨req, .inr hr, .refl req⟩

/-- The rule for what every request in flight satisfies: it must hold of
the requests `verdict_process` builds, and survive longer traces and
restarted ages. -/
theorem requests_step {R : List Event → ConsentRequest → Prop} {s : Sys} {l : Label}
    (tr es : List Event) (ho : Orderly s) (mono : ∀ req, R tr req → R (tr ++ es) req)
    (same : ∀ r req, r.Same req → R tr r → R tr req) (h : ∀ req, s.InFlight req → R tr req)
    (new : ∀ c state, s.verdict = .queueTime c state → R tr (c.request state s.env.time)) :
    ∀ req, (step s l).1.InFlight req → R (tr ++ es) req := by
  intro req hreq
  rcases step_inFlight ho hreq with ⟨r, hr, hsame⟩ | ⟨c, state, hv, rfl⟩
  · exact mono req (same r req hsame (h r hr))
  · exact mono _ (new c state hv)

/-- The requests an event is about. -/
def Event.requests : Event → List ConsentRequest
  | .queued req | .activated _ req | .refused req | .notLoaded req | .resolve _ req _
  | .resolved _ req _ | .reply _ _ (some (_, req)) => [req]
  | _ => []

/-- Every request an event is about was in flight. -/
theorem Emits.inFlight {s : Sys} {l : Label} {e : Event} (h : Emits s l e) {req : ConsentRequest}
    (hreq : req ∈ e.requests) : s.InFlight req := by
  cases h with
  | queued hv | activated hv | refused hv =>
      obtain rfl := List.mem_singleton.mp hreq
      exact .inr (by rw [hv]; exact List.mem_singleton_self _)
  | notLoaded _ hrow =>
      obtain rfl := List.mem_singleton.mp hreq
      exact .inl (filed_row hrow)
  | reloaded hc | reloadRefused hc =>
      obtain rfl := List.mem_singleton.mp hreq
      exact .inl (filed_consent (by rw [hc]; exact List.mem_cons_self))
  | resolve _ hp | reply _ hp =>
      obtain rfl := List.mem_singleton.mp hreq
      exact .inl (filed_slot hp)
  | resolved hc =>
      obtain rfl := List.mem_singleton.mp hreq
      exact .inl (filed_consent (by rw [hc]; exact List.mem_singleton_self _))
  | _ => cases hreq

end MiuiserPeruser.Gaveld
