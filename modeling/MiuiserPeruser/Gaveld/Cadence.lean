import MiuiserPeruser.Gaveld.System

/-!
# gaveld — how often the user is asked (`consent_thread`)

A case that waits for the user's answer is notified again and again: every
`CONSENT_RENOTIFY_INTERVAL`, and at once whenever its timeout has passed,
which restarts its time in queue. The two clocks together must neither pester
the user nor leave him in the dark.

The notifications of a run are read off its polls: `cadenceRun` is the run of
the daemon with an event for each `send_notification`.
-/

namespace MiuiserPeruser.Gaveld

/-! ## One slot -/

/-- A poll of a slot without a reply sends a notification. -/
def Pending.asks (now : Int) (p : Pending) : Bool :=
  let p := (p.hardLimit now).timeout now
  p.lastNotified = 0 ∨ now - p.lastNotified ≥ consentRenotifyInterval

/-- No timeout is shorter than the interval; JAILED has none. -/
def ConsentRequest.Timed (r : ConsentRequest) : Prop :=
  r.timeoutSecs = 0 ∨ consentRenotifyInterval ≤ r.timeoutSecs

theorem request_timed (c : CaseRecord) (state : ThreatState) (now : Int) :
    (c.request state now).Timed := by
  unfold ConsentRequest.Timed CaseRecord.request consentTimeout
  cases state <;> simp [consentTimeoutJailed, consentTimeoutHouseArrest,
    consentTimeoutQuarantined, consentRenotifyInterval]

/-- A poll that notifies does so for a slot held too long, whose time in
queue restarts, or for one not notified yet or not for an interval. -/
theorem Pending.polled_asks {p : Pending} {now : Int} (ht : p.req.Timed)
    (h : p.asks now = true) :
    (p.polled now).lastNotified = now ∧
      ((p.polled now).req.queued = now ∧ consentRenotifyInterval ≤ now - p.req.queued ∨
        (p.polled now).req.queued = p.req.queued ∧
          (p.lastNotified = 0 ∨ consentRenotifyInterval ≤ now - p.lastNotified)) := by
  have hnotify : ((p.hardLimit now).timeout now).notify now =
      { (p.hardLimit now).timeout now with lastNotified := now } := by
    unfold Pending.notify
    exact if_pos (by simpa [Pending.asks] using h)
  unfold Pending.polled
  rw [hnotify]
  refine ⟨rfl, ?_⟩
  unfold Pending.asks at h
  by_cases hlimit : p.req.timeoutSecs = 0 ∧ now - p.req.queued > consentJailedHardLimit
  · have hhard : p.hardLimit now = p.held now := if_pos hlimit
    have htime : (p.held now).timeout now = p.held now :=
      if_neg (by simp [Pending.held, hlimit.1])
    rw [hhard, htime]
    refine .inl ⟨rfl, ?_⟩
    have := hlimit.2
    simp only [consentJailedHardLimit, consentRenotifyInterval] at this ⊢
    omega
  · have hhard : p.hardLimit now = p := if_neg hlimit
    rw [hhard] at h ⊢
    by_cases hout : p.req.timeoutSecs > 0 ∧ now - p.req.queued ≥ p.req.timeoutSecs
    · rw [show p.timeout now = p.held now from if_pos hout]
      refine .inl ⟨rfl, ?_⟩
      rcases ht with ht | ht <;> omega
    · rw [show p.timeout now = p from if_neg hout] at h ⊢
      exact .inr ⟨rfl, by simpa using h⟩

/-- A poll that does not notify leaves the slot as it is. -/
theorem Pending.polled_silent {p : Pending} {now : Int} (h : p.asks now = false) :
    p.polled now = p ∧ p.lastNotified ≠ 0 ∧ now - p.lastNotified < consentRenotifyInterval := by
  have hquiet : ¬ (((p.hardLimit now).timeout now).lastNotified = 0 ∨
      now - ((p.hardLimit now).timeout now).lastNotified ≥ consentRenotifyInterval) := by
    simpa [Pending.asks] using h
  have hhard : p.hardLimit now = p := by
    refine if_neg fun hlimit => hquiet (.inl ?_)
    rw [show p.hardLimit now = p.held now from if_pos hlimit]
    unfold Pending.timeout
    split <;> rfl
  have htime : p.timeout now = p := by
    refine if_neg fun hout => hquiet (.inl ?_)
    rw [hhard, show p.timeout now = p.held now from if_pos hout]
    rfl
  rw [hhard, htime] at hquiet
  refine ⟨?_, fun h0 => hquiet (.inl h0), not_le.mp fun hle => hquiet (.inr hle)⟩
  unfold Pending.polled
  rw [hhard, htime]
  exact if_neg hquiet

/-! ## The notifications of a run -/

/-- An event of the daemon, or a notification for a slot at the time of its
poll. -/
inductive CadenceEvent where
  | court (e : Event)
  | asked (i : Slot) (now : Int)

/-- `send_notification`, if the step comes to it. -/
def asked (s : Sys) : Label → List CadenceEvent
  | .consent =>
      match s.consent with
      | .poll now i =>
          if h : i < consentQueueSize then
            match s.pending ⟨i, h⟩ with
            | some p => if p.reply = none ∧ p.asks now then [.asked ⟨i, h⟩ now] else []
            | none => []
          else []
      | _ => []
  | _ => []

def cadenceStep (s : Sys) (l : Label) : Sys × List CadenceEvent :=
  ((step s l).1, (step s l).2.map .court ++ asked s l)

def cadenceRun (env : Env) (ls : List Label) : Sys × List CadenceEvent :=
  Machine.run cadenceStep (.boot env .empty) ls

/-- The event begins a new count for the slot. -/
def Event.resets (i : Slot) : Event → Bool
  | .activated j _ => j = i
  | .restart => true
  | _ => false

def CadenceEvent.onAsks (i : Slot) (asks : List Int) : CadenceEvent → List Int
  | .asked j now => if j = i then asks ++ [now] else asks
  | .court e => if e.resets i then [] else asks

/-- When the case in a slot was notified, since it came there. -/
def asksOf (i : Slot) (tr : List CadenceEvent) : List Int := tr.foldl (CadenceEvent.onAsks i) []

theorem asksOf_append (i : Slot) (tr es : List CadenceEvent) :
    asksOf i (tr ++ es) = es.foldl (CadenceEvent.onAsks i) (asksOf i tr) :=
  List.foldl_append

theorem foldl_court {i : Slot} {es : List Event} (h : ∀ e ∈ es, e.resets i = false)
    (asks : List Int) : (es.map .court).foldl (CadenceEvent.onAsks i) asks = asks := by
  induction es with
  | nil => rfl
  | cons e es ih =>
      have he : e.resets i = false := h e List.mem_cons_self
      simp only [List.map_cons, List.foldl_cons, CadenceEvent.onAsks, he, Bool.false_eq_true,
        if_false]
      exact ih fun e' he' => h e' (List.mem_cons_of_mem _ he')

def VerdictPc.request? : VerdictPc → Option ConsentRequest
  | .consentInsert req | .enqueue req => some req
  | _ => none

def ConsentPc.toReload : ConsentPc → List ConsentRequest
  | .reload rest => rest
  | _ => []

/-- Every request on its way to a slot has a timeout of the configuration. -/
structure Timely (s : Sys) : Prop where
  queue : ∀ r ∈ s.db.consentQueue.rows, r.Timed
  verdict : ∀ r, s.verdict.request? = some r → r.Timed
  reload : ∀ r ∈ s.consent.toReload, r.Timed

theorem route_request (c : CaseRecord) (state : ThreatState) : (route c state).request? = none := by
  cases state <;> rfl

theorem timely_verdict {s : Sys} (h : Timely s) : Timely (verdictStep s).1 := by
  obtain ⟨hqueue, hverdict, hreload⟩ := h
  have m := verdictStep_move s
  generalize hpc : s.verdict = pc at m hverdict
  generalize (verdictStep s).1 = s' at m
  generalize (verdictStep s).2 = es at m
  cases m with
  | capped | floorQuarantined =>
      refine ⟨hqueue, fun r hr => ?_, hreload⟩
      rw [route_request] at hr
      cases hr
  | @queueTime c state =>
      refine ⟨hqueue, fun r hr => ?_, hreload⟩
      rw [← Option.some.inj hr]
      exact request_timed c state _
  | consentInsert =>
      refine ⟨fun r hr => ?_, hverdict, hreload⟩
      rcases Sql.Table.mem_insertOrReplace.mp hr with h | h
      · exact hqueue r h.1
      · exact h ▸ hverdict _ rfl
  | blocked => exact ⟨hqueue, hverdict, hreload⟩
  | _ => exact ⟨hqueue, fun r hr => (by cases hr), hreload⟩

theorem mem_dbConsentPending {db : Db} {max : Nat} {r : ConsentRequest}
    (h : r ∈ dbConsentPending db max) : r ∈ db.consentQueue.rows :=
  (List.mem_insertionSort _).mp (List.mem_of_mem_take h)

theorem timely_consent {s : Sys} (h : Timely s) : Timely (consentStep s).1 := by
  obtain ⟨hqueue, hverdict, hreload⟩ := h
  have m := consentStep_move s
  generalize hpc : s.consent = pc at m hreload
  generalize (consentStep s).1 = s' at m
  generalize (consentStep s).2 = es at m
  cases m with
  | reloadRead => exact ⟨hqueue, hverdict, fun r hr => hqueue r (mem_dbConsentPending hr)⟩
  | reactivate | refuse =>
      exact ⟨hqueue, hverdict, fun r hr => hreload r (List.mem_cons_of_mem _ hr)⟩
  | remove =>
      refine ⟨fun r hr => hqueue r (Sql.Table.mem_delete.mp hr).1, hverdict, fun r hr => (nomatch hr)⟩
  | _ => exact ⟨hqueue, hverdict, fun r hr => (nomatch hr)⟩

theorem Timely.step {s : Sys} (ho : Orderly s) (h : Timely s) (l : Label) :
    Timely (step s l).1 := by
  by_cases hj : Judicial s l
  · cases hj with
    | verdict => exact timely_verdict h
    | consent => exact timely_consent h
    | restart => exact ⟨h.queue, fun r hr => (nomatch hr), fun r hr => (nomatch hr)⟩
    | startVerdict hm =>
        rw [step_startVerdict hm]
        exact ⟨h.queue, fun r hr => (nomatch hr), h.reload⟩
    | resetPending hm =>
        rw [step_resetPending hm]
        exact ⟨h.queue, h.verdict, h.reload⟩
    | startConsent hm =>
        rw [step_startConsent hm]
        exact ⟨h.queue, h.verdict, fun r hr => (nomatch hr)⟩
    | replying hm hfree =>
        rw [step_replying hm hfree, replyRequest_frame]
        exact ⟨h.queue, h.verdict, h.reload⟩
  · obtain ⟨hb, -⟩ := step_bench ho hj
    have hqueue : (Gaveld.step s l).1.db.consentQueue = s.db.consentQueue :=
      congrArg Bench.consentQueue hb
    have hverdict : (Gaveld.step s l).1.verdict = s.verdict := congrArg Bench.verdict hb
    have hconsent : (Gaveld.step s l).1.consent = s.consent := congrArg Bench.consent hb
    exact ⟨hqueue ▸ h.queue, hverdict ▸ h.verdict, hconsent ▸ h.reload⟩

/-! ## What a step does to a slot -/

/-- What a step does to a slot, and to the count of its notifications, with
the consent thread at `pc`. -/
inductive SlotStep (i : Slot) (pc : ConsentPc) (old new : Option Pending)
    (es : List CadenceEvent) : Prop where
  /-- It is left, given up, or given a reply. -/
  | kept : (∀ p', new = some p' → ∃ p, old = some p ∧ p'.req = p.req ∧
      p'.lastNotified = p.lastNotified) →
      (∀ asks, es.foldl (CadenceEvent.onAsks i) asks = asks) → SlotStep i pc old new es
  | cleared : new = none → (∀ asks, es.foldl (CadenceEvent.onAsks i) asks = asks ∨
      es.foldl (CadenceEvent.onAsks i) asks = []) → SlotStep i pc old new es
  | activated (req : ConsentRequest) : new = some ⟨req, 0, none⟩ → req.Timed →
      (∀ asks, es.foldl (CadenceEvent.onAsks i) asks = []) → .court (.activated i req) ∈ es →
      SlotStep i pc old new es
  | polled (p : Pending) (now : Int) : pc = .poll now i → old = some p → new = some (p.polled now) →
      (∀ asks, es.foldl (CadenceEvent.onAsks i) asks =
        asks ++ if p.asks now then [now] else []) → SlotStep i pc old new es

theorem SlotStep.same {i : Slot} {pc : ConsentPc} {slot : Option Pending} {es : List Event}
    (h : ∀ e ∈ es, e.resets i = false) : SlotStep i pc slot slot (es.map .court) :=
  .kept (fun p' hp => ⟨p', hp, rfl, rfl⟩) (foldl_court h)

theorem SlotStep.silent {i : Slot} {pc : ConsentPc} {slot : Option Pending} {es : List Event}
    (h : ∀ e ∈ es, e.resets i = false) : SlotStep i pc slot slot (es.map .court ++ []) := by
  rw [List.append_nil]
  exact .same h

theorem SlotStep.quiet {i : Slot} {pc : ConsentPc} {slot : Option Pending} :
    SlotStep i pc slot slot [] :=
  .kept (fun p' hp => ⟨p', hp, rfl, rfl⟩) fun _ => rfl

/-- A request comes to its slot. -/
theorem slotStep_enqueue {pending : PendingTable} {pc : ConsentPc} {i j : Slot} {req : ConsentRequest}
    (ht : req.Timed) :
    SlotStep i pc (pending i) (consentEnqueue pending j req i) [.court (.activated j req)] := by
  unfold consentEnqueue
  by_cases hij : i = j
  · subst hij
    rw [Function.update_self]
    exact .activated req rfl ht (fun asks => by simp [CadenceEvent.onAsks, Event.resets])
      List.mem_cons_self
  · rw [Function.update_of_ne hij]
    have hother : ∀ e ∈ [Event.activated j req], e.resets i = false := by
      simpa [Event.resets] using Ne.symm hij
    exact SlotStep.same hother

theorem slotStep_verdict {s : Sys} (ht : Timely s) (i : Slot) :
    SlotStep i s.consent (s.pending i) ((verdictStep s).1.pending i) ((verdictStep s).2.map .court) := by
  have hverdict := ht.verdict
  have m := verdictStep_move s
  generalize hpc : s.verdict = pc at m hverdict
  generalize (verdictStep s).1 = s' at m
  generalize (verdictStep s).2 = es at m
  cases m with
  | activate => exact slotStep_enqueue (hverdict _ rfl)
  | _ => exact .same (by simp [Event.resets])

/-- The consent thread, with the notification of its poll. -/
theorem slotStep_consent {s : Sys} (ht : Timely s) (i : Slot) :
    SlotStep i s.consent (s.pending i) ((consentStep s).1.pending i)
      ((consentStep s).2.map .court ++ asked s .consent) := by
  have hreload := ht.reload
  have m := consentStep_move s
  have hasked : asked s .consent = match s.consent with
      | .poll now i =>
          if h : i < consentQueueSize then
            match s.pending ⟨i, h⟩ with
            | some p => if p.reply = none ∧ p.asks now then [.asked ⟨i, h⟩ now] else []
            | none => []
          else []
      | _ => [] := rfl
  rw [hasked]
  generalize hpc : s.consent = pc at m hreload
  generalize (consentStep s).1 = s' at m
  generalize (consentStep s).2 = es at m
  cases m with
  | reloadRead =>
      refine .silent fun e he => ?_
      obtain ⟨req, -, rfl⟩ := List.mem_map.mp he
      rfl
  | reactivate => exact slotStep_enqueue (hreload _ List.mem_cons_self)
  | @skip now j hj => simpa [hj] using SlotStep.quiet
  | @look now j p hj hr =>
      simp only [List.map_nil, List.nil_append, j.isLt, dif_pos, Fin.eta, hj, hr, true_and]
      by_cases hij : i = j
      · subst hij
        rw [Function.update_self, hj]
        refine .polled p now rfl rfl rfl fun asks => ?_
        split <;> simp [CadenceEvent.onAsks]
      · rw [Function.update_of_ne hij]
        refine .kept (fun p' hp => ⟨p', hp, rfl, rfl⟩) fun asks => ?_
        split <;> simp [CadenceEvent.onAsks, Ne.symm hij]
  | @resolve now j p approved hj hr =>
      simp only [j.isLt, dif_pos, Fin.eta, hj, hr]
      refine .kept (fun p' hp => ?_) (fun asks => by simp [CadenceEvent.onAsks, Event.resets])
      rcases slot_of_update hp with ⟨-, hnone⟩ | ⟨-, hold⟩
      · cases hnone
      · exact ⟨p', hold, rfl, rfl⟩
  | @polled now j hj =>
      simp only [dif_neg (Nat.not_lt.mpr hj)]
      exact .quiet
  | _ => exact .silent (by simp [Event.resets])

theorem clerical_resets {e : Event} (h : e.clerical = true) (i : Slot) : e.resets i = false := by
  cases e <;> first | rfl | cases h

/-- A reply leaves request and notification alone. -/
theorem slotStep_reply (s : Sys) (caseId : String) (approved : Bool) (i : Slot) :
    SlotStep i s.consent (s.pending i) ((replyRequest s caseId approved).1.pending i)
      ((replyRequest s caseId approved).2.map .court) := by
  simp only [replyRequest]
  split
  · refine .kept (fun p' hp => ?_) (foldl_court (by simp [Event.resets]))
    rcases slot_of_update hp with ⟨rfl, hsome⟩ | ⟨-, hold⟩
    · obtain ⟨p, hold, rfl⟩ := Option.map_eq_some_iff.mp hsome
      exact ⟨p, hold, rfl, rfl⟩
    · exact ⟨p', hold, rfl, rfl⟩
  · exact .same (by simp [Event.resets])

theorem slotStep {s : Sys} (ho : Orderly s) (ht : Timely s) (l : Label) (i : Slot) :
    SlotStep i s.consent (s.pending i) ((cadenceStep s l).1.pending i) (cadenceStep s l).2 := by
  have hasked : l ≠ .consent → (cadenceStep s l).2 = (step s l).2.map .court ++ [] := by
    intro hl
    cases l <;> first | rfl | exact absurd rfl hl
  by_cases hj : Judicial s l
  · cases hj with
    | consent => exact slotStep_consent ht i
    | verdict =>
        rw [hasked (by simp), List.append_nil]
        exact slotStep_verdict ht i
    | restart => exact .cleared rfl fun asks => .inr rfl
    | startVerdict hm =>
        rw [hasked (by simp), show (cadenceStep s .main).1 = (step s .main).1 from rfl,
          step_startVerdict hm]
        exact .silent (by simp)
    | resetPending hm =>
        rw [hasked (by simp), show (cadenceStep s .main).1 = (step s .main).1 from rfl,
          step_resetPending hm]
        exact .cleared rfl fun asks => .inl rfl
    | startConsent hm =>
        rw [hasked (by simp), show (cadenceStep s .main).1 = (step s .main).1 from rfl,
          step_startConsent hm]
        exact .silent (by simp)
    | @replying caseId approved hm hfree =>
        rw [hasked (by simp), List.append_nil,
          show (cadenceStep s .main).1 = (step s .main).1 from rfl, step_replying hm hfree]
        exact slotStep_reply s caseId approved i
  · have hl : l ≠ .consent := fun hl => hj (hl ▸ .consent)
    obtain ⟨hb, hev⟩ := step_bench ho hj
    have hpending : (cadenceStep s l).1.pending = s.pending := congrArg Bench.pending hb
    rw [hasked hl, hpending]
    exact .silent fun e he => clerical_resets (hev e he) i

/-! ## The cadence -/

/-- No three notifications in a row are all close together. (At the time 0
`last_notified` reads as "not yet notified".) -/
def Cadenced (asks : List Int) : Prop :=
  ∀ n₁ n₂ n₃, [n₁, n₂, n₃] <:+: asks → n₁ = 0 ∨ n₂ = 0 ∨
    consentRenotifyInterval ≤ n₂ - n₁ ∨ consentRenotifyInterval ≤ n₃ - n₂

/-- What a slot remembers of its notifications: the last one, and, if that
came early, that it was for a timeout. -/
structure Paced (p : Pending) (asks : List Int) : Prop where
  timed : p.req.Timed
  last : p.lastNotified = asks.getLast?.getD 0
  early : ∀ n₁ n₂, [n₁, n₂] <:+ asks → n₁ = 0 ∨ n₂ = 0 ∨
    consentRenotifyInterval ≤ n₂ - n₁ ∨ p.req.queued = n₂

theorem suffix_pair {asks : List Int} {n₁ n₂ : Int} (h : [n₁, n₂] <:+ asks ++ [n₂]) :
    asks.getLast? = some n₁ := by
  obtain ⟨pre, hpre⟩ := h
  have hasks : pre ++ [n₁] = asks := by
    have : (pre ++ [n₁]) ++ [n₂] = asks ++ [n₂] := by simpa using hpre
    exact List.append_cancel_right this
  rw [← hasks, List.getLast?_concat]

theorem suffix_last {l asks : List Int} {n now : Int} (h : l ++ [n] <:+ asks ++ [now]) :
    n = now ∧ l <:+ asks := by
  rcases List.suffix_concat_iff.mp h with h | ⟨t, ht, hs⟩
  · simp at h
  · obtain ⟨rfl, hn⟩ := List.append_inj' ht rfl
    exact ⟨by simpa using hn, hs⟩

/-- A notification at the time of a poll keeps the cadence. -/
theorem Paced.asked {p : Pending} {asks : List Int} {now : Int} (h : Paced p asks)
    (hasks : p.asks now = true) : Paced (p.polled now) (asks ++ [now]) := by
  obtain ⟨hlast, hcause⟩ := p.polled_asks h.timed hasks
  refine ⟨?_, by rw [hlast, List.getLast?_concat]; rfl, fun n₁ n₂ hpair => ?_⟩
  · have hsame := (p.polled_same now).1.timeoutSecs
    unfold ConsentRequest.Timed
    rw [← hsame]
    exact h.timed
  · obtain ⟨rfl, -⟩ := suffix_last (l := [n₁]) hpair
    have hprev : p.lastNotified = n₁ := by rw [h.last, suffix_pair hpair]; rfl
    rcases hcause with ⟨hq, -⟩ | ⟨-, hzero | hgap⟩
    · exact .inr (.inr (.inr hq))
    · exact .inl (hprev ▸ hzero)
    · exact .inr (.inr (.inl (hprev ▸ hgap)))

theorem Cadenced.asked {p : Pending} {asks : List Int} {now : Int} (hc : Cadenced asks)
    (h : Paced p asks) (hasks : p.asks now = true) : Cadenced (asks ++ [now]) := by
  intro n₁ n₂ n₃ hinfix
  rcases List.infix_concat_iff.mp hinfix with hsuffix | hold
  · obtain ⟨rfl, hpair⟩ := suffix_last (l := [n₁, n₂]) hsuffix
    have hprev : p.lastNotified = n₂ := by
      obtain ⟨pre, rfl⟩ := hpair
      rw [h.last, List.getLast?_append]
      rfl
    rcases h.early n₁ n₂ hpair with h0 | h0 | hgap | hq
    · exact .inl h0
    · exact .inr (.inl h0)
    · exact .inr (.inr (.inl hgap))
    · obtain ⟨-, ⟨-, hlate⟩ | ⟨-, hzero | hlate⟩⟩ := p.polled_asks h.timed hasks
      · exact .inr (.inr (.inr (hq ▸ hlate)))
      · exact .inr (.inl (hprev ▸ hzero))
      · exact .inr (.inr (.inr (hprev ▸ hlate)))
  · exact hc n₁ n₂ n₃ hold

theorem Cadenced.nil : Cadenced [] := fun _ _ _ h => by
  have := h.length_le
  simp at this

/-- The slots that the consent thread has been to in its round, and the time
of the round. -/
def ConsentPc.round? : ConsentPc → Option (Int × Nat)
  | .poll now i => some (now, i)
  | .remove now i _ _ | .emit now i _ _ _ | .enforce now i _ | .relock now i _ _ =>
      some (now, i + 1)
  | _ => none

/-- The case in a slot came there when the round that is going on had been to the
slot already. -/
def LateInRound (env : Env) (ls : List Label) (i : Slot) : Prop :=
  ∃ front l back, ls = front ++ l :: back ∧
    (∃ now k, (cadenceRun env front).1.consent.round? = some (now, k) ∧ i.val < k) ∧
    (∃ req, .court (.activated i req) ∈ (cadenceStep (cadenceRun env front).1 l).2) ∧
    ∀ mid, mid <+: back → (cadenceRun env (front ++ l :: mid)).1.consent.round?.isSome = true

/-- It stays late for as long as the round goes on. -/
theorem LateInRound.concat {env : Env} {ls : List Label} {i : Slot} (h : LateInRound env ls i) {l' : Label}
    (hround : (cadenceRun env (ls ++ [l'])).1.consent.round?.isSome = true) :
    LateInRound env (ls ++ [l']) i := by
  obtain ⟨front, l, back, rfl, hpast, hcame, hback⟩ := h
  refine ⟨front, l, back ++ [l'], by simp, hpast, hcame, fun mid hmid => ?_⟩
  rcases List.prefix_concat_iff.mp hmid with rfl | hmid
  · simpa using hround
  · exact hback mid hmid

/-- Every slot keeps the cadence, and a case the round has been to was notified
within the interval. -/
structure Asking (env : Env) (ls : List Label) (s : Sys) (tr : List CadenceEvent) : Prop where
  here : s = (cadenceRun env ls).1
  orderly : Orderly s
  timely : Timely s
  cadenced : ∀ i, Cadenced (asksOf i tr)
  paced : ∀ i p, s.pending i = some p → Paced p (asksOf i tr)
  heard : ∀ now j, s.consent.round? = some (now, j) → ∀ i : Slot, i.val < j →
    ∀ p, s.pending i = some p →
      LateInRound env ls i ∨
        asksOf i tr ≠ [] ∧ now - p.lastNotified < consentRenotifyInterval

/-- What a step leaves of the round: where the thread went on, and whether
it has just been to the slot. -/
theorem round_step {s : Sys} (ho : Orderly s) {l : Label} {now : Int} {j : Nat}
    (h : (step s l).1.consent.round? = some (now, j)) (i : Slot) (hi : i.val < j) :
    (∃ k, s.consent.round? = some (now, k) ∧ i.val < k) ∨
      l = .consent ∧ s.consent = .poll now i := by
  by_cases hj : Judicial s l
  · cases hj with
    | consent =>
        rw [show step s .consent = consentStep s from rfl] at h
        have m := consentStep_move s
        generalize hpc : s.consent = pc at m
        generalize (consentStep s).1 = s' at m h
        generalize (consentStep s).2 = es at m
        cases m with
        | wake =>
            obtain ⟨-, rfl⟩ := Prod.mk.inj (Option.some.inj h)
            exact absurd hi (Nat.not_lt_zero _)
        | @skip now' k | @look now' k | @resolve now' k =>
            obtain ⟨rfl, rfl⟩ := Prod.mk.inj (Option.some.inj h)
            rcases Nat.lt_succ_iff_lt_or_eq.mp hi with hlt | heq
            · exact .inl ⟨k, rfl, hlt⟩
            · rw [heq]
              exact .inr ⟨rfl, rfl⟩
        | remove | emitTime | emitInsert | emitCriminal | approve | deny | enforce | relock =>
            exact .inl ⟨j, h, hi⟩
        | _ => cases h
    | verdict =>
        rw [show step s .verdict = verdictStep s from rfl, verdictStep_frame] at h
        exact .inl ⟨j, h, hi⟩
    | restart => cases h
    | startVerdict hm =>
        rw [step_startVerdict hm] at h
        exact .inl ⟨j, h, hi⟩
    | resetPending hm =>
        rw [step_resetPending hm] at h
        exact .inl ⟨j, h, hi⟩
    | startConsent hm =>
        rw [step_startConsent hm] at h
        cases h
    | replying hm hfree =>
        rw [step_replying hm hfree, replyRequest_frame] at h
        exact .inl ⟨j, h, hi⟩
  · have hconsent : (step s l).1.consent = s.consent :=
      congrArg Bench.consent (step_bench ho hj).1
    exact .inl ⟨j, hconsent ▸ h, hi⟩

/-- At its slot, a poll leaves nothing or what it polled, with its notification. -/
theorem poll_slot {s : Sys} {now : Int} {i : Slot} (hpc : s.consent = .poll now i) {p' : Pending}
    (h : (step s .consent).1.pending i = some p') :
    ∃ p, s.pending i = some p ∧ p' = p.polled now ∧
      ∀ asks, (cadenceStep s .consent).2.foldl (CadenceEvent.onAsks i) asks =
        asks ++ if p.asks now then [now] else [] := by
  simp only [step, consentStep, hpc, i.isLt, dif_pos, Fin.eta, pollSlot] at h
  split at h
  · rename_i hnone
    rw [hnone] at h
    cases h
  · rename_i p hp
    split at h
    · rename_i hreply
      simp only [Function.update_self] at h
      refine ⟨p, hp, (Option.some.inj h).symm, fun asks => ?_⟩
      simp only [cadenceStep, step, consentStep, asked, hpc, i.isLt, dif_pos, Fin.eta, pollSlot, hp, hreply,
        true_and, List.map_nil, List.nil_append]
      split <;> simp [CadenceEvent.onAsks]
    · simp only [Function.update_self] at h
      cases h

/-- A slot that remembers a notification had one. -/
theorem Paced.asks_ne_nil {p : Pending} {asks : List Int} (h : Paced p asks) (hlast : p.lastNotified ≠ 0) :
    asks ≠ [] := by
  rintro rfl
  exact hlast h.last

theorem Pending.polled_recent {p : Pending} {now : Int} (ht : p.req.Timed) :
    now - (p.polled now).lastNotified < consentRenotifyInterval := by
  cases hasks : p.asks now with
  | true =>
      rw [(p.polled_asks ht hasks).1, sub_self]
      decide
  | false =>
      obtain ⟨hsame, -, hrecent⟩ := p.polled_silent hasks
      rwa [hsame]

theorem Asking.step {env : Env} {ls : List Label} {s : Sys} {tr : List CadenceEvent}
    (h : Asking env ls s tr) (l : Label) :
    Asking env (ls ++ [l]) (cadenceStep s l).1 (tr ++ (cadenceStep s l).2) := by
  have hhere : (cadenceStep s l).1 = (cadenceRun env (ls ++ [l])).1 := by
    unfold cadenceRun
    rw [Machine.run_concat, h.here]
    rfl
  refine ⟨hhere, orderly_step s l h.orderly, h.timely.step h.orderly l, fun i => ?_, fun i p' hp' => ?_,
    fun now j hround i hi p' hp' => ?_⟩
  all_goals
    rw [asksOf_append]
    have hslot := slotStep h.orderly h.timely l i
  · -- the cadence
    cases hslot with
    | kept _ hasks => exact hasks _ ▸ h.cadenced i
    | activated _ _ _ hasks _ => exact hasks _ ▸ Cadenced.nil
    | cleared _ hasks =>
        rcases hasks (asksOf i tr) with h' | h'
        · rw [h']
          exact h.cadenced i
        · rw [h']
          exact Cadenced.nil
    | polled p now hpc hp _ hasks =>
        rw [hasks]
        cases ha : p.asks now with
        | true => exact (h.cadenced i).asked (h.paced i p hp) ha
        | false =>
            rw [if_neg (by simp), List.append_nil]
            exact h.cadenced i
  · -- what the slot remembers
    cases hslot with
    | kept hsame hasks =>
        obtain ⟨p, hp, hreq, hlast⟩ := hsame p' hp'
        obtain ⟨ht, hl, he⟩ := h.paced i p hp
        rw [hasks]
        exact ⟨hreq ▸ ht, hlast ▸ hl, hreq ▸ he⟩
    | cleared hnone _ =>
        rw [hnone] at hp'
        cases hp'
    | activated req hnew ht hasks _ =>
        rw [hnew] at hp'
        rw [hasks, ← Option.some.inj hp']
        exact ⟨ht, rfl, fun _ _ hpair => by simpa using hpair.length_le⟩
    | polled p now hpc hp hnew hasks =>
        rw [hnew] at hp'
        rw [hasks, ← Option.some.inj hp']
        cases ha : p.asks now with
        | true => exact (h.paced i p hp).asked ha
        | false =>
            rw [if_neg (by simp), List.append_nil, (p.polled_silent ha).1]
            exact h.paced i p hp
  · -- the round
    have hgoes : (cadenceRun env (ls ++ [l])).1.consent.round?.isSome = true := by
      rw [← hhere, hround]
      rfl
    rcases round_step h.orderly hround i hi with ⟨k, hbefore, hik⟩ | ⟨rfl, hpc⟩
    · cases hslot with
      | kept hsame hasks =>
          obtain ⟨p, hp, -, hlast⟩ := hsame p' hp'
          rw [hasks, hlast]
          rcases h.heard now k hbefore i hik p hp with hlate | hrecent
          · exact .inl (hlate.concat hgoes)
          · exact .inr hrecent
      | cleared hnone _ =>
          rw [hnone] at hp'
          cases hp'
      | activated req _ _ _ hcame =>
          rw [h.here] at hbefore hcame
          refine .inl ⟨ls, l, [], rfl, ⟨now, k, hbefore, hik⟩, ⟨req, hcame⟩, fun mid hmid => ?_⟩
          rw [List.prefix_nil.mp hmid]
          exact hgoes
      | polled p now' hpc =>
          rw [hpc] at hbefore
          obtain ⟨-, rfl⟩ := Prod.mk.inj (Option.some.inj hbefore)
          exact absurd hik (Nat.lt_irrefl _)
    · -- the round is at the slot
      obtain ⟨p, hp, rfl, hasks⟩ := poll_slot hpc hp'
      have hpaced := h.paced i p hp
      refine .inr ⟨?_, p.polled_recent hpaced.timed⟩
      rw [hasks]
      cases ha : p.asks now with
      | true => simp
      | false =>
          rw [if_neg (by simp), List.append_nil]
          exact hpaced.asks_ne_nil (p.polled_silent ha).2.1

end MiuiserPeruser.Gaveld
