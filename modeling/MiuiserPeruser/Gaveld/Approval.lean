import MiuiserPeruser.Lib.History
import MiuiserPeruser.Gaveld.Emits

/-!
# gaveld — no containment without its own approval

Every containment is one act of one `resolve_entry`, every
`resolve_entry` answers the last reply to its slot, and no reply is
answered twice. The trace carries the argument: what makes an event
LEGITIMATE is stated as a property of the events before it, and the
invariant says which suffix of the trace the state of a slot, or of the
consent thread, stands for.
-/

namespace MiuiserPeruser.Gaveld

open History

/-! ## What the events say -/

/-- The event changes what slot `i` holds, or its reply. -/
def Event.touches (i : Slot) : Event → Bool
  | .reply _ _ (some (j, _)) | .activated j _ | .resolve j _ _ => j = i
  | .restart => true
  | _ => false

/-- A `resolve_entry` begins, or the thread that would run one is gone. -/
def Event.opensResolution : Event → Bool
  | .resolve _ _ _ | .restart => true
  | _ => false

/-- An act of the consent thread inside `resolve_entry`. -/
def Event.byConsent : Event → Bool
  | .verdictRow .consent _ | .enforce .consent _ _ _ _ _ => true
  | _ => false

/-- The row of an event that writes one. -/
def Event.row? : Event → Option VerdictRow
  | .verdictRow _ row => some row
  | _ => none

/-- The last thing that happened to slot `i` is this answer to the
request it holds. -/
def LastReply (i : Slot) (req : ConsentRequest) (approved : Bool) (tr : List Event) : Prop :=
  Since (fun e => e.touches i = false) (.reply req.caseId approved (some (i, req))) tr

/-- A `resolve_entry` of this request is the last one to begin, and
`acts` is what it has done so far. -/
def Resolving (i : Slot) (req : ConsentRequest) (approved : Bool) (acts tr : List Event) : Prop :=
  ∃ mid, .resolve i req approved :: mid <:+ tr ∧ (∀ e ∈ mid, e.opensResolution = false) ∧
    mid.filter Event.byConsent = acts

/-- The row `resolve_entry` writes at second `now`. -/
def answerRow (req : ConsentRequest) (approved : Bool) (now : Int) : Event :=
  .verdictRow .consent ((req.emission approved).row now)

/-- Everything `resolve_entry` does for an answer. -/
def CompleteActs (req : ConsentRequest) (approved : Bool) (acts : List Event) : Prop :=
  ∃ now, if approved then
      ∃ cmds, acts = [answerRow req true now,
        .enforce .consent req.source req.verdict req.caseId req.score cmds]
    else acts = [answerRow req false now]

/-- What must have come before an event. -/
def Legitimate (pre : List Event) : Event → Prop
  | .resolve i req approved => LastReply i req approved pre
  | .verdictRow .consent row => ∃ i req approved now,
      Resolving i req approved [] pre ∧ row = (req.emission approved).row now
  | .enforce .consent source verdict caseId score _ => ∃ i req now,
      Resolving i req true [answerRow req true now] pre ∧
        source = req.source ∧ verdict = req.verdict ∧ caseId = req.caseId ∧ score = req.score
  | .resolved i req approved => ∃ acts, Resolving i req approved acts pre ∧
      CompleteActs req approved acts
  | .enforce .verdict _ verdict _ _ _ => verdict = .state .warned
  | .verdictRow .verdict row => row.verdict.contains = false
  | _ => True

/-! ## The invariant -/

/-- The verdict thread emits no containment verdict. -/
def VerdictPc.Mild : VerdictPc → Prop
  | .emit _ verdict _ _ => verdict.contains = false
  | _ => True

/-- What the trace says about where the consent thread stands. -/
def ConsentPc.Accounted (tr : List Event) : ConsentPc → Prop
  | .remove _ i req approved | .emit _ i req approved .time
  | .emit _ i req approved (.insert _) => Resolving i req approved [] tr
  | .emit _ i req approved (.criminal _) | .emit _ i req approved .status =>
      ∃ now, Resolving i req approved [answerRow req approved now] tr
  | .enforce _ i req => ∃ now, Resolving i req true [answerRow req true now] tr
  | .relock _ i req approved => ∃ acts, Resolving i req approved acts tr ∧
      CompleteActs req approved acts
  | _ => True

structure ConsentInv (s : Sys) (tr : List Event) : Prop where
  slots : ∀ i p, s.pending i = some p → ∀ approved, p.reply = some approved →
    LastReply i p.req approved tr
  verdict : s.verdict.Mild
  thread : s.consent.Accounted tr
  legit : Always Legitimate tr
  rows : s.db.verdicts = tr.filterMap Event.row?

/-- Events of other threads: they neither begin a `resolve_entry` nor are
acts of one. -/
def Event.aside (e : Event) : Prop := e.opensResolution = false ∧ e.byConsent = false

theorem Resolving.aside {i : Slot} {req : ConsentRequest} {approved : Bool} {acts tr es : List Event}
    (h : Resolving i req approved acts tr) (hes : ∀ e ∈ es, e.aside) :
    Resolving i req approved acts (tr ++ es) := by
  obtain ⟨mid, hsuf, hmid, hacts⟩ := h
  refine ⟨mid ++ es, suffix_append hsuf es, fun e he => ?_, ?_⟩
  · exact (List.mem_append.mp he).elim (hmid e) fun he => (hes e he).1
  · have hnil : es.filter Event.byConsent = [] :=
      List.filter_eq_nil_iff.mpr fun e he => by simp [(hes e he).2]
    rw [List.filter_append, hacts, hnil, List.append_nil]

/-- An act of the thread itself. -/
theorem Resolving.act {i : Slot} {req : ConsentRequest} {approved : Bool} {acts tr : List Event}
    (h : Resolving i req approved acts tr) {e : Event} (ho : e.opensResolution = false)
    (hb : e.byConsent = true) : Resolving i req approved (acts ++ [e]) (tr ++ [e]) := by
  obtain ⟨mid, hsuf, hmid, hacts⟩ := h
  refine ⟨mid ++ [e], suffix_append hsuf [e], fun x hx => ?_, ?_⟩
  · rcases List.mem_append.mp hx with hx | hx
    · exact hmid x hx
    · rw [List.mem_singleton.mp hx]
      exact ho
  · rw [List.filter_append, hacts, List.filter_singleton, hb]
    rfl

theorem ConsentPc.Accounted.aside {pc : ConsentPc} {tr es : List Event} (h : pc.Accounted tr)
    (hes : ∀ e ∈ es, e.aside) : pc.Accounted (tr ++ es) := by
  cases pc with
  | remove now i req approved => exact Resolving.aside h hes
  | emit now i req approved pc =>
      cases pc with
      | time | insert => exact Resolving.aside h hes
      | criminal | status => exact h.imp fun now h => h.aside hes
  | enforce now i req => exact h.imp fun now h => h.aside hes
  | relock now i req approved => exact h.imp fun acts h => ⟨h.1.aside hes, h.2⟩
  | off | reloadRead | reload | loop | poll => trivial

/-- Steps that leave the consent thread where it is, and the slots they do
not touch. -/
theorem ConsentInv.aside {s s' : Sys} {tr es : List Event} (h : ConsentInv s tr)
    (hslots : ∀ i p, s'.pending i = some p →
      (∀ approved, p.reply = some approved → LastReply i p.req approved (tr ++ es)))
    (hverdict : s'.verdict.Mild) (hconsent : s'.consent = s.consent)
    (hes : ∀ e ∈ es, e.aside) (hlegit : Always Legitimate (tr ++ es))
    (hrows : s'.db.verdicts = s.db.verdicts ++ es.filterMap Event.row?) :
    ConsentInv s' (tr ++ es) where
  slots := hslots
  verdict := hverdict
  thread := hconsent ▸ h.thread.aside hes
  legit := hlegit
  rows := by rw [hrows, h.rows, List.filterMap_append]

/-! ## The verdict thread -/

/-- What a step of the verdict thread can do: its events are its own, and
it puts nothing into a slot but a request without a reply. -/
structure VerdictActs (s s' : Sys) (es : List Event) : Prop where
  mild : s'.verdict.Mild
  consent : s'.consent = s.consent
  events : ∀ e ∈ es, e.aside ∧ ∀ pre, Legitimate pre e
  rows : s'.db.verdicts = s.db.verdicts ++ es.filterMap Event.row?
  slots : ∀ i p, s'.pending i = some p → p.reply = none ∨
    s.pending i = some p ∧ ∀ e ∈ es, e.touches i = false

theorem route_mild (c : CaseRecord) (state : ThreatState) : (route c state).Mild := by
  cases state <;> trivial

/-- `consent_enqueue` leaves no reply in the slot it takes. -/
theorem activated_slots {pending : PendingTable} {req : ConsentRequest} {i j : Slot} {p : Pending}
    (hp : consentEnqueue pending j req i = some p) :
    p.reply = none ∨ pending i = some p ∧ ∀ e ∈ [Event.activated j req], e.touches i = false := by
  rcases slot_of_update hp with ⟨-, heq⟩ | ⟨hne, hold⟩
  · obtain rfl := Option.some.inj heq
    exact .inl rfl
  · refine .inr ⟨hold, ?_⟩
    simpa [Event.touches] using hne.symm

theorem VerdictMove.acts {s s' : Sys} {pc : VerdictPc} {es : List Event}
    (m : VerdictMove s pc s' es) (hm : pc.Mild) : VerdictActs s s' es where
  mild := by
    cases m with
    | refer | stale => rfl
    | capped | floorQuarantined => exact route_mild _ _
    | emitTime | emitInsert | emitCriminal => exact hm
    | _ => trivial
  consent := by rw [m.frame]
  events := by
    intro e he
    cases m with
    | emitInsert =>
        obtain rfl := List.mem_singleton.mp he
        exact ⟨⟨rfl, rfl⟩, fun _ => hm⟩
    | enforce =>
        obtain rfl := List.mem_singleton.mp he
        exact ⟨⟨rfl, rfl⟩, fun _ => rfl⟩
    | suspend | floorTime | warn | judge | consentInsert | activate | refuse =>
        obtain rfl := List.mem_singleton.mp he
        exact ⟨⟨rfl, rfl⟩, fun _ => trivial⟩
    | _ => cases he
  rows := by
    cases m with
    | emitInsert => rfl
    | _ => exact (List.append_nil _).symm
  slots := by
    intro i p hp
    cases m with
    | activate => exact activated_slots hp
    | _ => exact .inr ⟨hp, by simp [Event.touches]⟩

theorem ConsentInv.verdictStep {s : Sys} {tr : List Event} (h : ConsentInv s tr) :
    ConsentInv (verdictStep s).1 (tr ++ (verdictStep s).2) := by
  have acts := (verdictStep_move s).acts h.verdict
  refine h.aside (fun i p hp approved hr => ?_) acts.mild acts.consent
    (fun e he => (acts.events e he).1)
    (h.legit.append_irrelevant fun e he => (acts.events e he).2) acts.rows
  rcases acts.slots i p hp with hnone | ⟨hold, hes⟩
  · rw [hnone] at hr
    cases hr
  · exact (h.slots i p hold approved hr).append hes

/-! ## The consent thread -/

/-- A step of the consent thread, from what it leaves in its slots and
where it stands afterwards. -/
theorem ConsentInv.next {s s' : Sys} {tr es : List Event} (h : ConsentInv s tr)
    (hslots : ∀ i p, s'.pending i = some p → p.reply = none ∨
      s.pending i = some p ∧ ∀ e ∈ es, e.touches i = false)
    (hverdict : s'.verdict = s.verdict) (hthread : s'.consent.Accounted (tr ++ es))
    (hlegit : ∀ pre e post, es = pre ++ e :: post → Legitimate (tr ++ pre) e)
    (hrows : s'.db.verdicts = s.db.verdicts ++ es.filterMap Event.row?) :
    ConsentInv s' (tr ++ es) where
  slots := by
    intro i p hp approved hr
    rcases hslots i p hp with hnone | ⟨hold, hes⟩
    · rw [hnone] at hr
      cases hr
    · exact (h.slots i p hold approved hr).append hes
  verdict := hverdict ▸ h.verdict
  thread := hthread
  legit := h.legit.append hlegit
  rows := by rw [hrows, h.rows, List.filterMap_append]

/-- The one event of a step is legitimate. -/
theorem legitimate_singleton {tr : List Event} {e : Event} (h : Legitimate tr e) :
    ∀ pre x post, [e] = pre ++ x :: post → Legitimate (tr ++ pre) x := by
  intro pre x post heq
  cases pre with
  | nil =>
      obtain ⟨rfl, -⟩ := List.cons.inj heq
      rwa [List.append_nil]
  | cons y ys => simp at heq

section ConsentMoves

variable {s s' : Sys} {pc : ConsentPc} {tr es : List Event}

theorem ConsentMove.slots (m : ConsentMove s pc s' es) {i : Slot} {p : Pending}
    (hp : s'.pending i = some p) :
    p.reply = none ∨ s.pending i = some p ∧ ∀ e ∈ es, e.touches i = false := by
  cases m with
  | reloadRead =>
      refine .inr ⟨hp, fun e he => ?_⟩
      obtain ⟨req, -, rfl⟩ := List.mem_map.mp he
      rfl
  | reactivate => exact activated_slots hp
  | look _ hr =>
      rcases slot_of_update hp with ⟨-, heq⟩ | ⟨-, hold⟩
      · obtain rfl := Option.some.inj heq
        exact .inl (by rw [(Pending.polled_same _ _).2, hr])
      · exact .inr ⟨hold, by simp⟩
  | resolve =>
      rcases slot_of_update hp with ⟨-, heq⟩ | ⟨hne, hold⟩
      · cases heq
      · refine .inr ⟨hold, ?_⟩
        simpa [Event.touches] using hne.symm
  | _ => exact .inr ⟨hp, by simp [Event.touches]⟩

theorem ConsentMove.rows (m : ConsentMove s pc s' es) :
    s'.db.verdicts = s.db.verdicts ++ es.filterMap Event.row? := by
  cases m with
  | reloadRead =>
      have hnil : ((s.db.consentQueue.rows.filter fun r =>
          r ∉ dbConsentPending s.db consentQueueSize).map Event.notLoaded).filterMap Event.row? =
            [] := by
        refine List.filterMap_eq_nil_iff.mpr fun e he => ?_
        obtain ⟨req, -, rfl⟩ := List.mem_map.mp he
        rfl
      rw [hnil, List.append_nil]
  | emitInsert => rfl
  | _ => exact (List.append_nil _).symm

/-- From `resolve` on, every act of the thread extends its record. -/
theorem ConsentMove.accounted (m : ConsentMove s pc s' es) (h : pc.Accounted tr) :
    s'.consent.Accounted (tr ++ es) := by
  have status : ∀ caseId source score st,
      ∀ e ∈ [Event.statusUpdate caseId source score st], e.aside := by
    simp [Event.aside, Event.opensResolution, Event.byConsent]
  cases m with
  | resolve => exact ⟨[], ⟨tr, rfl⟩, by simp, rfl⟩
  | remove | emitTime | emitCriminal =>
      rw [List.append_nil]
      exact h
  | @emitInsert now t =>
      simp only
      split
      all_goals exact ⟨t, Resolving.act h rfl rfl⟩
  | approve => exact h.imp fun t hres => hres.aside (status _ _ _ _)
  | deny =>
      obtain ⟨t, hres⟩ := h
      exact ⟨_, hres.aside (status _ _ _ _), t, rfl⟩
  | enforce =>
      obtain ⟨t, hres⟩ := h
      exact ⟨_, Resolving.act hres rfl rfl, t, _, rfl⟩
  | _ => trivial

theorem ConsentMove.legitimate (m : ConsentMove s pc s' es) (h : pc.Accounted tr)
    (hslots : ∀ i p, s.pending i = some p → ∀ approved, p.reply = some approved →
      LastReply i p.req approved tr) :
    ∀ pre e post, es = pre ++ e :: post → Legitimate (tr ++ pre) e := by
  cases m with
  | reloadRead =>
      intro pre e post heq
      have he : e ∈ pre ++ e :: post := by simp
      rw [← heq] at he
      obtain ⟨req, -, rfl⟩ := List.mem_map.mp he
      trivial
  | resolve hp hr => exact legitimate_singleton (hslots _ _ hp _ hr)
  | emitInsert => exact legitimate_singleton ⟨_, _, _, _, h, rfl⟩
  | enforce =>
      obtain ⟨t, hres⟩ := h
      exact legitimate_singleton ⟨_, _, t, hres, rfl, rfl, rfl, rfl⟩
  | relock => exact legitimate_singleton h
  | reactivate | refuse | approve | deny => exact legitimate_singleton trivial
  | _ => simp

end ConsentMoves

theorem ConsentInv.consentStep {s : Sys} {tr : List Event} (h : ConsentInv s tr) :
    ConsentInv (consentStep s).1 (tr ++ (consentStep s).2) := by
  have m := consentStep_move s
  exact h.next (fun i p => m.slots) (by rw [m.frame]) (m.accounted h.thread)
    (m.legitimate h.thread h.slots) m.rows

/-! ## The socket and the rest -/

theorem ConsentInv.reply {s : Sys} {tr : List Event} (h : ConsentInv s tr) (caseId : String)
    (approved : Bool) :
    ConsentInv (replyRequest s caseId approved).1
      (tr ++ (replyRequest s caseId approved).2) := by
  rcases replyRequest_cases s caseId approved with heq | ⟨i, p, hp, rfl, heq⟩
  · rw [heq]
    exact h.aside (fun i p hp ap hr => (h.slots i p hp ap hr).append (by simp [Event.touches]))
      h.verdict rfl (by simp [Event.aside, Event.opensResolution, Event.byConsent])
      (h.legit.snoc trivial) (by simp [Event.row?])
  · rw [heq]
    refine h.aside (fun j q hq ap hr => ?_) h.verdict rfl
      (by simp [Event.aside, Event.opensResolution, Event.byConsent]) (h.legit.snoc trivial)
      (by simp [Event.row?])
    by_cases hj : j = i
    · -- the slot that was answered: the reply is its last event
      subst hj
      simp only [consentReply, hp, Function.update_self, Option.map_some, Option.some.injEq] at hq
      subst hq
      obtain rfl := Option.some.inj hr
      exact Since.now
    · simp only [consentReply, Function.update_of_ne hj] at hq
      exact (h.slots j q hq ap hr).append (by simpa [Event.touches] using fun h => hj h.symm)

/-- A step that leaves the judicial side alone. -/
theorem ConsentInv.bench {s s' : Sys} {tr es : List Event} (h : ConsentInv s tr)
    (hb : s'.bench = s.bench) (hes : ∀ e ∈ es, e.clerical = true) : ConsentInv s' (tr ++ es) := by
  have clerical : ∀ e ∈ es, e.aside ∧ (∀ pre, Legitimate pre e) ∧ e.row? = none ∧
      ∀ i, e.touches i = false := by
    intro e he
    have := hes e he
    cases e <;> first | exact ⟨⟨rfl, rfl⟩, fun _ => trivial, rfl, fun _ => rfl⟩ | cases this
  have hpending : s'.pending = s.pending := congrArg Bench.pending hb
  have hverdict : s'.verdict = s.verdict := congrArg Bench.verdict hb
  have hrows : s'.db.verdicts = s.db.verdicts := congrArg Bench.verdicts hb
  have hnil : es.filterMap Event.row? = [] :=
    List.filterMap_eq_nil_iff.mpr fun e he => (clerical e he).2.2.1
  refine h.aside (fun i p hp ap hr => ?_) (hverdict ▸ h.verdict) (congrArg Bench.consent hb)
    (fun e he => (clerical e he).1)
    (h.legit.append_irrelevant fun e he => (clerical e he).2.1) (by rw [hrows, hnil, List.append_nil])
  rw [hpending] at hp
  exact (h.slots i p hp ap hr).append fun e he => (clerical e he).2.2.2 i

theorem ConsentInv.step {s : Sys} {tr : List Event} (ho : Orderly s) (h : ConsentInv s tr)
    (l : Label) : ConsentInv (step s l).1 (tr ++ (step s l).2) := by
  by_cases hj : Judicial s l
  · cases hj with
    | verdict => exact h.verdictStep
    | consent => exact h.consentStep
    | restart =>
        refine ⟨fun i p hp => ?_, trivial, trivial, h.legit.snoc trivial, ?_⟩
        · cases hp
        · rw [List.filterMap_append, ← h.rows]
          exact (List.append_nil _).symm
    | startVerdict hm =>
        rw [step_startVerdict hm]
        refine h.aside (fun i p hp ap hr => (h.slots i p hp ap hr).append (by simp)) trivial rfl
          (by simp) (by simpa using h.legit) (by simp)
    | resetPending hm =>
        rw [step_resetPending hm]
        exact h.aside (fun i p hp => by cases hp) h.verdict rfl (by simp) (by simpa using h.legit)
          (by simp)
    | startConsent hm =>
        rw [step_startConsent hm]
        exact h.next (fun i p hp => .inr ⟨hp, by simp⟩) rfl trivial (by simp) (by simp)
    | replying hm hl =>
        rename_i caseId approved
        have hreply := h.reply caseId approved
        rw [step_replying hm hl]
        exact ⟨hreply.slots, hreply.verdict, hreply.thread, hreply.legit, hreply.rows⟩
  · obtain ⟨hb, hes⟩ := step_bench ho hj
    exact h.bench hb hes

theorem consentInv_run (env : Env) (ls : List Label) :
    ConsentInv (runFrom env ls).1 (runFrom env ls).2 := by
  refine Machine.run_invariant_under (Q := Orderly) (orderly_boot env .empty) orderly_step ?_
    (fun s tr l ho h => h.step ho l) ls
  exact ⟨(fun i p hp => by cases hp), trivial, trivial, .nil, rfl⟩

/-! ## Enforcements and their approvals -/

/-- An `enforce_execute` with a containment verdict. -/
def Event.containment : Event → Bool
  | .enforce _ _ verdict _ _ _ => verdict.contains
  | _ => false

/-- An `enforce_execute` of the consent thread. -/
def Event.consentEnforces : Event → Bool
  | .enforce .consent _ _ _ _ _ => true
  | _ => false

/-- An APPROVE message. -/
def Event.approval : Event → Bool
  | .reply _ approved _ => approved
  | _ => false

/-- The `resolve_entry` that begins at position `m` answers a reply to its
slot's case, received at a position `j` while the slot was active, and
nothing touched the slot between the two. -/
def Answers (tr : List Event) (j m : Nat) (i : Slot) (req : ConsentRequest) (approved : Bool) :
    Prop :=
  j < m ∧ tr[j]? = some (.reply req.caseId approved (some (i, req))) ∧
    Between (fun e => e.touches i = false) tr j m

/-- The enforcement at position `k` is made by a `resolve_entry` that
answers the APPROVE at position `j`, and is the first it makes. -/
def ApprovedBy (tr : List Event) (j k : Nat) : Prop :=
  ∃ m i req cmds, Answers tr j m i req true ∧ m < k ∧ tr[m]? = some (.resolve i req true) ∧
    Between (fun e => e.opensResolution = false ∧ e.consentEnforces = false) tr m k ∧
    tr[k]? = some (.enforce .consent req.source req.verdict req.caseId req.score cmds)

theorem answers_of_resolve {tr : List Event} (h : Always Legitimate tr) {m : Nat} {i : Slot}
    {req : ConsentRequest} {approved : Bool} (hm : tr[m]? = some (.resolve i req approved)) :
    ∃ j, Answers tr j m i req approved := by
  have hlt := (List.getElem?_eq_some_iff.mp hm).1
  obtain ⟨j, hj, hreply, hbet⟩ := Since.position hlt.le (h.at hm)
  exact ⟨j, hj, hreply, hbet⟩

theorem approvedBy_of_enforce {tr : List Event} (h : Always Legitimate tr) {k : Nat} {e : Event}
    (hk : tr[k]? = some e) (hc : e.containment = true) : ∃ j, ApprovedBy tr j k := by
  have hlt := (List.getElem?_eq_some_iff.mp hk).1
  have hlegit := h.at hk
  cases e with
  | enforce actor source verdict caseId score cmds =>
      cases actor with
      | verdict =>
          obtain rfl : verdict = .state .warned := hlegit
          cases hc
      | consent =>
          obtain ⟨i, req, now, ⟨mid, hsuf, hmid, hacts⟩, rfl, rfl, rfl, rfl⟩ := hlegit
          have hsince : Since (fun e => e.opensResolution = false ∧ e.consentEnforces = false)
              (.resolve i req true) (tr.take k) := by
            refine ⟨mid, hsuf, fun x hx => ⟨hmid x hx, ?_⟩⟩
            -- the only act so far is the verdict row
            cases hxe : x.consentEnforces with
            | false => rfl
            | true =>
                have hb : x ∈ mid.filter Event.byConsent := by
                  refine List.mem_filter.mpr ⟨hx, ?_⟩
                  cases x with
                  | enforce actor => cases actor <;> first | rfl | cases hxe
                  | _ => cases hxe
                rw [hacts, List.mem_singleton] at hb
                rw [hb] at hxe
                cases hxe
          obtain ⟨m, hmk, hm, hbet⟩ := hsince.position hlt.le
          obtain ⟨j, hans⟩ := answers_of_resolve h hm
          exact ⟨j, m, i, req, cmds, hans, hmk, hm, hbet, hk⟩
  | _ => cases hc

/-- One APPROVE serves one enforcement: it fixes the slot, the slot's next
`resolve_entry`, and its first enforcement. -/
theorem approvedBy_unique {tr : List Event} {j k k' : Nat} (h : ApprovedBy tr j k)
    (h' : ApprovedBy tr j k') : k = k' := by
  obtain ⟨m, i, req, cmds, ⟨hjm, hreply, hbet⟩, hmk, hm, hmid, hk⟩ := h
  obtain ⟨m', i', req', cmds', ⟨hjm', hreply', hbet'⟩, hmk', hm', hmid', hk'⟩ := h'
  rw [hreply] at hreply'
  simp only [Option.some.injEq, Event.reply.injEq, Prod.mk.injEq, true_and] at hreply'
  obtain ⟨-, rfl, rfl⟩ := hreply'
  have touch : (Event.resolve i req true).touches i = true := by simp [Event.touches]
  have hmm : m = m' := by
    rcases lt_trichotomy m m' with hlt | heq | hgt
    · rw [hbet' m _ hjm hlt hm] at touch
      cases touch
    · exact heq
    · rw [hbet m' _ hjm' hgt hm'] at touch
      cases touch
  subst hmm
  rcases lt_trichotomy k k' with hlt | heq | hgt
  · cases (hmid' k _ hmk hlt hk).2
  · exact heq
  · cases (hmid k' _ hmk' hgt hk').2

/-! ## What a denied request yields -/

/-- What happens from the beginning of a `resolve_entry` at position `m`
to the beginning of the next one, or to a restart. -/
def resolution (tr : List Event) (m : Nat) : List Event :=
  (tr.drop (m + 1)).takeWhile fun e => !e.opensResolution

theorem Resolving.unique {i i' : Slot} {req req' : ConsentRequest} {approved approved' : Bool}
    {acts pre mid : List Event} (h : Resolving i' req' approved' acts (pre ++ .resolve i req approved :: mid))
    (hmid : ∀ e ∈ mid, e.opensResolution = false) :
    i' = i ∧ req' = req ∧ approved' = approved ∧ acts = mid.filter Event.byConsent := by
  obtain ⟨mid', hsuf, hmid', rfl⟩ := h
  have hself : .resolve i req approved :: mid <:+ pre ++ .resolve i req approved :: mid :=
    ⟨pre, rfl⟩
  have heq : Event.resolve i' req' approved' :: mid' = .resolve i req approved :: mid := by
    rcases List.suffix_or_suffix_of_suffix hsuf hself with hs | hs
    · rcases List.suffix_cons_iff.mp hs with heq | hs
      · exact heq
      · have := hmid _ (hs.subset List.mem_cons_self)
        cases this
    · rcases List.suffix_cons_iff.mp hs with heq | hs
      · exact heq.symm
      · have := hmid' _ (hs.subset List.mem_cons_self)
        cases this
  simp only [List.cons.injEq, Event.resolve.injEq] at heq
  obtain ⟨⟨rfl, rfl, rfl⟩, rfl⟩ := heq
  exact ⟨rfl, rfl, rfl, rfl⟩

/-- Inside a denied resolution, what has been done when an event comes. -/
theorem denied_act {tr : List Event} (h : Always Legitimate tr) {m : Nat} {i : Slot}
    {req : ConsentRequest} (hm : tr[m]? = some (.resolve i req false)) {a b : List Event}
    {e : Event} (hsplit : resolution tr m = a ++ e :: b) :
    (e.byConsent = true → a.filter Event.byConsent = [] ∧ ∃ now, e = answerRow req false now) ∧
      (∀ i' req' approved', e = .resolved i' req' approved' →
        ∃ now, a.filter Event.byConsent = [answerRow req false now]) := by
  have ha : ∀ x ∈ a, x.opensResolution = false := by
    intro x hx
    have hmem : x ∈ resolution tr m := by
      rw [hsplit]
      exact List.mem_append_left _ hx
    simpa using List.mem_takeWhile_imp hmem
  obtain ⟨hlt, hget⟩ := List.getElem?_eq_some_iff.mp hm
  obtain ⟨rest, hrest⟩ := List.takeWhile_prefix (l := tr.drop (m + 1))
    (fun e : Event => !e.opensResolution)
  have htr : tr = (tr.take m ++ .resolve i req false :: a) ++ e :: (b ++ rest) := by
    calc tr = tr.take m ++ tr.drop m := (List.take_append_drop m tr).symm
      _ = tr.take m ++ .resolve i req false :: tr.drop (m + 1) := by
          rw [← List.getElem_cons_drop hlt, hget]
      _ = tr.take m ++ .resolve i req false :: (resolution tr m ++ rest) := by
          rw [← hrest]
          rfl
      _ = _ := by simp [hsplit]
  -- what e needed before it can only be the resolution at m
  have hlegit := h _ e (b ++ rest) htr
  constructor
  · intro hb
    cases e with
    | verdictRow actor row =>
        cases actor with
        | verdict => cases hb
        | consent =>
            obtain ⟨i', req', approved', now, hres, rfl⟩ := hlegit
            obtain ⟨rfl, rfl, rfl, hacts⟩ := hres.unique ha
            exact ⟨hacts.symm, now, rfl⟩
    | enforce actor =>
        cases actor with
        | verdict => cases hb
        | consent =>
            -- it would be an approved one
            obtain ⟨i', req', now, hres, -⟩ := hlegit
            cases (hres.unique ha).2.2.1
    | _ => cases hb
  · rintro i' req' approved' rfl
    obtain ⟨acts, hres, now, hcomplete⟩ := hlegit
    obtain ⟨rfl, rfl, rfl, rfl⟩ := hres.unique ha
    exact ⟨now, by simpa using hcomplete⟩

theorem denied_acts {tr : List Event} (h : Always Legitimate tr) {m : Nat} {i : Slot}
    {req : ConsentRequest} (hm : tr[m]? = some (.resolve i req false)) :
    (resolution tr m).filter Event.byConsent = [] ∨
      ∃ now, (resolution tr m).filter Event.byConsent = [answerRow req false now] := by
  cases hacts : (resolution tr m).filter Event.byConsent with
  | nil => exact .inl rfl
  | cons x xs =>
      obtain ⟨a, b, hsplit, hnone, hx, hxs⟩ := List.filter_eq_cons_iff.mp hacts
      obtain ⟨now, rfl⟩ := ((denied_act h hm hsplit).1 hx).2
      cases hxs' : xs with
      | nil => exact .inr ⟨now, rfl⟩
      | cons y ys =>
          -- a second act would find the first already done
          rw [hxs'] at hxs
          obtain ⟨b₁, b₂, rfl, -, hy, -⟩ := List.filter_eq_cons_iff.mp hxs
          have hsplit' : resolution tr m = (a ++ answerRow req false now :: b₁) ++ y :: b₂ := by
            rw [hsplit]
            simp
          have hnil := ((denied_act h hm hsplit').1 hy).1
          have hmem : answerRow req false now ∈
              (a ++ answerRow req false now :: b₁).filter Event.byConsent :=
            List.mem_filter.mpr ⟨by simp, rfl⟩
          rw [hnil] at hmem
          cases hmem

/-! ## The consent gate -/

/-- **No containment without its own approval.** In every run, from an
empty database, with any interleaving, any replies and any restarts:

* every containment enforcement is made by a `resolve_entry` that answers
  an APPROVE for its slot's case, the last reply to that slot;
* no APPROVE serves two of them, so they never outnumber the APPROVEs;
* every `resolve_entry` answers the last reply to its slot, and one that
  answers a DENY enforces nothing and writes one verdict row, the
  CONSENT_DENIED of its request — once it has returned exactly one;
* the rows of `verdicts` are the rows these events wrote. -/
theorem containment_needs_own_approval (env : Env) (ls : List Label) :
    let tr := (runFrom env ls).2
    (∀ k e, tr[k]? = some e → e.containment = true → ∃ j, ApprovedBy tr j k) ∧
    (∀ j k k', ApprovedBy tr j k → ApprovedBy tr j k' → k = k') ∧
    tr.countP Event.containment ≤ tr.countP Event.approval ∧
    (∀ m i req approved, tr[m]? = some (.resolve i req approved) →
      ∃ j, Answers tr j m i req approved) ∧
    (∀ m i req, tr[m]? = some (.resolve i req false) →
      let acts := (resolution tr m).filter Event.byConsent
      (acts = [] ∨ ∃ now, acts = [answerRow req false now]) ∧
        (.resolved i req false ∈ resolution tr m → ∃ now, acts = [answerRow req false now])) ∧
    (runFrom env ls).1.db.verdicts = tr.filterMap Event.row? := by
  intro tr
  have inv : ConsentInv (runFrom env ls).1 tr := consentInv_run env ls
  refine ⟨fun k e hk hc => approvedBy_of_enforce inv.legit hk hc,
    fun j k k' => approvedBy_unique, ?_, fun m i req approved => answers_of_resolve inv.legit,
    fun m i req hm => ⟨denied_acts inv.legit hm, fun hret => ?_⟩, inv.rows⟩
  · -- the approvals match the enforcements one to one
    refine countP_le_of_matching (r := ApprovedBy tr) (fun k e hk hc => ?_)
      fun j k k' => approvedBy_unique
    obtain ⟨j, happ⟩ := approvedBy_of_enforce inv.legit hk hc
    obtain ⟨m, i, req, cmds, ⟨hjm, hreply, hbet⟩, hrest⟩ := happ
    exact ⟨j, _, hreply, rfl, m, i, req, cmds, ⟨hjm, hreply, hbet⟩, hrest⟩
  · obtain ⟨a, b, hsplit⟩ := List.append_of_mem hret
    obtain ⟨now, hdone⟩ := (denied_act inv.legit hm hsplit).2 i req false rfl
    rcases denied_acts inv.legit hm with hnil | hone
    · rw [hsplit, List.filter_append, hdone] at hnil
      simp at hnil
    · exact hone

end MiuiserPeruser.Gaveld
