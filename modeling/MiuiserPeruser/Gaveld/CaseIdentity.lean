import MiuiserPeruser.Gaveld.Docket
import MiuiserPeruser.Gaveld.InFlight

/-!
# gaveld — case identity

A case is known by its id alone: the rows of `cases` and `consent_queue`,
status updates, replies, verdicts and enforcements all go by it. The id
is the millisecond `make_case_id` reads, so it identifies a case exactly
as long as no two readings fall into one millisecond.
-/

namespace MiuiserPeruser.Gaveld

/-- What an act on a case says it is about. -/
structure Subject where
  caseId : String
  source : String
  score : ℚ
  deriving DecidableEq

def CaseRecord.subject (c : CaseRecord) : Subject := ⟨c.caseId, c.source, c.score⟩

def ConsentRequest.subject (req : ConsentRequest) : Subject := ⟨req.caseId, req.source, req.score⟩

/-- What an event is about. A reply is about the case it NAMES, with the
source and score of the slot it reaches. -/
def Event.subjects : Event → List Subject
  | .inserted c | .dropped c | .floor c _ => [c.subject]
  | .statusUpdate caseId source score _ => [⟨caseId, source, score⟩]
  | .verdictRow _ row => [⟨row.caseId, row.source, row.score⟩]
  | .queued req | .activated _ req | .refused req | .notLoaded req | .resolve _ req _
  | .resolved _ req _ => [req.subject]
  | .reply caseId _ (some (_, req)) => [⟨caseId, req.source, req.score⟩]
  | .enforce _ source _ caseId score _ => [⟨caseId, source, score⟩]
  | .assembled _ _ | .reply _ _ none | .restart => []

def Event.assembledCase? : Event → Option CaseRecord
  | .assembled c _ => some c
  | _ => none

def Event.reading? : Event → Option Int
  | .assembled _ ms => some ms
  | _ => none

/-- The cases a trace has assembled, in order. -/
def assembledCases (tr : List Event) : List CaseRecord := tr.filterMap Event.assembledCase?

/-- The milliseconds `make_case_id` has read, in order. -/
def caseReadings (tr : List Event) : List Int := tr.filterMap Event.reading?

/-- No two cases share an id; each case has its own row, with its source,
signal and score; and whatever goes by the id of a case is about that case. -/
structure CaseIdentity (s : Sys) (tr : List Event) : Prop where
  distinct : ((assembledCases tr).map CaseRecord.caseId).Nodup
  rows : ∀ c, .inserted c ∈ tr → ∃ row ∈ s.db.cases.rows,
    row.caseId = c.caseId ∧ row.source = c.source ∧ row.signal = c.signal ∧ row.score = c.score
  events : ∀ c ∈ assembledCases tr, ∀ e ∈ tr, ∀ x ∈ e.subjects, x.caseId = c.caseId →
    x = c.subject
  requests : ∀ c ∈ assembledCases tr, ∀ req, s.Filed req → req.caseId = c.caseId →
    req.subject = c.subject

/-! ## Everything is about a case that was assembled -/

def Assembled (tr : List Event) (x : Subject) : Prop := ∃ c ∈ assembledCases tr, c.subject = x

theorem mem_assembledCases {tr : List Event} {c : CaseRecord} :
    c ∈ assembledCases tr ↔ ∃ ms, .assembled c ms ∈ tr := by
  constructor
  · intro h
    obtain ⟨e, he, hc⟩ := List.mem_filterMap.mp h
    cases e with
    | assembled c' ms =>
        obtain rfl := Option.some.inj hc
        exact ⟨ms, he⟩
    | _ => cases hc
  · rintro ⟨ms, h⟩
    exact List.mem_filterMap.mpr ⟨_, h, rfl⟩

theorem mem_assembledCases_append {tr : List Event} {c : CaseRecord} (h : c ∈ assembledCases tr)
    (es : List Event) : c ∈ assembledCases (tr ++ es) := by
  obtain ⟨ms, h⟩ := mem_assembledCases.mp h
  exact mem_assembledCases.mpr ⟨ms, List.mem_append_left es h⟩

theorem Assembled.append {tr : List Event} {x : Subject} (h : Assembled tr x) (es : List Event) :
    Assembled (tr ++ es) x := by
  obtain ⟨c, hc, hx⟩ := h
  exact ⟨c, mem_assembledCases_append hc es, hx⟩

/-- An event is about a case or a request its step found. -/
theorem Emits.subject {s : Sys} {l : Label} {e : Event} (h : Emits s l e) {x : Subject}
    (hx : x ∈ e.subjects) :
    (∃ c, s.Holds c ∧ c.subject = x) ∨ ∃ req, s.InFlight req ∧ req.subject = x := by
  have mine : ∀ {c : CaseRecord}, s.verdict.cases = [c] → s.Holds c := fun hc =>
    .inr (.inr (by rw [hc]; exact List.mem_singleton_self _))
  have worker : ∀ {role : Role} {c : CaseRecord}, (s.worker role).cases = [c] → s.Holds c :=
    fun hc => .inl ⟨_, by rw [hc]; exact List.mem_singleton_self _⟩
  have filed : ∀ {req : ConsentRequest}, s.consent.requests = [req] → s.InFlight req := fun hc =>
    .inl (filed_consent (by rw [hc]; exact List.mem_singleton_self _))
  cases h with
  | assembled | unknownReply | restart => cases hx
  | inserted hw | dismissed hw =>
      obtain rfl := List.mem_singleton.mp hx
      exact .inl ⟨_, worker (by rw [hw]; rfl), rfl⟩
  | dropped hw hdrop =>
      obtain rfl := List.mem_singleton.mp hx
      exact .inl ⟨_, .inr (.inl (mem_of_queuePush_dropped hdrop)), rfl⟩
  | suspended hv | floor hv | verdictRow hv | verdictStatus hv | verdictEnforce hv =>
      obtain rfl := List.mem_singleton.mp hx
      exact .inl ⟨_, mine (by rw [hv]; rfl), rfl⟩
  | queued hv | activated hv | refused hv =>
      obtain rfl := List.mem_singleton.mp hx
      exact .inr ⟨_, .inr (by rw [hv]; exact List.mem_singleton_self _), rfl⟩
  | notLoaded _ hrow =>
      obtain rfl := List.mem_singleton.mp hx
      exact .inr ⟨_, .inl (filed_row hrow), rfl⟩
  | reloaded hc | reloadRefused hc =>
      obtain rfl := List.mem_singleton.mp hx
      exact .inr ⟨_, .inl (filed_consent (by rw [hc]; exact List.mem_cons_self)), rfl⟩
  | resolve _ hp =>
      obtain rfl := List.mem_singleton.mp hx
      exact .inr ⟨_, .inl (filed_slot hp), rfl⟩
  | consentRow hc | consentStatus hc | consentEnforce hc | resolved hc =>
      obtain rfl := List.mem_singleton.mp hx
      exact .inr ⟨_, filed (by rw [hc]; rfl), rfl⟩
  | reply _ hp hid =>
      obtain rfl := List.mem_singleton.mp hx
      exact .inr ⟨_, .inl (filed_slot hp), by rw [ConsentRequest.subject, hid]⟩

structure SubjectInv (s : Sys) (tr : List Event) : Prop where
  held : HeldInv s tr
  requests : ∀ req, s.InFlight req → Assembled tr req.subject
  events : ∀ e ∈ tr, ∀ x ∈ e.subjects, Assembled tr x
  inserted : ∀ c, .inserted c ∈ tr → c ∈ assembledCases tr
  named : ∀ c ms, .assembled c ms ∈ tr → c.caseId = makeCaseId ms

theorem SubjectInv.assembled {s : Sys} {tr : List Event} (h : SubjectInv s tr) {c : CaseRecord}
    (hc : s.Holds c) : c ∈ assembledCases tr :=
  mem_assembledCases.mpr (h.held c hc).mem

theorem SubjectInv.step {s : Sys} {tr : List Event} (ho : Orderly s) (h : SubjectInv s tr)
    (l : Label) : SubjectInv (step s l).1 (tr ++ (step s l).2) where
  held := h.held.step ho l
  requests := by
    refine requests_step (R := fun tr req => Assembled tr req.subject) tr _ ho
      (fun req hr => hr.append _) (fun r req hsame hr => ?_) h.requests fun c state hv => ?_
    · rwa [ConsentRequest.subject, ← hsame.caseId, ← hsame.source, ← hsame.score]
    · exact ⟨c, h.assembled (.inr (.inr (by rw [hv]; exact List.mem_singleton_self _))), rfl⟩
  events := by
    intro e he x hx
    rcases List.mem_append.mp he with he | he
    · exact (h.events e he x hx).append _
    · rcases (step_emits ho he).subject hx with ⟨c, hc, rfl⟩ | ⟨req, hreq, rfl⟩
      · exact Assembled.append ⟨c, h.assembled hc, rfl⟩ _
      · exact (h.requests req hreq).append _
  inserted := by
    intro c hc
    rcases List.mem_append.mp hc with hold | hnew
    · exact mem_assembledCases_append (h.inserted c hold) _
    · cases step_emits ho hnew with
      | inserted hw =>
          rename_i role r result
          refine mem_assembledCases_append (h.assembled (.inl ⟨role, ?_⟩)) _
          rw [hw]
          exact List.mem_singleton_self _
  named := by
    intro c ms hc
    rcases List.mem_append.mp hc with hc | hc
    · exact h.named c ms hc
    · cases step_emits ho hc with
      | assembled hw => rfl

theorem subjectInv_run (env : Env) (ls : List Label) :
    SubjectInv (runFrom env ls).1 (runFrom env ls).2 := by
  refine Machine.run_invariant_under (Q := Orderly) (orderly_boot env .empty) orderly_step ?_
    (fun s tr l ho h => h.step ho l) ls
  refine ⟨heldInv_run env [], fun req hreq => ?_, by simp, by simp, by simp⟩
  rcases hreq with (h | ⟨i, p, hp, -⟩ | h) | h
  · cases h
  · cases hp
  · cases h
  · cases h

/-! ## When ids identify -/

theorem ids_eq {tr : List Event} (h : ∀ c ms, .assembled c ms ∈ tr → c.caseId = makeCaseId ms) :
    (assembledCases tr).map CaseRecord.caseId = (caseReadings tr).map makeCaseId := by
  induction tr with
  | nil => rfl
  | cons e tr ih =>
      have htail := ih fun c ms hc => h c ms (List.mem_cons_of_mem _ hc)
      cases e with
      | assembled c ms =>
          have hid := h c ms List.mem_cons_self
          simpa [assembledCases, caseReadings, Event.assembledCase?, Event.reading?, hid] using htail
      | _ => exact htail

/-- **Case identity.** The ids of a run identify its cases exactly when no
two `make_case_id` calls of the run read the same millisecond. -/
theorem case_identity_iff (env : Env) (ls : List Label) :
    CaseIdentity (runFrom env ls).1 (runFrom env ls).2 ↔ (caseReadings (runFrom env ls).2).Nodup := by
  have inv : SubjectInv (runFrom env ls).1 (runFrom env ls).2 := subjectInv_run env ls
  have hids : ((assembledCases (runFrom env ls).2).map CaseRecord.caseId).Nodup ↔
      (caseReadings (runFrom env ls).2).Nodup := by
    rw [ids_eq inv.named, List.nodup_map_iff makeCaseId_injective]
  refine ⟨fun h => hids.mp h.distinct, fun hnodup => ?_⟩
  have same : ∀ c ∈ assembledCases (runFrom env ls).2, ∀ c' ∈ assembledCases (runFrom env ls).2,
      c.caseId = c'.caseId → c = c' :=
    fun c hc c' hc' => List.inj_on_of_nodup_map (hids.mpr hnodup) hc hc'
  refine ⟨hids.mpr hnodup, fun c hc => ?_, fun c hc e he x hx hid => ?_,
    fun c hc req hreq hid => ?_⟩
  · -- the row of the id is of an inserted case with the id, hence of this one
    rw [cases_run env ls]
    obtain ⟨row, hrow, hid⟩ := row_of_inserted hc
    obtain ⟨c', hc', hsame⟩ := inserted_of_row hrow
    rw [← hsame] at hid
    obtain rfl := same c' (inv.inserted c' hc') c (inv.inserted c hc) hid
    refine ⟨row, hrow, ?_⟩
    rw [← hsame]
    exact ⟨rfl, rfl, rfl, rfl⟩
  · -- an event is about an assembled case, and the id leaves only this one
    obtain ⟨c', hc', rfl⟩ := inv.events e he x hx
    rw [same c' hc' c hc hid]
  · obtain ⟨c', hc', hx⟩ := inv.requests req (.inl hreq)
    have hid' : c'.caseId = c.caseId := (congrArg Subject.caseId hx).trans hid
    rw [← hx, same c' hc' c hc hid']

/-- Two signals scored in one millisecond, with a clock that stands still. -/
theorem case_ids_may_collide :
    ¬ ∀ (env : Env) (ls : List Label), Machine.Meets step ClockForward (.boot env .empty) ls →
      CaseIdentity (runFrom env ls).1 (runFrom env ls).2 := by
  intro h
  let ls : List Label := startUp ++ submit ⟨false, "com.example.a", "ROOTKIT_MODULE", 55, ""⟩ ++
    submit ⟨false, "com.example.b", "ROOTKIT_MODULE", 90, ""⟩
  have collide : ¬ ((assembledCases (runFrom ⟨1000000, false, none⟩ ls).2).map
      CaseRecord.caseId).Nodup := by decide +kernel
  exact collide (h _ _ (by decide +kernel)).distinct

end MiuiserPeruser.Gaveld
