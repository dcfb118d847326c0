import MiuiserPeruser.Gaveld.Approval
import MiuiserPeruser.Gaveld.InFlight

/-!
# gaveld — protected sources

Sovereignty apps are never put above QUARANTINED, and the court's own
daemons are never judged here at all. The decision falls once, in
`verdict_process`; the enforcement comes later, from a table that is also
rebuilt from the database after a restart. So the property is one of all
requests IN FLIGHT, wherever they are.
-/

namespace MiuiserPeruser.Gaveld

/-- A state that is above the cap of a sovereignty app. -/
def aboveCap : Verdict → Bool
  | .state .houseArrest | .state .jailed => true
  | _ => false

/-- What may be decided about a source, for a sovereignty list. -/
def Permitted (list : SovereigntyList) (source : String) (verdict : Verdict) : Prop :=
  tierIsOwnDaemon source = false ∧
    (tierIsSovereignty list source = true → aboveCap verdict = false)

/-- What `verdict_process` has established about its case. -/
def VerdictPc.Protected (list : SovereigntyList) : VerdictPc → Prop
  | .freshTime c | .freshQuery c _ | .cap c | .enforce c => tierIsOwnDaemon c.source = false
  | .floorTime c | .floorHouseArrest c _ | .floorQuarantined c _ _ =>
      tierIsOwnDaemon c.source = false ∧ tierIsSovereignty list c.source = false
  | .emit c verdict _ _ => tierIsOwnDaemon c.source = true → verdict = .iaReferral
  | .queueTime c state => Permitted list c.source (.state state)
  | _ => True

/-- What an event may say about its source. -/
def Event.Guarded (list : SovereigntyList) : Event → Prop
  | .enforce _ source verdict _ _ _ => Permitted list source verdict
  | .verdictRow _ row => tierIsOwnDaemon row.source = true → row.verdict = .iaReferral
  | _ => True

structure ProtectionInv (list : SovereigntyList) (s : Sys) (tr : List Event) : Prop where
  fixed : s.env.sovereignty = list
  verdict : s.verdict.Protected list
  requests : ∀ req, s.InFlight req → Permitted list req.source req.verdict
  events : ∀ e ∈ tr, e.Guarded list

theorem protected_idle (list : SovereigntyList) (pc : VerdictPc) (h : pc.idle = true) :
    pc.Protected list := by
  cases pc <;> trivial

/-- A capped state is permitted, unless it is JAILED: that one still has
to pass the floor. -/
theorem route_protected {list : SovereigntyList} {c : CaseRecord} {state : ThreatState}
    (hown : tierIsOwnDaemon c.source = false)
    (hcap : tierIsSovereignty list c.source = true → state ≠ .jailed ∧ state ≠ .houseArrest) :
    (route c state).Protected list := by
  have own : tierIsOwnDaemon c.source = true → ∀ v : Verdict, v = .iaReferral := fun h => by
    rw [hown] at h
    cases h
  cases state with
  | clean | watched | warned => exact fun h => own h _
  | quarantined => exact ⟨hown, fun _ => rfl⟩
  | houseArrest => exact ⟨hown, fun h => absurd rfl (hcap h).2⟩
  | jailed => exact ⟨hown, fun h => absurd rfl (hcap h).1⟩

theorem VerdictMove.keepsProtected {list : SovereigntyList} {s s' : Sys} {pc : VerdictPc}
    {es : List Event} (m : VerdictMove s pc s' es) (hlist : s.env.sovereignty = list)
    (h : pc.Protected list) : s'.verdict.Protected list := by
  subst hlist
  cases m with
  | refer => exact fun _ => rfl
  | examine _ hown => exact hown
  | stale => exact fun hown => absurd hown (Bool.eq_false_iff.mp h)
  | @jailed c hjailed =>
      refine ⟨h, ?_⟩
      cases hs : tierIsSovereignty s.env.sovereignty c.source with
      | false => rfl
      | true => exact absurd hjailed (applySovereigntyCap_capped hs c.state).1
  | @capped c => exact route_protected h fun hs => applySovereigntyCap_capped hs c.state
  | floorQuarantined =>
      -- a case that reached the floor is not on the list
      exact route_protected h.1 fun hs => absurd hs (Bool.eq_false_iff.mp h.2)
  | warn =>
      -- an own daemon's verdict is IA_REFERRAL, not WARNED
      exact Bool.eq_false_iff.mpr fun hown => by cases h hown
  | freshTime | active | floorTime | floorHouseArrest | emitTime | emitInsert | emitCriminal =>
      exact h
  | _ => trivial

theorem emits_guarded {list : SovereigntyList} {s : Sys} {l : Label} {e : Event}
    (hv : s.verdict.Protected list)
    (hreq : ∀ req, s.InFlight req → Permitted list req.source req.verdict) (h : Emits s l e) :
    e.Guarded list := by
  cases h with
  | verdictRow hpc =>
      rw [hpc] at hv
      exact hv
  | verdictEnforce hpc =>
      rw [hpc] at hv
      exact ⟨hv, fun _ => rfl⟩
  | consentRow hpc =>
      rename_i req approved
      have hown := (hreq req (.inl (filed_consent (by rw [hpc]; exact List.mem_singleton_self _)))).1
      intro h
      rw [show tierIsOwnDaemon req.source = true from h] at hown
      cases hown
  | consentEnforce hpc =>
      exact hreq _ (.inl (filed_consent (by rw [hpc]; exact List.mem_singleton_self _)))
  | _ => trivial

/-- The sovereignty list is not edited. -/
def ListFixed (ls : List Label) : Prop := ∀ list, Label.setSovereignty list ∉ ls

theorem ProtectionInv.step {list : SovereigntyList} {s : Sys} {tr : List Event} (ho : Orderly s)
    (h : ProtectionInv list s tr) {l : Label} (hl : ∀ list, l ≠ .setSovereignty list) :
    ProtectionInv list (step s l).1 (tr ++ (step s l).2) where
  fixed := by
    rw [step_env]
    cases l with
    | setSovereignty list' => exact absurd rfl (hl list')
    | _ => exact h.fixed
  verdict := step_verdict_pc ho l (protected_idle list) h.verdict
    fun _ => (verdictStep_move s).keepsProtected h.fixed h.verdict
  requests := by
    refine requests_step (R := fun _ req => Permitted list req.source req.verdict) tr [] ho
      (fun _ => id) (fun r req hsame hr => ?_) h.requests fun c state hv => ?_
    · rwa [← hsame.source, ← hsame.verdict]
    · have hp := h.verdict
      rw [hv] at hp
      exact hp
  events := fun e he => (List.mem_append.mp he).elim (h.events e) fun he =>
    emits_guarded h.verdict h.requests (step_emits ho he)

theorem protectionInv_run (env : Env) (ls : List Label) (hfix : ListFixed ls) :
    ProtectionInv env.sovereignty (runFrom env ls).1 (runFrom env ls).2 := by
  have hok : Machine.Meets Gaveld.step (fun _ l => ∀ list, l ≠ .setSovereignty list)
      (.boot env .empty) ls := by
    refine Machine.meets_of_forall (fun l => ∀ list, l ≠ Label.setSovereignty list) ?_
    rintro l hl list rfl
    exact hfix list hl
  have both : Orderly (runFrom env ls).1 ∧
      ProtectionInv env.sovereignty (runFrom env ls).1 (runFrom env ls).2 := by
    refine Machine.run_invariant_of_meets
      (P := fun s tr => Orderly s ∧ ProtectionInv env.sovereignty s tr) ?_ ?_ hok
    · refine ⟨orderly_boot env .empty, rfl, trivial, fun req hreq => ?_, by simp⟩
      rcases hreq with (h | ⟨i, p, hp, -⟩ | h) | h
      · cases h
      · cases hp
      · cases h
      · cases h
    · intro s tr l h hl
      exact ⟨orderly_step s l h.1, h.2.step h.1 hl⟩
  exact both.2

/-- **Sovereignty and own-daemon protection.** With a fixed sovereignty
list and from an empty database, in every state of every run:
(a) no `consent_queue` row, no active slot and no enforcement of a
sovereignty app carries HOUSE_ARREST or JAILED; (b) a source that is one
of the court's own daemons has no row, no slot and no enforcement at all,
and its only verdict rows are IA_REFERRAL. -/
theorem protected_sources (env : Env) (ls : List Label) (hfix : ListFixed ls) :
    let s := (runFrom env ls).1
    let tr := (runFrom env ls).2
    (∀ source, tierIsSovereignty env.sovereignty source = true →
      (∀ req ∈ s.db.consentQueue.rows, req.source = source → aboveCap req.verdict = false) ∧
      (∀ i p, s.pending i = some p → p.req.source = source → aboveCap p.req.verdict = false) ∧
      ∀ actor verdict caseId score cmds,
        .enforce actor source verdict caseId score cmds ∈ tr → aboveCap verdict = false) ∧
    ∀ source, tierIsOwnDaemon source = true →
      (∀ req ∈ s.db.consentQueue.rows, req.source ≠ source) ∧
      (∀ i p, s.pending i = some p → p.req.source ≠ source) ∧
      (∀ actor verdict caseId score cmds,
        .enforce actor source verdict caseId score cmds ∉ tr) ∧
      ∀ row ∈ s.db.verdicts, row.source = source → row.verdict = .iaReferral := by
  intro s tr
  have inv : ProtectionInv env.sovereignty s tr := protectionInv_run env ls hfix
  have ownRefused : ∀ {source : String} {verdict : Verdict}, tierIsOwnDaemon source = true →
      ¬ Permitted env.sovereignty source verdict := fun hown hp => by
    rw [hp.1] at hown
    cases hown
  refine ⟨fun source hsov => ⟨?_, ?_, ?_⟩, fun source hown => ⟨?_, ?_, ?_, ?_⟩⟩
  · rintro req hreq rfl
    exact (inv.requests req (.inl (filed_row hreq))).2 hsov
  · rintro i p hp rfl
    exact (inv.requests p.req (.inl (filed_slot hp))).2 hsov
  · intro actor verdict caseId score cmds he
    have hg : Permitted env.sovereignty source verdict := inv.events _ he
    exact hg.2 hsov
  · rintro req hreq rfl
    exact ownRefused hown (inv.requests req (.inl (filed_row hreq)))
  · rintro i p hp rfl
    exact ownRefused hown (inv.requests p.req (.inl (filed_slot hp)))
  · intro actor verdict caseId score cmds he
    exact ownRefused hown (inv.events _ he)
  · rintro row hrow rfl
    have hrows : s.db.verdicts = tr.filterMap Event.row? := (consentInv_run env ls).rows
    rw [hrows] at hrow
    obtain ⟨e, he, hr⟩ := List.mem_filterMap.mp hrow
    cases e with
    | verdictRow actor row' =>
        obtain rfl := Option.some.inj hr
        exact inv.events _ he hown
    | _ => cases hr

/-- A sovereignty app that scores 90 is asked about as QUARANTINED. -/
theorem protected_sources_bank :
    let env : Env := ⟨1000000, false, some "com.example.bank|mine\n"⟩
    let ls := startUp ++ submit ⟨false, "com.example.bank", "ROOTKIT_MODULE", 600, ""⟩ ++
      List.replicate 9 .verdict
    let rows := (runFrom env ls).1.db.consentQueue.rows
    ListFixed ls ∧ tierIsSovereignty env.sovereignty "com.example.bank" = true ∧
      rows.map (fun req => (req.source, req.score)) = [("com.example.bank", 90)] ∧
      ∀ req ∈ rows, req.source = "com.example.bank" → aboveCap req.verdict = false := by
  intro env ls rows
  have hfix : ListFixed ls := by
    intro list h
    simp [ls, startUp, submit, List.replicate] at h
  have hlisted : tierIsSovereignty env.sovereignty "com.example.bank" = true := by
    decide +kernel
  refine ⟨hfix, hlisted, by decide +kernel, ?_⟩
  exact ((protected_sources env ls hfix).1 "com.example.bank" hlisted).1

end MiuiserPeruser.Gaveld
