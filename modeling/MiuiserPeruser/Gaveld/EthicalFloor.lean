import MiuiserPeruser.Gaveld.Approval
import MiuiserPeruser.Gaveld.InFlight

/-!
# gaveld — the first ethical floor

No JAILED without a prior approved containment of the same source in the
last 24 hours. `apply_floor_jailed` asks the `verdicts` table, which
another thread writes; the request it lets through is queued later, held
as long as the user likes, and reloaded after restarts. What carries the
argument is that the two verdict names it counts are only ever written
by an approved `resolve_entry`.

The floor compares with ITS OWN reading of the clock; `queued` is read
again, after the two counts.
-/

namespace MiuiserPeruser.Gaveld

open History

/-! ## What the floor guarantees -/

/-- A row of an approved containment of the source, below JAILED and less
than 24 hours old at `now`. -/
def PriorContainment (source : String) (now : Int) (row : VerdictRow) : Prop :=
  row.source = source ∧ (row.verdict = .state .houseArrest ∨ row.verdict = .state .quarantined) ∧
    row.consentRequired = true ∧ row.consentGranted = true ∧ now - row.epoch < 24 * 3600

instance (source : String) (now : Int) (row : VerdictRow) :
    Decidable (PriorContainment source now row) :=
  inferInstanceAs (Decidable (_ ∧ _))

/-- `apply_floor_jailed` was called for the case at second `now`, and
there is a row that satisfies it. -/
def FloorEvidence (tr : List Event) (c : CaseRecord) (now : Int) : Prop :=
  .floor c now ∈ tr ∧ ∃ row, .verdictRow .consent row ∈ tr ∧ PriorContainment c.source now row

/-- The floor was passed for the case of a request, not after the request
was queued. -/
def FloorPassed (tr : List Event) (req : ConsentRequest) : Prop :=
  ∃ c now, c.caseId = req.caseId ∧ c.source = req.source ∧ now ≤ req.queued ∧
    FloorEvidence tr c now

theorem FloorEvidence.append {tr : List Event} {c : CaseRecord} {now : Int}
    (h : FloorEvidence tr c now) (es : List Event) : FloorEvidence (tr ++ es) c now := by
  obtain ⟨hfloor, row, hrow, hprior⟩ := h
  exact ⟨List.mem_append_left es hfloor, row, List.mem_append_left es hrow, hprior⟩

theorem FloorPassed.append {tr : List Event} {req : ConsentRequest} (h : FloorPassed tr req)
    (es : List Event) : FloorPassed (tr ++ es) req := by
  obtain ⟨c, now, hid, hsource, hle, hev⟩ := h
  exact ⟨c, now, hid, hsource, hle, hev.append es⟩

/-- What must have come before a JAILED request is queued, and before a
JAILED enforcement. -/
def FloorKept (pre : List Event) : Event → Prop
  | .queued req => req.verdict = .state .jailed → FloorPassed pre req
  | .enforce _ source verdict caseId _ cmds =>
      (verdict = .state .jailed → ∃ req, .queued req ∈ pre ∧ req.caseId = caseId ∧
        req.source = source ∧ req.verdict = .state .jailed) ∧
      ∀ target, .pmDisableUser target ∈ cmds → verdict = .state .jailed ∧ target = source
  | _ => True

theorem FloorKept.append {pre : List Event} {e : Event} (h : FloorKept pre e) (es : List Event) :
    FloorKept (pre ++ es) e := by
  cases e with
  | queued req => exact fun hj => (h hj).append es
  | enforce actor source verdict caseId score cmds =>
      refine ⟨fun hj => ?_, h.2⟩
      obtain ⟨req, hq, hreq⟩ := h.1 hj
      exact ⟨req, List.mem_append_left es hq, hreq⟩
  | _ => trivial

/-! ## The invariant -/

/-- What `verdict_process` has established about the floor, at second
`time`. -/
def VerdictPc.Floored (tr : List Event) (time : Int) : VerdictPc → Prop
  | .floorHouseArrest c since => ∃ now ≤ time, .floor c now ∈ tr ∧ since = sessionStart now
  | .floorQuarantined c since priorHa => ∃ now ≤ time, .floor c now ∈ tr ∧
      since = sessionStart now ∧ (priorHa ≠ 0 → FloorEvidence tr c now)
  | .queueTime c .jailed => ∃ now ≤ time, FloorEvidence tr c now
  | .consentInsert req => req.verdict = .state .jailed → FloorPassed tr req
  | .enqueue req => .queued req ∈ tr
  | _ => True

structure FloorInv (s : Sys) (tr : List Event) : Prop where
  verdict : s.verdict.Floored tr s.env.time
  filed : ∀ req, s.Filed req → ∃ q, .queued q ∈ tr ∧ q.Same req
  kept : Always FloorKept tr

theorem floored_idle (tr : List Event) (time : Int) (pc : VerdictPc) (h : pc.idle = true) :
    pc.Floored tr time := by
  cases pc <;> trivial

/-- The trace grows and the clock moves on. -/
theorem VerdictPc.Floored.mono {pc : VerdictPc} {tr : List Event} {time time' : Int}
    (h : pc.Floored tr time) (hle : time ≤ time') (es : List Event) :
    pc.Floored (tr ++ es) time' := by
  cases pc with
  | floorHouseArrest c since =>
      obtain ⟨now, hnow, hfloor, hsince⟩ := h
      exact ⟨now, hnow.trans hle, List.mem_append_left es hfloor, hsince⟩
  | floorQuarantined c since priorHa =>
      obtain ⟨now, hnow, hfloor, hsince, hprior⟩ := h
      exact ⟨now, hnow.trans hle, List.mem_append_left es hfloor, hsince,
        fun hne => (hprior hne).append es⟩
  | queueTime c state =>
      cases state with
      | jailed =>
          obtain ⟨now, hnow, hev⟩ := h
          exact ⟨now, hnow.trans hle, hev.append es⟩
      | _ => trivial
  | consentInsert req => exact fun hj => FloorPassed.append (h hj) es
  | enqueue req => exact List.mem_append_left es h
  | _ => trivial

/-- A counted row of one of the two verdicts is one of an approved
`resolve_entry`: nothing else writes them. -/
theorem priorContainment_of_count {s : Sys} {tr : List Event} (h : ConsentInv s tr)
    {source : String} {verdict : Verdict} {now : Int}
    (hverdict : verdict = .state .houseArrest ∨ verdict = .state .quarantined)
    (hcount : dbVerdictCountRecent s.db source verdict (sessionStart now) ≠ 0) :
    ∃ row, .verdictRow .consent row ∈ tr ∧ PriorContainment source now row := by
  obtain ⟨row, hrow, hsource, rfl, hepoch⟩ := dbVerdictCountRecent_pos.mp hcount
  have hcontains : row.verdict.contains = true := by
    rcases hverdict with hv | hv <;> rw [hv] <;> rfl
  rw [h.rows] at hrow
  obtain ⟨e, he, hr⟩ := List.mem_filterMap.mp hrow
  cases e with
  | verdictRow actor row' =>
      obtain rfl := Option.some.inj hr
      obtain ⟨pre, post, hsplit⟩ := List.append_of_mem he
      have hlegit := h.legit pre _ post hsplit
      cases actor with
      | verdict =>
          rw [show row'.verdict.contains = false from hlegit] at hcontains
          cases hcontains
      | consent =>
          obtain ⟨i, req, approved, t, -, rfl⟩ := hlegit
          refine ⟨_, he, hsource, hverdict, rfl, ?_, ?_⟩
          · cases approved with
            | true => rfl
            | false => cases hcontains
          · unfold sessionStart at hepoch
            omega
  | _ => cases hr

theorem route_floored {tr : List Event} {time : Int} {c : CaseRecord} {state : ThreatState}
    (h : state = .jailed → ∃ now ≤ time, FloorEvidence tr c now) :
    (route c state).Floored tr time := by
  cases state with
  | jailed => exact h rfl
  | clean | watched | warned | quarantined | houseArrest => trivial

theorem VerdictMove.floored {s s' : Sys} {pc : VerdictPc} {tr es : List Event}
    (m : VerdictMove s pc s' es) (hc : ConsentInv s tr) (h : pc.Floored tr s.env.time) :
    s'.verdict.Floored (tr ++ es) s.env.time := by
  cases m with
  | capped hne => exact route_floored fun hj => absurd hj hne
  | floorTime => exact ⟨s.env.time, le_rfl, by simp, rfl⟩
  | floorHouseArrest =>
      obtain ⟨now, hle, hfloor, rfl⟩ := h
      rw [List.append_nil]
      exact ⟨now, hle, hfloor, rfl, fun hne =>
        ⟨hfloor, priorContainment_of_count hc (.inl rfl) hne⟩⟩
  | floorQuarantined =>
      obtain ⟨now, hle, hfloor, rfl, hprior⟩ := h
      rw [List.append_nil]
      refine route_floored fun hj => ⟨now, hle, ?_⟩
      rcases applyFloorJailed_jailed hj with hne | hne
      · exact hprior hne
      · exact ⟨hfloor, priorContainment_of_count hc (.inr rfl) hne⟩
  | @queueTime c state =>
      rw [List.append_nil]
      cases state with
      | jailed =>
          obtain ⟨now, hle, hev⟩ := h
          exact fun _ => ⟨c, now, rfl, rfl, hle, hev⟩
      | clean | watched | warned | quarantined | houseArrest => exact fun hj => by cases hj
  | consentInsert => exact List.mem_append_right tr (List.mem_singleton_self _)
  | blocked =>
      rw [List.append_nil]
      exact h
  | _ => trivial

/-! ## One step -/

theorem emits_floorKept {s : Sys} {tr : List Event} (h : FloorInv s tr) {l : Label} {e : Event}
    (he : Emits s l e) : FloorKept tr e := by
  cases he with
  | queued hv =>
      have hf := h.verdict
      rw [hv] at hf
      exact hf
  | verdictEnforce hv =>
      exact ⟨(fun hj => by cases hj), fun target ht => pmDisableUser_mem_enforceExecute ht⟩
  | consentEnforce hc =>
      rename_i now i req
      refine ⟨fun hj => ?_, fun target ht => pmDisableUser_mem_enforceExecute ht⟩
      obtain ⟨q, hq, hsame⟩ :=
        h.filed req (filed_consent (by rw [hc]; exact List.mem_singleton_self _))
      exact ⟨q, hq, hsame.caseId, hsame.source, hsame.verdict.trans hj⟩
  | _ => trivial

theorem time_mono {s : Sys} {l : Label} (hl : ClockForward s l) :
    s.env.time ≤ (step s l).1.env.time := by
  rw [step_env]
  cases l with
  | setClock ms => exact Int.ediv_le_ediv (by decide) hl
  | _ => exact le_rfl

theorem FloorInv.step {s : Sys} {tr : List Event} (ho : Orderly s) (hc : ConsentInv s tr)
    (h : FloorInv s tr) {l : Label} (hl : ClockForward s l) :
    FloorInv (step s l).1 (tr ++ (step s l).2) where
  verdict := by
    refine step_verdict_pc (V := fun pc => pc.Floored _ _) ho l (floored_idle _ _)
      (h.verdict.mono (time_mono hl) _) ?_
    rintro rfl
    have hs := (verdictStep_move s).floored hc h.verdict
    rwa [step_env]
  filed := by
    intro req hreq
    rcases step_filed ho hreq with ⟨r, hr, hsame⟩ | ⟨rfl, hr⟩
    · obtain ⟨q, hq, hqr⟩ := h.filed r hr
      exact ⟨q, List.mem_append_left _ hq, hqr.trans hsame⟩
    · have hf := h.verdict
      refine ⟨req, ?_, .refl req⟩
      cases hv : s.verdict with
      | consentInsert req' =>
          rw [hv] at hr
          obtain rfl := List.mem_singleton.mp hr
          refine List.mem_append_right tr ?_
          simp [Gaveld.step, verdictStep, hv]
      | enqueue req' =>
          rw [hv] at hr hf
          obtain rfl := List.mem_singleton.mp hr
          exact List.mem_append_left _ hf
      | _ =>
          rw [hv] at hr
          cases hr
  kept := h.kept.append fun pre e post hsplit =>
    (emits_floorKept h (step_emits ho (by rw [hsplit]; simp))).append pre

theorem floorInv_run (env : Env) (ls : List Label)
    (hclock : Machine.Meets step ClockForward (.boot env .empty) ls) :
    FloorInv (runFrom env ls).1 (runFrom env ls).2 := by
  have all : Orderly (runFrom env ls).1 ∧ ConsentInv (runFrom env ls).1 (runFrom env ls).2 ∧
      FloorInv (runFrom env ls).1 (runFrom env ls).2 := by
    refine Machine.run_invariant_of_meets
      (P := fun s tr => Orderly s ∧ ConsentInv s tr ∧ FloorInv s tr) ?_ ?_ hclock
    · refine ⟨orderly_boot env .empty, consentInv_run env [], trivial, fun req hreq => ?_, .nil⟩
      rcases hreq with h | ⟨i, p, hp, -⟩ | h
      · cases h
      · cases hp
      · cases h
    · rintro s tr l ⟨ho, hc, h⟩ hl
      exact ⟨orderly_step s l ho, hc.step ho l, h.step ho hc hl⟩
  exact all.2.2

/-! ## Two approvals -/

/-- An APPROVE at position `j` for a request of the source and verdict. -/
def ApproveAt (tr : List Event) (j : Nat) (source : String) (verdict : Verdict) : Prop :=
  ∃ i req, tr[j]? = some (.reply req.caseId true (some (i, req))) ∧ req.source = source ∧
    req.verdict = verdict

/-- A containment row of the consent thread was approved. -/
theorem approveAt_of_row {tr : List Event} (h : Always Legitimate tr) {k : Nat} {row : VerdictRow}
    (hk : tr[k]? = some (.verdictRow .consent row)) (hcontains : row.verdict.contains = true) :
    ∃ j, j < k ∧ ApproveAt tr j row.source row.verdict := by
  have hlt := (List.getElem?_eq_some_iff.mp hk).1
  obtain ⟨i, req, approved, now, ⟨mid, hsuf, hmid, -⟩, rfl⟩ := h.at hk
  have hsince : Since (fun e => e.opensResolution = false) (.resolve i req approved) (tr.take k) :=
    ⟨mid, hsuf, hmid⟩
  obtain ⟨m, hmk, hm, -⟩ := hsince.position hlt.le
  obtain ⟨j, hjm, hreply, -⟩ := answers_of_resolve h hm
  cases approved with
  | true => exact ⟨j, hjm.trans hmk, i, req, hreply, rfl, rfl⟩
  | false => cases hcontains

/-- An enforced containment was approved. -/
theorem approveAt_of_enforce {tr : List Event} (h : Always Legitimate tr) {k : Nat} {actor : Actor}
    {source caseId : String} {verdict : Verdict} {score : ℚ} {cmds : List Cmd}
    (hk : tr[k]? = some (.enforce actor source verdict caseId score cmds))
    (hcontains : verdict.contains = true) : ∃ j, j < k ∧ ApproveAt tr j source verdict := by
  obtain ⟨j, m, i, req, cmds', ⟨hjm, hreply, -⟩, hmk, -, -, hk'⟩ :=
    approvedBy_of_enforce h hk hcontains
  rw [hk] at hk'
  simp only [Option.some.injEq, Event.enforce.injEq] at hk'
  obtain ⟨-, rfl, rfl, -⟩ := hk'
  exact ⟨j, hjm.trans hmk, i, req, hreply, rfl, rfl⟩

/-- APPROVEs for requests of different verdicts are different messages. -/
theorem approveAt_ne {tr : List Event} {j j' : Nat} {source source' : String}
    {verdict verdict' : Verdict} (h : ApproveAt tr j source verdict)
    (h' : ApproveAt tr j' source' verdict') (hne : verdict ≠ verdict') : j ≠ j' := by
  rintro rfl
  obtain ⟨i, req, hreply, -, hverdict⟩ := h
  obtain ⟨i', req', hreply', -, hverdict'⟩ := h'
  rw [hreply] at hreply'
  simp only [Option.some.injEq, Event.reply.injEq, Prod.mk.injEq, true_and] at hreply'
  obtain ⟨-, -, rfl⟩ := hreply'
  exact hne (hverdict.symm.trans hverdict')

/-- **The ethical floor.** In every run from an empty database whose clock
does not go back:

* when a JAILED request is queued, the floor was passed for its case: an
  approved HOUSE_ARREST or QUARANTINED row of the source was less than 24
  hours old when `apply_floor_jailed` read the clock, which was not after
  the request was queued;
* a JAILED enforcement is of a case that was so queued;
* `pm disable-user` runs for a source only after two different APPROVEs
  for requests of that source. -/
theorem jailed_needs_prior_containment (env : Env) (ls : List Label)
    (hclock : Machine.Meets step ClockForward (.boot env .empty) ls) :
    let tr := (runFrom env ls).2
    (∀ k req, tr[k]? = some (.queued req) → req.verdict = .state .jailed →
      FloorPassed (tr.take k) req) ∧
    (∀ k actor source caseId score cmds,
      tr[k]? = some (.enforce actor source (.state .jailed) caseId score cmds) →
      ∃ n req, n < k ∧ tr[n]? = some (.queued req) ∧ req.caseId = caseId ∧ req.source = source ∧
        req.verdict = .state .jailed ∧ FloorPassed (tr.take n) req) ∧
    (∀ k actor source verdict caseId score cmds target,
      tr[k]? = some (.enforce actor source verdict caseId score cmds) →
      .pmDisableUser target ∈ cmds →
      ∃ j j' v v', j ≠ j' ∧ j < k ∧ j' < k ∧ ApproveAt tr j target v ∧ ApproveAt tr j' target v') := by
  intro tr
  have inv : FloorInv (runFrom env ls).1 tr := floorInv_run env ls hclock
  have legit : Always Legitimate tr := (consentInv_run env ls).legit
  have queued : ∀ k req, tr[k]? = some (.queued req) → req.verdict = .state .jailed →
      FloorPassed (tr.take k) req := fun k req hk => inv.kept.at hk
  have enforced : ∀ k actor source caseId score cmds,
      tr[k]? = some (.enforce actor source (.state .jailed) caseId score cmds) →
      ∃ n req, n < k ∧ tr[n]? = some (.queued req) ∧ req.caseId = caseId ∧ req.source = source ∧
        req.verdict = .state .jailed ∧ FloorPassed (tr.take n) req := by
    intro k actor source caseId score cmds hk
    obtain ⟨req, hq, hid, hsource, hj⟩ := (inv.kept.at hk).1 rfl
    obtain ⟨n, hnk, hn⟩ := exists_position hq
    exact ⟨n, req, hnk, hn, hid, hsource, hj, queued n req hn hj⟩
  refine ⟨queued, enforced, fun k actor source verdict caseId score cmds target hk hcmd => ?_⟩
  obtain ⟨rfl, rfl⟩ := (inv.kept.at hk).2 target hcmd
  obtain ⟨j, hjk, happ⟩ := approveAt_of_enforce legit hk rfl
  -- the other APPROVE is the one of the row that let the floor pass
  obtain ⟨n, req, hnk, -, -, rfl, -, c, now, -, hsource, -, -, row, hrow, hprior⟩ :=
    enforced k actor target caseId score cmds hk
  obtain ⟨m, hmn, hm⟩ := exists_position hrow
  have hverdict := hprior.2.1
  obtain ⟨j', hjm, happ'⟩ := approveAt_of_row legit hm (by
    rcases hverdict with hv | hv <;> rw [hv] <;> rfl)
  rw [hprior.1, hsource] at happ'
  refine ⟨j, j', _, _, approveAt_ne happ happ' fun heq => ?_, hjk, by omega, happ, happ'⟩
  rcases hverdict with hv | hv <;> rw [hv] at heq <;> cases heq

/-- An app is quarantined with an approval, and jailed and disabled a
thousand seconds later with a second one. -/
theorem jailed_needs_prior_containment_disabled :
    let env : Env := ⟨1000000, false, none⟩
    let ls := askQuarantine ++ approve "case_1000000" ++ [.setClock 2000000] ++
      submit ⟨false, "com.example.app", "ROOTKIT_MODULE", 100, ""⟩ ++ List.replicate 13 .verdict ++
      approve "case_2000000"
    let tr := (runFrom env ls).2
    Machine.Meets step ClockForward (.boot env .empty) ls ∧
      tr[19]? = some (.enforce .consent "com.example.app" (.state .jailed) "case_2000000" 100
        [.amForceStop "com.example.app", .pmDisableUser "com.example.app"]) ∧
      ∃ j j' v v', j ≠ j' ∧ j < 19 ∧ j' < 19 ∧ ApproveAt tr j "com.example.app" v ∧
        ApproveAt tr j' "com.example.app" v' := by
  intro env ls tr
  have hclock : Machine.Meets step ClockForward (.boot env .empty) ls := by decide +kernel
  have henforced : tr[19]? = some (.enforce .consent "com.example.app" (.state .jailed)
      "case_2000000" 100 [.amForceStop "com.example.app", .pmDisableUser "com.example.app"]) := by
    decide +kernel
  exact ⟨hclock, henforced, (jailed_needs_prior_containment env ls hclock).2.2 19 _ _ _ _ _ _ _
    henforced (by simp)⟩

/-- The 24 hours are counted to the floor's own clock reading: the clock
may tick before `queued` is read, and the only row is then 24 hours old. -/
theorem row_may_expire_before_queueing :
    ¬ ∀ (env : Env) (ls : List Label), Machine.Meets step ClockForward (.boot env .empty) ls →
      ∀ k req, (runFrom env ls).2[k]? = some (.queued req) → req.verdict = .state .jailed →
        ∃ row ∈ ((runFrom env ls).2.take k).filterMap Event.row?,
          PriorContainment req.source req.queued row := by
  intro h
  let ls : List Label := askQuarantine ++ approve "case_1000000" ++ [.setClock 87399000] ++
    submit ⟨false, "com.example.app", "ROOTKIT_MODULE", 100, ""⟩ ++ List.replicate 9 .verdict ++
    [.setClock 87400000] ++ List.replicate 2 .verdict
  let req : ConsentRequest :=
    ⟨"case_87399000", "com.example.app", .state .jailed, 100, 87400, 0, .hold⟩
  obtain ⟨row, hrow, hprior⟩ := h ⟨1000000, false, none⟩ ls (by decide +kernel) 13 req
    (by decide +kernel) rfl
  have expired : ∀ row ∈ ((runFrom ⟨1000000, false, none⟩ ls).2.take 13).filterMap Event.row?,
      ¬ PriorContainment req.source req.queued row := by decide +kernel
  exact expired row hrow hprior

end MiuiserPeruser.Gaveld
