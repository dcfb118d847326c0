import MiuiserPeruser.Gaveld.System
import MiuiserPeruser.Lib.Journal

/-!
# gaveld — the criminal record (`verdict_emit`)

`verdict_emit` writes a containment verdict twice: as a row of `verdicts`,
and with a second statement into `criminal_record`. The two statements are
not one transaction. What a crash between them can cost is one entry, and
nothing else makes the two tables differ: the record is always the
containment verdicts in their order, with at most one missing for each
time the process was killed.
-/

namespace MiuiserPeruser.Gaveld

/-- The entry that goes with a row. -/
def VerdictRow.entry (v : VerdictRow) : CriminalRow :=
  ⟨v.source, v.verdict, "verdict_thread", "gaveld", v.epoch⟩

/-- The entries the verdicts call for. -/
def Db.due (db : Db) : List CriminalRow :=
  (db.verdicts.filter fun v => v.verdict.contains).map VerdictRow.entry

/-- The entry on its way: the consent thread stands between the two
statements. -/
def ConsentPc.entry : ConsentPc → List CriminalRow
  | .emit _ _ req approved (.criminal t) => [(req.emission approved).criminalRow t]
  | _ => []

/-- The verdict thread emits no containment verdict, and so writes no entry. -/
def VerdictPc.Unrecorded : VerdictPc → Prop
  | .emit _ _ _ (.criminal _) => False
  | .emit _ verdict _ _ => verdict.contains = false
  | _ => True

/-- The two tables agree up to the entry on its way and `n` lost ones. -/
structure Recorded (s : Sys) (n : Nat) : Prop where
  verdict : s.verdict.Unrecorded
  behind : Journal.Behind s.db.due s.db.criminalRecord s.consent.entry n
  granted : ∀ v ∈ s.db.verdicts, v.verdict.contains = true →
    v.consentRequired = true ∧ v.consentGranted = true

theorem recorded_boot (env : Env) : Recorded (.boot env .empty) 0 :=
  ⟨trivial, .nil, fun _ h => nomatch h⟩

/-- A step that leaves both tables and the consent thread alone. -/
theorem Recorded.aside {s s' : Sys} {n : Nat} (h : Recorded s n) (hverdict : s'.verdict.Unrecorded)
    (hverdicts : s'.db.verdicts = s.db.verdicts)
    (hrecord : s'.db.criminalRecord = s.db.criminalRecord) (hconsent : s'.consent = s.consent) :
    Recorded s' n where
  verdict := hverdict
  behind := by
    rw [hrecord, hconsent, Db.due, hverdicts]
    exact h.behind
  granted := by
    rw [hverdicts]
    exact h.granted

/-! ## The verdict thread -/

theorem route_unrecorded (c : CaseRecord) (state : ThreatState) : (route c state).Unrecorded := by
  cases state <;> trivial

theorem VerdictMove.unrecorded {s s' : Sys} {pc : VerdictPc} {es : List Event}
    (m : VerdictMove s pc s' es) (h : pc.Unrecorded) : s'.verdict.Unrecorded := by
  cases m with
  | refer | stale => rfl
  | capped | floorQuarantined => exact route_unrecorded _ _
  | emitTime => exact h
  | @emitInsert c verdict granted now =>
      simp only
      rw [if_neg (Bool.eq_false_iff.mp h)]
      exact h
  | emitCriminal => exact h.elim
  | _ => trivial

/-- The rows it writes call for no entry. -/
theorem VerdictMove.recorded {s s' : Sys} {pc : VerdictPc} {es : List Event} {n : Nat}
    (m : VerdictMove s pc s' es) (hpc : s.verdict = pc) (h : Recorded s n) : Recorded s' n := by
  have hun : pc.Unrecorded := hpc ▸ h.verdict
  have hnext := m.unrecorded hun
  cases m with
  | @emitInsert c verdict granted now =>
      have hnone : verdict.contains = false := hun
      have hdue : (dbVerdictInsert s.db ((c.emission verdict granted).row now)).due = s.db.due := by
        show ((s.db.verdicts ++ [(c.emission verdict granted).row now]).filter _).map _ = _
        rw [List.filter_append, List.filter_cons_of_neg, List.filter_nil, List.append_nil]
        · rfl
        · exact Bool.eq_false_iff.mp hnone
      refine ⟨hnext, ?_, fun v hv hc => ?_⟩
      · rw [hdue]
        exact h.behind
      · rcases List.mem_append.mp hv with hv | hv
        · exact h.granted v hv hc
        · rw [List.mem_singleton.mp hv] at hc
          rw [show ((c.emission verdict granted).row now).verdict = verdict from rfl, hnone] at hc
          cases hc
  | emitCriminal => exact hun.elim
  | _ => exact h.aside hnext rfl rfl rfl

/-! ## The consent thread -/

/-- A containment verdict of the consent thread was approved. -/
theorem emission_contains {req : ConsentRequest} {approved : Bool}
    (h : (req.emission approved).verdict.contains = true) : approved = true := by
  cases approved with
  | true => rfl
  | false => cases h

theorem ConsentMove.recorded {s s' : Sys} {pc : ConsentPc} {es : List Event} {n : Nat}
    (m : ConsentMove s pc s' es) (hpc : s.consent = pc) (h : Recorded s n) : Recorded s' n := by
  obtain ⟨hverdict, hbehind, hgranted⟩ := h
  rw [hpc] at hbehind
  cases m with
  | @emitInsert now t i req approved =>
      have hdue : (dbVerdictInsert s.db ((req.emission approved).row t)).due = s.db.due ++
          if (req.emission approved).verdict.contains then [(req.emission approved).criminalRow t]
          else [] := by
        show ((s.db.verdicts ++ [(req.emission approved).row t]).filter _).map _ = _
        rw [List.filter_append, List.map_append]
        split
        case isTrue h => rw [List.filter_cons_of_pos (by exact h)]; rfl
        case isFalse h => rw [List.filter_cons_of_neg (by exact h)]; rfl
      have hentry : (ConsentPc.emit now i req approved
          (if (req.emission approved).verdict.contains then .criminal t else .status)).entry =
          if (req.emission approved).verdict.contains then [(req.emission approved).criminalRow t]
          else [] := by
        split <;> rfl
      refine ⟨hverdict, ?_, fun v hv hc => ?_⟩
      · simp only [hdue, hentry]
        exact hbehind.call _
      · rcases List.mem_append.mp hv with hv | hv
        · exact hgranted v hv hc
        · rw [List.mem_singleton.mp hv] at hc ⊢
          exact ⟨rfl, emission_contains hc⟩
  | emitCriminal => exact ⟨hverdict, hbehind.deliver, hgranted⟩
  | _ => exact ⟨hverdict, hbehind, hgranted⟩

/-! ## Every step -/

theorem step_criminalRecord {s : Sys} (ho : Orderly s) {l : Label} (hj : ¬ Judicial s l) :
    (step s l).1.db.criminalRecord = s.db.criminalRecord := by
  rcases step_kind ho l with ⟨role, rfl, hw⟩ | h | h
  · rw [step_worker hw, setWorker_db, (workerStep_frame s _).1]
  · exact absurd h hj
  · rw [h.db]

/-- A restart loses what was on its way. -/
theorem Recorded.restart {s : Sys} {n : Nat} (h : Recorded s n) :
    Recorded (.boot s.env s.db) (n + 1) where
  verdict := trivial
  behind := by
    refine h.behind.crash ?_
    unfold ConsentPc.entry
    split <;> simp
  granted := h.granted

theorem Recorded.step {s : Sys} {n : Nat} (ho : Orderly s) (h : Recorded s n) (l : Label) :
    Recorded (step s l).1 (n + if l = .restart then 1 else 0) := by
  by_cases hl : l = .restart
  · subst hl
    exact h.restart
  rw [if_neg hl, Nat.add_zero]
  by_cases hj : Judicial s l
  · cases hj with
    | verdict => exact (verdictStep_move s).recorded rfl h
    | consent => exact (consentStep_move s).recorded rfl h
    | restart => exact absurd rfl hl
    | startVerdict hm =>
        rw [step_startVerdict hm]
        exact h.aside trivial rfl rfl rfl
    | resetPending hm =>
        rw [step_resetPending hm]
        exact h.aside h.verdict rfl rfl rfl
    | startConsent hm =>
        -- the thread that starts has nothing on its way, and neither had the one before
        have hoff : s.consent = .off := (ho.clear (by rw [hm]; rfl)).2
        obtain ⟨hverdict, hbehind, hgranted⟩ := h
        rw [hoff] at hbehind
        rw [step_startConsent hm]
        exact ⟨hverdict, hbehind, hgranted⟩
    | replying hm hfree =>
        rw [step_replying hm hfree, replyRequest_frame]
        exact h.aside h.verdict rfl rfl rfl
  · obtain ⟨hb, -⟩ := step_bench ho hj
    have hv : (Gaveld.step s l).1.verdict = s.verdict := congrArg Bench.verdict hb
    exact h.aside (hv ▸ h.verdict) (congrArg Bench.verdicts hb) (step_criminalRecord ho hj)
      (congrArg Bench.consent hb)

theorem recorded_run (env : Env) (ls : List Label) :
    Recorded (runFrom env ls).1 (ls.count .restart) := by
  have both : Orderly (runFrom env ls).1 ∧ Recorded (runFrom env ls).1 (ls.count .restart) := by
    refine Machine.run_history (P := fun s _ ls => Orderly s ∧ Recorded s (ls.count .restart))
      ⟨orderly_boot env .empty, recorded_boot env⟩ (fun s tr ls l h => ?_) ls
    refine ⟨orderly_step s l h.1, ?_⟩
    have hcount : (ls ++ [l]).count .restart = ls.count .restart + if l = .restart then 1 else 0 := by
      rw [List.count_append, List.count_singleton]
      simp
    rw [hcount]
    exact h.2.step h.1 l
  exact both.2

/-- **The criminal record is the containment verdicts.** In every run, from
an empty database, with any interleaving and any restarts: each entry is
the entry of a containment verdict, in the order of the verdicts and each
verdict at most once; at most one entry is missing for each restart, next
to the one that may be on its way; without a restart none is missing; and
every verdict that makes an entry was required to have the user's consent
and had it. -/
theorem criminal_record_kept (env : Env) (ls : List Label) :
    let s := (runFrom env ls).1
    s.db.criminalRecord.Sublist s.db.due ∧
    s.db.due.length ≤ s.db.criminalRecord.length + s.consent.entry.length + ls.count .restart ∧
    (.restart ∉ ls → s.db.due = s.db.criminalRecord ++ s.consent.entry) ∧
    ∀ v ∈ s.db.verdicts, v.verdict.contains = true →
      v.consentRequired = true ∧ v.consentGranted = true := by
  intro s
  have h : Recorded s (ls.count .restart) := recorded_run env ls
  refine ⟨h.behind.sublist, h.behind.missing, fun hno => ?_, h.granted⟩
  rw [List.count_eq_zero.mpr hno] at h
  exact h.behind.exact

end MiuiserPeruser.Gaveld
