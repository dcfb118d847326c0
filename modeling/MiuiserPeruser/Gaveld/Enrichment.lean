import MiuiserPeruser.Gaveld.Emits

/-!
# gaveld — the technique of a verdict (`verdict.c`, `mitre_map.c`)

The map has techniques by signal type. `verdict_emit` looks up the SOURCE
of its case there, which names an app or a daemon: the verdict of a case
carries the technique of the case exactly if the map says the same about
its source as about its signal (`enriched_iff`).
-/

namespace MiuiserPeruser.Gaveld

/-- The two technique fields for what the map says about a signal type. -/
def mitreFields (signalType : String) : String × String :=
  (((mitreLookup signalType).map Prod.fst).getD "", ((mitreLookup signalType).map Prod.snd).getD "")

/-- The row has the technique of the signal, and none if there is none. -/
def VerdictRow.Enriches (row : VerdictRow) (signal : String) : Prop :=
  (row.mitreId, row.mitreTactic) = mitreFields signal ∧
    (row.mitreId = "" ∧ row.mitreTactic = "" ↔ mitreLookup signal = none)

/-- The row was written for the case after its assembly. -/
def WrittenFor (tr : List Event) (c : CaseRecord) (row : VerdictRow) : Prop :=
  ∃ pre ms post actor, tr = pre ++ .assembled c ms :: post ∧ .verdictRow actor row ∈ post ∧
    row.caseId = c.caseId ∧ row.source = c.source

/-! ## The map -/

section Map

variable {signal source : String}

/-- No entry of the map is blank. -/
theorem mitreLookup_ne_blank {m : String × String} (h : mitreLookup signal = some m) :
    m.1 ≠ "" ∧ m.2 ≠ "" := by
  have hall : mitreMap.all (fun e => decide (e.2.1 ≠ "" ∧ e.2.2 ≠ "")) = true := by decide
  obtain ⟨e, he, rfl⟩ := Option.map_eq_some_iff.mp h
  exact of_decide_eq_true (List.all_eq_true.mp hall e (List.mem_of_find?_eq_some he))

theorem mitreFields_of_some {m : String × String} (h : mitreLookup signal = some m) :
    mitreFields signal = m := by
  rw [mitreFields, h]
  rfl

theorem mitreFields_blank_iff :
    (mitreFields signal).1 = "" ∧ (mitreFields signal).2 = "" ↔ mitreLookup signal = none := by
  cases h : mitreLookup signal with
  | none =>
      rw [mitreFields, h]
      exact iff_of_true ⟨rfl, rfl⟩ rfl
  | some m =>
      rw [mitreFields_of_some h]
      exact iff_of_false (fun hblank => (mitreLookup_ne_blank h).1 hblank.1) (by simp)

/-- The fields say what the map says. -/
theorem mitreFields_inj : mitreFields source = mitreFields signal ↔
    mitreLookup source = mitreLookup signal := by
  refine ⟨fun h => ?_, fun h => by rw [mitreFields, mitreFields, h]⟩
  cases hsignal : mitreLookup signal with
  | none =>
      rw [← mitreFields_blank_iff] at hsignal ⊢
      rwa [h]
  | some m =>
      cases hsource : mitreLookup source with
      | none =>
          rw [← mitreFields_blank_iff, h, mitreFields_blank_iff, hsignal] at hsource
          cases hsource
      | some m' => rw [← mitreFields_of_some hsource, ← mitreFields_of_some hsignal, h]

end Map

/-! ## The rows of a run -/

/-- Each row has the technique of its source. -/
theorem verdictRow_fields (env : Env) (ls : List Label) {actor : Actor} {row : VerdictRow}
    (h : .verdictRow actor row ∈ (runFrom env ls).2) :
    (row.mitreId, row.mitreTactic) = mitreFields row.source := by
  have hall : ∀ actor row, .verdictRow actor row ∈ (runFrom env ls).2 →
      (row.mitreId, row.mitreTactic) = mitreFields row.source := by
    refine Machine.run_invariant_under (Q := Orderly) (P := fun _ tr => ∀ actor row,
      .verdictRow actor row ∈ tr → (row.mitreId, row.mitreTactic) = mitreFields row.source)
      (orderly_boot env .empty) orderly_step (fun _ _ h => absurd h List.not_mem_nil) ?_ ls
    intro s tr l ho hold actor row hrow
    rcases List.mem_append.mp hrow with hrow | hrow
    · exact hold actor row hrow
    · cases step_emits ho hrow with
      | verdictRow | consentRow => rfl
  exact hall actor row h

/-- **The technique of a verdict.** In every run, all verdict rows written for
an assembled case carry the technique of its signal, if and only if the map
says the same about the source and the signal of each case that got a row. -/
theorem enriched_iff (env : Env) (ls : List Label) :
    (∀ c row, WrittenFor (runFrom env ls).2 c row → row.Enriches c.signal) ↔
      ∀ c row, WrittenFor (runFrom env ls).2 c row → mitreLookup c.source = mitreLookup c.signal := by
  have hrow : ∀ c row, WrittenFor (runFrom env ls).2 c row →
      (row.Enriches c.signal ↔ mitreLookup c.source = mitreLookup c.signal) := by
    rintro c row ⟨pre, ms, post, actor, htrace, hmem, -, hsource⟩
    have hin : .verdictRow actor row ∈ (runFrom env ls).2 := by
      rw [htrace]
      exact List.mem_append_right _ (List.mem_cons_of_mem _ hmem)
    have hfields := verdictRow_fields env ls hin
    rw [hsource] at hfields
    rw [← mitreFields_inj, ← hfields]
    refine ⟨fun h => h.1, fun h => ⟨h, ?_⟩⟩
    rw [← mitreFields_blank_iff, ← h]
  exact forall_congr' fun c => forall_congr' fun row => forall_congr' (hrow c row)

/-- An app is reported for a rootkit, and is warned. -/
def warnRootkit : List Label :=
  startUp ++ submit ⟨false, "com.example.app", "ROOTKIT_MODULE", 45, ""⟩ ++ List.replicate 8 .verdict

def rootkitCase : CaseRecord where
  caseId := "case_1000000"
  source := "com.example.app"
  signal := "ROOTKIT_MODULE"
  state := .warned
  score := 45
  delta := 45
  epoch := 1000
  ctx := ""

/-- Its verdict has no technique, the signal has one. -/
theorem rootkit_not_enriched :
    ¬ ∀ ls c row, WrittenFor (runFrom ⟨1000000, false, none⟩ ls).2 c row →
      row.Enriches c.signal := by
  intro h
  let row : VerdictRow :=
    ⟨"case_1000000", "com.example.app", .state .warned, 45, 1000, false, true, "", ""⟩
  have htrace : (runFrom ⟨1000000, false, none⟩ warnRootkit).2 =
      [.assembled rootkitCase 1000000, .inserted rootkitCase, .verdictRow .verdict row] := by
    decide +kernel
  have hwritten : WrittenFor (runFrom ⟨1000000, false, none⟩ warnRootkit).2 rootkitCase row :=
    ⟨[], 1000000, [.inserted rootkitCase, .verdictRow .verdict row], .verdict, htrace,
      List.mem_cons_of_mem _ (List.mem_singleton_self _), rfl, rfl⟩
  have hblank := (h warnRootkit rootkitCase row hwritten).2.mp ⟨rfl, rfl⟩
  exact absurd hblank (by decide)

end MiuiserPeruser.Gaveld
