import MiuiserPeruser.Gaveld.Docket

/-!
# gaveld — informational signals (`scorer.c`, `weights.c`)

A sender that passes no weight leaves it to the table. `weight_lookup`
answers 0 for a signal it does not know, and 0 for the signals that are
listed as informational; `scorer_process` takes both for the former and
scores 10. So a listed signal scores with its listed weight exactly if that
is positive, and a daemon that hears of nothing but informational signals
stays silent exactly as long as it does not score them
(`informational_scoring_iff`).
-/

namespace MiuiserPeruser.Gaveld

open Machine Scorer

/-- All multipliers together. -/
def Modifiers.product (m : Modifiers) : ℚ :=
  m.userCtx * m.situational * m.cov * m.stack * m.recid * m.tier

/-- No source has a score, and there is no case. -/
def Unscored (s : Sys) : Prop :=
  (∀ t ∈ s.db.threatScores.rows, t.score = 0) ∧ s.db.cases.rows = []

/-- The step writes back the score of a scoring. -/
def Scores (s : Sys) (l : Label) : Prop :=
  ∃ role r c record ss, l = Role.label role ∧ s.worker role = .scoring r c (.upsert record ss)

/-! ## What a scoring logs -/

section Log

theorem addition_eq (c : ScorerCall) (record : Threat) (ss : List String) :
    addition c record ss =
      effectiveWeight c.signal c.weight * (modifiers c record ss).product := by
  simp only [addition, Modifiers.product, mul_assoc]

theorem weightTable_lookup {signal : String} {w : Nat} (h : (signal, w) ∈ weightTable) :
    weightLookup signal = w := by
  have hall : weightTable.all (fun e => decide (weightLookup e.1 = e.2)) = true := by decide +kernel
  exact of_decide_eq_true (List.all_eq_true.mp hall (signal, w) h)

/-- A scoring works on the signal and the weight of its record, and logs
what it has computed from them. -/
def LogsItsOwn : Worker → Prop
  | .scoring r c pc => c.signal = r.signal ∧ c.weight = r.weight ∧
      ∀ row res, pc = .log row res → ∃ record ss, row = logRow c record ss
  | _ => True

theorem logsItsOwn_of_fresh {w : Worker} (h : w.fresh = true) : LogsItsOwn w := by
  cases w with
  | scoring => cases h
  | off | idle | scoreBegin | assembling | decayBegin | decayTime | decaying => trivial

theorem logsItsOwn_workerStep {s : Sys} {w : Worker} (h : LogsItsOwn w) :
    LogsItsOwn (workerStep s w).2.1 := by
  cases w with
  | scoreBegin r => exact ⟨rfl, rfl, fun _ _ h => by cases h⟩
  | scoring r c pc =>
      obtain ⟨hsignal, hweight, -⟩ := h
      cases pc with
      | upsert record ss =>
          refine ⟨hsignal, hweight, fun row res hlog => ?_⟩
          cases hlog
          exact ⟨record, ss, rfl⟩
      | load | insert | prune | distinct => exact ⟨hsignal, hweight, fun _ _ h => by cases h⟩
      | log | done => trivial
  | assembling r result pc =>
      cases pc with
      | insert c =>
          simp only [workerStep, assembleStep]
          split <;> trivial
      | time | caseId | dismiss | push => trivial
  | decayBegin =>
      simp only [workerStep]
      split <;> trivial
  | decaying now pc =>
      simp only [workerStep]
      split <;> trivial
  | off | idle | decayTime => trivial

theorem logsItsOwn_run (env : Env) (ls : List Label) (role : Role) :
    LogsItsOwn ((runFrom env ls).1.worker role) := by
  have hall : ∀ role, LogsItsOwn ((runFrom env ls).1.worker role) := by
    refine run_invariant_under (Q := Orderly) (P := fun s _ => ∀ role, LogsItsOwn (s.worker role))
      (orderly_boot env .empty) orderly_step ?_ ?_ ls
    · intro role
      cases role <;> trivial
    · intro s tr l ho h role
      rcases step_worker_cases ho l role with heq | ⟨-, hfresh⟩ | ⟨-, -, heq⟩
      · rw [heq]
        exact h role
      · exact logsItsOwn_of_fresh hfresh
      · rw [heq]
        exact logsItsOwn_workerStep (h role)
  exact hall role

/-- The weight of a signal whose sender leaves it to the table. -/
theorem effectiveWeight_listed {signal : String} {weight : ℚ} {w : Nat} (hweight : weight ≤ 0)
    (hlisted : (signal, w) ∈ weightTable) :
    effectiveWeight signal weight = if 0 < w then (w : ℚ) else 10 := by
  rw [effectiveWeight, if_pos hweight, weightTable_lookup hlisted]

end Log

/-! ## Until the first score -/

section Early

/-- The worker has not written a score yet, and what it has loaded is none. -/
def EarlyWorker : Worker → Prop
  | .scoring _ _ pc => pc = .load ∨ ∃ record : Threat, record.score = 0 ∧
      (pc = .insert record ∨ pc = .prune record ∨ pc = .distinct record ∨
        ∃ ss, pc = .upsert record ss)
  | .assembling _ _ _ => False
  | .decaying _ pc => pc = .all ∨ pc = .prune
  | _ => True

/-- No score has been written. -/
structure Early (s : Sys) : Prop where
  orderly : Orderly s
  scores : s.db.threatScores.rows = []
  cases : s.db.cases.rows = []
  workers : ∀ role, EarlyWorker (s.worker role)

theorem earlyWorker_of_fresh {w : Worker} (h : w.fresh = true) : EarlyWorker w := by
  cases w with
  | scoring | assembling | decaying => cases h
  | off | idle | scoreBegin | decayBegin | decayTime => trivial

theorem early_boot (env : Env) : Early (.boot env .empty) where
  orderly := orderly_boot env .empty
  scores := rfl
  cases := rfl
  workers role := by cases role <;> trivial

theorem Early.unscored {s : Sys} (h : Early s) : Unscored s := by
  refine ⟨?_, h.cases⟩
  rw [h.scores]
  exact fun _ ht => absurd ht List.not_mem_nil

theorem dbThreatLoad_of_empty {db : Db} (h : db.threatScores.rows = []) (source : String) :
    dbThreatLoad db source = .fresh source := by
  have hnone : db.threatScores.find? source = none := by
    rw [Sql.Table.find?_eq_none, h]
    exact fun _ ht => absurd ht List.not_mem_nil
  rw [dbThreatLoad, hnone]
  rfl

/-- A worker that does not write a score leaves the table empty, and goes on
in the same way. -/
theorem early_workerStep {s : Sys} {w : Worker} (hscores : s.db.threatScores.rows = [])
    (h : EarlyWorker w) (hno : ∀ r c record ss, w ≠ .scoring r c (.upsert record ss)) :
    (workerStep s w).1.db.threatScores.rows = [] ∧ EarlyWorker (workerStep s w).2.1 := by
  cases w with
  | scoreBegin r => exact ⟨hscores, .inl rfl⟩
  | scoring r c pc =>
      rcases h with rfl | ⟨record, hzero, rfl | rfl | rfl | ⟨ss, rfl⟩⟩
      · refine ⟨hscores, .inr ⟨dbThreatLoad s.db c.source, ?_, .inl rfl⟩⟩
        rw [dbThreatLoad_of_empty hscores]
        rfl
      · exact ⟨hscores, .inr ⟨record, hzero, .inr (.inl rfl)⟩⟩
      · exact ⟨hscores, .inr ⟨record, hzero, .inr (.inr (.inl rfl))⟩⟩
      · exact ⟨hscores, .inr ⟨record, hzero, .inr (.inr (.inr ⟨_, rfl⟩))⟩⟩
      · exact absurd rfl (hno r c record ss)
  | assembling => exact absurd h id
  | decayBegin =>
      refine ⟨hscores, ?_⟩
      simp only [workerStep]
      split <;> trivial
  | decaying now pc =>
      rcases h with rfl | rfl
      · have hall : dbThreatAll s.db decayMaxRows = [] := by
          rw [dbThreatAll, hscores, List.take_nil]
        simp only [workerStep, decayStep, hall, DecayPc.loop]
        exact ⟨hscores, .inr rfl⟩
      · exact ⟨hscores, trivial⟩
  | decayTime => exact ⟨hscores, .inl rfl⟩
  | off | idle => exact ⟨hscores, trivial⟩

theorem VerdictMove.scores {s s' : Sys} {pc : VerdictPc} {es : List Event}
    (m : VerdictMove s pc s' es) : s'.db.threatScores = s.db.threatScores := by
  cases m <;> rfl

theorem ConsentMove.scores {s s' : Sys} {pc : ConsentPc} {es : List Event}
    (m : ConsentMove s pc s' es) : s'.db.threatScores = s.db.threatScores := by
  cases m <;> rfl

/-- Scores are written by workers only. -/
theorem step_scores {s : Sys} (ho : Orderly s) (l : Label) :
    (step s l).1.db.threatScores = s.db.threatScores ∨
      ∃ role : Role, l = role.label ∧
        (step s l).1.db.threatScores = (workerStep s (s.worker role)).1.db.threatScores := by
  rcases step_kind ho l with ⟨role, rfl, hw⟩ | hj | hi
  · refine .inr ⟨role, rfl, ?_⟩
    rw [step_worker hw, setWorker_db]
  · refine .inl ?_
    cases hj with
    | verdict => exact (verdictStep_move s).scores
    | consent => exact (consentStep_move s).scores
    | restart => rfl
    | startVerdict hm | resetPending hm | startConsent hm => simp only [step, mainStep, hm]
    | replying hm hl =>
        rename_i caseId approved
        rw [step_replying hm hl]
        rcases replyRequest_cases s caseId approved with heq | ⟨i, p, -, -, heq⟩ <;> rw [heq]
  · exact .inl (by rw [hi.db])

/-- A table without cases gets one from an insertion only. -/
theorem foldl_onCases_empty {es : List Event} {t : Sql.Table CaseRow CaseRow.caseId}
    (ht : t.rows = []) (hes : ∀ e ∈ es, ∀ c, e ≠ .inserted c) :
    (es.foldl Event.onCases t).rows = [] := by
  induction es generalizing t with
  | nil => exact ht
  | cons e es ih =>
      refine ih ?_ fun e' he' => hes e' (List.mem_cons_of_mem _ he')
      rw [List.eq_nil_iff_forall_not_mem]
      intro q hq
      rcases mem_onCases hq with ⟨r, hr, -⟩ | ⟨c, he, -⟩
      · rw [ht] at hr
        exact List.not_mem_nil hr
      · exact hes e List.mem_cons_self c he

/-- Without a score that is written, all stays as it is at the start. -/
theorem Early.step {s : Sys} {l : Label} (h : Early s) (hno : ¬ Scores s l) :
    Early (step s l).1 where
  orderly := orderly_step s l h.orderly
  scores := by
    rcases step_scores h.orderly l with heq | ⟨role, rfl, heq⟩
    · rw [heq]
      exact h.scores
    · rw [heq]
      exact (early_workerStep h.scores (h.workers role)
        fun r c record ss hw => hno ⟨role, r, c, record, ss, rfl, hw⟩).1
  cases := by
    rw [step_onCases h.orderly]
    refine foldl_onCases_empty h.cases fun e he c heq => ?_
    subst heq
    cases step_emits h.orderly he with
    | @inserted role r result c hw =>
        have hworker := h.workers role
        rw [hw] at hworker
        exact hworker
  workers role := by
    rcases step_worker_cases h.orderly l role with heq | ⟨-, hfresh⟩ | ⟨rfl, -, heq⟩
    · rw [heq]
      exact h.workers role
    · exact earlyWorker_of_fresh hfresh
    · rw [heq]
      exact (early_workerStep h.scores (h.workers role)
        fun r c record ss hw => hno ⟨role, r, c, record, ss, rfl, hw⟩).2

/-- The first score that is written is positive. -/
theorem Early.scored {s : Sys} {l : Label} (h : Early s) (hscores : Scores s l) :
    ¬ Unscored (Gaveld.step s l).1 := by
  obtain ⟨role, r, c, record, ss, rfl, hw⟩ := hscores
  have hearly := h.workers role
  rw [hw] at hearly
  have hzero : record.score = 0 := by
    rcases hearly with hpc | ⟨record', hzero, hpc | hpc | hpc | ⟨ss', hpc⟩⟩
    · cases hpc
    · cases hpc
    · cases hpc
    · cases hpc
    · cases hpc
      exact hzero
  have hdb : (Gaveld.step s role.label).1.db = dbThreatUpsert s.db (rescored c record ss) := by
    rw [step_worker (by rw [hw]; rfl), setWorker_db, hw]
    rfl
  have hrow : rescored c record ss ∈ (Gaveld.step s role.label).1.db.threatScores.rows := by
    rw [hdb]
    exact Sql.Table.mem_of_find? (Sql.Table.find?_upsert_self s.db.threatScores _)
  have hpos : 0 < (rescored c record ss).score := by
    rw [rescored_score (by rw [hzero]), hzero, zero_add]
    exact lt_min (by norm_num) (addition_pos c record ss)
  intro hunscored
  exact hpos.ne' (hunscored.1 _ hrow)

theorem unscored_iff {s : Sys} (h : Early s) (ls : List Label) :
    Throughout step Unscored s ls ↔ Meets step (fun s l => ¬ Scores s l) s ls := by
  induction ls generalizing s with
  | nil => exact iff_of_true h.unscored trivial
  | cons l ls ih =>
      by_cases hscores : Scores s l
      · refine iff_of_false (fun hunscored => ?_) fun hmeets => hmeets.1 hscores
        exact h.scored hscores hunscored.2.head
      · rw [Throughout, Meets, ih (h.step hscores)]
        exact ⟨fun hrest => ⟨hscores, hrest.2⟩, fun hrest => ⟨h.unscored, hrest.2⟩⟩

end Early

/-- **Listed weights.** In every state of a run, a scoring whose sender leaves
the weight to the table logs the listed weight, and adds that weight times
the modifiers, exactly if the weight is positive. And in every run, no source
gets a score and no case is made exactly as long as no score is written,
whatever the weights of the signals are. -/
theorem informational_scoring_iff (env : Env) (ls : List Label) :
    (∀ role r c row res w, (runFrom env ls).1.worker role = .scoring r c (.log row res) →
      r.weight ≤ 0 → (r.signal, w) ∈ weightTable →
      (row.baseWeight = (w : ℚ) ∧ row.finalAddition = w * row.modifiers.product ↔ 0 < w)) ∧
    (Throughout step Unscored (.boot env .empty) ls ↔
      Meets step (fun s l => ¬ Scores s l) (.boot env .empty) ls) := by
  refine ⟨?_, unscored_iff (early_boot env) ls⟩
  intro role r c row res w hw hweight hlisted
  have hlogs := logsItsOwn_run env ls role
  rw [hw] at hlogs
  obtain ⟨hsignal, hcweight, hlog⟩ := hlogs
  obtain ⟨record, ss, rfl⟩ := hlog row res rfl
  have heffective : effectiveWeight c.signal c.weight = if 0 < w then (w : ℚ) else 10 := by
    rw [hsignal, hcweight]
    exact effectiveWeight_listed hweight hlisted
  simp only [logRow, addition_eq, heffective]
  by_cases hpos : 0 < w
  · rw [if_pos hpos]
    exact iff_of_true ⟨rfl, rfl⟩ hpos
  · rw [if_neg hpos]
    refine iff_of_false (fun h => ?_) hpos
    have hzero : w = 0 := by omega
    rw [hzero] at h
    exact absurd h.1 (by norm_num)

/-- A report without a weight, up to the log of its scoring. -/
def unweightedReport (signal : String) : List Label :=
  startUp ++ [.main, .client (.signal ⟨false, "com.example.app", signal, 0, ""⟩)] ++
    List.replicate 6 .main

/-- What the scoring of such a report logs. -/
def Worker.logged : Worker → Option (IngestRecord × ScoringRow)
  | .scoring r _ (.log row _) => some (r, row)
  | _ => none

theorem exists_log {w : Worker} {r : IngestRecord} {row : ScoringRow}
    (h : w.logged = some (r, row)) : ∃ c res, w = .scoring r c (.log row res) := by
  cases w with
  | scoring r' c pc =>
      cases pc with
      | log row' res =>
          cases h
          exact ⟨c, res, rfl⟩
      | load | insert | prune | distinct | upsert | done => cases h
  | off | idle | scoreBegin | assembling | decayBegin | decayTime | decaying => cases h

/-- The log of a weight and an addition, without further multipliers. -/
def plainRow (signal : String) (weight : ℚ) (state : ThreatState) : ScoringRow :=
  { epoch := 1000, source := "com.example.app", signal, baseWeight := weight,
    finalAddition := weight, prevScore := 0, newScore := weight, state,
    modifiers := ⟨1, 1, 1, 1, 1, 1⟩ }

/-- A listed signal with a weight. -/
theorem exposed_imei_scored :
    (plainRow "IMEI_EXPOSED" 35 .watched).baseWeight = ((35 : Nat) : ℚ) ∧
      (plainRow "IMEI_EXPOSED" 35 .watched).finalAddition =
        ((35 : Nat) : ℚ) * (plainRow "IMEI_EXPOSED" 35 .watched).modifiers.product := by
  have hlogged : ((runFrom ⟨1000000, false, none⟩ (unweightedReport "IMEI_EXPOSED")).1.worker
      .socket).logged = some (⟨false, "com.example.app", "IMEI_EXPOSED", 0, ""⟩,
        plainRow "IMEI_EXPOSED" 35 .watched) := by decide +kernel
  obtain ⟨c, res, hw⟩ := exists_log hlogged
  have hlisted : ("IMEI_EXPOSED", 35) ∈ weightTable := by decide
  exact ((informational_scoring_iff ⟨1000000, false, none⟩ (unweightedReport "IMEI_EXPOSED")).1
    .socket _ c _ res 35 hw (le_refl 0) hlisted).mpr (by decide)

/-- A signal that is listed with weight 0 scores 10. -/
theorem informational_signal_scored :
    ¬ ∀ (ls : List Label) (role : Role) (r : IngestRecord) (c : ScorerCall) (row : ScoringRow)
        (res : ScoreResult) (w : Nat),
      (runFrom ⟨1000000, false, none⟩ ls).1.worker role = .scoring r c (.log row res) →
      r.weight ≤ 0 → (r.signal, w) ∈ weightTable →
      row.baseWeight = (w : ℚ) ∧ row.finalAddition = w * row.modifiers.product := by
  intro h
  have hlogged : ((runFrom ⟨1000000, false, none⟩ (unweightedReport
      "HYPEROS_DETECTED")).1.worker .socket).logged =
        some (⟨false, "com.example.app", "HYPEROS_DETECTED", 0, ""⟩,
          plainRow "HYPEROS_DETECTED" 10 .clean) := by decide +kernel
  obtain ⟨c, res, hw⟩ := exists_log hlogged
  have hlisted : ("HYPEROS_DETECTED", 0) ∈ weightTable := by decide
  have hweight := (h _ _ _ _ _ _ _ hw (le_refl 0) hlisted).1
  exact absurd hweight (by decide +kernel)

end MiuiserPeruser.Gaveld
