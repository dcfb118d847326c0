import MiuiserPeruser.Gaveld.Scoring

/-!
# gaveld — the score table under concurrent scoring

Every row of `threat_scores` keeps its score in 0..100 and its state
equal to the ladder's state for that score, in every interleaving: rows
are written from stale snapshots, but a snapshot of good rows only ever
yields good rows. `ScoreOk` is the property of one row, `CallOk` the
property of the rows a call holds in its locals.
-/

namespace MiuiserPeruser.Gaveld

open Scorer Decay

/-- The two copies of the ladder agree. -/
theorem scoreToState_copies (score : ℚ) : Decay.scoreToState score = Scorer.scoreToState score :=
  rfl

def ScoreInRange (t : Threat) : Prop := 0 ≤ t.score ∧ t.score ≤ 100

structure ScoreOk (t : Threat) : Prop where
  range : ScoreInRange t
  state : t.state = Scorer.scoreToState t.score

/-- The records a call has loaded are in range. -/
def CallOk : CallState → Prop
  | .scorer _ (.insert record) | .scorer _ (.prune record) | .scorer _ (.distinct record)
  | .scorer _ (.upsert record _) => ScoreInRange record
  | .decay _ (.active row rest) | .decay _ (.upsert row rest) =>
      ∀ r ∈ row :: rest, ScoreInRange r
  | _ => True

/-- A write goes up when the scorer makes it and down when decay makes it. -/
def ScoreWrite.Monotone (w : ScoreWrite) : Prop :=
  match w.writer with
  | .scorerProcess => w.loaded ≤ w.written
  | .decayTick => w.written ≤ w.loaded

/-! ## Rows -/

theorem rescored_ok {c : ScorerCall} {record : Threat} {ss : List String}
    (h : ScoreInRange record) : ScoreOk (rescored c record ss) := by
  refine ⟨⟨?_, ?_⟩, rescored_state c record ss⟩
  · exact h.1.trans (le_rescored_score _ _ h.1 h.2)
  · rw [rescored_score h.1]
    exact min_le_left _ _

theorem updated_ok {now : Int} {row : Threat} (h : ScoreInRange row) : ScoreOk (updated now row) :=
  ⟨⟨decayed_nonneg row.score, (decayed_le h.1).trans h.2⟩, rfl⟩

theorem fresh_inRange (source : String) : ScoreInRange (.fresh source) :=
  ⟨le_refl 0, by norm_num [Threat.fresh]⟩

/-! ## One step -/

/-- The table's rows are good, and so are the calls' locals. -/
structure TableInv (s : Scoring) : Prop where
  rows : ∀ t ∈ s.db.threatScores.rows, ScoreOk t
  calls : ∀ c ∈ s.calls, CallOk c

theorem dbThreatLoad_inRange {db : Db} (h : ∀ t ∈ db.threatScores.rows, ScoreOk t)
    (source : String) : ScoreInRange (dbThreatLoad db source) := by
  unfold dbThreatLoad
  cases hf : db.threatScores.find? source with
  | none => exact fresh_inRange source
  | some t => exact (h t (Sql.Table.mem_of_find? hf)).range

theorem dbThreatUpsert_ok {db : Db} (h : ∀ t ∈ db.threatScores.rows, ScoreOk t) {r : Threat}
    (hr : ScoreOk r) : ∀ t ∈ (dbThreatUpsert db r).threatScores.rows, ScoreOk t := by
  intro t ht
  rcases Sql.Table.mem_upsert ht with rfl | ht
  · exact hr
  · exact h t ht

theorem callOk_loop {now : Int} {rest : List Threat} (h : ∀ r ∈ rest, ScoreInRange r) :
    CallOk (.decay now (.loop rest)) := by
  cases rest with
  | nil => trivial
  | cons row rest => exact h

/-- One database call keeps the rows good, leaves good locals behind, and
writes in its own direction. -/
theorem callStep_ok {db : Db} (h : ∀ t ∈ db.threatScores.rows, ScoreOk t) {c : CallState}
    (hc : CallOk c) :
    (∀ t ∈ (c.step db).1.threatScores.rows, ScoreOk t) ∧ CallOk (c.step db).2 ∧
      ∀ w ∈ c.writes, w.Monotone := by
  cases c with
  | scorer c pc =>
      cases pc with
      | load => exact ⟨h, dbThreatLoad_inRange h c.source, by simp [CallState.writes]⟩
      | insert record => exact ⟨h, hc, by simp [CallState.writes]⟩
      | prune record => exact ⟨h, hc, by simp [CallState.writes]⟩
      | distinct record => exact ⟨h, hc, by simp [CallState.writes]⟩
      | upsert record ss =>
          refine ⟨dbThreatUpsert_ok h (rescored_ok hc), trivial, fun w hw => ?_⟩
          obtain rfl := List.mem_singleton.mp hw
          exact le_rescored_score _ _ hc.1 hc.2
      | log row res => exact ⟨h, trivial, by simp [CallState.writes]⟩
      | done res => exact ⟨h, trivial, by simp [CallState.writes]⟩
  | decay now pc =>
      cases pc with
      | all =>
          -- the snapshot is of good rows, and stays so while other calls write
          refine ⟨h, callOk_loop fun r hr => ?_, by simp [CallState.writes]⟩
          exact (h r (List.mem_of_mem_take hr)).range
      | active row rest =>
          refine ⟨h, ?_, by simp [CallState.writes]⟩
          by_cases ha : dbSignalActive db row.source (windowStart now) = true
          · simp only [CallState.step, decayStep, if_pos ha]
            exact callOk_loop fun r hr => hc r (List.mem_cons_of_mem _ hr)
          · simp only [CallState.step, decayStep, if_neg ha]
            exact hc
      | upsert row rest =>
          have hrow : ScoreInRange row := hc row (by simp)
          refine ⟨dbThreatUpsert_ok h (updated_ok hrow),
            callOk_loop fun r hr => hc r (List.mem_cons_of_mem _ hr), fun w hw => ?_⟩
          obtain rfl := List.mem_singleton.mp hw
          exact decayed_le hrow.1
      | prune => exact ⟨h, trivial, by simp [CallState.writes]⟩
      | done => exact ⟨h, trivial, by simp [CallState.writes]⟩

theorem scoringStep_inv {s : Scoring} (h : TableInv s) (i : Nat) :
    TableInv (scoringStep s i).1 ∧ ∀ w ∈ (scoringStep s i).2, w.Monotone := by
  unfold scoringStep
  cases hc : s.calls[i]? with
  | none => exact ⟨h, by simp⟩
  | some c =>
      obtain ⟨hrows, hcall, hw⟩ := callStep_ok h.rows (h.calls c (List.mem_of_getElem? hc))
      refine ⟨⟨hrows, fun c' hc' => ?_⟩, hw⟩
      rcases List.mem_or_eq_of_mem_set hc' with hc' | rfl
      · exact h.calls c' hc'
      · exact hcall

/-! ## Every interleaving -/

/-- **The score table invariant.** From an empty `threat_scores` (the
other tables may hold anything), for any calls and any interleaving of
their database calls, in every state reached: every row's score lies in
0..100 and its state is the ladder's state for that score, the two
copies of the ladder being one function; no scorer write is below and no
decay write is above the score its call loaded. -/
theorem score_table_invariant (db₀ : Db) (calls : List Call) (ls : List Nat) :
    (∀ t ∈ (interleave { db₀ with threatScores := .empty } calls ls).1.db.threatScores.rows,
      0 ≤ t.score ∧ t.score ≤ 100 ∧ t.state = Scorer.scoreToState t.score) ∧
    (∀ w ∈ (interleave { db₀ with threatScores := .empty } calls ls).2,
      match w.writer with
      | .scorerProcess => w.loaded ≤ w.written
      | .decayTick => w.written ≤ w.loaded) ∧
    ∀ score, Scorer.scoreToState score = Decay.scoreToState score := by
  have inv : TableInv (interleave { db₀ with threatScores := .empty } calls ls).1 ∧
      ∀ w ∈ (interleave { db₀ with threatScores := .empty } calls ls).2, w.Monotone := by
    refine Machine.run_invariant
      (P := fun s (tr : List ScoreWrite) => TableInv s ∧ ∀ w ∈ tr, w.Monotone) ?_ ?_ ls
    · refine ⟨⟨by simp [Scoring.start], fun c hc => ?_⟩, by simp⟩
      obtain ⟨call, -, rfl⟩ := List.mem_map.mp hc
      cases call <;> trivial
    · intro s tr i ⟨h, htr⟩
      obtain ⟨h', hw⟩ := scoringStep_inv h i
      exact ⟨h', fun w hm => (List.mem_append.mp hm).elim (htr w) (hw w)⟩
  exact ⟨fun t ht => ⟨(inv.1.rows t ht).range.1, (inv.1.rows t ht).range.2, (inv.1.rows t ht).state⟩,
    inv.2, fun score => (scoreToState_copies score).symm⟩

end MiuiserPeruser.Gaveld
