import Mathlib.Algebra.Order.Ring.Rat
import MiuiserPeruser.Lib.History
import MiuiserPeruser.Gaveld.ScoreTable

/-!
# gaveld — the scoring log explains the score table

Calls made one after the other, seen from one source: its rows of
`scoring_log` with the decay ticks that took effect between them form a
HISTORY, and the source's row of `threat_scores` is what that history
adds up to — the score by replaying it, the two recidivism counters by
counting the rows that cross a threshold.
-/

namespace MiuiserPeruser.Gaveld

open Scorer Decay History

/-- What happens to the score of one source. -/
inductive LogEvent where
  | row (r : ScoringRow)
  | tick
  deriving DecidableEq

def LogEvent.row? : LogEvent → Option ScoringRow
  | .row r => some r
  | .tick => none

/-- One call, with what it does to `source`: the rows it adds to the
source's log, or a tick if it found the source inactive and loaded its
row. -/
def serialStep (source : String) (db : Db) (call : Call) : Db × List LogEvent :=
  (runCall db call,
    match call with
    | .scorer _ =>
        (((runCall db call).scoringLog.drop db.scoringLog.length).filter
          fun r => r.source = source).map .row
    | .decay now => if Decay.Applies db now source then [.tick] else [])

/-- The score a history leaves, from 0. -/
def scoreAfter (hist : List LogEvent) : ℚ :=
  hist.foldl (fun x e => match e with | .row r => r.newScore | .tick => decayed x) 0

@[simp] theorem scoreAfter_row (hist : List LogEvent) (r : ScoringRow) :
    scoreAfter (hist ++ [.row r]) = r.newScore := by
  simp [scoreAfter]

@[simp] theorem scoreAfter_tick (hist : List LogEvent) :
    scoreAfter (hist ++ [.tick]) = decayed (scoreAfter hist) := by
  simp [scoreAfter]

/-- A row of the log in which the source crosses into JAILED. -/
def ScoringRow.JailCrossing (r : ScoringRow) : Prop := r.prevScore < 80 ∧ 80 ≤ r.newScore

/-- A row of the log in which the source crosses into QUARANTINED. -/
def ScoringRow.QuarantineCrossing (r : ScoringRow) : Prop :=
  r.prevScore < 50 ∧ 50 ≤ r.newScore ∧ r.newScore < 70

instance (r : ScoringRow) : Decidable r.JailCrossing := inferInstanceAs (Decidable (_ ∧ _))
instance (r : ScoringRow) : Decidable r.QuarantineCrossing := inferInstanceAs (Decidable (_ ∧ _))

/-! ## Crossings -/

theorem scoreToState_eq_jailed {x : ℚ} : Scorer.scoreToState x = .jailed ↔ 80 ≤ x := by
  unfold Scorer.scoreToState
  split_ifs with h1 h2 h3 h4 h5 <;> simp_all

theorem scoreToState_eq_quarantined {x : ℚ} :
    Scorer.scoreToState x = .quarantined ↔ 50 ≤ x ∧ x < 70 := by
  unfold Scorer.scoreToState
  split_ifs with h1 h2 h3 h4 h5 <;> simp_all
  · intro _; linarith

/-- The counters of a rescored record go up exactly when the log row is a
crossing. For QUARANTINED this needs that a scoring never lowers a score:
the code's test also admits a fall from above, which cannot happen. -/
theorem rescored_counters (c : ScorerCall) {record : Threat} (ss : List String)
    (h : ScoreInRange record) :
    (rescored c record ss).priorJails =
        record.priorJails + (if (logRow c record ss).JailCrossing then 1 else 0) ∧
      (rescored c record ss).priorQuarantines =
        record.priorQuarantines + if (logRow c record ss).QuarantineCrossing then 1 else 0 := by
  have hle : record.score ≤ clamp (record.score + addition c record ss) := by
    have := le_rescored_score c ss h.1 h.2
    simpa only [rescored] using this
  have hj : (Scorer.scoreToState (clamp (record.score + addition c record ss)) = .jailed ∧
      Scorer.scoreToState record.score ≠ .jailed) ↔ (logRow c record ss).JailCrossing := by
    rw [Ne, scoreToState_eq_jailed, scoreToState_eq_jailed, not_le, and_comm]
    simp only [ScoringRow.JailCrossing, logRow, rescored]
  have hq : (Scorer.scoreToState (clamp (record.score + addition c record ss)) = .quarantined ∧
      Scorer.scoreToState record.score ≠ .quarantined) ↔ (logRow c record ss).QuarantineCrossing := by
    rw [Ne, scoreToState_eq_quarantined, scoreToState_eq_quarantined, not_and, not_lt]
    simp only [ScoringRow.QuarantineCrossing, logRow, rescored]
    constructor
    · rintro ⟨⟨h50, h70⟩, hprev⟩
      refine ⟨not_le.mp fun hp => ?_, h50, h70⟩
      linarith [hprev hp]
    · rintro ⟨hprev, h50, h70⟩
      exact ⟨⟨h50, h70⟩, fun hp => absurd hprev (not_lt.mpr hp)⟩
  simp only [← hj, ← hq, rescored]
  constructor <;> split <;> rfl

/-! ## The invariant -/

/-- The row of `source` is what its history adds up to. -/
structure LogInv (source : String) (db : Db) (hist : List LogEvent) : Prop where
  range : ScoreInRange (dbThreatLoad db source)
  score : (dbThreatLoad db source).score = scoreAfter hist
  rows : hist.filterMap LogEvent.row? = db.scoringLog.filter fun r => r.source = source
  jails : (dbThreatLoad db source).priorJails =
    (hist.filterMap LogEvent.row?).countP fun r => r.JailCrossing
  quarantines : (dbThreatLoad db source).priorQuarantines =
    (hist.filterMap LogEvent.row?).countP fun r => r.QuarantineCrossing
  explained : Always (fun pre e => ∀ r, e = .row r →
    r.prevScore = scoreAfter pre ∧ r.newScore = min 100 (r.prevScore + r.finalAddition)) hist

theorem LogInv.scorer {source : String} {db : Db} {hist : List LogEvent}
    (h : LogInv source db hist) (c : ScorerCall) :
    LogInv source (serialStep source db (.scorer c)).1
      (hist ++ (serialStep source db (.scorer c)).2) := by
  have hload := dbThreatLoad_scorerProcess db c source
  simp only [serialStep, runCall, scorerProcess_scoringLog, List.drop_left]
  by_cases hs : c.source = source
  · -- the source's own scoring: one row is logged, and the row is rescored
    subst hs
    rw [if_pos rfl] at hload
    generalize hss : seenSignals db c = ss at hload ⊢
    generalize hrec : dbThreatLoad db c.source = record at hload ⊢
    obtain ⟨hjails, hquar⟩ := rescored_counters c ss (hrec ▸ h.range)
    have hev : ([logRow c record ss].filter fun r => r.source = c.source).map LogEvent.row =
        [.row (logRow c record ss)] := by simp [logRow]
    have hrows : (hist ++ [LogEvent.row (logRow c record ss)]).filterMap LogEvent.row? =
        hist.filterMap LogEvent.row? ++ [logRow c record ss] := by simp [LogEvent.row?]
    rw [hev]
    refine ⟨?_, ?_, ?_, ?_, ?_, ?_⟩
    · rw [hload]
      exact (rescored_ok (hrec ▸ h.range)).range
    · rw [hload, scoreAfter_row]
      rfl
    · rw [hrows, h.rows, scorerProcess_scoringLog, hss, hrec, List.filter_append]
      simp [logRow]
    · rw [hload, hjails, hrows, List.countP_append, ← h.jails, hrec, List.countP_singleton]
      simp
    · rw [hload, hquar, hrows, List.countP_append, ← h.quarantines, hrec, List.countP_singleton]
      simp
    · refine h.explained.snoc fun r hr => ?_
      obtain rfl := LogEvent.row.inj hr
      have hprev : record.score = scoreAfter hist := by rw [← h.score, hrec]
      exact ⟨hprev, rescored_score (hrec ▸ h.range.1)⟩
  · -- another source's scoring leaves this source's row and log alone
    rw [if_neg hs] at hload
    have hev : ([logRow c (dbThreatLoad db c.source) (seenSignals db c)].filter
        fun r => r.source = source) = [] := by simp [logRow, hs]
    rw [hev, List.map_nil, List.append_nil]
    refine ⟨hload ▸ h.range, hload ▸ h.score, ?_, hload ▸ h.jails, hload ▸ h.quarantines,
      h.explained⟩
    rw [scorerProcess_scoringLog, List.filter_append, hev, List.append_nil]
    exact h.rows

theorem LogInv.decay {source : String} {db : Db} {hist : List LogEvent}
    (h : LogInv source db hist) (now : Int) :
    LogInv source (serialStep source db (.decay now)).1
      (hist ++ (serialStep source db (.decay now)).2) := by
  have hload := dbThreatLoad_decayTick db now source
  have hlog := decayTick_scoringLog db now
  simp only [serialStep, runCall]
  by_cases ha : Decay.Applies db now source
  · -- a tick on the source's history: no row, and the score decays once
    rw [if_pos ha] at hload
    rw [if_pos ha]
    have hrows : (hist ++ [LogEvent.tick]).filterMap LogEvent.row? =
        hist.filterMap LogEvent.row? := by simp [LogEvent.row?]
    refine ⟨?_, ?_, ?_, ?_, ?_, ?_⟩
    · rw [hload]
      exact (updated_ok h.range).range
    · rw [hload, scoreAfter_tick, ← h.score]
      rfl
    · rw [hrows, hlog]
      exact h.rows
    · rw [hload, hrows]
      exact h.jails
    · rw [hload, hrows]
      exact h.quarantines
    · exact h.explained.snoc fun r hr => by cases hr
  · rw [if_neg ha] at hload
    rw [if_neg ha, List.append_nil]
    exact ⟨hload ▸ h.range, hload ▸ h.score, hlog ▸ h.rows, hload ▸ h.jails,
      hload ▸ h.quarantines, h.explained⟩

end MiuiserPeruser.Gaveld
