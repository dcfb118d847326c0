import Mathlib.Logic.Relation
import MiuiserPeruser.Gaveld.Db

/-!
# gaveld — score decay (`decay.c`)

`decay_tick` as the function of the source and as program points, one
database call between two points. The tick loads up to 512 rows at once
and writes each back from that snapshot.

`decay.c` has its own copy of `score_to_state`; it is kept as a copy
here. `state_rank` only chooses a log line and is left out.
-/

namespace MiuiserPeruser.Gaveld

namespace Decay

def scoreToState (score : ℚ) : ThreatState :=
  if score ≥ threshJailed then .jailed
  else if score ≥ threshHouseArrest then .houseArrest
  else if score ≥ threshQuarantined then .quarantined
  else if score ≥ threshWarned then .warned
  else if score ≥ threshWatched then .watched
  else .clean

/-- `new_score`: decayed, and dropped to zero below 0.5. -/
def decayed (score : ℚ) : ℚ :=
  let new := score * decayFactor
  if new < 1 / 2 then 0 else new

/-- The row `decay_tick` writes back for a loaded row. -/
def updated (now : Int) (row : Threat) : Threat :=
  { row with
    score := decayed row.score, state := scoreToState (decayed row.score), lastUpdated := now }

end Decay

open Decay

/-- One iteration of the loop over the loaded rows. -/
def decayRow (now : Int) (db : Db) (row : Threat) : Db :=
  if dbSignalActive db row.source (windowStart now) then db
  else dbThreatUpsert db (updated now row)

/-- `decay_tick` after its test of the internal-affairs lock. -/
def decayTick (db : Db) (now : Int) : Db :=
  let db := (dbThreatAll db decayMaxRows).foldl (decayRow now) db
  dbSignalPrune db (windowStart now)

/-! ## Program points -/

/-- Where a tick stands. `active rest` is the loop head: `rest` are the
loaded rows still to be looked at. -/
inductive DecayPc where
  | all
  | active (row : Threat) (rest : List Threat)
  | upsert (row : Threat) (rest : List Threat)
  | prune
  | done
  deriving DecidableEq

/-- The loop head with `rest` still to do. -/
def DecayPc.loop : List Threat → DecayPc
  | [] => .prune
  | row :: rest => .active row rest

/-- One database call of `decay_tick`. -/
def decayStep (db : Db) (now : Int) : DecayPc → Db × DecayPc
  | .all => (db, .loop (dbThreatAll db decayMaxRows))
  | .active row rest =>
      (db, if dbSignalActive db row.source (windowStart now) then .loop rest
        else .upsert row rest)
  | .upsert row rest => (dbThreatUpsert db (updated now row), .loop rest)
  | .prune => (dbSignalPrune db (windowStart now), .done)
  | .done => (db, .done)

/-- Uninterrupted steps of a tick. -/
def DecaySteps (now : Int) : Db × DecayPc → Db × DecayPc → Prop :=
  Relation.ReflTransGen fun p q => q = decayStep p.1 now p.2

theorem decaySteps_loop (now : Int) (rest : List Threat) (db : Db) :
    DecaySteps now (db, .loop rest) (rest.foldl (decayRow now) db, .prune) := by
  induction rest generalizing db with
  | nil => exact .refl
  | cons row rest ih =>
      by_cases h : dbSignalActive db row.source (windowStart now) = true
      · refine .head (b := (db, .loop rest)) (by simp [DecayPc.loop, decayStep, h]) ?_
        rw [List.foldl_cons, decayRow, if_pos h]
        exact ih db
      · refine .head (b := (db, .upsert row rest)) (by simp [DecayPc.loop, decayStep, h]) ?_
        refine .head (b := (dbThreatUpsert db (updated now row), .loop rest)) rfl ?_
        rw [List.foldl_cons, decayRow, if_neg h]
        exact ih (dbThreatUpsert db (updated now row))

/-- The program points, taken without interruption, compute the function. -/
theorem decayTick_eq (db : Db) (now : Int) :
    DecaySteps now (db, .all) (decayTick db now, .done) := by
  refine .head (b := (db, .loop (dbThreatAll db decayMaxRows))) rfl ?_
  exact (decaySteps_loop now _ db).tail rfl

/-! ## What one tick does to a score -/

theorem decayed_nonneg (x : ℚ) : 0 ≤ decayed x := by
  simp only [decayed, decayFactor]
  by_cases hx : x * (88 / 100) < 1 / 2
  · rw [if_pos hx]
  · rw [if_neg hx]
    linarith

/-- A tick never raises a score that is not negative. -/
theorem decayed_le {x : ℚ} (h : 0 ≤ x) : decayed x ≤ x := by
  simp only [decayed, decayFactor]
  by_cases hx : x * (88 / 100) < 1 / 2
  · rw [if_pos hx]
    exact h
  · rw [if_neg hx]
    linarith

@[simp] theorem updated_source (now : Int) (row : Threat) : (updated now row).source = row.source :=
  rfl

/-! ## What one tick does to the tables -/

theorem decayRow_signalWindow (now : Int) (db : Db) (row : Threat) :
    (decayRow now db row).signalWindow = db.signalWindow := by
  unfold decayRow
  split <;> rfl

theorem decayRow_scoringLog (now : Int) (db : Db) (row : Threat) :
    (decayRow now db row).scoringLog = db.scoringLog := by
  unfold decayRow
  split <;> rfl

theorem foldl_decayRow_scoringLog (now : Int) (rows : List Threat) (db : Db) :
    (rows.foldl (decayRow now) db).scoringLog = db.scoringLog := by
  induction rows generalizing db with
  | nil => rfl
  | cons row rows ih => rw [List.foldl_cons, ih, decayRow_scoringLog]

theorem dbThreatLoad_decayRow (now : Int) (db : Db) (row : Threat) (source : String) :
    dbThreatLoad (decayRow now db row) source =
      if row.source = source ∧ dbSignalActive db source (windowStart now) = false
      then updated now row else dbThreatLoad db source := by
  unfold decayRow
  by_cases hs : row.source = source
  · subst hs
    cases ha : dbSignalActive db row.source (windowStart now) with
    | true => simp
    | false => simp [dbThreatLoad_upsert]
  · by_cases ha : dbSignalActive db row.source (windowStart now) = true
    · simp [ha, hs]
    · simp [ha, hs, dbThreatLoad_upsert]

/-- The loop over loaded rows, row by row: an inactive source gets its
loaded row decayed, everything else stays. -/
theorem dbThreatLoad_foldl_decayRow (now : Int) {rows : List Threat}
    (hn : (rows.map Threat.source).Nodup) (db : Db) (source : String) :
    dbThreatLoad (rows.foldl (decayRow now) db) source =
      match rows.find? fun r => r.source = source with
      | some r =>
          if dbSignalActive db source (windowStart now) = false then updated now r
          else dbThreatLoad db source
      | none => dbThreatLoad db source := by
  induction rows generalizing db with
  | nil => rfl
  | cons row rows ih =>
      obtain ⟨hrow, hn⟩ := List.nodup_cons.mp hn
      rw [List.foldl_cons, ih hn, dbThreatLoad_decayRow, List.find?_cons]
      have hact : dbSignalActive (decayRow now db row) source (windowStart now) =
          dbSignalActive db source (windowStart now) := by
        simp only [dbSignalActive, decayRow_signalWindow]
      rw [hact]
      by_cases hs : row.source = source
      · subst hs
        have hnone : rows.find? (fun r => r.source = row.source) = none := by
          refine List.find?_eq_none.mpr fun r hr h => hrow ?_
          exact List.mem_map.mpr ⟨r, hr, by simpa using h⟩
        simp [hnone]
      · simp [hs]

/-- The tick decays `source`: its row is among the loaded ones and its
signals have left the window. -/
def Decay.Applies (db : Db) (now : Int) (source : String) : Prop :=
  source ∈ (dbThreatAll db decayMaxRows).map Threat.source ∧
    dbSignalActive db source (windowStart now) = false

instance (db : Db) (now : Int) (source : String) : Decidable (Decay.Applies db now source) :=
  inferInstanceAs (Decidable (_ ∧ _))

/-- **A tick, source by source**: the rows it applies to are decayed from
what they were, and no other row changes. -/
theorem dbThreatLoad_decayTick (db : Db) (now : Int) (source : String) :
    dbThreatLoad (decayTick db now) source =
      if Decay.Applies db now source then updated now (dbThreatLoad db source)
      else dbThreatLoad db source := by
  have hload : dbThreatLoad (decayTick db now) source =
      dbThreatLoad ((dbThreatAll db decayMaxRows).foldl (decayRow now) db) source :=
    dbThreatLoad_congr rfl source
  rw [hload, dbThreatLoad_foldl_decayRow now (dbThreatAll_nodup db decayMaxRows)]
  cases hf : (dbThreatAll db decayMaxRows).find? fun r => r.source = source with
  | none =>
      have hnot : ¬ Decay.Applies db now source := by
        rintro ⟨hm, -⟩
        obtain ⟨r, hr, hs⟩ := List.mem_map.mp hm
        exact absurd hs (by simpa using List.find?_eq_none.mp hf r hr)
      rw [if_neg hnot]
  | some r =>
      have hr : r ∈ dbThreatAll db decayMaxRows := List.mem_of_find?_eq_some hf
      have hs : r.source = source := by simpa using List.find?_some hf
      have hload : dbThreatLoad db source = r := by
        rw [← hs]
        exact dbThreatLoad_of_mem (List.mem_of_mem_take hr)
      have hm : source ∈ (dbThreatAll db decayMaxRows).map Threat.source :=
        List.mem_map.mpr ⟨r, hr, hs⟩
      simp [Decay.Applies, hm, hload]

theorem keys_foldl_decayRow (now : Int) (rows : List Threat) (db : Db)
    (h : ∀ r ∈ rows, r.source ∈ db.threatScores.rows.map Threat.source) :
    (rows.foldl (decayRow now) db).threatScores.rows.map Threat.source =
      db.threatScores.rows.map Threat.source := by
  induction rows generalizing db with
  | nil => rfl
  | cons row rows ih =>
      have hkeys : (decayRow now db row).threatScores.rows.map Threat.source =
          db.threatScores.rows.map Threat.source := by
        unfold decayRow
        split
        · rfl
        · rw [dbThreatUpsert, Sql.Table.keys_upsert]
          exact if_pos (h row List.mem_cons_self)
      rw [List.foldl_cons, ih, hkeys]
      intro r hr
      rw [hkeys]
      exact h r (List.mem_cons_of_mem _ hr)

/-- A tick adds no row and keeps their order. -/
theorem keys_decayTick (db : Db) (now : Int) :
    (decayTick db now).threatScores.rows.map Threat.source =
      db.threatScores.rows.map Threat.source :=
  keys_foldl_decayRow now _ db fun _ hr => List.mem_map_of_mem (List.mem_of_mem_take hr)

theorem find?_decayTick (db : Db) (now : Int) (source : String) :
    (decayTick db now).threatScores.find? source =
      (db.threatScores.find? source).map fun r =>
        if Decay.Applies db now source then updated now r else r := by
  have hload := dbThreatLoad_decayTick db now source
  have hkeys : source ∈ (decayTick db now).threatScores.rows.map Threat.source ↔
      source ∈ db.threatScores.rows.map Threat.source := by rw [keys_decayTick]
  rw [Sql.Table.mem_keys_iff, Sql.Table.mem_keys_iff] at hkeys
  simp only [dbThreatLoad] at hload
  cases hold : db.threatScores.find? source with
  | none =>
      cases hnew : (decayTick db now).threatScores.find? source with
      | none => rfl
      | some r =>
          obtain ⟨r', hr'⟩ := hkeys.mp ⟨r, hnew⟩
          rw [hold] at hr'
          cases hr'
  | some r =>
      obtain ⟨r', hr'⟩ := hkeys.mpr ⟨r, hold⟩
      rw [hr', hold, Option.getD_some, Option.getD_some] at hload
      rw [hr', hload, Option.map_some]

theorem foldl_decayRow_signalWindow (now : Int) (rows : List Threat) (db : Db) :
    (rows.foldl (decayRow now) db).signalWindow = db.signalWindow := by
  induction rows generalizing db with
  | nil => rfl
  | cons row rows ih => rw [List.foldl_cons, ih, decayRow_signalWindow]

theorem decayTick_signalWindow (db : Db) (now : Int) :
    (decayTick db now).signalWindow = (dbSignalPrune db (windowStart now)).signalWindow := by
  simp only [decayTick, dbSignalPrune, foldl_decayRow_signalWindow]

theorem decayTick_scoringLog (db : Db) (now : Int) :
    (decayTick db now).scoringLog = db.scoringLog :=
  foldl_decayRow_scoringLog now _ db

end MiuiserPeruser.Gaveld
