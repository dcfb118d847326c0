import MiuiserPeruser.Lib.Run
import MiuiserPeruser.Splinter.SewerDb

/-!
# splinterd — the accounts of the store

Every run of `sewer_db_record_emit` calls from the schema: the counters of
the separate tables agree with each other and with the calls that were
made, across rollups that delete rows in the middle of a call.
-/

namespace MiuiserPeruser.Splinter

open Sql

/-! ## What is counted -/

/-- `total_emitted` of a source, 0 without a row. -/
def totalEmitted (db : SewerDb) (source : String) : Nat :=
  ((db.daemonStats.find? source).map StatsRow.totalEmitted).getD 0

/-- The sum of `repeat_count` over a source's rows of `emit_state`. -/
def repeatCounts (db : SewerDb) (source : String) : Nat :=
  ((db.emitState.rows.filter fun r => r.source = source).map EmitRow.repeatCount).sum

def callsOf (calls : List EmitCall) (source : String) : Nat :=
  calls.countP fun c => c.source = source

/-- The rows that rollups have deleted. -/
def removedRows (writes : List SewerWrite) : List TransitionRow :=
  writes.flatMap fun
    | .deleteTransitions rows => rows
    | _ => []

/-- The rows a run has written to `sewer_rats`. -/
def writtenRats (writes : List SewerWrite) : List RatRow :=
  writes.filterMap fun
    | .rat r => some r
    | _ => none

def TransitionRow.pair (r : TransitionRow) : String × String := (r.source, r.eventType)

def firstSeenOf (rows : List TransitionRow) (pair : String × String) : Nat :=
  rows.countP fun r => r.transitionType = .firstSeen ∧ r.pair = pair

/-- Every deletion comes right after a row of `sewer_rats`. -/
def RatsFirst (writes : List SewerWrite) : Prop :=
  ∀ before rows after, writes = before ++ .deleteTransitions rows :: after →
    ∃ earlier rat, before = earlier ++ [.rat rat]

/-- The accounts of a database that was written by these calls. -/
structure Accounts (db : SewerDb) (writes : List SewerWrite) (calls : List EmitCall) : Prop where
  totals : ∀ source, totalEmitted db source = repeatCounts db source ∧
    totalEmitted db source = callsOf calls source
  states : ∀ pair, db.emitState.rows.countP (fun r => r.pair = pair) =
    if pair ∈ calls.map EmitCall.pair then 1 else 0
  firsts : ∀ pair, firstSeenOf (db.emitTransitions ++ removedRows writes) pair =
    if pair ∈ calls.map EmitCall.pair then 1 else 0
  small : db.emitTransitions.length < rollupCap
  rats : db.sewerRats = writtenRats writes
  ratsFirst : RatsFirst writes

/-! ## One call -/

section Rows

variable (mktime : List Char → Int) (db : SewerDb) (c : EmitCall)

theorem upsertedState_pair :
    (upsertedState db c).pair = c.pair := by
  unfold upsertedState
  cases h : db.emitState.find? c.pair with
  | none => rfl
  | some row =>
      have hkey : row.pair = c.pair := Table.key_of_find? h
      exact hkey

theorem upsertedState_source :
    (upsertedState db c).source = c.source := congrArg Prod.fst (upsertedState_pair db c)

theorem upsertedStats_name :
    (upsertedStats db c).name = c.source := by
  unfold upsertedStats
  cases h : db.daemonStats.find? c.source with
  | none => rfl
  | some row =>
      have hkey : row.name = c.source := Table.key_of_find? h
      exact hkey

theorem totalEmitted_recordRows (source : String) :
    totalEmitted (recordRows mktime db c).1 source =
      totalEmitted db source + if c.source = source then 1 else 0 := by
  simp only [totalEmitted, recordRows, Table.find?_upsert, upsertedStats_name]
  by_cases h : c.source = source
  · subst h
    rw [if_pos rfl, if_pos rfl]
    unfold upsertedStats
    cases db.daemonStats.find? c.source with
    | none => rfl
    | some row => rfl
  · rw [if_neg h, if_neg h, Nat.add_zero]

theorem repeatCounts_eq (source : String) :
    repeatCounts db source =
      (db.emitState.rows.map fun r => if r.source = source then r.repeatCount else 0).sum := by
  unfold repeatCounts
  induction db.emitState.rows with
  | nil => rfl
  | cons r rows ih =>
      by_cases h : r.source = source
      · simp [h, ih]
      · simp [h, ih]

/-- The upsert counts one more than the row it replaces. -/
theorem upsertedState_repeatCount :
    (upsertedState db c).repeatCount =
      ((db.emitState.find? c.pair).map EmitRow.repeatCount).getD 0 + 1 := by
  unfold upsertedState
  cases db.emitState.find? c.pair with
  | none => rfl
  | some row => rfl

theorem repeatCounts_recordRows (source : String) :
    repeatCounts (recordRows mktime db c).1 source =
      repeatCounts db source + if c.source = source then 1 else 0 := by
  have hsum := db.emitState.sum_upsert (upsertedState db c)
    fun r => if r.source = source then r.repeatCount else 0
  have hreplaced : ((db.emitState.find? c.pair).map fun r =>
      if r.source = source then r.repeatCount else 0).getD 0 =
      if c.source = source then
        ((db.emitState.find? c.pair).map EmitRow.repeatCount).getD 0 else 0 := by
    cases h : db.emitState.find? c.pair with
    | none => simp
    | some row =>
        have hkey : row.pair = c.pair := Table.key_of_find? h
        have hsource : row.source = c.source := congrArg Prod.fst hkey
        simp [hsource]
  rw [upsertedState_pair, upsertedState_source, upsertedState_repeatCount, hreplaced] at hsum
  rw [repeatCounts_eq, repeatCounts_eq]
  show ((db.emitState.upsert (upsertedState db c)).rows.map _).sum = _
  split_ifs at hsum ⊢ with h
  · omega
  · omega

theorem mem_keys_recordRows (pair : String × String) :
    pair ∈ (recordRows mktime db c).1.emitState.rows.map EmitRow.pair ↔
      pair ∈ db.emitState.rows.map EmitRow.pair ∨ pair = c.pair := by
  show pair ∈ (db.emitState.upsert (upsertedState db c)).rows.map EmitRow.pair ↔ _
  rw [Table.keys_upsert, upsertedState_pair]
  split
  · rename_i hmem
    constructor
    · exact .inl
    · rintro (h | rfl)
      · exact h
      · exact hmem
  · rw [List.mem_append, List.mem_singleton]

/-- A pair is first seen once: when it has no row yet. -/
theorem firstSeenOf_recordRows (pair : String × String) :
    firstSeenOf (recordRows mktime db c).1.emitTransitions pair =
      firstSeenOf db.emitTransitions pair +
        if pair = c.pair ∧ pair ∉ db.emitState.rows.map EmitRow.pair then 1 else 0 := by
  have hrow : ∀ t, (⟨c.source, c.eventType, t, c.ts, c.detail.getD ""⟩ : TransitionRow).pair =
      c.pair := fun _ => rfl
  show firstSeenOf (db.emitTransitions ++ _) pair = _
  rw [firstSeenOf, firstSeenOf, List.countP_append]
  congr 1
  unfold transitionOf
  by_cases hpair : pair = c.pair
  · subst hpair
    -- the SELECT of last_seen decides which transition is logged
    cases h : db.emitState.find? c.pair with
    | none =>
        have hnew : c.pair ∉ db.emitState.rows.map EmitRow.pair := by
          rw [Table.mem_keys_iff, h]
          simp
        rw [if_pos ⟨rfl, hnew⟩]
        simp [hrow]
    | some row =>
        have hold : c.pair ∈ db.emitState.rows.map EmitRow.pair := Table.mem_keys_iff.mpr ⟨row, h⟩
        rw [if_neg fun hnew => hnew.2 hold]
        simp only
        split
        · simp
        · rfl
  · rw [if_neg fun h => hpair h.1]
    refine List.countP_eq_zero.mpr fun r hr => ?_
    obtain ⟨t, -, rfl⟩ := List.mem_map.mp hr
    simp [hrow, Ne.symm hpair]

theorem length_recordRows :
    (recordRows mktime db c).1.emitTransitions.length =
      db.emitTransitions.length + if (transitionOf mktime db c).isSome then 1 else 0 := by
  show (db.emitTransitions ++ _).length = _
  rw [List.length_append, List.length_map]
  cases transitionOf mktime db c with
  | none => rfl
  | some t => rfl

end Rows

/-! ## The rollup -/

section Rollup

theorem removedRows_append (v w : List SewerWrite) :
    removedRows (v ++ w) = removedRows v ++ removedRows w := List.flatMap_append

theorem writtenRats_append (v w : List SewerWrite) :
    writtenRats (v ++ w) = writtenRats v ++ writtenRats w := List.filterMap_append

theorem firstSeenOf_append (v w : List TransitionRow) (pair : String × String) :
    firstSeenOf (v ++ w) pair = firstSeenOf v pair + firstSeenOf w pair := List.countP_append

theorem RatsFirst.append {v w : List SewerWrite} (hv : RatsFirst v) (hw : RatsFirst w) :
    RatsFirst (v ++ w) := by
  intro before rows after h
  rcases List.append_eq_append_iff.mp h with ⟨mid, hbefore, hrest⟩ | ⟨mid, hv', hrest⟩
  · -- the deletion is one of `w`
    obtain ⟨earlier, rat, rfl⟩ := hw mid rows after hrest
    exact ⟨v ++ earlier, rat, by rw [hbefore, List.append_assoc]⟩
  · cases mid with
    | nil =>
        obtain ⟨earlier, rat, hempty⟩ := hw [] rows after (by simpa using hrest.symm)
        exact absurd hempty (by simp)
    | cons x mid =>
        obtain ⟨rfl, rfl⟩ := List.cons.inj hrest
        exact hv before rows mid hv'

theorem ratsFirst_of_no_deletion {w : List SewerWrite}
    (h : ∀ rows, .deleteTransitions rows ∉ w) : RatsFirst w := by
  intro before rows after hw
  exact absurd (by simp [hw]) (h rows)

variable (ts : String) (db : SewerDb)

/-- What a rollup does: nothing is lost, and the table is short after it. -/
structure RollupDone (db : SewerDb) (result : SewerDb × List SewerWrite) : Prop where
  emitState : result.1.emitState = db.emitState
  daemonStats : result.1.daemonStats = db.daemonStats
  rows : result.1.emitTransitions ++ removedRows result.2 = db.emitTransitions
  rats : result.1.sewerRats = db.sewerRats ++ writtenRats result.2
  ratsFirst : RatsFirst result.2

theorem rollupDone_nothing : RollupDone db (db, []) where
  emitState := rfl
  daemonStats := rfl
  rows := List.append_nil _
  rats := (List.append_nil _).symm
  ratsFirst := ratsFirst_of_no_deletion fun _ => List.not_mem_nil

theorem rollupDone_maybeRollup : RollupDone db (maybeRollup ts db) := by
  unfold maybeRollup
  split
  · refine ⟨rfl, rfl, ?_, rfl, ?_⟩
    · simp [doRollup, removedRows]
    · intro before rows after h
      cases before with
      | nil => exact absurd (List.cons.inj h).1 (by simp)
      | cons x before =>
          cases before with
          | nil => exact ⟨[], _, congrArg (· :: []) (List.cons.inj h).1.symm⟩
          | cons y before => exact absurd (congrArg List.length h) (by simp [doRollup])
  · exact rollupDone_nothing db

theorem length_maybeRollup : (maybeRollup ts db).1.emitTransitions.length < rollupCap := by
  unfold maybeRollup
  split
  · exact Nat.zero_lt_succ _
  · rename_i h
    exact Nat.lt_of_not_ge h

end Rollup

/-! ## Every run -/

/-- The invariant of a run. -/
structure Books (db : SewerDb) (writes : List SewerWrite) (calls : List EmitCall) : Prop where
  stats : ∀ source, totalEmitted db source = callsOf calls source
  repeats : ∀ source, repeatCounts db source = callsOf calls source
  keys : ∀ pair, pair ∈ db.emitState.rows.map EmitRow.pair ↔ pair ∈ calls.map EmitCall.pair
  firsts : ∀ pair, firstSeenOf (db.emitTransitions ++ removedRows writes) pair =
    if pair ∈ calls.map EmitCall.pair then 1 else 0
  small : db.emitTransitions.length < rollupCap
  rats : db.sewerRats = writtenRats writes
  ratsFirst : RatsFirst writes

section Run

variable {mktime : List Char → Int} {db : SewerDb} {writes : List SewerWrite}
  {calls : List EmitCall}

theorem callsOf_concat (c : EmitCall) (source : String) :
    callsOf (calls ++ [c]) source = callsOf calls source + if c.source = source then 1 else 0 := by
  simp [callsOf, List.countP_append, List.countP_singleton]

theorem mem_pairs_concat (c : EmitCall) (pair : String × String) :
    pair ∈ (calls ++ [c]).map EmitCall.pair ↔ pair ∈ calls.map EmitCall.pair ∨ pair = c.pair := by
  rw [List.map_append, List.mem_append, List.map_singleton, List.mem_singleton]

theorem books_schema : Books .schema [] [] where
  stats source := by
    rw [totalEmitted]
    cases h : SewerDb.schema.daemonStats.find? source with
    | none => rfl
    | some row =>
        obtain ⟨name, -, rfl⟩ := List.mem_map.mp (Table.mem_of_find? h)
        rfl
  repeats _ := rfl
  keys _ := Iff.rfl
  firsts _ := rfl
  small := by decide
  rats := rfl
  ratsFirst := ratsFirst_of_no_deletion fun _ => List.not_mem_nil

/-- The writes before the rollup delete nothing. -/
theorem removedRows_recordRows (mktime : List Char → Int) (db : SewerDb) (c : EmitCall) :
    removedRows (recordRows mktime db c).2 = [] ∧ writtenRats (recordRows mktime db c).2 = [] ∧
      RatsFirst (recordRows mktime db c).2 := by
  have hwrites : (recordRows mktime db c).2 = .state (upsertedState db c) ::
      ((transitionOf mktime db c).toList.map fun t => SewerWrite.transition
        ⟨c.source, c.eventType, t, c.ts, c.detail.getD ""⟩) ++ [.stats (upsertedStats db c)] := by
    simp [recordRows]
  rw [hwrites]
  cases transitionOf mktime db c with
  | none => exact ⟨rfl, rfl, ratsFirst_of_no_deletion (by simp)⟩
  | some t => exact ⟨rfl, rfl, ratsFirst_of_no_deletion (by simp)⟩

/-- A call is the rows, and then at most a rollup. -/
theorem sewerDbRecordEmit_eq (mktime : List Char → Int) (db : SewerDb) (c : EmitCall) :
    ∃ rollup, RollupDone (recordRows mktime db c).1 rollup ∧
      sewerDbRecordEmit mktime db c = (rollup.1, (recordRows mktime db c).2 ++ rollup.2) ∧
      (db.emitTransitions.length < rollupCap → rollup.1.emitTransitions.length < rollupCap) := by
  cases h : (transitionOf mktime db c).isSome with
  | true =>
      refine ⟨maybeRollup c.rollupTs (recordRows mktime db c).1, rollupDone_maybeRollup _ _, ?_,
        fun _ => length_maybeRollup _ _⟩
      simp [sewerDbRecordEmit, h]
  | false =>
      refine ⟨((recordRows mktime db c).1, []), rollupDone_nothing _, ?_, fun hsmall => ?_⟩
      · simp [sewerDbRecordEmit, h]
      · simpa [length_recordRows, h] using hsmall

/-- A `first_seen` row is added exactly when the pair is new, and a rollup
only moves rows to the removed ones. -/
theorem Books.firsts_step (h : Books db writes calls) (c : EmitCall)
    {rollup : SewerDb × List SewerWrite} (hdone : RollupDone (recordRows mktime db c).1 rollup)
    (pair : String × String) :
    firstSeenOf (rollup.1.emitTransitions ++
        removedRows (writes ++ ((recordRows mktime db c).2 ++ rollup.2))) pair =
      if pair ∈ (calls ++ [c]).map EmitCall.pair then 1 else 0 := by
  have hremoved := (removedRows_recordRows mktime db c).1
  have hrows := congrArg (firstSeenOf · pair) hdone.rows
  have hfirsts := h.firsts pair
  simp only [firstSeenOf_append, firstSeenOf_recordRows] at hrows hfirsts
  rw [removedRows_append, removedRows_append, hremoved, List.nil_append]
  simp only [firstSeenOf_append, mem_pairs_concat]
  simp only [h.keys] at hrows
  by_cases hmem : pair ∈ calls.map EmitCall.pair
  · rw [if_neg fun hnew => hnew.2 hmem] at hrows
    rw [if_pos hmem] at hfirsts
    rw [if_pos (.inl hmem)]
    omega
  · rw [if_neg hmem] at hfirsts
    by_cases hpair : pair = c.pair
    · rw [if_pos ⟨hpair, hmem⟩] at hrows
      rw [if_pos (.inr hpair)]
      omega
    · rw [if_neg fun hnew => hpair hnew.1] at hrows
      rw [if_neg fun hor => hor.elim hmem hpair]
      omega

/-- **One call keeps the books.** -/
theorem Books.step (h : Books db writes calls) (c : EmitCall) :
    Books (sewerDbRecordEmit mktime db c).1 (writes ++ (sewerDbRecordEmit mktime db c).2)
      (calls ++ [c]) := by
  obtain ⟨rollup, hdone, heq, hsmall⟩ := sewerDbRecordEmit_eq mktime db c
  obtain ⟨-, hrats, hfirst⟩ := removedRows_recordRows mktime db c
  rw [heq]
  refine ⟨fun source => ?_, fun source => ?_, fun pair => ?_, h.firsts_step c hdone,
    hsmall h.small, ?_, ?_⟩
  · have htotal := totalEmitted_recordRows mktime db c source
    rw [callsOf_concat, ← h.stats, ← htotal, totalEmitted, totalEmitted, hdone.daemonStats]
  · have hrepeat := repeatCounts_recordRows mktime db c source
    rw [callsOf_concat, ← h.repeats, ← hrepeat, repeatCounts, repeatCounts, hdone.emitState]
  · rw [hdone.emitState, mem_keys_recordRows, mem_pairs_concat, h.keys]
  · rw [hdone.rats, writtenRats_append, writtenRats_append, hrats, List.nil_append]
    show db.sewerRats ++ _ = _
    rw [h.rats]
  · exact h.ratsFirst.append (hfirst.append hdone.ratsFirst)

theorem Books.accounts (h : Books db writes calls) : Accounts db writes calls where
  totals source := ⟨(h.stats source).trans (h.repeats source).symm, h.stats source⟩
  states pair := by
    have hcount : db.emitState.rows.countP (fun r => r.pair = pair) =
        (db.emitState.rows.map EmitRow.pair).count pair := by
      rw [List.count, List.countP_map]
      exact List.countP_congr fun r _ => by simp
    rw [hcount, ← if_congr (h.keys pair) rfl rfl]
    split
    · rename_i hmem
      exact List.count_eq_one_of_mem db.emitState.nodup hmem
    · rename_i hmem
      exact List.count_eq_zero_of_not_mem hmem
  firsts := h.firsts
  small := h.small
  rats := h.rats
  ratsFirst := h.ratsFirst

/-- **The store accounts for every call**, whatever the pairs, the time
between calls and the rollups. -/
theorem sewer_accounts (mktime : List Char → Int) (calls : List EmitCall) :
    Accounts (Machine.run (sewerDbRecordEmit mktime) .schema calls).1
      (Machine.run (sewerDbRecordEmit mktime) .schema calls).2 calls := by
  apply Books.accounts
  exact Machine.run_history (P := Books) books_schema (fun _ _ _ c h => h.step c) calls

end Run

end MiuiserPeruser.Splinter
