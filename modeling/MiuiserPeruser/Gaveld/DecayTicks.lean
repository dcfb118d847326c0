import Mathlib.Algebra.Order.BigOperators.Group.List
import MiuiserPeruser.Gaveld.ScoreTable

/-!
# gaveld — whom decay reaches (`decay.c`, `db.c`)

A tick works on the first 512 rows of `threat_scores`. The rows behind them
are never decayed, in no tick. `rows`, the array they are copied to, is not
cleared, and a source of 255 bytes or more fills the 255 that are copied: it
comes back cut, or with what stood on the stack behind it, and the row is
written under that name (`decayTickOn`).

So decay reaches every inactive source, and no row is invented, exactly if
the rows behind the first 512 have nothing left to decay and the first ones
have shorter sources (`decay_reaches_all_iff`). Where it does, 42 ticks bring
any score of the range to zero: each takes away twelve per cent, and what
falls below one half is dropped.
-/

namespace MiuiserPeruser.Gaveld

open Scorer Decay

/-! ## The copies of the rows -/

/-- The bytes `strncpy` copies of a source. -/
def sourceCopied : Nat := 255

/-- What stood behind the copied bytes of a row: the last byte of `source`,
unless it is NUL, and what is read behind it, in `rows[i]` and in the copy
`updated`, where the new score follows. -/
structure Leftover where
  byte : Option Char
  read : List Char
  written : List Char

/-- The string in the field. A source that is shorter is ended by `strncpy`. -/
def Leftover.string (m : Leftover) (behind : List Char) (source : String) : String :=
  if source.toList.length < sourceCopied then source
  else .ofList (source.toList.take sourceCopied ++ m.byte.elim [] (· :: behind))

/-- What a tick finds on its stack, by the source whose row comes there. -/
abbrev Stack := String → Leftover

/-- `rows[i].source`. -/
def Stack.sourceRead (stack : Stack) (source : String) : String :=
  (stack source).string (stack source).read source

/-- `updated.source`. -/
def Stack.sourceWritten (stack : Stack) (source : String) : String :=
  (stack source).string (stack source).written source

/-- One iteration of the loop, on the copy of a row. -/
def decayRowOn (stack : Stack) (now : Int) (db : Db) (row : Threat) : Db :=
  if dbSignalActive db (stack.sourceRead row.source) (windowStart now) then db
  else dbThreatUpsert db (updated now { row with source := stack.sourceWritten row.source })

/-- `decay_tick`, with the copies `db_threat_all` makes. -/
def decayTickOn (stack : Stack) (db : Db) (now : Int) : Db :=
  let db := (dbThreatAll db decayMaxRows).foldl (decayRowOn stack now) db
  dbSignalPrune db (windowStart now)

/-- The source comes back as it is. -/
def ShortSource (row : Threat) : Prop := row.source.toList.length < sourceCopied

/-! ## What a tick is for -/

/-- The row of an inactive source, and the row a tick has to leave. -/
structure RowDecayed (row row' : Threat) : Prop where
  score : row'.score = if 88 / 100 * row.score < 1 / 2 then 0 else 88 / 100 * row.score
  state : row'.state = Scorer.scoreToState row'.score
  priorJails : row'.priorJails = row.priorJails
  priorQuarantines : row'.priorQuarantines = row.priorQuarantines

/-- The tick decays the row of every inactive source, and touches no other,
whatever stood on its stack. -/
def TickReaches (db : Db) (now : Int) : Prop :=
  ∀ stack, ∀ row ∈ db.threatScores.rows, ∃ row' ∈ (decayTickOn stack db now).threatScores.rows,
    row'.source = row.source ∧
      if dbSignalActive db row.source (windowStart now) = true then row' = row
      else RowDecayed row row'

/-- No tick adds a row. -/
def KeepsSources (db : Db) : Prop :=
  ∀ stack now, (decayTickOn stack db now).threatScores.rows.map Threat.source =
    db.threatScores.rows.map Threat.source

/-- No source of the table has a signal in the window. -/
def Quiet (db : Db) (now : Int) : Prop :=
  ∀ row ∈ db.threatScores.rows, dbSignalActive db row.source (windowStart now) = false

/-- The table behind some ticks. -/
def afterTicks (db : Db) (ticks : List (Stack × Int)) : Db :=
  ticks.foldl (fun db tick => decayTickOn tick.1 db tick.2) db

/-- Consecutive ticks without signals. -/
def QuietTicks : Db → List (Stack × Int) → Prop
  | _, [] => True
  | db, (stack, now) :: ticks => Quiet db now ∧ QuietTicks (decayTickOn stack db now) ticks

/-- Nothing is left to decay. -/
def Settled (row : Threat) : Prop := row.score = 0 ∧ row.state = .clean

/-- Decay reaches every inactive source: in each tick, and so that 42 quiet
ticks settle the whole table. -/
structure DecayReachesAll (db : Db) : Prop where
  tick : ∀ now, TickReaches db now
  settles : ∀ ticks, ticks.length = 42 → QuietTicks db ticks →
    ∀ row ∈ (afterTicks db ticks).threatScores.rows, Settled row

/-! ## One score -/

theorem decayed_eq (x : ℚ) : decayed x = if 88 / 100 * x < 1 / 2 then 0 else 88 / 100 * x := by
  simp only [decayed, decayFactor, mul_comm x]

/-- Only zero stays where it is. -/
theorem eq_zero_of_decayed_eq {x : ℚ} (h : decayed x = x) : x = 0 := by
  rw [decayed_eq] at h
  split at h
  · exact h.symm
  · linarith

/-- Every tick takes away twelve per cent. -/
theorem decayed_iterate_le (n : Nat) {x : ℚ} (h0 : 0 ≤ x) :
    0 ≤ decayed^[n] x ∧ decayed^[n] x ≤ (88 / 100) ^ n * x := by
  induction n with
  | zero => simpa using h0
  | succ n ih =>
      rw [Function.iterate_succ_apply', decayed_eq, pow_succ']
      split
      · exact ⟨le_rfl, by positivity⟩
      · exact ⟨mul_nonneg (by norm_num) ih.1, by linarith [ih.2]⟩

/-- **After 42 ticks nothing is left** of a score of the range. -/
theorem decayed_iterate_eq_zero {x : ℚ} (h0 : 0 ≤ x) (h1 : x ≤ 100) : decayed^[42] x = 0 := by
  obtain ⟨-, hle⟩ := decayed_iterate_le 41 h0
  have hbound : (88 / 100 : ℚ) * ((88 / 100) ^ 41 * 100) < 1 / 2 := by norm_num
  have hpow : (88 / 100 : ℚ) ^ 41 * x ≤ (88 / 100) ^ 41 * 100 := by gcongr
  rw [Function.iterate_succ_apply', decayed_eq, if_pos (by linarith)]

/-! ## One tick -/

/-- What a tick leaves of a row. -/
def tickRow (db : Db) (now : Int) (row : Threat) : Threat :=
  if Decay.Applies db now row.source then updated now row else row

section Tick

variable {db : Db} {now : Int} {row : Threat}

theorem tickRow_source : (tickRow db now row).source = row.source := by
  unfold tickRow
  split <;> rfl

theorem rows_decayTick (db : Db) (now : Int) :
    (decayTick db now).threatScores.rows = db.threatScores.rows.map (tickRow db now) := by
  apply Sql.Table.rows_eq_map (keys_decayTick db now)
  intro source
  rw [find?_decayTick]
  cases h : db.threatScores.find? source with
  | none => rfl
  | some r =>
      have hsource : r.source = source := Sql.Table.key_of_find? h
      simp only [Option.map_some, tickRow, hsource]

/-- The first rows are decayed if they are inactive. -/
theorem applies_of_loaded (h : row ∈ dbThreatAll db decayMaxRows) :
    Decay.Applies db now row.source ↔ dbSignalActive db row.source (windowStart now) = false :=
  ⟨And.right, fun hactive => ⟨List.mem_map_of_mem h, hactive⟩⟩

/-- The rows behind them are not. -/
theorem not_applies_of_behind (h : row ∈ db.threatScores.rows.drop decayMaxRows) :
    ¬ Decay.Applies db now row.source := by
  rintro ⟨hloaded, -⟩
  obtain ⟨r, hr, hsource⟩ := List.mem_map.mp hloaded
  have hnodup := db.threatScores.nodup
  rw [← List.take_append_drop decayMaxRows db.threatScores.rows, List.map_append] at hnodup
  have hdisjoint := (List.nodup_append.mp hnodup).2.2
  exact hdisjoint _ (List.mem_map_of_mem hr) _ (List.mem_map_of_mem h) hsource

theorem loaded_or_behind (h : row ∈ db.threatScores.rows) :
    row ∈ dbThreatAll db decayMaxRows ∨ row ∈ db.threatScores.rows.drop decayMaxRows := by
  rw [← List.take_append_drop decayMaxRows db.threatScores.rows] at h
  exact List.mem_append.mp h

theorem rows_behind_decayTick (db : Db) (now : Int) :
    (decayTick db now).threatScores.rows.drop decayMaxRows =
      db.threatScores.rows.drop decayMaxRows := by
  rw [rows_decayTick, ← List.map_drop]
  apply (List.map_congr_left fun row hrow => ?_).trans (List.map_id _)
  exact if_neg (not_applies_of_behind hrow)

theorem rowDecayed_updated (now : Int) (row : Threat) : RowDecayed row (updated now row) where
  score := decayed_eq row.score
  state := scoreToState_copies _
  priorJails := rfl
  priorQuarantines := rfl

theorem rowDecayed_of_settled (h : Settled row) : RowDecayed row row where
  score := by norm_num [h.1]
  state := by
    rw [h.1, h.2]
    decide +kernel
  priorJails := rfl
  priorQuarantines := rfl

/-- What an inactive row becomes where nothing is left to decay behind the
first rows. -/
theorem rowDecayed_tickRow (hbehind : ∀ row ∈ db.threatScores.rows.drop decayMaxRows, Settled row)
    (hrow : row ∈ db.threatScores.rows)
    (hactive : dbSignalActive db row.source (windowStart now) = false) :
    RowDecayed row (tickRow db now row) := by
  unfold tickRow
  rcases loaded_or_behind hrow with hloaded | hrow
  · rw [if_pos ((applies_of_loaded hloaded).mpr hactive)]
    exact rowDecayed_updated now row
  · rw [if_neg (not_applies_of_behind hrow)]
    exact rowDecayed_of_settled (hbehind row hrow)

/-! ## Short sources -/

theorem sourceRead_short (stack : Stack) (h : ShortSource row) : stack.sourceRead row.source = row.source := if_pos h

theorem sourceWritten_short (stack : Stack) (h : ShortSource row) : stack.sourceWritten row.source = row.source :=
  if_pos h

/-- On rows with short sources the copies change nothing. -/
theorem decayTickOn_eq (hshort : ∀ row ∈ dbThreatAll db decayMaxRows, ShortSource row) (stack : Stack) (now : Int) :
    decayTickOn stack db now = decayTick db now := by
  have hfold : ∀ (rows : List Threat) (db : Db), (∀ row ∈ rows, ShortSource row) →
      rows.foldl (decayRowOn stack now) db = rows.foldl (decayRow now) db := by
    intro rows
    induction rows with
    | nil => exact fun _ _ => rfl
    | cons row rows ih =>
        intro db h
        have hrow : decayRowOn stack now db row = decayRow now db row := by
          have hshort := h row List.mem_cons_self
          unfold decayRowOn decayRow
          rw [sourceRead_short stack hshort, sourceWritten_short stack hshort]
        rw [List.foldl_cons, List.foldl_cons, hrow, ih _ fun r hr => h r (List.mem_cons_of_mem _ hr)]
  unfold decayTickOn decayTick
  rw [hfold _ _ hshort]

/-- The loaded rows of the next tick have the same sources. -/
theorem short_decayTick (hshort : ∀ row ∈ dbThreatAll db decayMaxRows, ShortSource row) (now : Int) :
    ∀ row ∈ dbThreatAll (decayTick db now) decayMaxRows, ShortSource row := by
  intro row hrow
  rw [dbThreatAll, rows_decayTick, ← List.map_take] at hrow
  obtain ⟨r, hr, rfl⟩ := List.mem_map.mp hrow
  unfold ShortSource
  rw [tickRow_source]
  exact hshort r hr

theorem tickReaches_of_settled (hshort : ∀ row ∈ dbThreatAll db decayMaxRows, ShortSource row)
    (hbehind : ∀ row ∈ db.threatScores.rows.drop decayMaxRows, Settled row) (now : Int) :
    TickReaches db now := by
  intro stack row hrow
  rw [decayTickOn_eq hshort]
  refine ⟨tickRow db now row, ?_, tickRow_source, ?_⟩
  · rw [rows_decayTick]
    exact List.mem_map_of_mem hrow
  · split
    · rename_i hactive
      exact if_neg fun happlies => by simp [happlies.2] at hactive
    · rename_i hactive
      exact rowDecayed_tickRow hbehind hrow (by simpa using hactive)

/-! ## Long sources -/

/-- A stack on which a source that fills its bytes is longer than any of the
table. -/
def longStack (db : Db) : Stack := fun _ =>
  let filler := List.replicate (db.threatScores.rows.map fun row => row.source.toList.length).sum 'x'
  ⟨some 'x', filler, filler⟩

/-- There a source that is too long is written as none of the table. -/
theorem sourceWritten_longStack {r : Threat} (hlong : ¬ ShortSource r) (hrow : row ∈ db.threatScores.rows) :
    (longStack db).sourceWritten r.source ≠ row.source := by
  intro h
  have hle : row.source.toList.length ≤ (db.threatScores.rows.map fun row => row.source.toList.length).sum :=
    List.le_sum_of_mem (List.mem_map_of_mem hrow)
  have hlen : (db.threatScores.rows.map fun row => row.source.toList.length).sum <
      ((longStack db).sourceWritten r.source).toList.length := by
    have hstring : (longStack db).sourceWritten r.source = .ofList (r.source.toList.take sourceCopied ++
        'x' :: List.replicate (db.threatScores.rows.map fun row => row.source.toList.length).sum 'x') := if_neg hlong
    rw [hstring, String.toList_ofList, List.length_append, List.length_cons, List.length_replicate]
    omega
  rw [h] at hlen
  omega

/-- The row of a source that no iteration writes stays. -/
theorem find?_foldl_decayRowOn {stack : Stack} {source : String} (rows : List Threat) (db : Db)
    (h : ∀ r ∈ rows, stack.sourceWritten r.source ≠ source) :
    (rows.foldl (decayRowOn stack now) db).threatScores.find? source = db.threatScores.find? source := by
  induction rows generalizing db with
  | nil => rfl
  | cons r rows ih =>
      rw [List.foldl_cons, ih _ fun q hq => h q (List.mem_cons_of_mem _ hq)]
      unfold decayRowOn
      split
      · rfl
      · exact Sql.Table.find?_upsert_ne (h r List.mem_cons_self)

/-- **A row that is not loaded, or comes back under another name, stays** what
it is. -/
theorem find?_longStack (hrow : row ∈ db.threatScores.rows)
    (hmissed : row ∈ db.threatScores.rows.drop decayMaxRows ∨ ¬ ShortSource row) (now : Int) :
    (decayTickOn (longStack db) db now).threatScores.find? row.source = some row := by
  have hstays : ((dbThreatAll db decayMaxRows).foldl (decayRowOn (longStack db) now) db).threatScores.find?
      row.source = db.threatScores.find? row.source :=
    find?_foldl_decayRowOn _ db fun r hr => by
      by_cases hshort : ShortSource r
      · rw [sourceWritten_short _ hshort]
        intro hsame
        have hmem : r ∈ db.threatScores.rows := List.mem_of_mem_take hr
        obtain rfl : r = row := Sql.Table.eq_of_key hmem hrow hsame
        rcases hmissed with hbehind | hlong
        · have hnodup := db.threatScores.nodup
          rw [← List.take_append_drop decayMaxRows db.threatScores.rows, List.map_append] at hnodup
          exact (List.nodup_append.mp hnodup).2.2 _ (List.mem_map_of_mem hr) _ (List.mem_map_of_mem hbehind) rfl
        · exact hlong hshort
      · exact sourceWritten_longStack hshort hrow
  exact hstays.trans (Sql.Table.find?_eq_some.mpr ⟨hrow, rfl⟩)

/-- There are ticks without signals, long after the last one. -/
theorem exists_silent (db : Db) : ∃ now, ∀ source, dbSignalActive db source (windowStart now) = false := by
  obtain ⟨last, hlast⟩ : ∃ last : Int, ∀ r ∈ db.signalWindow, r.epoch ≤ last := by
    induction db.signalWindow with
    | nil => exact ⟨0, by simp⟩
    | cons r rs ih =>
        obtain ⟨last, hlast⟩ := ih
        refine ⟨max r.epoch last, fun s hs => ?_⟩
        rcases List.mem_cons.mp hs with rfl | hs
        · exact le_max_left _ _
        · exact (hlast s hs).trans (le_max_right _ _)
  refine ⟨last + 120, fun source => ?_⟩
  rw [Bool.eq_false_iff]
  intro hactive
  obtain ⟨r, hr, -, hepoch⟩ := dbSignalActive_iff.mp hactive
  have hle := hlast r hr
  simp only [windowStart, signalWindowSec] at hepoch
  omega

/-- A tick that has to decay a row which stays finds it settled. -/
theorem settled_of_tickReaches (h : TickReaches db now) (hquiet : Quiet db now) (hrow : row ∈ db.threatScores.rows)
    (hmissed : row ∈ db.threatScores.rows.drop decayMaxRows ∨ ¬ ShortSource row) : Settled row := by
  obtain ⟨row', hrow', hsource, hdecayed⟩ := h (longStack db) row hrow
  have hstays := (Sql.Table.find?_eq_some.mp (find?_longStack hrow hmissed now)).1
  obtain rfl : row' = row := Sql.Table.eq_of_key hrow' hstays hsource
  rw [if_neg (by simp [hquiet row' hrow])] at hdecayed
  have hzero : row'.score = 0 := by
    apply eq_zero_of_decayed_eq
    rw [decayed_eq, ← hdecayed.score]
  refine ⟨hzero, ?_⟩
  rw [hdecayed.state, hzero]
  decide +kernel

/-- The loop removes no row. -/
theorem mem_keys_of_mem {stack : Stack} {source : String} (rows : List Threat)
    (h : source ∈ db.threatScores.rows.map Threat.source) :
    source ∈ (rows.foldl (decayRowOn stack now) db).threatScores.rows.map Threat.source := by
  induction rows generalizing db with
  | nil => exact h
  | cons row rows ih =>
      apply ih
      unfold decayRowOn
      split
      · exact h
      · rw [dbThreatUpsert, Sql.Table.keys_upsert]
        split
        · exact h
        · exact List.mem_append_left _ h

/-- Where no source is active, it writes each row. -/
theorem mem_keys_written {stack : Stack} (hsilent : ∀ source, dbSignalActive db source (windowStart now) = false)
    (rows : List Threat) (hrow : row ∈ rows) :
    stack.sourceWritten row.source ∈
      (rows.foldl (decayRowOn stack now) db).threatScores.rows.map Threat.source := by
  induction rows generalizing db with
  | nil => cases hrow
  | cons r rows ih =>
      rcases List.mem_cons.mp hrow with rfl | hrow
      · rw [List.foldl_cons]
        apply mem_keys_of_mem rows
        unfold decayRowOn
        rw [if_neg (by simp [hsilent]), dbThreatUpsert, Sql.Table.keys_upsert]
        split
        · assumption
        · exact List.mem_append_right _ (List.mem_singleton_self _)
      · refine ih (fun source => ?_) hrow
        have hwindow : (decayRowOn stack now db r).signalWindow = db.signalWindow := by
          unfold decayRowOn
          split <;> rfl
        have h := hsilent source
        unfold dbSignalActive at h ⊢
        rwa [hwindow]

/-- A tick that loads a source of 255 bytes may add a row. -/
theorem short_of_keepsSources (h : KeepsSources db) : ∀ row ∈ dbThreatAll db decayMaxRows, ShortSource row := by
  intro row hrow
  by_contra hlong
  obtain ⟨now, hsilent⟩ := exists_silent db
  have hadded : (longStack db).sourceWritten row.source ∈ ((dbThreatAll db decayMaxRows).foldl
      (decayRowOn (longStack db) now) db).threatScores.rows.map Threat.source :=
    mem_keys_written hsilent _ hrow
  have hkeys : ((dbThreatAll db decayMaxRows).foldl (decayRowOn (longStack db) now) db).threatScores.rows.map
      Threat.source = db.threatScores.rows.map Threat.source := h (longStack db) now
  rw [hkeys] at hadded
  obtain ⟨r, hr, hsame⟩ := List.mem_map.mp hadded
  exact sourceWritten_longStack hlong hr hsame.symm

end Tick

/-! ## Any number of ticks -/

/-- What quiet ticks leave of the rows of a table. -/
theorem rows_quietTicks {ticks : List (Stack × Int)} {db : Db}
    (hshort : ∀ row ∈ dbThreatAll db decayMaxRows, ShortSource row)
    (hbehind : ∀ row ∈ db.threatScores.rows.drop decayMaxRows, Settled row)
    (hquiet : QuietTicks db ticks) :
    ∀ row' ∈ (afterTicks db ticks).threatScores.rows, ∃ row ∈ db.threatScores.rows,
      row'.score = decayed^[ticks.length] row.score ∧
        (ticks ≠ [] → row'.state = Scorer.scoreToState row'.score) := by
  induction ticks generalizing db with
  | nil => exact fun row hrow => ⟨row, hrow, rfl, fun h => absurd rfl h⟩
  | cons tick ticks ih =>
      obtain ⟨stack, now⟩ := tick
      obtain ⟨hnow, hrest⟩ := hquiet
      rw [decayTickOn_eq hshort] at hrest
      intro row' hrow'
      have hafter : afterTicks db ((stack, now) :: ticks) = afterTicks (decayTick db now) ticks := by
        rw [← decayTickOn_eq hshort stack now]
        rfl
      rw [hafter] at hrow'
      obtain ⟨mid, hmid, hscore, hstate⟩ :=
        ih (short_decayTick hshort now) (by rwa [rows_behind_decayTick]) hrest row' hrow'
      rw [rows_decayTick] at hmid
      obtain ⟨row, hrow, rfl⟩ := List.mem_map.mp hmid
      have hdecayed := rowDecayed_tickRow hbehind hrow (hnow row hrow)
      refine ⟨row, hrow, ?_, fun _ => ?_⟩
      · rw [hscore, hdecayed.score, ← decayed_eq]
        rfl
      · cases ticks with
        | nil =>
            -- the last tick is the one that sets the state
            have hrow' : row' ∈ (decayTick db now).threatScores.rows := hrow'
            rw [rows_decayTick] at hrow'
            obtain ⟨r, hr, rfl⟩ := List.mem_map.mp hrow'
            exact (rowDecayed_tickRow hbehind hr (hnow r hr)).state
        | cons tick' ticks => exact hstate (List.cons_ne_nil tick' ticks)

/-- Decay reaches a table of short sources with nothing left to decay behind
the first 512 rows. -/
theorem decayReachesAll_of_settled {db : Db} (hrange : ∀ row ∈ db.threatScores.rows, ScoreInRange row)
    (hbehind : ∀ row ∈ db.threatScores.rows.drop decayMaxRows, Settled row)
    (hshort : ∀ row ∈ dbThreatAll db decayMaxRows, ShortSource row) : DecayReachesAll db where
  tick := tickReaches_of_settled hshort hbehind
  settles ticks hlength hquiet row' hrow' := by
    obtain ⟨row, hrow, hscore, hstate⟩ := rows_quietTicks hshort hbehind hquiet row' hrow'
    have hzero : row'.score = 0 := by
      rw [hscore, hlength]
      exact decayed_iterate_eq_zero (hrange row hrow).1 (hrange row hrow).2
    refine ⟨hzero, ?_⟩
    rw [hstate (by rintro rfl; cases hlength), hzero]
    decide +kernel

/-- **Whom decay reaches.** It reaches every inactive source, and adds no row,
exactly if nothing is left to decay behind the first 512 rows and their
sources are short. Where it reaches every inactive source, a row that is
behind them or has a longer source has nothing left to decay. -/
theorem decay_reaches_all_iff (db : Db) (hrange : ∀ row ∈ db.threatScores.rows, ScoreInRange row) :
    (DecayReachesAll db ∧ KeepsSources db ↔
      (∀ row ∈ db.threatScores.rows.drop decayMaxRows, Settled row) ∧
        ∀ row ∈ dbThreatAll db decayMaxRows, ShortSource row) ∧
    (DecayReachesAll db →
      (∀ row ∈ db.threatScores.rows.drop decayMaxRows, Settled row) ∧
        ∀ row ∈ dbThreatAll db decayMaxRows, ShortSource row ∨ Settled row) := by
  have hneeded : DecayReachesAll db → ∀ row ∈ db.threatScores.rows,
      row ∈ db.threatScores.rows.drop decayMaxRows ∨ ¬ ShortSource row → Settled row := by
    intro h row hrow hmissed
    obtain ⟨now, hsilent⟩ := exists_silent db
    exact settled_of_tickReaches (h.tick now) (fun r _ => hsilent r.source) hrow hmissed
  refine ⟨⟨fun h => ⟨fun row hrow => ?_, short_of_keepsSources h.2⟩, fun h => ⟨?_, ?_⟩⟩,
    fun h => ⟨fun row hrow => ?_, fun row hrow => ?_⟩⟩
  · exact hneeded h.1 row (List.mem_of_mem_drop hrow) (.inl hrow)
  · exact decayReachesAll_of_settled hrange h.1 h.2
  · intro stack now
    rw [decayTickOn_eq h.2, keys_decayTick]
  · exact hneeded h row (List.mem_of_mem_drop hrow) (.inl hrow)
  · by_cases hshort : ShortSource row
    · exact .inl hshort
    · exact .inr (hneeded h row (List.mem_of_mem_take hrow) (.inr hshort))

/-- One row, of a jailed app. -/
def oneRow : Db :=
  { Db.empty with threatScores := ⟨[⟨"com.example.app", 95, .jailed, 1, 0, 0⟩], by simp⟩ }

theorem decay_reaches_all_iff_one : DecayReachesAll oneRow ∧ KeepsSources oneRow := by
  have hrange : ∀ row ∈ oneRow.threatScores.rows, ScoreInRange row := by
    intro row hrow
    rw [List.mem_singleton.mp hrow]
    exact ⟨by norm_num, by norm_num⟩
  refine (decay_reaches_all_iff oneRow hrange).1.mpr ⟨fun row hrow => ?_, fun row hrow => ?_⟩
  · cases hrow
  · obtain rfl := List.mem_singleton.mp hrow
    unfold ShortSource
    decide

/-- The row of a quarantined app. -/
def quarantinedRow (i : Nat) : Threat := ⟨i.repr, 50, .quarantined, 0, 1, 0⟩

/-- A table of this many quarantined apps. -/
def quarantined (n : Nat) : Db :=
  { Db.empty with
    threatScores :=
      ⟨(List.range n).map quarantinedRow, by
        rw [List.map_map]
        exact List.nodup_range.map fun _ _ h => CText.natRepr_injective h⟩ }

theorem mem_drop_quarantined (n : Nat) :
    quarantinedRow n ∈ (quarantined (n + 1)).threatScores.rows.drop n := by
  show quarantinedRow n ∈ ((List.range (n + 1)).map quarantinedRow).drop n
  rw [List.range_succ, List.map_append, List.drop_left' (by simp)]
  exact List.mem_singleton_self _

/-- With one row more than a tick loads, the last one is never decayed. -/
theorem last_row_never_decayed : ¬ DecayReachesAll (quarantined (decayMaxRows + 1)) := by
  intro h
  obtain ⟨now, hsilent⟩ := exists_silent (quarantined (decayMaxRows + 1))
  have hbehind := mem_drop_quarantined decayMaxRows
  have hsettled := settled_of_tickReaches (h.tick now) (fun r _ => hsilent r.source) (List.mem_of_mem_drop hbehind)
    (.inl hbehind)
  have hzero : (50 : ℚ) = 0 := hsettled.1
  norm_num at hzero

end MiuiserPeruser.Gaveld
