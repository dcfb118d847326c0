import MiuiserPeruser.Lib.CNumber
import MiuiserPeruser.Lib.Table

/-!
# splinterd — the accumulation store (`sewer_db.c`)

The tables of `sewer.db` and the statements `sewer_db_record_emit` makes
on them, in their order. `emit_state` has a row for each pair of source
and event type, `emit_transitions` is appended to on a change only,
`daemon_stats` counts, and a rollup summarises the transitions in
`sewer_rats` before it deletes them. All statements succeed.

`now_iso` is a time stamp from the outside; what `strptime` and `mktime`
make of one depends on the time zone and is the parameter `mktime`. Row
ids and the vacuuming are left out.
-/

namespace MiuiserPeruser.Splinter

open CText Sql

/-- `ROLLUP_CAP`. -/
def rollupCap : Nat := 500
/-- `GAP_THRESHOLD_SEC`. -/
def gapThresholdSec : Int := 1800

/-! ## Tables -/

/-- A row of `emit_state`. -/
structure EmitRow where
  source : String
  eventType : String
  firstSeen : String
  lastSeen : String
  repeatCount : Nat
  lastDetail : String
  deriving DecidableEq

/-- `PRIMARY KEY (source, event_type)`. -/
def EmitRow.pair (r : EmitRow) : String × String := (r.source, r.eventType)

/-- The `transition_type` column. -/
inductive TransitionType where
  | firstSeen | resumed
  deriving DecidableEq, Repr

def TransitionType.text : TransitionType → String
  | .firstSeen => "first_seen"
  | .resumed => "resumed"

/-- A row of `emit_transitions`. -/
structure TransitionRow where
  source : String
  eventType : String
  transitionType : TransitionType
  ts : String
  detail : String
  deriving DecidableEq

/-- A row of `daemon_stats`. The last event is NULL before the first one. -/
structure StatsRow where
  name : String
  totalEmitted : Nat
  lastEvent : Option (String × String)
  deriving DecidableEq

/-- A row of `sewer_rats`. -/
structure RatRow where
  rollupTs : String
  summary : List Char
  deriving DecidableEq

structure SewerDb where
  emitState : Table EmitRow EmitRow.pair
  emitTransitions : List TransitionRow
  daemonStats : Table StatsRow StatsRow.name
  sewerRats : List RatRow

/-- The names `init_sewer_db.sh` puts into `daemon_stats`. -/
def daemonSources : List String :=
  ["krangd", "turtlecomd", "tigerclawd", "rocksteadyd", "ratkingd", "rahzerd", "leatherheadd",
    "bebopd", "fugitoidd", "shredderd", "burned", "granitord", "metalheadd"]

/-- The schema as `init_sewer_db.sh` leaves it. -/
def SewerDb.schema : SewerDb where
  emitState := .empty
  emitTransitions := []
  daemonStats := ⟨daemonSources.map fun name => ⟨name, 0, none⟩, by decide⟩
  sewerRats := []

/-- A statement that writes. The deleted rows go with the DELETE. -/
inductive SewerWrite where
  | state (r : EmitRow)
  | transition (r : TransitionRow)
  | stats (r : StatsRow)
  | rat (r : RatRow)
  | deleteTransitions (rows : List TransitionRow)

/-! ## Rollup -/

/-- The rows of the GROUP BY query: each type that occurs, its count and
its distinct sources in the order they come up. -/
def transitionGroups (rows : List TransitionRow) : List (TransitionType × Nat × List String) :=
  ([.firstSeen, .resumed].map fun t =>
    let of := rows.filter fun r => r.transitionType = t
    (t, of.length, (of.map TransitionRow.source).reverse.dedup.reverse)).filter fun g => g.2.1 ≠ 0

/-- `%s x%d (%s); `. -/
def groupText (g : TransitionType × Nat × List String) : List Char :=
  g.1.text.toList ++ " x".toList ++ decimal g.2.1 ++ " (".toList ++
    (",".intercalate g.2.2).toList ++ "); ".toList

/-- The loop over the groups; `off` counts what `snprintf` returned. -/
def summaryLoop : List Char → Nat → List (TransitionType × Nat × List String) → List Char × Nat
  | text, off, [] => (text, off)
  | text, off, g :: groups =>
      if off < 1024 - 150 then
        summaryLoop (text ++ snprintf (1024 - off) (groupText g)) (off + (groupText g).length)
          groups
      else (text, off)

/-- `summary`. -/
def rollupSummary (rows : List TransitionRow) : List Char :=
  let (text, off) := summaryLoop [] 0 (transitionGroups rows)
  if off = 0 then "no transitions this period".toList else text

/-- `do_rollup`. -/
def doRollup (ts : String) (db : SewerDb) : SewerDb × List SewerWrite :=
  let rat : RatRow := ⟨ts, rollupSummary db.emitTransitions⟩
  ({ db with sewerRats := db.sewerRats ++ [rat], emitTransitions := [] },
    [.rat rat, .deleteTransitions db.emitTransitions])

/-- `maybe_rollup`. -/
def maybeRollup (ts : String) (db : SewerDb) : SewerDb × List SewerWrite :=
  if db.emitTransitions.length ≥ rollupCap then doRollup ts db else (db, [])

/-! ## Recording an emission -/

/-- A call of `sewer_db_record_emit`, with the time stamps it reads: `ts`
first, `rollupTs` in a rollup. -/
structure EmitCall where
  source : String
  eventType : String
  detail : Option String
  ts : String
  rollupTs : String
  deriving DecidableEq

def EmitCall.pair (c : EmitCall) : String × String := (c.source, c.eventType)

section Record

variable (mktime : List Char → Int) (db : SewerDb) (c : EmitCall)

/-- `transition_type`, or `none` for NULL. -/
def transitionOf : Option TransitionType :=
  match db.emitState.find? c.pair with
  | none => some .firstSeen
  | some row =>
      let lastSeen := row.lastSeen.toList.take 31
      if lastSeen ≠ [] ∧ mktime c.ts.toList - mktime lastSeen ≥ gapThresholdSec then some .resumed
      else none

/-- The row the upsert of `emit_state` leaves. -/
def upsertedState : EmitRow :=
  match db.emitState.find? c.pair with
  | none => ⟨c.source, c.eventType, c.ts, c.ts, 1, c.detail.getD ""⟩
  | some row =>
      { row with
        lastSeen := c.ts, repeatCount := row.repeatCount + 1, lastDetail := c.detail.getD "" }

/-- The row the upsert of `daemon_stats` leaves. -/
def upsertedStats : StatsRow :=
  match db.daemonStats.find? c.source with
  | none => ⟨c.source, 1, some (c.eventType, c.ts)⟩
  | some row =>
      { row with totalEmitted := row.totalEmitted + 1, lastEvent := some (c.eventType, c.ts) }

/-- `sewer_db_record_emit`, up to the rollup. -/
def recordRows : SewerDb × List SewerWrite :=
  let row := upsertedState db c
  let transitions := (transitionOf mktime db c).toList.map fun t =>
    (⟨c.source, c.eventType, t, c.ts, c.detail.getD ""⟩ : TransitionRow)
  let stats := upsertedStats db c
  ({ db with
      emitState := db.emitState.upsert row,
      emitTransitions := db.emitTransitions ++ transitions,
      daemonStats := db.daemonStats.upsert stats },
    .state row :: transitions.map .transition ++ [.stats stats])

/-- `sewer_db_record_emit`: the database afterwards, and the writes in
their order. -/
def sewerDbRecordEmit : SewerDb × List SewerWrite :=
  let recorded := recordRows mktime db c
  let rollup :=
    if (transitionOf mktime db c).isSome then maybeRollup c.rollupTs recorded.1
    else (recorded.1, [])
  (rollup.1, recorded.2 ++ rollup.2)

end Record

end MiuiserPeruser.Splinter
