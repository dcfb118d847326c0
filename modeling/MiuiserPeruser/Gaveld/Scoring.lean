import MiuiserPeruser.Lib.Run
import MiuiserPeruser.Gaveld.Scorer
import MiuiserPeruser.Gaveld.Decay

/-!
# gaveld — concurrent scoring

`scorer_process` runs on the scorer thread and on the socket thread,
`decay_tick` on the decay thread and on the socket thread. Here any
number of such calls run against one database, interleaved at their
database calls: a label names the call that makes its next database
call. A tick that finds the internal-affairs lock makes no database call
and is no call here.

The machine emits one event for every write to `threat_scores`, with the
score its call had loaded and the score it wrote.
-/

namespace MiuiserPeruser.Gaveld

open Scorer Decay

/-- A call, with the time it read. -/
inductive Call where
  | scorer (c : ScorerCall)
  | decay (now : Int)
  deriving DecidableEq

/-- A call at a program point. -/
inductive CallState where
  | scorer (c : ScorerCall) (pc : ScorerPc)
  | decay (now : Int) (pc : DecayPc)
  deriving DecidableEq

def Call.start : Call → CallState
  | .scorer c => .scorer c .load
  | .decay now => .decay now .all

/-- The next database call of a call. -/
def CallState.step (db : Db) : CallState → Db × CallState
  | .scorer c pc => ((scorerStep db c pc).1, .scorer c (scorerStep db c pc).2)
  | .decay now pc => ((decayStep db now pc).1, .decay now (decayStep db now pc).2)

/-- The whole call, uninterrupted. -/
def runCall (db : Db) : Call → Db
  | .scorer c => (scorerProcess db c).1
  | .decay now => decayTick db now

/-- Which function wrote a row of `threat_scores`. -/
inductive Writer where
  | scorerProcess | decayTick
  deriving DecidableEq

/-- A write to `threat_scores`. -/
structure ScoreWrite where
  writer : Writer
  source : String
  loaded : ℚ
  written : ℚ

/-- What the next database call writes to `threat_scores`. -/
def CallState.writes : CallState → List ScoreWrite
  | .scorer c (.upsert record ss) =>
      [⟨.scorerProcess, record.source, record.score, (rescored c record ss).score⟩]
  | .decay now (.upsert row _) =>
      [⟨.decayTick, row.source, row.score, (updated now row).score⟩]
  | _ => []

/-- The database and the calls in flight. -/
structure Scoring where
  db : Db
  calls : List CallState

def Scoring.start (db : Db) (calls : List Call) : Scoring := ⟨db, calls.map Call.start⟩

/-- Call `i` makes its next database call. -/
def scoringStep (s : Scoring) (i : Nat) : Scoring × List ScoreWrite :=
  match s.calls[i]? with
  | none => (s, [])
  | some c => (⟨(c.step s.db).1, s.calls.set i (c.step s.db).2⟩, c.writes)

/-- The interleaving of `calls` that the schedule `ls` chooses. -/
def interleave (db : Db) (calls : List Call) (ls : List Nat) : Scoring × List ScoreWrite :=
  Machine.run scoringStep (.start db calls) ls

end MiuiserPeruser.Gaveld
