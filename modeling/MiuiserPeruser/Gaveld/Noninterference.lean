import Mathlib.Data.Finset.Card
import MiuiserPeruser.Gaveld.Scoring

/-!
# gaveld — one source does not see another

`signal_window` is shared: every scoring prunes the rows of all sources,
and a decay tick loads all rows of `threat_scores` at once. Still the
score and the log of a source depend on the calls that concern it and on
nothing else, as long as the table fits the tick's 512 rows.

The proof compares a run with the run of the calls that concern the
source alone (`purged_run_agrees`). What they have to agree about, apart
from the rows of the source, is what the calls STILL TO COME will see of
the window. Another source's scoring may prune the window up to its own
time, so it must not have read a later time than a call that follows.
-/

namespace MiuiserPeruser.Gaveld

open Scorer Decay

/-- The time a call read. -/
def Call.now : Call → Int
  | .scorer c => c.now
  | .decay now => now

/-- A scoring of the source, or a tick. -/
def Call.concerns (source : String) : Call → Bool
  | .scorer c => c.source = source
  | .decay _ => true

/-- The source a call scores. -/
def Call.source? : Call → Option String
  | .scorer c => some c.source
  | .decay _ => none

/-- Where a call's window starts. -/
def Call.since (call : Call) : Int := windowStart call.now

/-- The rows of `scoring_log` of a source, oldest first; their ids aside. -/
def logOf (db : Db) (source : String) : List ScoringRow :=
  db.scoringLog.filter fun r => r.source = source

/-- No scoring of another source read a later time than a call after it
that concerns `source`. -/
def NoSetback (source : String) (calls : List Call) : Prop :=
  calls.Pairwise fun a b => a.concerns source = false → b.concerns source = true → a.now ≤ b.now

instance (source : String) (calls : List Call) : Decidable (NoSetback source calls) :=
  inferInstanceAs (Decidable (calls.Pairwise _))

/-! ## What a call does, seen from one source -/

theorem find?_scorerProcess (db : Db) (c : ScorerCall) (source : String) :
    (scorerProcess db c).1.threatScores.find? source =
      if c.source = source then some (rescored c (dbThreatLoad db c.source) (seenSignals db c))
      else db.threatScores.find? source := by
  have hfind := Sql.Table.find?_upsert db.threatScores
    (rescored c (dbThreatLoad db c.source) (seenSignals db c)) source
  rw [rescored_source, dbThreatLoad_source] at hfind
  exact hfind

theorem logOf_scorerProcess (db : Db) (c : ScorerCall) (source : String) :
    logOf (scorerProcess db c).1 source =
      if c.source = source then
        logOf db source ++ [logRow c (dbThreatLoad db c.source) (seenSignals db c)]
      else logOf db source := by
  rw [logOf, scorerProcess_scoringLog, List.filter_append]
  by_cases hs : c.source = source
  · simp [logOf, logRow, hs]
  · simp [logOf, logRow, hs]

/-- A prune takes the pruned rows out of what a query sees. -/
theorem signalsSince_pruned (db : Db) (cutoff : Int) (source : String) (since : Int) :
    signalsSince (dbSignalPrune db cutoff).signalWindow source since =
      (signalsSince db.signalWindow source since).filter fun r => ¬ r.epoch < cutoff := by
  simp only [dbSignalPrune, signalsSince, List.filter_filter, Bool.and_comm]

/-- A scoring of another source, no later than the query's own time,
leaves the query alone. -/
theorem signalsSince_scorerProcess_ne {c : ScorerCall} {source : String} (hs : c.source ≠ source)
    {since : Int} (hsince : c.since ≤ since) (db : Db) :
    signalsSince (scorerProcess db c).1.signalWindow source since =
      signalsSince db.signalWindow source since := by
  have hins := signalsSince_insert db ⟨c.source, c.signal, c.now⟩ source since
  rw [signalsSince_singleton_ne hs, List.append_nil] at hins
  show signalsSince (dbSignalPrune (dbSignalInsert db c.source c.signal c.now) c.since).signalWindow
    source since = _
  rw [signalsSince_prune, hins]
  intro r hr
  have hnew := (mem_signalsSince.mp hr).2.2
  omega

theorem signalsSince_scorerProcess_self (db : Db) (c : ScorerCall) (since : Int) :
    signalsSince (scorerProcess db c).1.signalWindow c.source since =
      (signalsSince db.signalWindow c.source since ++
        signalsSince [⟨c.source, c.signal, c.now⟩] c.source since).filter
          fun r => ¬ r.epoch < c.since := by
  rw [← signalsSince_insert db ⟨c.source, c.signal, c.now⟩]
  exact signalsSince_pruned _ _ _ _

theorem keys_scorerProcess (db : Db) (c : ScorerCall) {k : String}
    (h : k ∈ (scorerProcess db c).1.threatScores.rows.map Threat.source) :
    k ∈ db.threatScores.rows.map Threat.source ∨ k = c.source := by
  obtain ⟨r, hr⟩ := Sql.Table.mem_keys_iff.mp h
  rw [find?_scorerProcess] at hr
  by_cases hs : c.source = k
  · exact .inr hs.symm
  · rw [if_neg hs] at hr
    exact .inl (Sql.Table.mem_keys_iff.mpr ⟨r, hr⟩)

/-- A table of at most 512 rows is loaded whole by a tick. -/
theorem dbThreatAll_whole {db : Db} (h : db.threatScores.rows.length ≤ decayMaxRows) :
    dbThreatAll db decayMaxRows = db.threatScores.rows := List.take_of_length_le h

/-- A table whose sources are all among `sources` has no more rows. -/
theorem rows_length_le {db : Db} {sources : Finset String}
    (h : ∀ k ∈ db.threatScores.rows.map Threat.source, k ∈ sources) :
    db.threatScores.rows.length ≤ sources.card := by
  have hcard := Finset.card_le_card (s := (db.threatScores.rows.map Threat.source).toFinset)
    (t := sources) fun k hk => h k (List.mem_toFinset.mp hk)
  rwa [List.toFinset_card_of_nodup db.threatScores.nodup, List.length_map] at hcard

/-! ## Agreement about a source -/

/-- Two databases agree about a source: its rows, and what the calls
still to come will see of the window. `sources` bounds both tables. -/
structure AgreeAbout (source : String) (sources : Finset String) (rest : List Call) (db db' : Db) :
    Prop where
  row : db.threatScores.find? source = db'.threatScores.find? source
  log : logOf db source = logOf db' source
  window : ∀ call ∈ rest, call.concerns source = true →
    signalsSince db.signalWindow source call.since = signalsSince db'.signalWindow source call.since
  setback : NoSetback source rest
  coming : ∀ call ∈ rest, ∀ k, call.source? = some k → k ∈ sources
  keys : ∀ k ∈ db.threatScores.rows.map Threat.source, k ∈ sources
  keys' : ∀ k ∈ db'.threatScores.rows.map Threat.source, k ∈ sources

namespace AgreeAbout

variable {source : String} {sources : Finset String} {rest : List Call} {db db' : Db}

theorem load (h : AgreeAbout source sources rest db db') :
    dbThreatLoad db source = dbThreatLoad db' source := by
  rw [dbThreatLoad, dbThreatLoad, h.row]

/-- Another source's scoring. -/
theorem skip {c : ScorerCall} (hs : c.source ≠ source)
    (h : AgreeAbout source sources (.scorer c :: rest) db db') :
    AgreeAbout source sources rest (scorerProcess db c).1 db' where
  row := by rw [find?_scorerProcess, if_neg hs, h.row]
  log := by rw [logOf_scorerProcess, if_neg hs, h.log]
  window := by
    intro call hcall hconcerns
    have hnow : c.now ≤ call.now :=
      (List.pairwise_cons.mp h.setback).1 call hcall (by simp [Call.concerns, hs]) hconcerns
    have hsince : c.since ≤ call.since := Int.sub_le_sub_right hnow _
    rw [signalsSince_scorerProcess_ne hs hsince]
    exact h.window call (List.mem_cons_of_mem _ hcall) hconcerns
  setback := (List.pairwise_cons.mp h.setback).2
  coming := fun call hcall => h.coming call (List.mem_cons_of_mem _ hcall)
  keys := by
    intro k hk
    rcases keys_scorerProcess db c hk with hk | rfl
    · exact h.keys k hk
    · exact h.coming _ List.mem_cons_self _ rfl
  keys' := h.keys'

/-- The source's own scoring, in both runs. -/
theorem scoring {c : ScorerCall} (hs : c.source = source)
    (h : AgreeAbout source sources (.scorer c :: rest) db db') :
    AgreeAbout source sources rest (scorerProcess db c).1 (scorerProcess db' c).1 := by
  subst hs
  have hload := h.load
  have hseen : seenSignals db c = seenSignals db' c :=
    seenSignals_congr (h.window _ List.mem_cons_self (by simp [Call.concerns]))
  exact
    { row := by rw [find?_scorerProcess, find?_scorerProcess, hload, hseen, h.row]
      log := by rw [logOf_scorerProcess, logOf_scorerProcess, hload, hseen, h.log]
      window := by
        intro call hcall hconcerns
        rw [signalsSince_scorerProcess_self, signalsSince_scorerProcess_self,
          h.window call (List.mem_cons_of_mem _ hcall) hconcerns]
      setback := (List.pairwise_cons.mp h.setback).2
      coming := fun call hcall => h.coming call (List.mem_cons_of_mem _ hcall)
      keys := by
        intro k hk
        rcases keys_scorerProcess db c hk with hk | rfl
        · exact h.keys k hk
        · exact h.coming _ List.mem_cons_self _ rfl
      keys' := by
        intro k hk
        rcases keys_scorerProcess db' c hk with hk | rfl
        · exact h.keys' k hk
        · exact h.coming _ List.mem_cons_self _ rfl }

/-- A tick applies to a source in both runs or in neither. -/
theorem applies {now : Int} (hcard : sources.card ≤ decayMaxRows)
    (h : AgreeAbout source sources (.decay now :: rest) db db') :
    Decay.Applies db now source ↔ Decay.Applies db' now source := by
  have hactive : dbSignalActive db source (windowStart now) =
      dbSignalActive db' source (windowStart now) :=
    dbSignalActive_congr (h.window _ List.mem_cons_self rfl)
  unfold Decay.Applies
  rw [dbThreatAll_whole ((rows_length_le h.keys).trans hcard),
    dbThreatAll_whole ((rows_length_le h.keys').trans hcard), hactive,
    Sql.Table.mem_keys_iff, Sql.Table.mem_keys_iff, h.row]

/-- A tick, in both runs. -/
theorem tick {now : Int} (hcard : sources.card ≤ decayMaxRows)
    (h : AgreeAbout source sources (.decay now :: rest) db db') :
    AgreeAbout source sources rest (decayTick db now) (decayTick db' now) where
  row := by
    rw [find?_decayTick, find?_decayTick, h.row]
    simp only [h.applies hcard]
  log := by
    rw [logOf, logOf, decayTick_scoringLog, decayTick_scoringLog]
    exact h.log
  window := by
    intro call hcall hconcerns
    rw [decayTick_signalWindow, decayTick_signalWindow, signalsSince_pruned, signalsSince_pruned,
      h.window call (List.mem_cons_of_mem _ hcall) hconcerns]
  setback := (List.pairwise_cons.mp h.setback).2
  coming := fun call hcall => h.coming call (List.mem_cons_of_mem _ hcall)
  keys := by rw [keys_decayTick]; exact h.keys
  keys' := by rw [keys_decayTick]; exact h.keys'

end AgreeAbout

/-! ## Whole runs -/

end MiuiserPeruser.Gaveld
