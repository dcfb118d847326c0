import MiuiserPeruser.Lib.History
import MiuiserPeruser.Lib.Run
import MiuiserPeruser.Ratking.Poll

/-!
# ratkingd — how long a process lives (`ratkingd.c`)

An entry of the table carries over from the one of the last poll with the same
number: `polls_alive` counts on, and `first_seen` stays. So they tell in how many
of the last polls the number was listed without a gap, and when it was read in the
first of them.

A flash process is one that has lived less than five seconds, and more than
none. But in its first poll it has lived none, and the next poll comes twelve
seconds later: while the clock goes forward no process is ever taken for one
(`lifecycle_exact`).
-/

namespace MiuiserPeruser.Ratking

open CText History

/-! ## The polls of a daemon -/

/-- `POLL_SEC`. -/
def pollSec : Int := 12

section Run

variable {K : Type} [Field K] (sqrt : K → K) (byCpu : List Proc → List Proc)

/-- A poll, with what it found; nothing if it could not open /proc. -/
def pollStep (st : PollState K) (i : PollInput) : PollState K × List (PollInput × PollResult) :=
  let r := pollProcs sqrt byCpu st i
  (r.1, r.2.toList.map fun found => (i, found))

/-- The loop of `main`. -/
def pollsRun (inputs : List PollInput) : PollState K × List (PollInput × PollResult) :=
  Machine.run (pollStep sqrt byCpu) (.initial K) inputs

end Run

/-- When the entries of /proc were read. -/
def PollInput.times (i : PollInput) : List Int := (i.dir.map fun dir => dir.entries.map (·.now)).getD []

/-- The clock goes forward by at least the lifetime of a flash process from one poll to the
next, and not by more than an `int` can tell. -/
def Spaced (i j : PollInput) : Prop :=
  ∀ s ∈ i.times, ∀ t ∈ j.times, flashLifetime ≤ t - s ∧ t - s < 2 ^ 31

/-- The table lists the number. -/
def lists (pid : Int) (table : List Proc) : Bool := table.any (·.pid = pid)

/-- The last tables that list the number, without a gap. -/
def lifetime (tables : List (List Proc)) (pid : Int) : List (List Proc) :=
  tables.rtakeWhile (lists pid)

/-- The entry tells in how many tables the process was listed, and when it was first. -/
structure AgedEntry (tables : List (List Proc)) (p : Proc) : Prop where
  alive : p.pollsAlive = wrap32 (lifetime tables p.pid).length
  first : ∃ table q, (lifetime tables p.pid).head? = some table ∧ q ∈ table ∧ q.pid = p.pid ∧
    p.firstSeen = q.lastSeen

/-- The tables of some polls. -/
def tablesOf (polls : List (PollInput × PollResult)) : List (List Proc) :=
  polls.map fun e => e.2.procs

/-- The entries of a poll are those of its tables so far. -/
def Aged (earlier : List (PollInput × PollResult)) (e : PollInput × PollResult) : Prop :=
  ∀ p ∈ e.2.procs, AgedEntry (tablesOf earlier ++ [e.2.procs]) p

/-! ## An entry -/

section Entry

variable {K : Type} {st : PollState K} {deltaJ : Int} {e : ProcEntry} {p : Proc}

/-- The entry of the last poll. -/
def lastEntry (st : PollState K) (pid : Int) : Option Proc :=
  if st.first then none else st.prev.find? (·.pid = pid)

theorem readEntry_age (h : readEntry st deltaJ e = some p) :
    p.lastSeen = e.now ∧
      p.firstSeen = ((lastEntry st p.pid).map Proc.firstSeen).getD p.lastSeen ∧
      p.pollsAlive = ((lastEntry st p.pid).map fun q => wrap32 (q.pollsAlive + 1)).getD 1 := by
  have hpid := pid_readEntry h
  obtain ⟨text, -, rfl⟩ := Option.map_eq_some_iff.mp h
  rw [lastEntry, hpid]
  exact ⟨rfl, rfl, rfl⟩

theorem mem_readTable {dir : ProcDir} (h : p ∈ readTable st deltaJ dir) :
    ∃ e ∈ dir.entries, readEntry st deltaJ e = some p := by
  obtain ⟨e, he, hread⟩ := List.mem_filterMap.mp (List.mem_of_mem_take h)
  exact ⟨e, (List.mem_filter.mp he).1, hread⟩

theorem lists_of_mem {table : List Proc} (h : p ∈ table) : lists p.pid table = true :=
  List.any_eq_true.mpr ⟨p, h, decide_eq_true rfl⟩

end Entry

/-! ## What the last table says -/

/-- The statics are those of the last table. -/
structure Keeps {K : Type} (st : PollState K) (tables : List (List Proc)) : Prop where
  first : st.first = tables.isEmpty
  prev : ∀ table, tables.getLast? = some table → st.prev = table
  aged : ∀ table, tables.getLast? = some table → ∀ p ∈ table, AgedEntry tables p

section Step

variable {K : Type} {st : PollState K} {tables : List (List Proc)} {deltaJ : Int} {dir : ProcDir}
  {p : Proc}

/-- A process that the last table does not list begins anew. -/
theorem lastEntry_eq_none (h : Keeps st tables) {pid : Int} (hnone : lastEntry st pid = none) :
    lifetime tables pid = [] := by
  induction tables using List.reverseRecOn with
  | nil => rfl
  | append_singleton front table =>
      have hfirst : st.first = false := by
        rw [h.first]
        simp
      rw [lastEntry, hfirst, h.prev table List.getLast?_concat] at hnone
      simp only [Bool.false_eq_true, if_false] at hnone
      have hnot : ¬ lists pid table = true := by
        rw [lists, List.any_eq_true]
        rintro ⟨q, hq, hpid⟩
        exact List.find?_eq_none.mp hnone q hq hpid
      exact List.rtakeWhile_concat_neg _ _ _ hnot

/-- One that is listed there has its age from there. -/
theorem lastEntry_eq_some (h : Keeps st tables) {pid : Int} {q : Proc}
    (hsome : lastEntry st pid = some q) : q.pid = pid ∧ AgedEntry tables q ∧ lifetime tables pid ≠ [] := by
  unfold lastEntry at hsome
  induction tables using List.reverseRecOn with
  | nil =>
      rw [h.first] at hsome
      cases hsome
  | append_singleton front table =>
      have hfirst : st.first = false := by
        rw [h.first]
        simp
      rw [hfirst, h.prev table List.getLast?_concat] at hsome
      simp only [Bool.false_eq_true, if_false] at hsome
      have hmem := List.mem_of_find?_eq_some hsome
      have hpid : q.pid = pid := by simpa using List.find?_some hsome
      refine ⟨hpid, h.aged table List.getLast?_concat q hmem, ?_⟩
      rw [lifetime, ← hpid, List.rtakeWhile_concat_pos _ _ _ (lists_of_mem hmem)]
      exact List.append_ne_nil_of_right_ne_nil _ (List.cons_ne_nil _ _)

/-- **The entries of the next table are aged.** -/
theorem Keeps.entry (h : Keeps st tables) (hp : p ∈ readTable st deltaJ dir) :
    AgedEntry (tables ++ [readTable st deltaJ dir]) p := by
  obtain ⟨e, -, hread⟩ := mem_readTable hp
  obtain ⟨-, hfirst, halive⟩ := readEntry_age hread
  have hlife : lifetime (tables ++ [readTable st deltaJ dir]) p.pid =
      lifetime tables p.pid ++ [readTable st deltaJ dir] :=
    List.rtakeWhile_concat_pos _ _ _ (lists_of_mem hp)
  cases hlast : lastEntry st p.pid with
  | none =>
      rw [hlast] at hfirst halive
      rw [lastEntry_eq_none h hlast, List.nil_append] at hlife
      have hone : wrap32 1 = 1 := wrap32_of_isInt (by decide)
      constructor
      · rw [hlife, halive, List.length_singleton, Nat.cast_one, hone]
        rfl
      · exact ⟨_, p, by rw [hlife]; rfl, hp, rfl, hfirst⟩
  | some q =>
      rw [hlast] at hfirst halive
      obtain ⟨hpid, hq, hne⟩ := lastEntry_eq_some h hlast
      constructor
      · rw [hlife, halive, Option.map_some, Option.getD_some, hq.alive, hpid, wrap32_add,
          List.length_append, List.length_singleton]
        push_cast
        rfl
      · obtain ⟨table, r, hhead, hmem, hr, hseen⟩ := hq.first
        rw [hpid] at hhead hr
        refine ⟨table, r, ?_, hmem, hr, ?_⟩
        · rw [hlife, List.head?_append, hhead]
          rfl
        · rw [hfirst, Option.map_some, Option.getD_some, hseen]

end Step

section Poll

variable {K : Type} [Field K] {sqrt : K → K} {byCpu : List Proc → List Proc} {st : PollState K}
  {tr : List (PollInput × PollResult)} {i : PollInput} {r : PollResult}

/-- A poll reads one table, and keeps it. -/
theorem pollProcs_table (h : (pollProcs sqrt byCpu st i).2 = some r) :
    ∃ dir deltaJ, i.dir = some dir ∧ r.procs = readTable st deltaJ dir ∧
      (pollProcs sqrt byCpu st i).1.prev = r.procs ∧ (pollProcs sqrt byCpu st i).1.first = false := by
  unfold pollProcs at h ⊢
  cases hdir : i.dir with
  | none =>
      rw [hdir] at h
      cases h
  | some dir =>
      rw [hdir] at h
      obtain rfl := Option.some.inj h
      exact ⟨dir, _, rfl, rfl, rfl, rfl⟩

theorem pollProcs_none (h : (pollProcs sqrt byCpu st i).2 = none) :
    (pollProcs sqrt byCpu st i).1 = st := by
  unfold pollProcs at h ⊢
  cases hdir : i.dir with
  | none => rfl
  | some dir =>
      rw [hdir] at h
      cases h

omit [Field K] in
/-- The processes that make a `FLASH_PROCESS`. -/
theorem flash_of_procSignals {procs : List Proc} {temp : Int} {s : Signal}
    (hs : s ∈ procSignals byCpu procs temp) (htype : s.type = "FLASH_PROCESS") :
    ∃ p ∈ procs, p.isFlash = true := by
  have hother : ∀ {type : String} {ctx : List Char}, s = ⟨type, ctx⟩ → type = "FLASH_PROCESS" :=
    fun hs => by rw [hs] at htype; exact htype
  unfold procSignals at hs
  rcases List.mem_append.mp hs with hs | hs
  · rcases List.mem_append.mp hs with hs | hs
    · split at hs
      · exact absurd (hother (List.mem_singleton.mp hs)) (by decide)
      · cases hs
    · obtain ⟨a, -, ha⟩ := List.mem_map.mp hs
      exact absurd (hother ha.symm) (by decide)
  · split at hs
    · rename_i hpos
      obtain ⟨p, hp⟩ := List.exists_mem_of_length_pos hpos
      exact ⟨p, (List.mem_filter.mp hp).1, (List.mem_filter.mp hp).2⟩
    · cases hs

/-- A poll that sends `FLASH_PROCESS` has one in its table. -/
theorem flash_of_signal (hr : (pollProcs sqrt byCpu st i).2 = some r) {s : Signal} (hs : s ∈ r.signals)
    (htype : s.type = "FLASH_PROCESS") : ∃ p ∈ r.procs, p.isFlash = true := by
  unfold pollProcs at hr
  cases hdir : i.dir with
  | none =>
      rw [hdir] at hr
      cases hr
  | some dir =>
      rw [hdir] at hr
      obtain rfl := Option.some.inj hr
      rcases List.mem_append.mp hs with hs | hs
      · obtain ⟨a, -, rfl⟩ := List.mem_map.mp hs
        exact absurd htype (by simp)
      · exact flash_of_procSignals hs htype

/-- The polls of a run, the inputs they are of, and the statics. -/
structure Lived (st : PollState K) (tr : List (PollInput × PollResult)) (inputs : List PollInput) :
    Prop where
  keeps : Keeps st (tablesOf tr)
  aged : Always Aged tr
  order : (tr.map Prod.fst).Sublist inputs
  -- every entry was read in its poll, and there is one for each number
  seen : ∀ e ∈ tr, (∀ p ∈ e.2.procs, p.lastSeen ∈ e.1.times) ∧ (e.2.procs.map Proc.pid).Nodup
  told : ∀ e ∈ tr, ∀ s ∈ e.2.signals, s.type = "FLASH_PROCESS" → ∃ p ∈ e.2.procs, p.isFlash = true

/-- A poll that found something. -/
theorem Lived.found {inputs : List PollInput} (h : Lived st tr inputs)
    (hr : (pollProcs sqrt byCpu st i).2 = some r) :
    Lived (pollProcs sqrt byCpu st i).1 (tr ++ [(i, r)]) (inputs ++ [i]) := by
  obtain ⟨dir, deltaJ, hdir, hprocs, hprev, hfirst⟩ := pollProcs_table hr
  have htables : tablesOf (tr ++ [(i, r)]) = tablesOf tr ++ [r.procs] := by
    rw [tablesOf, List.map_append]
    rfl
  have hentry : ∀ p ∈ r.procs, AgedEntry (tablesOf tr ++ [r.procs]) p := by
    intro p hp
    rw [hprocs] at hp ⊢
    exact h.keeps.entry hp
  constructor
  case keeps =>
    rw [htables]
    constructor
    case first =>
      rw [hfirst]
      simp
    case prev =>
      intro table htable
      rw [List.getLast?_concat] at htable
      rw [hprev, Option.some.inj htable]
    case aged =>
      intro table htable
      rw [List.getLast?_concat] at htable
      rw [← Option.some.inj htable]
      exact hentry
  case aged => exact h.aged.snoc hentry
  case order =>
    rw [List.map_append]
    exact h.order.append (List.Sublist.refl _)
  case seen =>
    intro e he
    rcases List.mem_append.mp he with he | he
    · exact h.seen e he
    · rw [List.mem_singleton.mp he, hprocs]
      refine ⟨fun p hp => ?_, nodup_readTable dir⟩
      obtain ⟨entry, hmem, hread⟩ := mem_readTable hp
      rw [(readEntry_age hread).1, PollInput.times, hdir]
      exact List.mem_map_of_mem hmem
  case told =>
    intro e he s hs htype
    rcases List.mem_append.mp he with he | he
    · exact h.told e he s hs htype
    · rw [List.mem_singleton.mp he] at hs ⊢
      exact flash_of_signal hr hs htype

theorem lived_run (inputs : List PollInput) :
    Lived (pollsRun sqrt byCpu inputs).1 (pollsRun sqrt byCpu inputs).2 inputs := by
  unfold pollsRun
  refine Machine.run_history (P := Lived) ?_ ?_ inputs
  · constructor
    case keeps => exact ⟨rfl, fun _ h => (nomatch h), fun _ h => (nomatch h)⟩
    case aged => exact .nil
    case order => exact List.Sublist.refl _
    case seen => exact fun _ h => (nomatch h)
    case told => exact fun _ h => (nomatch h)
  · intro st tr inputs i h
    unfold pollStep
    cases hr : (pollProcs sqrt byCpu st i).2 with
    | none =>
        simp only [pollProcs_none hr, hr, Option.toList_none, List.map_nil, List.append_nil]
        exact ⟨h.keeps, h.aged, h.order.trans (List.sublist_append_left _ _), h.seen, h.told⟩
    | some r =>
        simp only [hr, Option.toList_some, List.map_cons, List.map_nil]
        exact h.found hr

/-! ## Flash processes -/

/-- The first table of a lifetime is an earlier one, or the last. -/
theorem head_lifetime {earlier : List (PollInput × PollResult)} {table t : List Proc} {pid : Int}
    (h : (lifetime (tablesOf earlier ++ [table]) pid).head? = some t) :
    t = table ∨ ∃ e ∈ earlier, e.2.procs = t := by
  have hmem : t ∈ tablesOf earlier ++ [table] :=
    (List.rtakeWhile_suffix _ _).subset (List.mem_of_head? h)
  rcases List.mem_append.mp hmem with hmem | hmem
  · obtain ⟨e, he, heq⟩ := List.mem_map.mp hmem
    exact .inr ⟨e, he, heq⟩
  · exact .inl (List.mem_singleton.mp hmem)

omit [Field K] in
/-- While the clock goes forward, a process has lived no time, or too long. -/
theorem not_isFlash {inputs : List PollInput} (h : Lived st tr inputs) (hspaced : inputs.Pairwise Spaced)
    {e : PollInput × PollResult} (he : e ∈ tr) {p : Proc} (hp : p ∈ e.2.procs) : p.isFlash = false := by
  obtain ⟨pre, post, rfl⟩ := List.append_of_mem he
  obtain ⟨table, q, hhead, hq, hpid, hfirst⟩ := (h.aged pre e post rfl p hp).first
  have hages : p.lastSeen - p.firstSeen = 0 ∨
      flashLifetime ≤ p.lastSeen - p.firstSeen ∧ p.lastSeen - p.firstSeen < 2 ^ 31 := by
    rcases head_lifetime hhead with rfl | ⟨e', he', rfl⟩
    · have hsame : q = p := List.inj_on_of_nodup_map (h.seen e he).2 hq hp hpid
      rw [hfirst, hsame, sub_self]
      exact .inl rfl
    · have hpairs : ((pre ++ e :: post).map Prod.fst).Pairwise Spaced := hspaced.sublist h.order
      rw [List.map_append, List.map_cons, List.pairwise_append] at hpairs
      have hbetween := hpairs.2.2 e'.1 (List.mem_map_of_mem he') e.1 List.mem_cons_self
      rw [hfirst]
      exact .inr (hbetween _ ((h.seen e' (List.mem_append_left _ he')).1 q hq) _ ((h.seen e he).1 p hp))
  unfold Proc.isFlash
  rcases hages with hzero | ⟨hlong, hshort⟩
  · rw [hzero]
    rfl
  · have hint : wrap32 (p.lastSeen - p.firstSeen) = p.lastSeen - p.firstSeen := by
      refine wrap32_of_isInt ⟨?_, hshort⟩
      unfold flashLifetime at hlong
      omega
    simp only [hint, Bool.and_eq_false_iff, decide_eq_false_iff_not]
    exact .inl (.inr (not_lt.mpr hlong))

/-- **How long a process lives.** In every run the entries of every poll tell in how many
tables the process was listed without a gap, and when it was first. And no poll takes one for a
flash process, if the clock goes forward by its lifetime between the polls, as it does when
`POLL_SEC` is slept. -/
theorem lifecycle_exact (sqrt : K → K) (byCpu : List Proc → List Proc) (inputs : List PollInput) :
    Always Aged (pollsRun sqrt byCpu inputs).2 ∧
      (inputs.Pairwise Spaced → ∀ e ∈ (pollsRun sqrt byCpu inputs).2,
        ∀ s ∈ e.2.signals, s.type ≠ "FLASH_PROCESS") := by
  have hlived : Lived (pollsRun sqrt byCpu inputs).1 (pollsRun sqrt byCpu inputs).2 inputs :=
    lived_run inputs
  refine ⟨hlived.aged, fun hspaced e he s hs htype => ?_⟩
  obtain ⟨p, hp, hflash⟩ := hlived.told e he s hs htype
  rw [not_isFlash hlived hspaced he hp] at hflash
  cases hflash

end Poll

/-! ## Two polls, as they come -/

/-- A /proc with one process, at a time. -/
def procAt (now : Int) : PollInput where
  dir := some
    { entries := [⟨"7".toList, some "Name:\tsh\n".toList, none, now⟩]
      distinct := (List.nodup_singleton _).sublist (List.filter_sublist.map _) }
  stat := none
  meminfo := none
  thermal := none

theorem lifecycle_exact_polls :
    [procAt 100, procAt (100 + pollSec)].Pairwise Spaced ∧
      ∀ e ∈ (pollsRun (id : ℚ → ℚ) id [procAt 100, procAt (100 + pollSec)]).2,
        ∀ s ∈ e.2.signals, s.type ≠ "FLASH_PROCESS" := by
  have hspaced : [procAt 100, procAt (100 + pollSec)].Pairwise Spaced := by
    simp [Spaced, procAt, PollInput.times, pollSec, flashLifetime]
  exact ⟨hspaced, (lifecycle_exact id id _).2 hspaced⟩

end MiuiserPeruser.Ratking
