import MiuiserPeruser.Burned.Results
import MiuiserPeruser.Lib.Word
import MiuiserPeruser.Ratking.Baseline
import MiuiserPeruser.Ratking.CpuTime

/-!
# ratkingd — a poll (`ratkingd.c`)

A poll reads the processes into `g_procs`, copies them to `g_prev` for the
next poll, and then, if memory is low, looks for the process that grew most
since the last one: in `g_prev`, which by then is the table it has just read.
The search is right for the table it is given (`attribution_right`), and of
the same table it says that nothing grew (`attribution_self`).

The checks of the MIUI services, the network traffic and the lists of the
results file are left out. `qsort` is a parameter, and so are the numbers the
running baseline is kept in.
-/

namespace MiuiserPeruser.Ratking

open CText Word

def maxProcs : Nat := 512
def topN : Nat := 6
def learnPolls : Nat := 20
def memLowMb : Int := 200
def hogPctCool : Int := 40
def flashLifetime : Int := 5

/-! ## The processes -/

/-- `proc_t`, without descriptors and traffic. -/
structure Proc where
  pid : Int
  name : List Char
  state : Char
  uid : Int
  ppid : Int
  vmrssKb : Int
  cpuTime : UInt64
  cpuPct : Int
  firstSeen : Int
  lastSeen : Int
  pollsAlive : Int
  short : name.length < 32

theorem short_nil : ([] : List Char).length < 32 := by decide

/-- What `read_status` begins with. -/
def Proc.unread (pid : Int) : Proc where
  pid := pid
  name := []
  state := '?'
  uid := -1
  ppid := -1
  vmrssKb := 0
  cpuTime := 0
  cpuPct := 0
  firstSeen := 0
  lastSeen := 0
  pollsAlive := 0
  short := short_nil

/-- `sscanf(s, " %31s", name)`. -/
def scanName (old s : List Char) : List Char :=
  match scanf (percentS 31) s with
  | .text t :: _ => t
  | _ => old

/-- `sscanf(s, " %c", &state)`. -/
def scanChar (old : Char) (s : List Char) : Char := ((s.dropWhile isspace).head?).getD old

/-- `sscanf(s, " %d", &n)`, or with `%ld`. -/
def scanInt (ds : List Directive) (old : Int) (s : List Char) : Int :=
  match scanf ds s with
  | .num n :: _ => n
  | _ => old

theorem length_scanName {old s : List Char} (h : old.length < 32) : (scanName old s).length < 32 := by
  unfold scanName
  split
  · rename_i t _ hscan
    obtain ⟨blanks, rest, -, -, hchars⟩ := scanf_space_inv hscan
    obtain ⟨t', tail, -, -, -, hlen, ht, -⟩ := scanf_chars_inv hchars
    rw [Value.text.inj ht]
    omega
  · exact h

/-- A line of /proc/<pid>/status. -/
def statusLine (p : Proc) (line : List Char) : Proc :=
  if line.take 5 = "Name:".toList then
    { p with name := scanName p.name (line.drop 5), short := length_scanName p.short }
  else if line.take 6 = "State:".toList then { p with state := scanChar p.state (line.drop 6) }
  else if line.take 4 = "Uid:".toList then { p with uid := scanInt percentD p.uid (line.drop 4) }
  else if line.take 5 = "PPid:".toList then { p with ppid := scanInt percentD p.ppid (line.drop 5) }
  else if line.take 6 = "VmRSS:".toList then { p with vmrssKb := scanInt percentLD p.vmrssKb (line.drop 6) }
  else p

/-- `read_status`, on the file. -/
def readStatus (pid : Int) (text : List Char) : Proc := (fgetsLines 256 text).foldl statusLine (.unread pid)

/-- An entry of /proc, and what is read of it and when. -/
structure ProcEntry where
  dName : List Char
  status : Option (List Char)
  stat : Option (List Char)
  now : Int

/-- A name of digits. -/
def ProcEntry.isPid (e : ProcEntry) : Bool := e.dName.all Char.isDigit

def ProcEntry.pid (e : ProcEntry) : Int := atoi e.dName

/-- The directory /proc. A process has one entry in it. -/
structure ProcDir where
  entries : List ProcEntry
  distinct : ((entries.filter ProcEntry.isPid).map ProcEntry.pid).Nodup

/-- The statics of a poll, and the baselines. -/
structure PollState (K : Type) where
  prev : List Proc
  first : Bool
  prevTotalJiff : Int
  learnPolls : Nat
  baselines : Baselines K

def PollState.initial (K : Type) : PollState K := ⟨[], true, 0, 0, .empty⟩

/-- `cpu_pct`, from the time since the last poll. -/
def cpuPctOf (prev : Option Proc) (cpuTime : UInt64) (deltaJ : Int) : Int :=
  match prev with
  | some q =>
      let dt := if q.cpuTime < cpuTime then cpuTime - q.cpuTime else 0
      intOf (dt * 100 / .ofInt deltaJ)
  | none => 0

/-- The body of the loop over /proc; nothing if there is no status. -/
def readEntry {K : Type} (st : PollState K) (deltaJ : Int) (e : ProcEntry) : Option Proc :=
  e.status.map fun text =>
    let p := readStatus e.pid text
    let cpuTime := readCputime e.stat
    let prev := if st.first then none else st.prev.find? (·.pid = e.pid)
    { p with
      cpuTime := cpuTime
      cpuPct := cpuPctOf prev cpuTime deltaJ
      lastSeen := e.now
      firstSeen := (prev.map Proc.firstSeen).getD e.now
      pollsAlive := (prev.map fun q => wrap32 (q.pollsAlive + 1)).getD 1 }

/-- The loop. -/
def readTable {K : Type} (st : PollState K) (deltaJ : Int) (dir : ProcDir) : List Proc :=
  ((dir.entries.filter ProcEntry.isPid).filterMap (readEntry st deltaJ)).take maxProcs

def Proc.isFlash (p : Proc) : Bool :=
  let lifetime := wrap32 (p.lastSeen - p.firstSeen)
  0 < lifetime && lifetime < flashLifetime && 10 < p.cpuPct

def Proc.isZombie (p : Proc) : Bool := p.state = 'Z'

/-! ## Totals -/

/-- `total_jiffies`, on the file. -/
def totalJiffies (file : Option (List Char)) : Int :=
  match file with
  | none => 0
  | some text =>
      let line := ((fgetsLines 256 text).head?).getD []
      let values := scanf (['c', 'p', 'u'].map Directive.lit ++ (List.replicate 7 percentLD).flatten) line
      wrap64 ((List.range 7).map (numAt values)).sum

/-- A line of /proc/meminfo, for the total and what is available. -/
def meminfoLine (m : Int × Int) (line : List Char) : Int × Int :=
  if line.take 9 = "MemTotal:".toList then (scanInt percentLD m.1 (line.drop 9), m.2)
  else if line.take 13 = "MemAvailable:".toList then (m.1, scanInt percentLD m.2 (line.drop 13))
  else m

/-- `read_meminfo`, on the file. -/
def readMeminfo (file : Option (List Char)) : Int × Int :=
  match file with
  | none => (0, 0)
  | some text => (fgetsLines 128 text).foldl meminfoLine (0, 0)

/-- `get_thermal_temp`, on the file. -/
def getThermalTemp (file : Option (List Char)) : Int :=
  match file with
  | none => -1
  | some text => (scanInt percentD (-1) text).tdiv 1000

/-! ## Memory pressure -/

/-- What memory pressure is attributed to. -/
structure Attribution where
  attributed : List Char
  maxDelta : Int
  deriving DecidableEq

def Attribution.unknown : Attribution := ⟨"unknown".toList, 0⟩

/-- The growth of a process since the table `prev`. -/
def growth (prev : List Proc) (p : Proc) : Option Int :=
  (prev.find? (·.pid = p.pid)).map fun q => wrap64 (p.vmrssKb - q.vmrssKb)

/-- A pass of the outer loop. -/
def attributeTo (prev : List Proc) (a : Attribution) (p : Proc) : Attribution :=
  match growth prev p with
  | some delta => if a.maxDelta < delta then ⟨p.name, delta⟩ else a
  | none => a

/-- "Find largest RSS grower". -/
def attribution (prev procs : List Proc) : Attribution := procs.foldl (attributeTo prev) .unknown

/-- `pressure_json`. -/
def pressureJson (availMb : Int) (a : Option Attribution) : List Char :=
  match a with
  | none => snprintf 512 ("\x7b\"memory_low\":false,\"avail_mb\":".toList ++ formatD availMb ++
      ",\"attributed_to\":\"\"\x7d".toList)
  | some a => snprintf 512 ("\x7b\"memory_low\":true,\"avail_mb\":".toList ++ formatD availMb ++
      ",\"attributed_to\":\"".toList ++ Burned.jsonEscape 80 a.attributed ++ " (+".toList ++
      formatF1 (.finite (a.maxDelta / 1024)) ++ "MB in last poll)\"\x7d".toList)

/-! ## A poll -/

/-- What a poll reads. -/
structure PollInput where
  dir : Option ProcDir
  stat : Option (List Char)
  meminfo : Option (List Char)
  thermal : Option (List Char)

/-- A signal, to the court and to splinterd. -/
structure Signal where
  type : String
  ctx : List Char

/-- What a poll finds. -/
structure PollResult where
  procs : List Proc
  availMb : Int
  pressure : Option Attribution
  signals : List Signal

section Poll

variable {K : Type} [Field K] (sqrt : K → K) (byCpu : List Proc → List Proc)

/-- The processes shown, and learned from: those that used the CPU, and the
first one anyway. -/
def topCpu (sorted : List Proc) : List Proc :=
  match sorted.take topN with
  | [] => []
  | p :: ps => p :: ps.takeWhile (0 < ·.cpuPct)

/-- The arguments of `update_baseline` for a process. -/
def Proc.call (p : Proc) : Call := ⟨p.name, p.cpuPct, p.vmrssKb, p.short⟩

/-- The signals of the processes. -/
def procSignals (procs : List Proc) (temp : Int) : List Signal :=
  let zombies := (procs.filter Proc.isZombie).length
  let flash := (procs.filter Proc.isFlash).length
  let hog := ((byCpu procs).head?).filter (hogPctCool ≤ ·.cpuPct)
  (if 0 < zombies then [⟨"ZOMBIE_DETECTED", snprintf 256 ("zombie_count=".toList ++ decimal zombies)⟩] else []) ++
    (hog.toList.map fun p => ⟨"CPU_HOG", snprintf 256 ("pid=".toList ++ formatD p.pid ++ " name=".toList ++
      p.name ++ " cpu_pct=".toList ++ formatD p.cpuPct ++ " temp=".toList ++ formatD temp)⟩) ++
    if 0 < flash then [⟨"FLASH_PROCESS", snprintf 256 ("flash_count=".toList ++ decimal flash)⟩] else []

/-- `poll_procs`; nothing happens if /proc cannot be opened. -/
def pollProcs (st : PollState K) (i : PollInput) : PollState K × Option PollResult :=
  match i.dir with
  | none => (st, none)
  | some dir =>
      let curTotalJ := totalJiffies i.stat
      let deltaJ := if st.prevTotalJiff < curTotalJ then wrap64 (curTotalJ - st.prevTotalJiff) else 1
      let procs := readTable st deltaJ dir
      -- saved for the next poll, and what is compared with below
      let prev := procs
      let availMb := (readMeminfo i.meminfo).2.tdiv 1024
      let low := availMb < memLowMb ∧ 0 < availMb
      let pressure := if low then some (attribution prev procs) else none
      let calls := if st.learnPolls < learnPolls then (topCpu (byCpu procs)).map Proc.call else []
      ({ prev := prev
         first := false
         prevTotalJiff := curTotalJ
         learnPolls := st.learnPolls + 1
         baselines := calls.foldl (updateBaseline sqrt) st.baselines },
        some
          { procs := procs
            availMb := availMb
            pressure := pressure
            signals := (pressure.toList.map fun a => ⟨"MEM_PRESSURE", pressureJson availMb (some a)⟩) ++
              procSignals byCpu procs (getThermalTemp i.thermal) })

end Poll

/-! ## The tables -/

section Table

variable {K : Type} {st : PollState K} {deltaJ : Int}

theorem pid_statusLine (p : Proc) (line : List Char) : (statusLine p line).pid = p.pid := by
  unfold statusLine
  split_ifs
  all_goals rfl

theorem pid_readStatus (pid : Int) (text : List Char) : (readStatus pid text).pid = pid := by
  have hfold : ∀ (lines : List (List Char)) (p : Proc), (lines.foldl statusLine p).pid = p.pid := by
    intro lines
    induction lines with
    | nil => exact fun p => rfl
    | cons line lines ih => exact fun p => (ih _).trans (pid_statusLine p line)
  exact hfold _ _

theorem pid_readEntry {e : ProcEntry} {p : Proc} (h : readEntry st deltaJ e = some p) : p.pid = e.pid := by
  obtain ⟨text, -, rfl⟩ := Option.map_eq_some_iff.mp h
  exact pid_readStatus e.pid text

/-- What is kept of a list without duplicates has none. -/
theorem nodup_filterMap {α β κ : Type} {f : α → Option β} {key : α → κ} {key' : β → κ}
    (hkey : ∀ a b, f a = some b → key' b = key a) {l : List α} (h : (l.map key).Nodup) :
    ((l.filterMap f).map key').Nodup := by
  refine h.sublist ?_
  induction l with
  | nil => exact List.Sublist.refl _
  | cons a l ih =>
      have hrest := ih (List.nodup_cons.mp h).2
      cases hfa : f a with
      | none =>
          rw [List.filterMap_cons_none hfa]
          exact hrest.cons _
      | some b =>
          rw [List.filterMap_cons_some hfa, List.map_cons, List.map_cons, hkey a b hfa]
          exact hrest.cons_cons _

/-- A process has one entry in the table. -/
theorem nodup_readTable (dir : ProcDir) : ((readTable st deltaJ dir).map Proc.pid).Nodup := by
  have hpid : ∀ e p, readEntry st deltaJ e = some p → p.pid = e.pid := fun _ _ h => pid_readEntry h
  have hall := nodup_filterMap hpid dir.distinct
  exact hall.sublist ((List.take_sublist _ _).map _)

end Table

/-! ## What grew -/

/-- The process is in both tables and has grown by `delta`. -/
def GrewBy (prev procs : List Proc) (p : Proc) (delta : Int) : Prop :=
  p ∈ procs ∧ growth prev p = some delta ∧ 0 < delta

/-- It is a process that grew most, with its growth, or nothing grew. -/
def Rightly (prev procs : List Proc) (a : Attribution) : Prop :=
  (∃ p, GrewBy prev procs p a.maxDelta ∧ a.attributed = p.name ∧
    ∀ q delta, GrewBy prev procs q delta → delta ≤ a.maxDelta) ∨
    a = .unknown ∧ ∀ p delta, ¬ GrewBy prev procs p delta

section Attribution

variable {prev procs : List Proc} {a : Attribution}

theorem grewBy_concat {p q : Proc} {delta : Int} (h : GrewBy prev (procs ++ [p]) q delta) :
    GrewBy prev procs q delta ∨ q = p ∧ growth prev p = some delta ∧ 0 < delta := by
  obtain ⟨hmem, hgrowth, hpos⟩ := h
  rcases List.mem_append.mp hmem with hmem | hmem
  · exact .inl ⟨hmem, hgrowth, hpos⟩
  · obtain rfl := List.mem_singleton.mp hmem
    exact .inr ⟨rfl, hgrowth, hpos⟩

theorem Rightly.nonneg (h : Rightly prev procs a) : 0 ≤ a.maxDelta := by
  rcases h with ⟨q, hq, -⟩ | ⟨rfl, -⟩
  · exact hq.2.2.le
  · exact le_rfl

theorem Rightly.bound (h : Rightly prev procs a) (q : Proc) (delta : Int) (hq : GrewBy prev procs q delta) :
    delta ≤ a.maxDelta := by
  rcases h with ⟨-, -, -, hmax⟩ | ⟨-, hnone⟩
  · exact hmax q delta hq
  · exact absurd hq (hnone q delta)

/-- A process that did not grow more leaves what was found. -/
theorem Rightly.keep (h : Rightly prev procs a) {p : Proc}
    (hle : ∀ delta, growth prev p = some delta → delta ≤ a.maxDelta) : Rightly prev (procs ++ [p]) a := by
  rcases h with ⟨q, ⟨hmem, hq⟩, hname, hmax⟩ | ⟨rfl, hnone⟩
  · refine .inl ⟨q, ⟨List.mem_append_left _ hmem, hq⟩, hname, fun r delta hr => ?_⟩
    rcases grewBy_concat hr with hr | ⟨-, hr, -⟩
    · exact hmax r delta hr
    · exact hle delta hr
  · refine .inr ⟨rfl, fun r delta hr => ?_⟩
    rcases grewBy_concat hr with hr | ⟨-, hr, hpos⟩
    · exact hnone r delta hr
    · exact absurd (hle delta hr) (not_le.mpr hpos)

/-- One more process. -/
theorem Rightly.concat (h : Rightly prev procs a) (p : Proc) :
    Rightly prev (procs ++ [p]) (attributeTo prev a p) := by
  have hnonneg := h.nonneg
  unfold attributeTo
  cases hgrowth : growth prev p with
  | none =>
      refine h.keep fun delta hdelta => ?_
      rw [hgrowth] at hdelta
      cases hdelta
  | some delta =>
      by_cases hlt : a.maxDelta < delta
      · simp only [if_pos hlt]
        refine .inl ⟨p, ⟨by simp, hgrowth, by show 0 < delta; omega⟩, rfl, fun r d hr => ?_⟩
        rcases grewBy_concat hr with hr | ⟨-, hr, -⟩
        · exact (h.bound r d hr).trans hlt.le
        · rw [hgrowth] at hr
          exact (Option.some.inj hr).ge
      · simp only [if_neg hlt]
        refine h.keep fun d hd => ?_
        rw [hgrowth, Option.some_inj] at hd
        omega

/-- **The search is right** for the table it compares with. -/
theorem attribution_right (prev procs : List Proc) : Rightly prev procs (attribution prev procs) := by
  induction procs using List.reverseRecOn with
  | nil => exact .inr ⟨rfl, fun p delta h => absurd h.1 List.not_mem_nil⟩
  | append_singleton procs p ih =>
      have hstep : attribution prev (procs ++ [p]) = attributeTo prev (attribution prev procs) p := by
        simp [attribution, List.foldl_append]
      rw [hstep]
      exact ih.concat p

/-- A table that is compared with itself: every process finds its own entry. -/
theorem growth_self (h : (procs.map Proc.pid).Nodup) {p : Proc} (hp : p ∈ procs) : growth procs p = some 0 := by
  have hfind : procs.find? (·.pid = p.pid) = some p := by
    cases hq : procs.find? (·.pid = p.pid) with
    | none =>
        have hne : ¬ p.pid = p.pid := by simpa using List.find?_eq_none.mp hq p hp
        exact absurd rfl hne
    | some q =>
        have hpid : q.pid = p.pid := by simpa using List.find?_some hq
        rw [List.inj_on_of_nodup_map h (List.mem_of_find?_eq_some hq) hp hpid]
  rw [growth, hfind, Option.map_some, sub_self]
  rfl

/-- **Nothing has grown since just now.** -/
theorem attribution_self (h : (procs.map Proc.pid).Nodup) : attribution procs procs = .unknown := by
  rcases attribution_right procs procs with ⟨p, ⟨hp, hgrowth, hpos⟩, -⟩ | ⟨hunknown, -⟩
  · rw [growth_self h hp, Option.some_inj] at hgrowth
    omega
  · exact hunknown

end Attribution

/-! ## Two polls -/

section Polls

variable {K : Type} [Field K] {sqrt : K → K} {byCpu : List Proc → List Proc} {st : PollState K} {i : PollInput}
  {r : PollResult}

/-- What a poll attributes the pressure to: nothing. -/
theorem pollProcs_pressure (h : (pollProcs sqrt byCpu st i).2 = some r) :
    r.pressure = if r.availMb < memLowMb ∧ 0 < r.availMb then some .unknown else none := by
  unfold pollProcs at h
  cases hdir : i.dir with
  | none =>
      rw [hdir] at h
      exact absurd h nofun
  | some dir =>
      rw [hdir] at h
      obtain rfl := Option.some.inj h
      simp only [attribution_self (nodup_readTable dir)]

end Polls

/-- **Who is named**: when the second of two polls finds memory low, it names
a process that grew most since the first, or says rightly that none did,
exactly if none did. -/
theorem rightly_attributed_iff {K : Type} [Field K] (sqrt : K → K) (byCpu : List Proc → List Proc)
    (st : PollState K) {i₁ i₂ : PollInput} {r₂ : PollResult}
    (h₂ : (pollProcs sqrt byCpu (pollProcs sqrt byCpu st i₁).1 i₂).2 = some r₂)
    (hlow : r₂.availMb < memLowMb ∧ 0 < r₂.availMb) :
    (∃ a, r₂.pressure = some a ∧ Rightly (pollProcs sqrt byCpu st i₁).1.prev r₂.procs a) ↔
      ∀ p delta, ¬ GrewBy (pollProcs sqrt byCpu st i₁).1.prev r₂.procs p delta := by
  have hpressure := pollProcs_pressure h₂
  rw [if_pos hlow] at hpressure
  constructor
  · rintro ⟨a, ha, hright⟩
    obtain rfl : Attribution.unknown = a := Option.some.inj (hpressure.symm.trans ha)
    rcases hright with ⟨p, hp, -⟩ | ⟨-, hnone⟩
    · exact absurd hp.2.2 (lt_irrefl 0)
    · exact hnone
  · exact fun hnone => ⟨.unknown, hpressure, .inr ⟨rfl, hnone⟩⟩

/-- A /proc with one process of the given size. -/
def leakyEntry (vmrss : String) : ProcEntry where
  dName := "4711".toList
  status := some (("Name:\tleaky\nVmRSS:\t".toList ++ vmrss.toList) ++ " kB\n".toList)
  stat := none
  now := 0

theorem distinct_leakyEntry (vmrss : String) :
    (([leakyEntry vmrss].filter ProcEntry.isPid).map ProcEntry.pid).Nodup :=
  (List.nodup_singleton _).sublist ((List.filter_sublist).map _)

/-- 100 MB of memory are left. -/
def leakyPoll (vmrss : String) : PollInput where
  dir := some ⟨[leakyEntry vmrss], distinct_leakyEntry vmrss⟩
  stat := none
  meminfo := some "MemTotal: 4000000 kB\nMemAvailable: 102400 kB\n".toList
  thermal := none

/-- The processes of a first poll that finds 100000 kB, and what a second one
finds. -/
def leakyPrev : List Proc := (pollProcs id id (.initial ℚ) (leakyPoll "100000")).1.prev

def leakySecond (vmrss : String) : Option PollResult :=
  (pollProcs id id (pollProcs id id (.initial ℚ) (leakyPoll "100000")).1 (leakyPoll vmrss)).2

/-- A second poll that finds as much as the first one. -/
theorem rightly_attributed_iff_same : ∃ r a, leakySecond "100000" = some r ∧ r.pressure = some a ∧
    Rightly leakyPrev r.procs a := by
  obtain ⟨r, hr⟩ : ∃ r, leakySecond "100000" = some r := ⟨_, rfl⟩
  have havail : (leakySecond "100000").map PollResult.availMb = some 100 := by decide +kernel
  have hgrowth : (leakySecond "100000").map (fun r => r.procs.map (growth leakyPrev)) = some [some 0] := by
    decide +kernel
  rw [hr, Option.map_some, Option.some_inj] at havail hgrowth
  have hlow : r.availMb < memLowMb ∧ 0 < r.availMb := by
    rw [havail]
    decide
  obtain ⟨a, ha, hright⟩ := (rightly_attributed_iff id id (.initial ℚ) hr hlow).mpr (by
    rintro p delta ⟨hp, hdelta, hpos⟩
    have hmem : growth leakyPrev p ∈ r.procs.map (growth leakyPrev) := List.mem_map_of_mem hp
    rw [hgrowth, List.mem_singleton] at hmem
    have hzero : some delta = some 0 := hdelta.symm.trans hmem
    rw [Option.some_inj] at hzero
    omega)
  exact ⟨r, a, hr, ha, hright⟩

/-- A process that grows by 800000 kB is not named. -/
theorem grower_missed : ∃ r, leakySecond "900000" = some r ∧ r.availMb = 100 ∧ r.pressure = some .unknown ∧
    (∃ p, GrewBy leakyPrev r.procs p 800000 ∧ p.name = "leaky".toList) ∧
    ¬ ∃ a, r.pressure = some a ∧ Rightly leakyPrev r.procs a := by
  obtain ⟨r, hr⟩ : ∃ r, leakySecond "900000" = some r := ⟨_, rfl⟩
  have havail : (leakySecond "900000").map PollResult.availMb = some 100 := by decide +kernel
  have hpressure : (leakySecond "900000").map PollResult.pressure = some (some .unknown) := by decide +kernel
  have hgrowth : (leakySecond "900000").map (fun r => r.procs.map fun p => (growth leakyPrev p, p.name)) =
      some [(some 800000, "leaky".toList)] := by decide +kernel
  rw [hr, Option.map_some, Option.some_inj] at havail hpressure hgrowth
  obtain ⟨p, hp, heq⟩ : ∃ p ∈ r.procs, (growth leakyPrev p, p.name) = (some 800000, "leaky".toList) := by
    have hmem : (some 800000, "leaky".toList) ∈ r.procs.map fun p => (growth leakyPrev p, p.name) := by
      rw [hgrowth]
      exact List.mem_singleton_self _
    exact List.mem_map.mp hmem
  obtain ⟨hdelta, hname⟩ := Prod.mk.inj heq
  have hgrew : GrewBy leakyPrev r.procs p 800000 := ⟨hp, hdelta, by decide⟩
  refine ⟨r, hr, havail, hpressure, ⟨p, hgrew, hname⟩, ?_⟩
  rintro ⟨a, ha, hright⟩
  obtain rfl : Attribution.unknown = a := Option.some.inj (hpressure.symm.trans ha)
  rcases hright with ⟨q, hq, -⟩ | ⟨-, hnone⟩
  · exact absurd hq.2.2 (lt_irrefl 0)
  · exact hnone p 800000 hgrew

end MiuiserPeruser.Ratking
