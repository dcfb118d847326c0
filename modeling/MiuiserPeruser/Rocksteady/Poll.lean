import Mathlib.Data.List.Chain
import MiuiserPeruser.Rocksteady.Cores
import MiuiserPeruser.Rocksteady.Stat

/-!
# rocksteadyd — a poll (`rocksteadyd.c`)

A poll reads /proc/stat, the cores and the processes. `g_prev_stat` takes
over the new snapshot as soon as it is read, and the total that went by is
computed further down, from `g_prev_stat` and the new snapshot: it is the
difference of a total and itself. A snapshot that is not read leaves zeros,
whose total is not larger than any other. So `total_delta` is zero at every
poll (`totalDelta_eq_zero`), `compute_proc_pcts` returns at once, and every
process has used 0 percent (`poll_pct`).

The share the process really had is zero, too, exactly if it used less than
one percent of the interval; the shares are right at a poll exactly if that
goes for all processes (`shares_right_iff`).

The load of the clusters is a matter of `float`; what the check of their
balance says about the sums is a parameter of a poll.
-/

namespace MiuiserPeruser.Rocksteady

open CText InsertionSort Word

def maxProcs : Nat := 1024
def hogPct : Int := 40
def hogCriticalPct : Int := 70
def topN : Nat := 5

/-! ## The processes -/

/-- `proc_t`. -/
structure Proc where
  pid : Int
  name : List Char
  cpuTime : UInt64
  cpuPct : Int
  deriving DecidableEq

/-- `sanitize_field`. -/
def sanitizeField (buf : List Char) : List Char :=
  buf.map fun c => if c = '|' ∨ c = '"' ∨ c.toNat < 0x20 then '_' else c

/-- The name between the first `(` and the last `)`. -/
def procName (line : List Char) : List Char :=
  let opened := line.idxOf '('
  let closed := line.length - (line.rtakeWhile (· ≠ ')')).length - 1
  if '(' ∈ line ∧ ')' ∈ line ∧ opened < closed then
    sanitizeField (((line.drop (opened + 1)).take (closed - opened - 1)).take 31)
  else []

/-- The text at `ne + 2`. Where the line ends with the parenthesis it is the
text of the next lines. -/
def procFields (line : List Char) (rest : List (List Char)) : List Char :=
  let tail := line.rtakeWhile (· ≠ ')')
  if tail = [] then ['\n'].intercalate rest else tail.drop 1

/-- The directives of `"%*c %*d %*d %*d %*d %*d %*u %*u %*u %*u %*u %lu %lu"`. -/
def procFormat : List Directive :=
  [.chars 1 fun _ => true] ++ (List.replicate 5 percentD).flatten ++
    (List.replicate 5 percentU).flatten ++ percentLLU ++ percentLLU

/-- utime + stime. -/
def procTime (line : List Char) (rest : List (List Char)) : UInt64 :=
  let values := scanf procFormat (procFields line rest)
  if ')' ∈ line ∧ values.length = 13 then
    .ofNat (numAt values 11).toNat + .ofNat (numAt values 12).toNat
  else 0

/-- The loop of `read_proc_procs`, at `count` entries. An empty line is passed
over, and so is one without a pid. -/
def readProcs (max : Nat) : Nat → List (List Char) → List Proc
  | _, [] => []
  | count, line :: rest =>
      if max ≤ count then []
      else if line = [] ∨ atoi line ≤ 0 then readProcs max count rest
      else
        { pid := atoi line, name := procName line, cpuTime := procTime line rest, cpuPct := 0 } ::
          readProcs max (count + 1) rest

/-- `read_proc_procs`, on what `bexec_n` returned. -/
def readProcProcs (data : Option (List Char)) (max : Nat) : List Proc :=
  match data with
  | none => []
  | some data => readProcs max 0 ((cstr data).splitOn '\n')

/-- `compute_proc_pcts`. -/
def computeProcPcts (prev : List Proc) (first : Bool) (procs : List Proc) (totalDelta : UInt64) :
    List Proc :=
  if totalDelta = 0 ∨ first = true then procs
  else
    procs.map fun p =>
      match prev.find? (·.pid = p.pid) with
      | some q => { p with cpuPct := intOf (100 * (p.cpuTime - q.cpuTime) / totalDelta) }
      | none => p

/-- `sort_top_n`. -/
def sortTopN (procs : List Proc) : List Proc :=
  insertionSort (fun x key => decide (x.cpuPct < key.cpuPct)) procs

/-! ## The clusters -/

/-- The sums over the cores of a cluster. -/
structure ClusterSum where
  cur : Int
  max : Int
  n : Nat
  deriving DecidableEq

def ClusterSum.add (s : ClusterSum) (c : CpuCore) : ClusterSum :=
  ⟨s.cur + c.curKhz, s.max + c.maxKhz, s.n + 1⟩

/-- `clus_cur`, `clus_max` and `clus_n`. -/
def clusterSums (cores : List CpuCore) : List ClusterSum :=
  cores.foldl
    (fun sums c =>
      if 0 ≤ c.cluster ∧ c.cluster < (maxClusters : Int) then sums.modify c.cluster.toNat (·.add c) else sums)
    (List.replicate maxClusters ⟨0, 0, 0⟩)

/-! ## A poll -/

/-- The statics. -/
structure PollState where
  prevStat : CpuStat
  prevProcs : List Proc
  first : Bool

def PollState.initial : PollState := ⟨.zero, [], true⟩

/-- What a poll reads. -/
structure PollInput where
  stat : Option (List Char)
  cpus : Nat → CpuFiles
  procs : Option (List Char)

/-- A signal, emitted to gaveld and to splinterd, and what it costs. -/
structure Signal where
  type : String
  ctx : List Char
  cost : Int
  deriving DecidableEq

/-- What a poll finds. -/
structure PollResult where
  statRead : Bool
  stat : CpuStat
  sysPct : Int
  cores : List CpuCore
  procs : List Proc
  signals : List Signal
  score : Int

/-- The signals about the cores, in the order of the checks. -/
def coreSignals (imbalance : List ClusterSum → Option (List Char)) (cores : List CpuCore)
    (nclusters : Nat) : List Signal :=
  let throttled := cores.countP CpuCore.throttled
  let maxed := cores.countP CpuCore.atMax
  let perfGov := cores.countP (·.governor = "performance".toList)
  (match imbalance (clusterSums cores) with
    | some ctx => if 1 < nclusters then [⟨"CPU_CLUSTER_IMBALANCE", snprintf 96 ctx, 12⟩] else []
    | none => []) ++
  (if 0 < throttled then
    [⟨"CPU_THROTTLING", snprintf 48 ("throttled=".toList ++ decimal throttled ++
      '/' :: decimal cores.length), 8 * throttled⟩]
    else []) ++
  (if 0 < cores.length ∧ maxed = cores.length then
    [⟨"ALL_CORES_MAXED", snprintf 32 ("cores=".toList ++ decimal cores.length), 15⟩]
    else []) ++
  (if 0 < perfGov then
    [⟨"GOVERNOR_PERFORMANCE", snprintf 32 ("cores=".toList ++ decimal perfGov), 8⟩]
    else [])

def hogContext (p : Proc) : List Char :=
  snprintf 80 ("pid=".toList ++ formatD p.pid ++ " name=".toList ++ p.name.take 24 ++
    " pct=".toList ++ formatD p.cpuPct)

/-- The signal about one of the top processes. -/
def hogSignal (p : Proc) : Option Signal :=
  if hogCriticalPct ≤ p.cpuPct then some ⟨"CPU_HOG_CRITICAL", hogContext p, 25⟩
  else if hogPct ≤ p.cpuPct then some ⟨"CPU_HOG", hogContext p, 15⟩
  else none

/-- The processes the loop visits: a process that used nothing ends it. -/
def topProcs (procs : List Proc) : List Proc := (procs.take topN).takeWhile (0 < ·.cpuPct)

/-- The total that went by, as the code computes it. -/
def totalDelta (prevStat curStat : CpuStat) : UInt64 :=
  if prevStat.total < curStat.total then curStat.total - prevStat.total else 0

/-- `poll`. -/
def poll (imbalance : List ClusterSum → Option (List Char)) (st : PollState) (p : PollInput) :
    PollResult × PollState :=
  let read := readProcStat p.stat .zero
  let curStat := read.getD .zero
  let sysPct := if read.isSome ∧ st.first = false then computeCpuPct st.prevStat curStat else 0
  -- the new snapshot is the previous one from here on
  let prevStat := if read.isSome then curStat else st.prevStat
  let (cores, nclusters) := enumerateCpus p.cpus maxCores
  let procs := sortTopN (computeProcPcts st.prevProcs st.first (readProcProcs p.procs maxProcs)
    (totalDelta prevStat curStat))
  let signals := coreSignals imbalance cores nclusters ++
    (if st.first then [] else (topProcs procs).filterMap hogSignal)
  ({ statRead := read.isSome, stat := curStat, sysPct, cores, procs, signals
     score := max 0 (100 - (signals.map Signal.cost).sum) },
   { prevStat, prevProcs := procs, first := false })

/-- The results of polls one after the other. -/
def pollResults (imbalance : List ClusterSum → Option (List Char)) :
    PollState → List PollInput → List PollResult
  | _, [] => []
  | st, p :: ps => (poll imbalance st p).1 :: pollResults imbalance (poll imbalance st p).2 ps

/-! ## The total that went by -/

/-- The snapshot a poll reads. -/
def PollInput.reading (p : PollInput) : CpuStat := (readProcStat p.stat .zero).getD .zero

section Totals

variable (imbalance : List ClusterSum → Option (List Char)) (st : PollState) (p : PollInput)

theorem totalDelta_self (curStat : CpuStat) : totalDelta curStat curStat = 0 :=
  if_neg (UInt64.lt_irrefl _)

/-- The total of a snapshot that is not read. -/
theorem totalDelta_zero (prevStat : CpuStat) : totalDelta prevStat .zero = 0 := by
  refine if_neg fun h => ?_
  have hzero : CpuStat.zero.total.toNat = 0 := by decide
  rw [UInt64.lt_iff_toNat_lt, hzero] at h
  omega

/-- **No time ever goes by.** -/
theorem totalDelta_eq_zero (read : Option CpuStat) :
    totalDelta (if read.isSome then read.getD .zero else st.prevStat) (read.getD .zero) = 0 := by
  cases read with
  | none => exact totalDelta_zero _
  | some curStat => exact totalDelta_self _

/-- So the processes are taken as they were read. -/
theorem poll_procs :
    (poll imbalance st p).1.procs = sortTopN (readProcProcs p.procs maxProcs) := by
  show sortTopN (computeProcPcts _ _ _ _) = _
  rw [totalDelta_eq_zero, computeProcPcts, if_pos (.inl rfl)]

theorem mem_poll_procs (q : Proc) :
    q ∈ (poll imbalance st p).1.procs ↔ q ∈ readProcProcs p.procs maxProcs := by
  rw [poll_procs, sortTopN, (insertionSort_perm _).mem_iff]

theorem readProcs_pct {max count : Nat} {lines : List (List Char)} :
    ∀ q ∈ readProcs max count lines, q.cpuPct = 0 := by
  induction lines generalizing count with
  | nil => exact fun q h => absurd h List.not_mem_nil
  | cons line rest ih =>
      intro q hq
      rw [readProcs] at hq
      split at hq
      · exact absurd hq List.not_mem_nil
      · split at hq
        · exact ih q hq
        · rcases List.mem_cons.mp hq with rfl | hq
          · rfl
          · exact ih q hq

/-- **Every process has used 0 percent**, at every poll from every state. -/
theorem poll_pct : ∀ q ∈ (poll imbalance st p).1.procs, q.cpuPct = 0 := by
  intro q hq
  rw [mem_poll_procs] at hq
  unfold readProcProcs at hq
  split at hq
  · exact absurd hq List.not_mem_nil
  · exact readProcs_pct q hq

/-- No process is ever reported. -/
theorem poll_signals : (poll imbalance st p).1.signals =
    coreSignals imbalance (enumerateCpus p.cpus maxCores).1 (enumerateCpus p.cpus maxCores).2 := by
  have hnone : topProcs (poll imbalance st p).1.procs = [] := by
    unfold topProcs
    rw [List.takeWhile_eq_nil_iff]
    intro hlen h
    have hmem := List.mem_of_mem_take (List.getElem_mem hlen)
    have hpct := poll_pct imbalance st p _ hmem
    rw [decide_eq_true_eq, List.get_eq_getElem, hpct] at h
    omega
  have hhogs : (if st.first = true then [] else (topProcs (poll imbalance st p).1.procs).filterMap hogSignal) =
      [] := by
    rw [hnone]
    split
    · rfl
    · rfl
  show _ ++ (if st.first = true then [] else (topProcs (poll imbalance st p).1.procs).filterMap hogSignal) = _
  rw [hhogs, List.append_nil]
  rfl

end Totals

/-! ## The shares the processes really had -/

/-- The time between two polls. -/
def elapsed (a b : CpuStat) : Int := b.total.toNat - a.total.toNat

/-- The time a process used in between. -/
def used (q p : Proc) : Int := p.cpuTime.toNat - q.cpuTime.toNat

/-- What the shares are to be at a poll with the result `b` that follows one
with the result `a`: the time a process used over the time that went by,
and the critical ones among the first of the list reported. -/
structure SharesRight (a b : PollResult) : Prop where
  pct : ∀ q ∈ a.procs, ∀ p ∈ b.procs, q.pid = p.pid → q.cpuTime ≤ p.cpuTime →
    p.cpuPct = 100 * used q p / elapsed a.stat b.stat
  critical : ∀ q ∈ a.procs, ∀ p ∈ b.procs.take topN, q.pid = p.pid → q.cpuTime ≤ p.cpuTime →
    hogCriticalPct * elapsed a.stat b.stat ≤ 100 * used q p →
    ⟨"CPU_HOG_CRITICAL", hogContext p, 25⟩ ∈ b.signals

/-- Every process the polls both read used less than one percent of the time
between them. -/
def UsedLittle (a b : PollInput) : Prop :=
  ∀ q ∈ readProcProcs a.procs maxProcs, ∀ p ∈ readProcProcs b.procs maxProcs,
    q.pid = p.pid → q.cpuTime ≤ p.cpuTime → 100 * used q p < elapsed a.reading b.reading

/-- The total of the second poll is larger. -/
def TotalGrows (a b : PollInput) : Prop := a.reading.total < b.reading.total

instance (a b : PollInput) : Decidable (UsedLittle a b) :=
  @List.decidableBAll _ _ (fun _ => @List.decidableBAll _ _ (fun _ => inferInstance) _) _

instance (a b : PollInput) : Decidable (TotalGrows a b) := inferInstanceAs (Decidable (_ < _))

section Shares

variable {imbalance : List ClusterSum → Option (List Char)}

theorem elapsed_pos {a b : CpuStat} (h : a.total < b.total) : 0 < elapsed a b := by
  rw [UInt64.lt_iff_toNat_lt] at h
  unfold elapsed
  omega

theorem used_nonneg {q p : Proc} (h : q.cpuTime ≤ p.cpuTime) : 0 ≤ used q p := by
  rw [UInt64.le_iff_toNat_le] at h
  unfold used
  omega

/-- A share is zero exactly if it is less than one percent. -/
theorem share_eq_zero_iff {u e : Int} (hu : 0 ≤ u) (he : 0 < e) : 0 = 100 * u / e ↔ 100 * u < e := by
  constructor
  · intro h
    have hlt := Int.lt_ediv_add_one_mul_self (100 * u) he
    rw [← h] at hlt
    omega
  · exact fun h => (Int.ediv_eq_zero_of_lt (by omega) h).symm

theorem sharesRight_iff (st st' : PollState) {a b : PollInput} (hgrows : TotalGrows a b) :
    SharesRight (poll imbalance st a).1 (poll imbalance st' b).1 ↔ UsedLittle a b := by
  have hpos : 0 < elapsed a.reading b.reading := elapsed_pos hgrows
  constructor
  · intro h q hq p hp hpid htime
    have hpct := h.pct q ((mem_poll_procs _ _ _ q).mpr hq) p ((mem_poll_procs _ _ _ p).mpr hp) hpid htime
    rw [poll_pct imbalance st' b p ((mem_poll_procs _ _ _ p).mpr hp)] at hpct
    exact (share_eq_zero_iff (used_nonneg htime) hpos).mp hpct
  · intro h
    constructor
    · intro q hq p hp hpid htime
      have hlt := h q ((mem_poll_procs _ _ _ q).mp hq) p ((mem_poll_procs _ _ _ p).mp hp) hpid htime
      rw [poll_pct _ _ _ p hp]
      exact (share_eq_zero_iff (used_nonneg htime) hpos).mpr hlt
    · intro q hq p hp hpid htime hcritical
      have hp := List.mem_of_mem_take hp
      have hlt := h q ((mem_poll_procs _ _ _ q).mp hq) p ((mem_poll_procs _ _ _ p).mp hp) hpid htime
      -- 70 percent is more than one
      have hmuch : 70 * elapsed a.reading b.reading ≤ 100 * used q p := hcritical
      omega

/-- **The shares are right at every poll exactly if no process ever uses one
percent of an interval.** -/
theorem shares_right_iff (st : PollState) {ps : List PollInput}
    (hgrows : ps.IsChain TotalGrows) :
    (pollResults imbalance st ps).IsChain SharesRight ↔ ps.IsChain UsedLittle := by
  have chain : ∀ (ps : List PollInput) (st : PollState), ps.IsChain TotalGrows →
      ((pollResults imbalance st ps).IsChain SharesRight ↔ ps.IsChain UsedLittle) := by
    intro ps
    induction ps with
    | nil => exact fun _ _ => iff_of_true List.isChain_nil List.isChain_nil
    | cons a ps ih =>
        intro st hgrows
        cases ps with
        | nil => exact iff_of_true (List.isChain_singleton _) (List.isChain_singleton _)
        | cons b ps =>
            obtain ⟨hab, hrest⟩ := List.isChain_cons_cons.mp hgrows
            have hfirst : SharesRight (poll imbalance st a).1 (poll imbalance (poll imbalance st a).2 b).1 ↔
                UsedLittle a b := sharesRight_iff st (poll imbalance st a).2 hab
            have hlater := ih (poll imbalance st a).2 hrest
            rw [pollResults, pollResults, List.isChain_cons_cons, List.isChain_cons_cons, hfirst]
            rw [pollResults] at hlater
            rw [hlater]
  exact chain ps st hgrows

end Shares

/-- A poll of a busy process: the ticks of the process and of the idle task. -/
def samplePoll (busy idle : String) : PollInput where
  stat := some ("cpu  ".toList ++ busy.toList ++ " 0 0 ".toList ++ idle.toList ++ " 0 0 0 0 0 0\n".toList)
  cpus := fun _ => ⟨none, none, none, none, []⟩
  procs := some ("77 (miner) R 1 77 0 0 -1 0 0 0 0 0 ".toList ++ busy.toList ++ " 0 20 0\n".toList)

theorem shares_right_iff_idle : (pollResults (fun _ => none) .initial
    [samplePoll "100" "1000", samplePoll "100" "2000"]).IsChain SharesRight :=
  (shares_right_iff .initial (List.isChain_cons_cons.mpr ⟨by decide +kernel, List.isChain_singleton _⟩)).mpr
    (List.isChain_cons_cons.mpr ⟨by decide +kernel, List.isChain_singleton _⟩)

/-- The process of a sample poll. -/
def miner (busy : UInt64) : Proc := ⟨77, "miner".toList, busy, 0⟩

/-- A process that uses the whole interval. -/
theorem miner_not_seen : [samplePoll "100" "1000", samplePoll "1100" "1000"].IsChain TotalGrows ∧
    ¬ (pollResults (fun _ => none) .initial
      [samplePoll "100" "1000", samplePoll "1100" "1000"]).IsChain SharesRight := by
  constructor
  · exact List.isChain_cons_cons.mpr ⟨by decide +kernel, List.isChain_singleton _⟩
  · intro h
    have hpct := (List.isChain_cons_cons.mp h).1.pct (miner 100) (by decide +kernel) (miner 1100)
      (by decide +kernel) rfl (by decide)
    exact absurd hpct (by decide +kernel)

end MiuiserPeruser.Rocksteady
