import Mathlib.Data.List.Dedup
import Mathlib.Order.Bounds.Basic
import Mathlib.Analysis.Real.Sqrt
import MiuiserPeruser.Lib.Table
import MiuiserPeruser.Lib.Welford

/-!
# ratkingd — the running baseline (`ratkingd.c`)

`update_baseline` keeps for each name the mean, the standard deviation and
the maximum of what it was called with, and none of the values. The model
counts with exact numbers: `double` is a field with a square root, and the
number of samples does not wrap around. The square of the deviation stands
for the variance, and what one call does to it is a step of the running
variance (`Describes.next`), so a baseline always describes the calls with
its name (`describes_after`).
-/

namespace MiuiserPeruser.Ratking

open Sql Welford

/-- `MAX_BASELINE`. -/
def maxBaseline : Nat := 128

/-- `baseline_t`. -/
@[ext] structure Baseline (K : Type) where
  name : List Char
  cpuMean : K
  cpuStddev : K
  rssMean : K
  rssStddev : K
  samples : Nat
  maxCpu : Int
  maxRss : Int

/-- `g_baselines`, up to `g_nbaseline`. -/
abbrev Baselines (K : Type) := Table (Baseline K) Baseline.name

/-- The arguments of a call of `update_baseline`; the name fits its field. -/
structure Call where
  name : List Char
  cpuPct : Int
  rssKb : Int
  short : name.length < 32
  deriving DecidableEq

section Update

variable {K : Type} [Field K] (sqrt : K → K)

/-- The mean of `n` samples, from that of all but the last. -/
def runningMean (n : Nat) (mean x : K) : K := mean + (x - mean) / n

/-- Their standard deviation. -/
def runningStddev (n : Nat) (mean stddev x : K) : K :=
  sqrt ((stddev * stddev * (n - 1) + (x - mean) * (x - runningMean n mean x)) / n)

/-- The entry of a name that is not known. -/
def Baseline.first (c : Call) : Baseline K where
  name := c.name
  cpuMean := c.cpuPct
  cpuStddev := 0
  rssMean := c.rssKb
  rssStddev := 0
  samples := 1
  maxCpu := c.cpuPct
  maxRss := c.rssKb

/-- The entry of a name that is. -/
def Baseline.next (b : Baseline K) (c : Call) : Baseline K where
  name := b.name
  samples := b.samples + 1
  cpuMean := runningMean (b.samples + 1) b.cpuMean c.cpuPct
  cpuStddev := runningStddev sqrt (b.samples + 1) b.cpuMean b.cpuStddev c.cpuPct
  rssMean := runningMean (b.samples + 1) b.rssMean c.rssKb
  rssStddev := runningStddev sqrt (b.samples + 1) b.rssMean b.rssStddev c.rssKb
  maxCpu := if b.maxCpu < c.cpuPct then c.cpuPct else b.maxCpu
  maxRss := if b.maxRss < c.rssKb then c.rssKb else b.maxRss

/-- `find_baseline`. -/
def findBaseline (t : Baselines K) (name : List Char) : Option (Baseline K) := t.find? name

/-- `update_baseline`. -/
def updateBaseline (t : Baselines K) (c : Call) : Baselines K :=
  match findBaseline t c.name with
  | some b => t.upsert (b.next sqrt c)
  | none => if t.rows.length < maxBaseline then t.upsert (.first c) else t

/-- The baselines after a sequence of calls. -/
def baselinesAfter (calls : List Call) : Baselines K := calls.foldl (updateBaseline sqrt) .empty

end Update

/-! ## What a baseline says -/

/-- The calls with a name. -/
def ofName (name : List Char) (calls : List Call) : List Call := calls.filter (·.name = name)

section Describes

variable {K : Type} [Field K] (sqrt : K → K)

/-- The percentages and the sizes of some calls. -/
def cpuValues (cs : List Call) : List K := cs.map fun c => (c.cpuPct : K)
def rssValues (cs : List Call) : List K := cs.map fun c => (c.rssKb : K)

/-- The statistics of some calls. -/
structure Describes (b : Baseline K) (cs : List Call) : Prop where
  samples : b.samples = cs.length
  cpuMean : b.cpuMean = mean (cpuValues cs)
  cpuStddev : b.cpuStddev = sqrt (variance (cpuValues cs))
  rssMean : b.rssMean = mean (rssValues cs)
  rssStddev : b.rssStddev = sqrt (variance (rssValues cs))
  maxCpu : IsGreatest {v | v ∈ cs.map Call.cpuPct} b.maxCpu
  maxRss : IsGreatest {v | v ∈ cs.map Call.rssKb} b.maxRss

variable {sqrt} {b b' : Baseline K} {cs cs' : List Call}

/-- The statistics take no notice of the order. -/
theorem Describes.unique (h : Describes sqrt b cs) (h' : Describes sqrt b' cs') (hperm : cs.Perm cs')
    (hname : b.name = b'.name) : b = b' := by
  have hcpu : (cpuValues cs : List K).Perm (cpuValues cs') := hperm.map _
  have hrss : (rssValues cs : List K).Perm (rssValues cs') := hperm.map _
  have hmaxCpu : b.maxCpu = b'.maxCpu := by
    refine h.maxCpu.unique ?_
    have hmem : ∀ v, v ∈ cs'.map Call.cpuPct ↔ v ∈ cs.map Call.cpuPct := fun v => (hperm.symm.map _).mem_iff
    simpa only [hmem] using h'.maxCpu
  have hmaxRss : b.maxRss = b'.maxRss := by
    refine h.maxRss.unique ?_
    have hmem : ∀ v, v ∈ cs'.map Call.rssKb ↔ v ∈ cs.map Call.rssKb := fun v => (hperm.symm.map _).mem_iff
    simpa only [hmem] using h'.maxRss
  apply Baseline.ext hname
  · rw [h.cpuMean, h'.cpuMean, mean_perm hcpu]
  · rw [h.cpuStddev, h'.cpuStddev, variance_perm hcpu]
  · rw [h.rssMean, h'.rssMean, mean_perm hrss]
  · rw [h.rssStddev, h'.rssStddev, variance_perm hrss]
  · rw [h.samples, h'.samples, hperm.length_eq]
  · exact hmaxCpu
  · exact hmaxRss

/-- The greater one of a new value and the greatest of the others. -/
theorem isGreatest_concat {vs : List Int} {m : Int} (h : IsGreatest {v | v ∈ vs} m) (x : Int) :
    IsGreatest {v | v ∈ vs ++ [x]} (if m < x then x else m) := by
  have hle : ∀ v ∈ vs, v ≤ m := fun v hv => h.2 hv
  constructor
  · show _ ∈ vs ++ [x]
    split
    · simp
    · exact List.mem_append_left _ h.1
  · intro v hv
    rcases List.mem_append.mp hv with hv | hv
    · have := hle v hv
      split
      · omega
      · exact this
    · rw [List.mem_singleton.mp hv]
      split
      · exact le_rfl
      · omega

end Describes

/-! ## A sequence of calls -/

theorem notMem_names {K : Type} {t : Baselines K} {name : List Char} (h : findBaseline t name = none) :
    name ∉ t.rows.map Baseline.name := by
  intro hmem
  obtain ⟨b, hb⟩ := Table.mem_keys_iff.mp hmem
  exact absurd (hb.symm.trans h) nofun

section Tracks

variable {K : Type} [Field K] {sqrt : K → K}

/-- A name has an entry exactly if it was seen, and the entry describes its
calls. -/
def Tracks (sqrt : K → K) (t : Baselines K) (calls : List Call) : Prop :=
  ∀ name, (ofName name calls = [] ∧ findBaseline t name = none) ∨
    (ofName name calls ≠ [] ∧ ∃ b, findBaseline t name = some b ∧ Describes sqrt b (ofName name calls))

theorem ofName_concat (name : List Char) (calls : List Call) (c : Call) :
    ofName name (calls ++ [c]) = if c.name = name then ofName name calls ++ [c] else ofName name calls := by
  rw [ofName, List.filter_append, List.filter_singleton]
  by_cases h : c.name = name
  · simp [h, ofName]
  · simp [h, ofName]

/-- The names in the table were seen. -/
theorem Tracks.names {t : Baselines K} {calls : List Call} (h : Tracks sqrt t calls) :
    t.rows.map Baseline.name ⊆ calls.map Call.name := by
  intro name hname
  rcases h name with ⟨-, hnone⟩ | ⟨hne, -⟩
  · exact absurd hname (notMem_names hnone)
  · obtain ⟨c, hc⟩ := List.exists_mem_of_ne_nil _ hne
    obtain ⟨hmem, heq⟩ := List.mem_filter.mp hc
    exact List.mem_map.mpr ⟨c, hmem, by simpa using heq⟩

/-- There is room for a name that is not there, as long as there are not too
many. -/
theorem Tracks.room {t : Baselines K} {calls : List Call} (h : Tracks sqrt t calls) {c : Call}
    (hnew : findBaseline t c.name = none) (hfew : ((calls ++ [c]).map Call.name).dedup.length ≤ maxBaseline) :
    t.rows.length < maxBaseline := by
  have hnodup : (c.name :: t.rows.map Baseline.name).Nodup :=
    List.nodup_cons.mpr ⟨notMem_names hnew, t.nodup⟩
  have hsubset : c.name :: t.rows.map Baseline.name ⊆ ((calls ++ [c]).map Call.name).dedup := by
    intro name hname
    rw [List.mem_dedup, List.map_append, List.mem_append]
    rcases List.mem_cons.mp hname with rfl | hname
    · exact .inr (by simp)
    · exact .inl (h.names hname)
  have hlen := (hnodup.subperm hsubset).length_le
  rw [List.length_cons, List.length_map] at hlen
  omega

theorem Tracks.upsert {t : Baselines K} {calls : List Call} {c : Call} {b : Baseline K} (h : Tracks sqrt t calls)
    (hname : b.name = c.name) (hb : Describes sqrt b (ofName c.name calls ++ [c])) :
    Tracks sqrt (t.upsert b) (calls ++ [c]) := by
  intro name
  have hfind : findBaseline (t.upsert b) name = if b.name = name then some b else findBaseline t name :=
    Table.find?_upsert t b name
  rw [hfind, ofName_concat, hname]
  by_cases heq : c.name = name
  · subst heq
    rw [if_pos rfl, if_pos rfl]
    exact .inr ⟨by simp, b, rfl, hb⟩
  · rw [if_neg heq, if_neg heq]
    exact h name

end Tracks

/-! ## Exact roots -/

section Exact

variable {K : Type} [Field K] [LinearOrder K] [IsStrictOrderedRing K] {sqrt : K → K}

/-- An exact square root. -/
def IsSqrt (sqrt : K → K) : Prop := ∀ x, 0 ≤ x → 0 ≤ sqrt x ∧ sqrt x * sqrt x = x

theorem IsSqrt.zero (h : IsSqrt sqrt) : sqrt 0 = 0 := mul_self_eq_zero.mp (h 0 le_rfl).2

/-- The first call. -/
theorem Describes.first (h : IsSqrt sqrt) (c : Call) : Describes sqrt (Baseline.first c) [c] where
  samples := rfl
  cpuMean := (mean_singleton _).symm
  cpuStddev := by
    rw [cpuValues, List.map_singleton, variance_singleton, h.zero]
    rfl
  rssMean := (mean_singleton _).symm
  rssStddev := by
    rw [rssValues, List.map_singleton, variance_singleton, h.zero]
    rfl
  maxCpu := by simp [Baseline.first]
  maxRss := by simp [Baseline.first]

theorem runningMean_eq {xs : List K} (hne : xs ≠ []) (x : K) :
    runningMean (xs.length + 1) (mean xs) x = mean (xs ++ [x]) := by
  rw [mean_concat hne, runningMean]
  push_cast
  rfl

theorem runningStddev_eq (h : IsSqrt sqrt) {xs : List K} (hne : xs ≠ []) (x : K) :
    runningStddev sqrt (xs.length + 1) (mean xs) (sqrt (variance xs)) x = sqrt (variance (xs ++ [x])) := by
  have hsquare := (h (variance xs) (variance_nonneg xs)).2
  rw [variance_concat hne, runningStddev, runningMean_eq hne, hsquare]
  push_cast
  rw [add_sub_cancel_right]

/-- **One more call.** The deviation and the two means make the step of the
running variance. -/
theorem Describes.next (h : IsSqrt sqrt) {b : Baseline K} {cs : List Call} (hb : Describes sqrt b cs)
    (hne : cs ≠ []) (c : Call) : Describes sqrt (b.next sqrt c) (cs ++ [c]) := by
  have hcpu : (cpuValues cs : List K) ≠ [] ∧ (cpuValues cs : List K).length = cs.length :=
    ⟨by simpa [cpuValues] using hne, List.length_map _⟩
  have hrss : (rssValues cs : List K) ≠ [] ∧ (rssValues cs : List K).length = cs.length :=
    ⟨by simpa [rssValues] using hne, List.length_map _⟩
  have hcpuNew : (cpuValues (cs ++ [c]) : List K) = cpuValues cs ++ [(c.cpuPct : K)] := List.map_append
  have hrssNew : (rssValues (cs ++ [c]) : List K) = rssValues cs ++ [(c.rssKb : K)] := List.map_append
  constructor
  · rw [List.length_append, ← hb.samples]
    rfl
  · rw [hcpuNew, ← runningMean_eq hcpu.1, hcpu.2, ← hb.samples, ← hb.cpuMean]
    rfl
  · rw [hcpuNew, ← runningStddev_eq h hcpu.1, hcpu.2, ← hb.samples, ← hb.cpuMean, ← hb.cpuStddev]
    rfl
  · rw [hrssNew, ← runningMean_eq hrss.1, hrss.2, ← hb.samples, ← hb.rssMean]
    rfl
  · rw [hrssNew, ← runningStddev_eq h hrss.1, hrss.2, ← hb.samples, ← hb.rssMean, ← hb.rssStddev]
    rfl
  · rw [List.map_append]
    exact isGreatest_concat hb.maxCpu c.cpuPct
  · rw [List.map_append]
    exact isGreatest_concat hb.maxRss c.rssKb

/-- One call. -/
theorem Tracks.update (hsqrt : IsSqrt sqrt) {t : Baselines K} {calls : List Call} (h : Tracks sqrt t calls)
    {c : Call} (hfew : ((calls ++ [c]).map Call.name).dedup.length ≤ maxBaseline) :
    Tracks sqrt (updateBaseline sqrt t c) (calls ++ [c]) := by
  rcases h c.name with ⟨hnil, hnone⟩ | ⟨hne, b, hfind, hb⟩
  · have hroom := h.room hnone hfew
    have hfirst : Describes sqrt (Baseline.first c) (ofName c.name calls ++ [c]) := by
      rw [hnil]
      exact .first hsqrt c
    rw [updateBaseline, hnone]
    simp only [if_pos hroom]
    exact h.upsert rfl hfirst
  · rw [updateBaseline, hfind]
    have hname : b.name = c.name := Table.key_of_find? hfind
    exact h.upsert hname (hb.next hsqrt hne c)

/-- Fewer calls have fewer names. -/
theorem names_le {calls : List Call} {c : Call}
    (h : ((calls ++ [c]).map Call.name).dedup.length ≤ maxBaseline) : (calls.map Call.name).dedup.length ≤ maxBaseline := by
  have hsubset : (calls.map Call.name).dedup ⊆ ((calls ++ [c]).map Call.name).dedup := by
    intro name hname
    rw [List.mem_dedup] at hname ⊢
    rw [List.map_append]
    exact List.mem_append_left _ hname
  exact ((List.nodup_dedup _).subperm hsubset).length_le.trans h

/-- **A sequence of calls**, from empty baselines. -/
theorem tracks_after (hsqrt : IsSqrt sqrt) {calls : List Call}
    (h : (calls.map Call.name).dedup.length ≤ maxBaseline) : Tracks sqrt (baselinesAfter sqrt calls) calls := by
  induction calls using List.reverseRecOn with
  | nil => exact fun name => .inl ⟨rfl, rfl⟩
  | append_singleton calls c ih =>
      have hstep : baselinesAfter sqrt (calls ++ [c]) = updateBaseline sqrt (baselinesAfter sqrt calls) c := by
        simp [baselinesAfter, List.foldl_append]
      rw [hstep]
      exact (ih (names_le h)).update hsqrt h

end Exact

/-- **The running baseline is the true statistic**: of a name that was seen
there is an entry, which has its number of calls, the means, the population
deviations and the maxima of its values; any other sequence with the same
calls of the name, in whatever order and among whatever others, leaves the
same entry. -/
theorem running_baseline {calls : List Call} (hfew : (calls.map Call.name).dedup.length ≤ maxBaseline)
    {name : List Char} (hseen : ofName name calls ≠ []) :
    ∃ b, findBaseline (baselinesAfter Real.sqrt calls) name = some b ∧ Describes Real.sqrt b (ofName name calls) ∧
      ∀ calls' : List Call, (calls'.map Call.name).dedup.length ≤ maxBaseline →
        (ofName name calls').Perm (ofName name calls) →
          findBaseline (baselinesAfter Real.sqrt calls') name = some b := by
  have hsqrt : IsSqrt Real.sqrt := fun x hx => ⟨Real.sqrt_nonneg x, Real.mul_self_sqrt hx⟩
  obtain ⟨-, b, hfind, hb⟩ := (tracks_after hsqrt hfew name).resolve_left fun h => hseen h.1
  refine ⟨b, hfind, hb, fun calls' hfew' hperm => ?_⟩
  have hseen' : ofName name calls' ≠ [] := by
    intro hnil
    rw [hnil] at hperm
    exact hseen hperm.nil_eq.symm
  obtain ⟨-, b', hfind', hb'⟩ := (tracks_after hsqrt hfew' name).resolve_left fun h => hseen' h.1
  have hname : b'.name = b.name := (Table.key_of_find? hfind').trans (Table.key_of_find? hfind).symm
  rw [hfind', hb'.unique hb hperm hname]

theorem short_names : "browser".toList.length < 32 ∧ "init".toList.length < 32 := by decide

/-- Two polls of a browser, with another process in between. -/
def threeCalls : List Call :=
  [⟨"browser".toList, 10, 1000, short_names.1⟩, ⟨"init".toList, 90, 5, short_names.2⟩,
    ⟨"browser".toList, 20, 3000, short_names.1⟩]

theorem running_baseline_two : ∃ b, findBaseline (baselinesAfter Real.sqrt threeCalls) "browser".toList = some b ∧
    b.samples = 2 ∧ b.cpuMean = 15 ∧ b.cpuStddev = 5 ∧ b.maxRss = 3000 := by
  obtain ⟨b, hfind, hb, -⟩ := @running_baseline threeCalls (by decide) "browser".toList (by decide)
  have hof : ofName "browser".toList threeCalls = [⟨"browser".toList, 10, 1000, short_names.1⟩,
      ⟨"browser".toList, 20, 3000, short_names.1⟩] := by decide
  rw [hof] at hb
  refine ⟨b, hfind, hb.samples, ?_, ?_, ?_⟩
  · rw [hb.cpuMean]
    norm_num [mean, cpuValues]
  · have hvariance : variance (cpuValues [⟨"browser".toList, 10, 1000, short_names.1⟩,
        ⟨"browser".toList, 20, 3000, short_names.1⟩] : List ℝ) = 5 ^ 2 := by
      norm_num [variance, sumSq, mean, cpuValues]
    rw [hb.cpuStddev, hvariance, Real.sqrt_sq (by norm_num)]
  · have hgreatest : IsGreatest {v : Int | v ∈ [1000, 3000]} 3000 := by
      constructor
      · simp
      · intro v hv
        have hcases : v = 1000 ∨ v = 3000 := by simpa using hv
        omega
    exact hb.maxRss.unique hgreatest

end MiuiserPeruser.Ratking
