import Mathlib.Data.Finset.Sort
import MiuiserPeruser.Lib.CText
import MiuiserPeruser.Lib.InsertionSort
import MiuiserPeruser.Lib.Scanf

/-!
# rocksteadyd — the cores and their clusters (`rocksteadyd.c`)

`enumerate_cpus` reads the frequencies of the cores from sysfs and groups
the cores by their maximum: it collects the distinct maxima, sorts them in
place and looks every core up again. The collection has room for
`MAX_CLUSTERS` frequencies.

The cluster of a core is the RANK of its frequency: the number of distinct
frequencies below it. What the three loops leave behind is a sorted list of
all positive frequencies (`sortedFreqs_spec`), and the place of an entry in
such a list is its rank (`idxOf_eq_card`).
-/

namespace MiuiserPeruser.Rocksteady

open CText InsertionSort

def maxCores : Nat := 16
def maxClusters : Nat := 4

/-- `cpu_core_t`. -/
structure CpuCore where
  core : Nat
  curKhz : Int
  maxKhz : Int
  minKhz : Int
  governor : List Char
  throttled : Bool
  atMax : Bool
  cluster : Int
  deriving DecidableEq

/-! ## Reading a core -/

/-- The sysfs files of a core. `slot` is what the array of the governor's
name holds before. -/
structure CpuFiles where
  curFreq : Option (List Char)
  maxFreq : Option (List Char)
  minFreq : Option (List Char)
  governor : Option (List Char)
  slot : List Char

/-- `read_long_sysfs`. -/
def readLongSysfs (file : Option (List Char)) : Int :=
  match file with
  | none => -1
  | some text => if scanf percentLD text = [] then -1 else numAt (scanf percentLD text) 0

/-- A number as a `float`: 24 bits of it, ties to even. -/
def toFloat (n : Nat) : Nat :=
  let unit := 2 ^ (n.log2 - 23)
  let q := n / unit
  let r := n % unit
  (if unit < 2 * r ∨ (unit = 2 * r ∧ q % 2 = 1) then q + 1 else q) * unit

/-- `(float)cur < (float)max * THROTTLE_RATIO`, both sides times four; the
product with 0.75f is rounded once. -/
def belowRatio (cur max : Nat) : Bool := 4 * toFloat cur < toFloat (3 * toFloat max)

/-- The body of the loop that reads the cores; a core without a current
frequency ends the loop. -/
def readCore (i : Nat) (files : CpuFiles) : Option CpuCore :=
  let cur := readLongSysfs files.curFreq
  let max := readLongSysfs files.maxFreq
  if cur < 0 then none
  else some
    { core := i
      curKhz := cur
      maxKhz := max
      minKhz := readLongSysfs files.minFreq
      governor :=
        match files.governor with
        | none => "unknown".toList
        | some text => (((fgetsLines 32 text).head?).getD files.slot).takeWhile (· ≠ '\n')
      throttled := 0 < max && belowRatio cur.toNat max.toNat
      atMax := 0 < max && max ≤ cur
      cluster := -1 }

/-- The cores from `i` on. -/
def readCores (files : Nat → CpuFiles) (i : Nat) : Nat → List CpuCore
  | 0 => []
  | n + 1 =>
      match readCore i (files i) with
      | none => []
      | some c => c :: readCores files (i + 1) n

/-! ## The clusters -/

/-- The loop that collects the distinct frequencies. -/
def addFreq (distinct : List Int) (f : Int) : List Int :=
  if f ≤ 0 then distinct
  else if f ∈ distinct then distinct
  else if distinct.length < maxClusters then distinct ++ [f]
  else distinct

def distinctFreqs (freqs : List Int) : List Int := freqs.foldl addFreq []

/-- `distinct_freqs` once it is sorted. -/
def sortedFreqs (freqs : List Int) : List Int :=
  insertionSort (fun x key => decide (key < x)) (distinctFreqs freqs)

/-- The loop that looks a core up. -/
def assignCluster (freqs : List Int) (c : CpuCore) : CpuCore :=
  if c.maxKhz ≤ 0 then c
  else if c.maxKhz ∈ freqs then { c with cluster := freqs.idxOf c.maxKhz }
  else c

/-- `enumerate_cpus`: the cores and `*out_nclusters`. -/
def enumerateCpus (files : Nat → CpuFiles) (max : Nat) : List CpuCore × Nat :=
  let cores := readCores files 0 max
  let freqs := sortedFreqs (cores.map CpuCore.maxKhz)
  (cores.map (assignCluster freqs), freqs.length)

/-! ## Ranks -/

/-- The distinct positive frequencies. -/
def positiveFreqs (freqs : List Int) : Finset Int := freqs.toFinset.filter (0 < ·)

/-- The number of entries of `s` below `f`. -/
def rank (s : Finset Int) (f : Int) : Nat := (s.filter (· < f)).card

theorem rank_mono (s : Finset Int) {f g : Int} (h : f ≤ g) : rank s f ≤ rank s g := by
  apply Finset.card_le_card
  intro x hx
  rw [Finset.mem_filter] at hx ⊢
  exact ⟨hx.1, by omega⟩

theorem rank_lt_iff {s : Finset Int} {f : Int} (hf : f ∈ s) (g : Int) : rank s f < rank s g ↔ f < g := by
  constructor
  · intro h
    by_contra hle
    exact absurd (rank_mono s (Int.not_lt.mp hle)) (by omega)
  · intro h
    apply Finset.card_lt_card
    rw [Finset.ssubset_iff_of_subset]
    · exact ⟨f, Finset.mem_filter.mpr ⟨hf, h⟩, by simp⟩
    · intro x hx
      rw [Finset.mem_filter] at hx ⊢
      exact ⟨hx.1, by omega⟩

/-- The place of an entry in a sorted list is its rank. -/
theorem idxOf_eq_card {l : List Int} (hsorted : l.Pairwise (· < ·)) {f : Int} (hf : f ∈ l) :
    l.idxOf f = rank l.toFinset f := by
  induction l with
  | nil => exact absurd hf List.not_mem_nil
  | cons x l ih =>
      obtain ⟨hx, hl⟩ := List.pairwise_cons.mp hsorted
      by_cases hxf : x = f
      · subst hxf
        have hempty : ((x :: l).toFinset.filter (· < x)) = ∅ := by
          rw [Finset.filter_eq_empty_iff]
          intro y hy
          rcases List.mem_cons.mp (List.mem_toFinset.mp hy) with rfl | hy
          · omega
          · have := hx y hy
            omega
        rw [List.idxOf_cons_self, rank, hempty, Finset.card_empty]
      · have hmem : f ∈ l := (List.mem_cons.mp hf).resolve_left (Ne.symm hxf)
        have hlt : x < f := hx f hmem
        have hnew : x ∉ l.toFinset.filter (· < f) := by
          intro h
          exact absurd (hx x (List.mem_toFinset.mp (Finset.mem_filter.mp h).1)) (by omega)
        rw [List.idxOf_cons_ne _ hxf, ih hl hmem, rank, rank, List.toFinset_cons, Finset.filter_insert,
          if_pos hlt, Finset.card_insert_of_notMem hnew]

/-! ## What the loops collect -/

section Distinct

variable {d : List Int} {freqs : List Int}

/-- What every pass of the collecting loop keeps. -/
structure Collected (d : List Int) : Prop where
  nodup : d.Nodup
  pos : ∀ f ∈ d, 0 < f
  room : d.length ≤ maxClusters

theorem Collected.nil : Collected [] where
  nodup := List.nodup_nil
  pos := fun _ h => absurd h List.not_mem_nil
  room := Nat.zero_le _

theorem Collected.addFreq (h : Collected d) (f : Int) : Collected (addFreq d f) := by
  unfold Rocksteady.addFreq
  split
  · exact h
  · rename_i hf
    split
    · exact h
    · rename_i hnew
      split
      · rename_i hlt
        constructor
        · exact List.Nodup.append h.nodup (List.nodup_singleton f) (by simpa using hnew)
        · intro g hg
          rcases List.mem_append.mp hg with hg | hg
          · exact h.pos g hg
          · rw [List.mem_singleton.mp hg]
            omega
        · rw [List.length_append, List.length_singleton]
          omega
      · exact h

theorem Collected.foldl (h : Collected d) (freqs : List Int) :
    Collected (freqs.foldl Rocksteady.addFreq d) := by
  induction freqs generalizing d with
  | nil => exact h
  | cons f freqs ih => exact ih (h.addFreq f)

theorem positiveFreqs_cons (f : Int) (freqs : List Int) :
    positiveFreqs (f :: freqs) = if 0 < f then insert f (positiveFreqs freqs) else positiveFreqs freqs := by
  rw [positiveFreqs, List.toFinset_cons, Finset.filter_insert]
  rfl

/-- The collection takes in every positive frequency while there is room for
all of them. -/
theorem toFinset_foldl_addFreq (hd : Collected d)
    (hroom : (d.toFinset ∪ positiveFreqs freqs).card ≤ maxClusters) :
    (freqs.foldl addFreq d).toFinset = d.toFinset ∪ positiveFreqs freqs := by
  induction freqs generalizing d with
  | nil => simp [positiveFreqs]
  | cons f freqs ih =>
      have hadd : (addFreq d f).toFinset ∪ positiveFreqs freqs = d.toFinset ∪ positiveFreqs (f :: freqs) := by
        rw [positiveFreqs_cons]
        by_cases hf : 0 < f
        · rw [if_pos hf, addFreq, if_neg (by omega)]
          by_cases hold : f ∈ d
          · rw [if_pos hold, Finset.union_insert,
              Finset.insert_eq_of_mem (Finset.mem_union_left _ (List.mem_toFinset.mpr hold))]
          · -- a full collection and one more frequency would be too many
            have hlt : d.length < maxClusters := by
              have hsub : insert f d.toFinset ⊆ d.toFinset ∪ positiveFreqs (f :: freqs) := by
                rw [positiveFreqs_cons, if_pos hf, Finset.union_insert]
                exact Finset.insert_subset_insert f Finset.subset_union_left
              have hcard := Finset.card_le_card hsub
              rw [Finset.card_insert_of_notMem (by simpa using hold),
                List.toFinset_card_of_nodup hd.nodup] at hcard
              omega
            rw [if_neg hold, if_pos hlt, List.toFinset_append, List.toFinset_cons, List.toFinset_nil,
              Finset.union_assoc, Finset.insert_union, Finset.empty_union]
        · rw [if_neg hf, addFreq, if_pos (by omega)]
      rw [List.foldl_cons, ih (hd.addFreq f) (by rwa [hadd]), hadd]

end Distinct

/-- `distinct_freqs[j] > key` sorts the frequencies upwards. -/
theorem isOrder_freq : IsOrder fun x key : Int => decide (key < x) where
  asymm := by
    intro x y h
    rw [decide_eq_true_eq] at h
    rw [decide_eq_false_iff_not]
    omega
  trans := by
    intro x y z hxy hyz
    rw [decide_eq_false_iff_not] at hxy hyz ⊢
    omega

section Sorted

variable (freqs : List Int)

theorem collected_distinctFreqs : Collected (distinctFreqs freqs) := Collected.nil.foldl freqs

theorem sortedFreqs_perm : (sortedFreqs freqs).Perm (distinctFreqs freqs) := insertionSort_perm _

theorem length_sortedFreqs_le : (sortedFreqs freqs).length ≤ maxClusters := by
  rw [(sortedFreqs_perm freqs).length_eq]
  exact (collected_distinctFreqs freqs).room

theorem sortedFreqs_pairwise : (sortedFreqs freqs).Pairwise (· < ·) := by
  have hle : (sortedFreqs freqs).Pairwise (· ≤ ·) := by
    refine (insertionSort_inOrder isOrder_freq (distinctFreqs freqs)).imp ?_
    intro x y h
    simpa using h
  have hnodup := (sortedFreqs_perm freqs).nodup_iff.mpr (collected_distinctFreqs freqs).nodup
  refine (hle.and hnodup).imp ?_
  intro x y h
  omega

/-- Where there is room for all of them, the sorted array holds exactly the
positive frequencies. -/
theorem sortedFreqs_spec (hroom : (positiveFreqs freqs).card ≤ maxClusters) :
    (sortedFreqs freqs).toFinset = positiveFreqs freqs := by
  have hall : ([].toFinset ∪ positiveFreqs freqs : Finset Int) = positiveFreqs freqs := by simp
  rw [List.toFinset_eq_of_perm _ _ (sortedFreqs_perm freqs), distinctFreqs,
    toFinset_foldl_addFreq Collected.nil (by rwa [hall]), hall]

end Sorted

/-! ## The clusters are ranks -/

theorem readCore_cluster {i : Nat} {files : CpuFiles} {c : CpuCore} (h : readCore i files = some c) :
    c.cluster = -1 := by
  by_cases hcur : readLongSysfs files.curFreq < 0
  · rw [readCore, if_pos hcur] at h
    exact absurd h nofun
  · rw [readCore, if_neg hcur] at h
    rw [← Option.some.inj h]

theorem readCores_cluster {files : Nat → CpuFiles} {i n : Nat} :
    ∀ c ∈ readCores files i n, c.cluster = -1 := by
  induction n generalizing i with
  | zero => exact fun c h => absurd h List.not_mem_nil
  | succ n ih =>
      intro c hc
      rw [readCores] at hc
      split at hc
      · exact absurd hc List.not_mem_nil
      · rename_i c' hread
        rcases List.mem_cons.mp hc with rfl | hc
        · exact readCore_cluster hread
        · exact ih c hc

/-- What the clusters of the cores `read` are to be: the ranks of their
maximum frequencies among the distinct positive ones. -/
structure AreRanks (read : List CpuCore) (out : List CpuCore × Nat) : Prop where
  cores : out.1 = read.map fun c =>
    { c with cluster :=
        if 0 < c.maxKhz then (rank (positiveFreqs (read.map CpuCore.maxKhz)) c.maxKhz : Int) else -1 }
  nclusters : out.2 = (positiveFreqs (read.map CpuCore.maxKhz)).card
  order : ∀ a ∈ out.1, ∀ b ∈ out.1, 0 < a.maxKhz ∨ 0 < b.maxKhz →
    (a.cluster < b.cluster ↔ a.maxKhz < b.maxKhz)

section Clusters

variable {read : List CpuCore}

theorem assignCluster_rank {c : CpuCore} (hc : c ∈ read) (hnone : c.cluster = -1)
    (hroom : (positiveFreqs (read.map CpuCore.maxKhz)).card ≤ maxClusters) :
    (assignCluster (sortedFreqs (read.map CpuCore.maxKhz)) c) =
      { c with cluster :=
          if 0 < c.maxKhz then (rank (positiveFreqs (read.map CpuCore.maxKhz)) c.maxKhz : Int) else -1 } := by
  have hspec := sortedFreqs_spec _ hroom
  by_cases hpos : 0 < c.maxKhz
  · have hmem : c.maxKhz ∈ sortedFreqs (read.map CpuCore.maxKhz) := by
      rw [← List.mem_toFinset, hspec, positiveFreqs, Finset.mem_filter, List.mem_toFinset]
      exact ⟨List.mem_map_of_mem hc, hpos⟩
    rw [assignCluster, if_neg (by omega), if_pos hmem, if_pos hpos,
      idxOf_eq_card (sortedFreqs_pairwise _) hmem, hspec]
  · rw [assignCluster, if_pos (by omega), if_neg hpos, ← hnone]

/-- Ranks order the cores as their frequencies do. -/
theorem cluster_order {a b : CpuCore} {s : Finset Int} (ha : 0 < a.maxKhz → a.maxKhz ∈ s)
    (hpos : 0 < a.maxKhz ∨ 0 < b.maxKhz) :
    ((if 0 < a.maxKhz then (rank s a.maxKhz : Int) else -1) <
      if 0 < b.maxKhz then (rank s b.maxKhz : Int) else -1) ↔ a.maxKhz < b.maxKhz := by
  by_cases hapos : 0 < a.maxKhz
  · by_cases hbpos : 0 < b.maxKhz
    · rw [if_pos hapos, if_pos hbpos, Int.ofNat_lt, rank_lt_iff (ha hapos)]
    · rw [if_pos hapos, if_neg hbpos]
      omega
  · have hbpos := hpos.resolve_left hapos
    rw [if_neg hapos, if_pos hbpos]
    omega

theorem areRanks_of_unassigned (hnone : ∀ c ∈ read, c.cluster = -1)
    (hroom : (positiveFreqs (read.map CpuCore.maxKhz)).card ≤ maxClusters) :
    AreRanks read (read.map (assignCluster (sortedFreqs (read.map CpuCore.maxKhz))),
      (sortedFreqs (read.map CpuCore.maxKhz)).length) := by
  have hcores : read.map (assignCluster (sortedFreqs (read.map CpuCore.maxKhz))) = read.map fun c =>
      { c with cluster :=
          if 0 < c.maxKhz then (rank (positiveFreqs (read.map CpuCore.maxKhz)) c.maxKhz : Int) else -1 } :=
    List.map_congr_left fun c hc => assignCluster_rank hc (hnone c hc) hroom
  constructor
  · exact hcores
  · have hnodup : (sortedFreqs (read.map CpuCore.maxKhz)).Nodup :=
      (sortedFreqs_pairwise _).imp fun h => ne_of_lt h
    show (sortedFreqs (read.map CpuCore.maxKhz)).length = _
    rw [← sortedFreqs_spec _ hroom, List.toFinset_card_of_nodup hnodup]
  · intro a ha b hb hpos
    simp only [hcores, List.mem_map] at ha hb
    obtain ⟨a', ha', rfl⟩ := ha
    obtain ⟨b', hb', rfl⟩ := hb
    refine cluster_order (a := a') (b := b') ?_ hpos
    intro hapos
    rw [positiveFreqs, Finset.mem_filter, List.mem_toFinset]
    exact ⟨List.mem_map_of_mem ha', hapos⟩

/-- No lookup leaves the array. -/
theorem assignCluster_lt {freqs : List Int} {c : CpuCore} (hnone : c.cluster = -1)
    (hroom : freqs.length ≤ maxClusters) :
    -1 ≤ (assignCluster freqs c).cluster ∧ (assignCluster freqs c).cluster < maxClusters := by
  have hfour : (maxClusters : Int) = 4 := rfl
  unfold assignCluster
  split
  · omega
  · split
    · rename_i hmem
      have hlt := List.idxOf_lt_length_iff.mpr hmem
      show -1 ≤ (freqs.idxOf c.maxKhz : Int) ∧ (freqs.idxOf c.maxKhz : Int) < maxClusters
      omega
    · omega

end Clusters

/-- **CPU clusters are ranks**, as long as there is room for all the
distinct frequencies, and no cluster is ever out of the range the sums of
`poll` are indexed by. -/
theorem enumerateCpus_ranks (files : Nat → CpuFiles) (max : Nat) :
    ((positiveFreqs ((readCores files 0 max).map CpuCore.maxKhz)).card ≤ maxClusters →
      AreRanks (readCores files 0 max) (enumerateCpus files max)) ∧
    ∀ c ∈ (enumerateCpus files max).1, -1 ≤ c.cluster ∧ c.cluster < maxClusters := by
  constructor
  · intro hroom
    exact areRanks_of_unassigned readCores_cluster hroom
  · intro c hc
    obtain ⟨c', hc', rfl⟩ := List.mem_map.mp hc
    exact assignCluster_lt (readCores_cluster c' hc') (length_sortedFreqs_le _)

/-- Three cores, the first and the last at 2.0 GHz, the other at 1.8 GHz. -/
def sampleFiles : Nat → CpuFiles
  | 0 => ⟨some "500000\n".toList, some "2000000\n".toList, some "500000\n".toList, none, []⟩
  | 1 => ⟨some "1800000\n".toList, some "1800000\n".toList, some "500000\n".toList,
      some "performance\n".toList, []⟩
  | 2 => ⟨some "900000\n".toList, some "2000000\n".toList, none, none, []⟩
  | _ => ⟨none, none, none, none, []⟩

theorem enumerateCpus_ranks_sample :
    (enumerateCpus sampleFiles maxCores).1.map CpuCore.cluster = [1, 0, 1] ∧
      AreRanks (readCores sampleFiles 0 maxCores) (enumerateCpus sampleFiles maxCores) ∧
      ∀ c ∈ (enumerateCpus sampleFiles maxCores).1, c.cluster < maxClusters :=
  ⟨by decide +kernel, (enumerateCpus_ranks sampleFiles maxCores).1 (by decide +kernel),
    fun c hc => ((enumerateCpus_ranks sampleFiles maxCores).2 c hc).2⟩

end MiuiserPeruser.Rocksteady
