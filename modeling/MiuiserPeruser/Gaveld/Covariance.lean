import MiuiserPeruser.Lib.FirstMatch
import MiuiserPeruser.Gaveld.Scorer

/-!
# gaveld — covariance and the signal window (`scorer.c`, `db.c`)

`covariance` is a chain of overlapping conditions whose multipliers fall
along the chain, so it computes the best multiplier there is for the set,
and more signals never lower it (`covariance_monotone`).

What it is called with are the first 16 distinct signals of the window.
That is the whole window, with the signal just scored in it, exactly if the
window has no more than 16 (`window_complete_iff`).
-/

namespace MiuiserPeruser.Gaveld

open Scorer FirstMatch

/-! ## The patterns -/

/-- The six patterns of `covariance`, in the order they are tried. -/
def patterns : List (Rule (List String) ℚ) :=
  let has (ss : List String) (sig : String) : Bool := sig ∈ ss
  [⟨fun ss => has ss "INTEGRITY_VIOLATION", covIntegrityViolation⟩,
   ⟨fun ss => has ss "NETWORK_ANOMALY" && (has ss "CPU_HOG" || has ss "CPU_HOG_CRITICAL"),
    covNetworkCpu⟩,
   ⟨fun ss => has ss "WAKELOCK_ANOMALY" && has ss "NETWORK_ANOMALY", covWakelockNetwork⟩,
   ⟨fun ss => has ss "THERMAL_CRITICAL" && has ss "CPU_HOG_CRITICAL", covThermalCpuCritical⟩,
   ⟨fun ss => (has ss "THERMAL_CRITICAL" || has ss "THERMAL_WARN") && has ss "NETWORK_ANOMALY",
    covThermalNetwork⟩,
   ⟨fun ss => has ss "CPU_THROTTLING" && has ss "WAKELOCK_ANOMALY", covCpuWakelock⟩]

/-- The multiplier is that of the first pattern. -/
theorem covariance_fst (ss : List String) : (covariance ss).1 = firstMatch 1 patterns ss := rfl

theorem covariance_snd (ss : List String) :
    (covariance ss).2 = if 3 ≤ ss.length then covStackBonus else 1 := rfl

/-- The multipliers fall along the chain. -/
theorem falling_patterns : Falling 1 patterns := by
  unfold Falling patterns
  norm_num

/-- A pattern asks for signals, and for the absence of none. -/
theorem patterns_mono {ss ss' : List String} (h : ss ⊆ ss') :
    ∀ r ∈ patterns, r.applies ss = true → r.applies ss' = true := by
  intro r hr
  have hsig : ∀ sig, sig ∈ ss → sig ∈ ss' := fun sig => @h sig
  simp only [patterns, List.mem_cons, List.not_mem_nil, or_false] at hr
  rcases hr with rfl | rfl | rfl | rfl | rfl | rfl
  · simpa using hsig _
  · simp only [Bool.and_eq_true, Bool.or_eq_true, decide_eq_true_eq]
    exact And.imp (hsig _) (Or.imp (hsig _) (hsig _))
  · simp only [Bool.and_eq_true, decide_eq_true_eq]
    exact And.imp (hsig _) (hsig _)
  · simp only [Bool.and_eq_true, decide_eq_true_eq]
    exact And.imp (hsig _) (hsig _)
  · simp only [Bool.and_eq_true, Bool.or_eq_true, decide_eq_true_eq]
    exact And.imp (Or.imp (hsig _) (hsig _)) (hsig _)
  · simp only [Bool.and_eq_true, decide_eq_true_eq]
    exact And.imp (hsig _) (hsig _)

section Signals

variable {ss ss' : List String}

theorem multiplier_mono (h : ss ⊆ ss') : (covariance ss).1 ≤ (covariance ss').1 := by
  rw [covariance_fst, covariance_fst]
  exact firstMatch_mono falling_patterns (patterns_mono h)

theorem stackBonus_mono (h : ss.length ≤ ss'.length) : (covariance ss).2 ≤ (covariance ss').2 := by
  rw [covariance_snd, covariance_snd]
  split_ifs with h3 h3'
  · exact le_rfl
  · omega
  · norm_num
  · exact le_rfl

theorem covariance_perm (h : ss.Perm ss') : covariance ss = covariance ss' := by
  apply Prod.ext
  · exact le_antisymm (multiplier_mono h.subset) (multiplier_mono h.symm.subset)
  · exact le_antisymm (stackBonus_mono h.length_eq.le) (stackBonus_mono h.length_eq.ge)

/-- More signals make no smaller addition. -/
theorem addition_mono (c : ScorerCall) (record : Threat) (hnodup : ss.Nodup) (h : ss ⊆ ss') :
    addition c record ss ≤ addition c record ss' := by
  have hlength : ss.length ≤ ss'.length := (List.subperm_of_subset hnodup h).length_le
  have hweight := (effectiveWeight_pos c.signal c.weight).le
  have hrecid := (recidivismMod_pos record.priorJails record.priorQuarantines).le
  have htier := (tierModifier_pos c.list c.source).le
  have hcov := (covariance_pos ss).1.le
  have hstack := (covariance_pos ss).2.le
  have hproduct := mul_nonneg hweight (covariance_pos ss').1.le
  have hmultiplier := multiplier_mono h
  have hbonus := stackBonus_mono hlength
  simp only [addition, modifiers, mul_one]
  gcongr

/-- The signals of a window are told apart. -/
theorem nodup_dbSignalDistinct (db : Db) (source : String) (since : Int) :
    (dbSignalDistinct db source since).Nodup := by
  unfold dbSignalDistinct
  apply (List.take_sublist 16 _).nodup
  exact List.nodup_reverse.mpr (List.nodup_dedup _)

end Signals

/-- **Covariance is a monotone function of the signal set.** The multiplier
is the greatest of those of the patterns the list satisfies, or 1; the order
of the list does not matter; a signal more lowers neither multiplier nor
stack bonus; and what a scoring adds does not fall with the signals it is
given, nor with those it finds in the window. -/
theorem covariance_monotone :
    (∀ ss, (covariance ss).1 = best 1 patterns ss) ∧
    (∀ ss ss' : List String, ss.Perm ss' → covariance ss = covariance ss') ∧
    (∀ ss sig, (covariance ss).1 ≤ (covariance (sig :: ss)).1 ∧
      (covariance ss).2 ≤ (covariance (sig :: ss)).2) ∧
    (∀ c record (ss ss' : List String), ss.Nodup → ss ⊆ ss' →
      addition c record ss ≤ addition c record ss') ∧
    ∀ db db' c record, seenSignals db c ⊆ seenSignals db' c →
      addition c record (seenSignals db c) ≤ addition c record (seenSignals db' c) := by
  refine ⟨?_, ?_, ?_, ?_, ?_⟩
  · intro ss
    rw [covariance_fst, firstMatch_eq_best falling_patterns]
  · intro ss ss' h
    exact covariance_perm h
  · intro ss sig
    exact ⟨multiplier_mono (List.subset_cons_self sig ss),
      stackBonus_mono (by rw [List.length_cons]; omega)⟩
  · intro c record ss ss' hnodup h
    exact addition_mono c record hnodup h
  · intro db db' c record h
    exact addition_mono c record (nodup_dbSignalDistinct _ c.source c.since) h

/-! ## The whole window -/

/-- The distinct signals of the source inside the window, the one being
scored included. -/
def windowSignals (db : Db) (c : ScorerCall) : List String :=
  (c.signal :: (signalsSince db.signalWindow c.source c.since).map SignalRow.signal).dedup

/-- Every signal of the window takes part in the scoring. -/
structure TakesPart (db : Db) (c : ScorerCall) : Prop where
  inserted : c.signal ∈ seenSignals db c
  others : ∀ r ∈ db.signalWindow, r.source = c.source → c.since < r.epoch →
    r.signal ∈ seenSignals db c
  modifiers : covariance (seenSignals db c) = covariance (windowSignals db c)

section Window

variable {db : Db} {c : ScorerCall}

theorem mem_windowSignals {sig : String} : sig ∈ windowSignals db c ↔
    sig = c.signal ∨ ∃ r ∈ db.signalWindow, r.source = c.source ∧ c.since < r.epoch ∧
      r.signal = sig := by
  simp only [windowSignals, List.mem_dedup, List.mem_cons, List.mem_map, mem_signalsSince, and_assoc]

/-- The rows the query reads: those of the window, and the new one last. -/
theorem signalsSince_inserted (db : Db) (c : ScorerCall) :
    signalsSince (dbSignalPrune (dbSignalInsert db c.source c.signal c.now) c.since).signalWindow
        c.source c.since =
      signalsSince db.signalWindow c.source c.since ++ [⟨c.source, c.signal, c.now⟩] := by
  have hnow : c.since < c.now := by
    unfold ScorerCall.since windowStart signalWindowSec
    omega
  have hnew : signalsSince [⟨c.source, c.signal, c.now⟩] c.source c.since =
      [⟨c.source, c.signal, c.now⟩] := by
    simp [signalsSince, hnow]
  rw [signalsSince_prune fun r hr => (mem_signalsSince.mp hr).2.2.le,
    signalsSince_insert db ⟨c.source, c.signal, c.now⟩, hnew]

/-- What the scoring sees are 16 signals of the window, in some order. -/
theorem exists_seenSignals (db : Db) (c : ScorerCall) :
    ∃ all : List String, all.Perm (windowSignals db c) ∧ seenSignals db c = all.take 16 := by
  refine ⟨_, ?_, rfl⟩
  rw [signalsSince_inserted]
  apply (List.perm_ext_iff_of_nodup _ (List.nodup_dedup _)).mpr
  · intro sig
    simp only [List.mem_reverse, List.mem_dedup, List.mem_map, List.mem_insertionSort,
      List.mem_append, List.mem_cons, List.not_mem_nil, or_false]
    constructor
    · rintro ⟨r, hr | rfl, rfl⟩
      · exact .inr ⟨r, hr, rfl⟩
      · exact .inl rfl
    · rintro (rfl | ⟨r, hr, rfl⟩)
      · exact ⟨_, .inr rfl, rfl⟩
      · exact ⟨r, .inl hr, rfl⟩
  · exact List.nodup_reverse.mpr (List.nodup_dedup _)

end Window

/-- **Every signal takes part in its own window exactly if the window has
at most 16 distinct signals.** -/
theorem window_complete_iff (db : Db) (c : ScorerCall) :
    TakesPart db c ↔ (windowSignals db c).length ≤ 16 := by
  obtain ⟨all, hperm, hseen⟩ := exists_seenSignals db c
  constructor
  · intro h
    have hsub : windowSignals db c ⊆ seenSignals db c := by
      intro sig hsig
      rcases mem_windowSignals.mp hsig with rfl | ⟨r, hr, hsource, hepoch, rfl⟩
      · exact h.inserted
      · exact h.others r hr hsource hepoch
    calc (windowSignals db c).length
        ≤ (seenSignals db c).length :=
          (List.subperm_of_subset (List.nodup_dedup _) hsub).length_le
      _ ≤ 16 := by
          rw [hseen]
          exact List.length_take_le 16 all
  · intro h
    have hall : seenSignals db c = all := by
      rw [hseen]
      exact List.take_of_length_le (hperm.length_eq.trans_le h)
    have hmem : ∀ sig ∈ windowSignals db c, sig ∈ seenSignals db c := by
      intro sig hsig
      rw [hall]
      exact hperm.mem_iff.mpr hsig
    constructor
    · exact hmem c.signal (mem_windowSignals.mpr (.inl rfl))
    · intro r hr hsource hepoch
      exact hmem r.signal (mem_windowSignals.mpr (.inr ⟨r, hr, hsource, hepoch, rfl⟩))
    · rw [hall]
      exact covariance_perm hperm

/-- Sixteen signals of an app, all reported at the same time. -/
def busyWindow : Db :=
  { Db.empty with signalWindow := (weightTable.take 16).map fun e => ⟨"com.example.app", e.1, 1000⟩ }

/-- A second later the seventeenth is scored. -/
def integrityCall : ScorerCall := ⟨"com.example.app", "INTEGRITY_VIOLATION", 0, 1001, none⟩

/-- It is left out of its own window, and its multiplier is 1 and not 1.8. -/
theorem newest_signal_left_out :
    ¬ TakesPart busyWindow integrityCall ∧ "INTEGRITY_VIOLATION" ∉ seenSignals busyWindow integrityCall ∧
      (covariance (seenSignals busyWindow integrityCall)).1 = 1 ∧
      (covariance (windowSignals busyWindow integrityCall)).1 = 180 / 100 := by
  have hout : "INTEGRITY_VIOLATION" ∉ seenSignals busyWindow integrityCall := by decide +kernel
  refine ⟨fun h => hout h.inserted, hout, ?_, ?_⟩
  · decide +kernel
  · decide +kernel

end MiuiserPeruser.Gaveld
