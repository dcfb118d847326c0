import Mathlib.Data.List.Nodup
import Mathlib.Data.List.ReduceOption
import MiuiserPeruser.Lib.RingBuffer
import MiuiserPeruser.Overlord.Detectors

/-!
# overlordd — the sliding window (`overlordd.c`)

`update_window` keeps a snapshot of each of the last ten polls in a ring,
with -1 for a trust score that cannot be read and 0 for a drift that cannot
be. `detect_priv_escalation` counts where the score of a poll is below that
of the poll before, so a poll without a score is a fall (a LAPSE), and a fall
across such a poll, or from a negative score, is HIDDEN; and it looks for a
poll with drift behind one without or at the start of the window, which
every window with drift in it has.

The ring has the last polls (`windowAfter_holds`); the detector fires on its
definition just if lapses and hidden falls make no difference, and drift was
seen to be absent before it was there (`firesExactly_iff`).
-/

namespace MiuiserPeruser.Overlord

open CText

def windowSize : Nat := 10

theorem windowSize_pos : 0 < windowSize := by decide

/-! ## The window -/

/-- `WindowSnap`. -/
structure WindowSnap where
  ts : Int
  thermalScore : Int
  trustScore : Int
  spikeEvents : Int
  kernelDrift : Int
  selinuxOk : Int
  tcpTotal : Int
  crashes : Int
  ooms : Int
  drain : Number

def WindowSnap.zero : WindowSnap := ⟨0, 0, 0, 0, 0, 0, 0, 0, 0, .finite 0⟩

/-- `g_window` with its position and the flag. -/
structure Window where
  slots : List WindowSnap
  pos : Nat
  full : Bool
  slots_length : slots.length = windowSize
  pos_lt : pos < windowSize

theorem length_zeroSlots : (List.replicate windowSize WindowSnap.zero).length = windowSize := List.length_replicate

/-- When a process starts. -/
def Window.initial : Window := ⟨.replicate windowSize .zero, 0, false, length_zeroSlots, windowSize_pos⟩

/-- A poll: its time, and the documents it reads. -/
structure Poll (D : Type) where
  now : Int
  docs : Results D

section Update

variable {D : Type} [Document D]

/-- The `int` of a flag. -/
def flag (b : Bool) : Int := if b then 1 else 0

/-- What `update_window` puts in the slot. -/
def snap (p : Poll D) : WindowSnap where
  ts := p.now
  thermalScore := (p.docs.int "leatherheadd" "thermal_score").getD (-1)
  trustScore := (p.docs.int "tigerclawd" "trust_score").getD (-1)
  spikeEvents := (p.docs.int "nulld" "total_spike_events").getD 0
  kernelDrift := ((p.docs.bool "shredderd" "detected").map flag).getD 0
  selinuxOk := ((p.docs.bool "granitord" "selinux_enforcing").map flag).getD 1
  tcpTotal := tcpTotal p.docs
  crashes := (p.docs.int "fugitoidd" "crashes").getD 0
  ooms := (p.docs.int "fugitoidd" "oom_events").getD 0
  drain := drain p.docs

theorem length_set_slots (w : Window) (s : WindowSnap) : (w.slots.set w.pos s).length = windowSize := by
  rw [List.length_set, w.slots_length]

theorem next_lt (w : Window) : (w.pos + 1) % windowSize < windowSize := Nat.mod_lt _ windowSize_pos

/-- `update_window`. -/
def updateWindow (w : Window) (p : Poll D) : Window where
  slots := w.slots.set w.pos (snap p)
  pos := (w.pos + 1) % windowSize
  full := w.full || (w.pos + 1) % windowSize = 0
  slots_length := length_set_slots w (snap p)
  pos_lt := next_lt w

/-- The window after the polls of a process. -/
def windowAfter (polls : List (Poll D)) : Window := polls.foldl updateWindow .initial

end Update

/-- The number of snapshots. -/
def Window.count (w : Window) : Nat := if w.full then windowSize else w.pos

/-- The snapshots in the order of the loops, oldest first. -/
def Window.snaps (w : Window) : List WindowSnap :=
  (List.range w.count).map fun i => w.slots.getD ((w.pos + windowSize - w.count + i) % windowSize) .zero

/-! ## The detector -/

/-- A pass of the loop of `window_trend_falling`: the value before, and the
falls so far. -/
def trendStep (getter : WindowSnap → Int) (st : Int × Nat) (s : WindowSnap) : Int × Nat :=
  (getter s, if 0 ≤ st.1 ∧ getter s < st.1 then st.2 + 1 else st.2)

/-- `window_trend_falling`. -/
def windowTrendFalling (w : Window) (getter : WindowSnap → Int) (threshold : Nat) : Bool :=
  if w.count < 3 then false else threshold ≤ (w.snaps.foldl (trendStep getter) (-1, 0)).2

/-- A pass of the loop over the drift: the value before, and whether it
appeared. -/
def driftStep (st : Int × Bool) (s : WindowSnap) : Int × Bool :=
  (s.kernelDrift, if s.kernelDrift = 1 ∧ st.1 = 0 then true else st.2)

/-- The pattern `detect_priv_escalation` adds. -/
def escalationPattern (count : Nat) : Pattern where
  kind := .privEscalation
  severity := "CRITICAL"
  detail := detail
    [bytes "Trust score falling trend over ", formatD count, bytes " polls + ",
      bytes ("kernel module drift appeared mid-window — possible staged privilege escalation: " ++
        "debug props changed → rootkit loaded → exfiltration")]
  mitre := "T1471"
  confidence := 75 / 100

/-- `detect_priv_escalation`. -/
def detectPrivEscalation (w : Window) : Option Escalation :=
  if !w.full && w.pos < 3 then none
  else if windowTrendFalling w WindowSnap.trustScore 2 && (w.snaps.foldl driftStep (0, false)).2 then
    some ⟨escalationPattern w.count, rfl⟩
  else none

/-! ## The last polls -/

/-- The window as a ring. -/
def Window.ring (w : Window) : RingBuffer WindowSnap where
  slots := w.slots
  head := (w.pos + windowSize - w.count) % windowSize
  tail := w.pos
  count := w.count

section Ring

variable {D : Type} [Document D]

theorem windowAfter_concat (polls : List (Poll D)) (p : Poll D) :
    windowAfter (polls ++ [p]) = updateWindow (windowAfter polls) p := by
  simp [windowAfter, List.foldl_append]

/-- An update is a push. -/
theorem updateWindow_ring (w : Window) (p : Poll D) :
    (updateWindow w p).ring = w.ring.push windowSize (snap p) := by
  have hpos := w.pos_lt
  unfold windowSize at hpos
  cases hfull : w.full with
  | true =>
      simp only [Window.ring, Window.count, updateWindow, RingBuffer.push, RingBuffer.makeRoom, windowSize, hfull,
        Bool.true_or, if_true, ge_iff_le, le_refl, RingBuffer.mk.injEq, true_and, and_true]
      omega
  | false =>
      have hroom : ¬ 10 ≤ w.pos := by omega
      by_cases hlast : (w.pos + 1) % 10 = 0
      · simp only [Window.ring, Window.count, updateWindow, RingBuffer.push, RingBuffer.makeRoom, windowSize, hfull,
          Bool.false_or, hlast, decide_true, if_true, Bool.false_eq_true, if_false, ge_iff_le, if_neg hroom,
          RingBuffer.mk.injEq, true_and]
        omega
      · simp only [Window.ring, Window.count, updateWindow, RingBuffer.push, RingBuffer.makeRoom, windowSize, hfull,
          Bool.false_or, hlast, decide_false, Bool.false_eq_true, if_false, ge_iff_le, if_neg hroom,
          RingBuffer.mk.injEq, true_and]
        omega

/-- **The ring holds the last polls**, at most ten of them. -/
theorem windowAfter_holds (polls : List (Poll D)) :
    (windowAfter polls).ring.Holds windowSize ((polls.map snap).rtake windowSize) := by
  induction polls using List.reverseRecOn with
  | nil =>
      have hring : (windowAfter ([] : List (Poll D))).ring = RingBuffer.empty windowSize WindowSnap.zero := by
        simp [windowAfter, Window.initial, Window.ring, Window.count, RingBuffer.empty]
      rw [hring, List.map_nil]
      exact RingBuffer.holds_empty windowSize_pos WindowSnap.zero
  | append_singleton polls p ih =>
      rw [windowAfter_concat, updateWindow_ring, List.map_append, List.map_singleton, ← Fifo.push_rtake windowSize_pos]
      exact ih.push windowSize_pos (snap p)

/-- What a ring holds is what the loops read. -/
theorem snaps_of_holds {w : Window} {q : List WindowSnap} (h : w.ring.Holds windowSize q) : w.snaps = q := by
  have hlen : w.count = q.length := h.length.symm
  apply List.ext_getElem
  · simp [Window.snaps, hlen]
  · intro i hi hi'
    have hentry := h.entry i (by rw [← h.length]; exact hi')
    have hslot : w.slots[((w.pos + windowSize - w.count) % windowSize + i) % windowSize]? = q[i]? := hentry
    rw [Nat.mod_add_mod] at hslot
    simp only [Window.snaps, List.getElem_map, List.getElem_range, List.getD_eq_getElem?_getD, hslot,
      List.getElem?_eq_getElem hi', Option.getD_some]

theorem snaps_windowAfter (polls : List (Poll D)) :
    (windowAfter polls).snaps = (polls.rtake windowSize).map snap := by
  rw [snaps_of_holds (windowAfter_holds polls), List.rtake, List.rtake, List.length_map, List.map_drop]

theorem count_eq_length (w : Window) : w.count = w.snaps.length := by simp [Window.snaps]

end Ring

/-! ## The indices of the loops -/

/-- The index of pass `i`, in `window_trend_falling` as well as in
`detect_priv_escalation`. -/
def Window.index (w : Window) (i : Nat) : Int := ((w.pos : Int) - w.count + i + windowSize).tmod windowSize

/-- The indices of all passes, if the loop is entered. -/
def Window.indices (w : Window) : List Int := (List.range w.count).map w.index

section Indices

variable {D : Type} [Document D]

/-- The loops visit the slots the last polls were written to, oldest first,
and find their snapshots there. -/
structure VisitsLast (polls : List (Poll D)) (w : Window) : Prop where
  written : w.indices = (List.range (min polls.length windowSize)).map fun j =>
    ((windowAfter (polls.take (polls.length - min polls.length windowSize + j))).pos : Int)
  distinct : w.indices.Nodup
  contents : w.indices.map (fun i => w.slots[i.toNat]?) = ((polls.rtake windowSize).map snap).map some
  read : w.snaps = w.indices.map fun i => w.slots.getD i.toNat .zero

theorem pos_windowAfter (polls : List (Poll D)) : (windowAfter polls).pos = polls.length % windowSize := by
  induction polls using List.reverseRecOn with
  | nil => rfl
  | append_singleton polls p ih =>
      rw [windowAfter_concat, List.length_append, List.length_singleton]
      show ((windowAfter polls).pos + 1) % windowSize = _
      rw [ih, Nat.mod_add_mod]

theorem full_windowAfter (polls : List (Poll D)) :
    (windowAfter polls).full = decide (windowSize ≤ polls.length) := by
  induction polls using List.reverseRecOn with
  | nil => rfl
  | append_singleton polls p ih =>
      rw [windowAfter_concat, List.length_append, List.length_singleton]
      show ((windowAfter polls).full || ((windowAfter polls).pos + 1) % windowSize = 0) = _
      rw [ih, pos_windowAfter, ← Bool.decide_or, decide_eq_decide, Nat.mod_add_mod]
      unfold windowSize
      omega

theorem count_windowAfter (polls : List (Poll D)) : (windowAfter polls).count = min polls.length windowSize := by
  rw [Window.count, full_windowAfter, pos_windowAfter]
  by_cases hfull : windowSize ≤ polls.length
  · rw [decide_eq_true hfull, if_pos rfl, Nat.min_eq_right hfull]
  · have hlt : polls.length < windowSize := Nat.lt_of_not_le hfull
    rw [decide_eq_false hfull, if_neg Bool.false_ne_true, Nat.mod_eq_of_lt hlt, Nat.min_eq_left hlt.le]

/-- The remainder is that of a natural number. -/
theorem index_eq (w : Window) (i : Nat) : w.index i = ((w.pos + windowSize - w.count + i) % windowSize : Nat) := by
  have hle : w.count ≤ w.pos + windowSize := by
    have hpos := w.pos_lt
    rw [Window.count]
    split <;> omega
  have hcast : (w.pos : Int) - w.count + i + windowSize = ((w.pos + windowSize - w.count + i : Nat) : Int) := by
    omega
  rw [Window.index, hcast, Int.ofNat_tmod]

/-- Pass `j` reads what the poll with that number wrote. -/
theorem index_windowAfter (polls : List (Poll D)) {j : Nat} (hj : j < min polls.length windowSize) :
    (windowAfter polls).index j =
      (windowAfter (polls.take (polls.length - min polls.length windowSize + j))).pos := by
  have hlen : (polls.take (polls.length - min polls.length windowSize + j)).length =
      polls.length - min polls.length windowSize + j := by
    rw [List.length_take]
    omega
  rw [index_eq, pos_windowAfter, pos_windowAfter, count_windowAfter, hlen]
  unfold windowSize at *
  omega

theorem nodup_indices (w : Window) : w.indices.Nodup := by
  have hcount : w.count ≤ windowSize := by
    have hpos := w.pos_lt
    rw [Window.count]
    split <;> omega
  refine List.Nodup.map_on ?_ List.nodup_range
  intro i hi j hj h
  rw [List.mem_range] at hi hj
  rw [index_eq, index_eq, Int.ofNat_inj] at h
  unfold windowSize at *
  omega

/-- **The loops visit the last ten polls in order**, after any number of
updates. -/
theorem loops_visit_last_polls (polls : List (Poll D)) : VisitsLast polls (windowAfter polls) := by
  have hread : (windowAfter polls).snaps =
      (windowAfter polls).indices.map fun i => (windowAfter polls).slots.getD i.toNat .zero := by
    rw [Window.indices, List.map_map, Window.snaps]
    apply List.map_congr_left
    intro i _
    simp only [Function.comp, index_eq, Int.toNat_natCast]
  constructor
  case written =>
    rw [Window.indices, count_windowAfter]
    apply List.map_congr_left
    intro j hj
    exact index_windowAfter polls (List.mem_range.mp hj)
  case distinct => exact nodup_indices _
  case contents =>
    rw [← snaps_windowAfter, hread, List.map_map]
    apply List.map_congr_left
    intro i hi
    obtain ⟨j, -, rfl⟩ := List.mem_map.mp hi
    have hlt : ((windowAfter polls).index j).toNat < (windowAfter polls).slots.length := by
      rw [index_eq, Int.toNat_natCast, (windowAfter polls).slots_length]
      exact Nat.mod_lt _ windowSize_pos
    simp only [Function.comp, List.getD_eq_getElem?_getD, List.getElem?_eq_getElem hlt, Option.getD_some]
  case read => exact hread

end Indices

/-! ## Falls -/

/-- The strict decreases between successive readings. -/
def falls (readings : List Int) : Nat := (readings.zip readings.tail).countP fun p => p.2 < p.1

/-- The polls whose reading is below that of the poll before, if neither
lacks one and the one before is no negative number. -/
def directFalls (trust : List (Option Int)) : Nat :=
  (trust.zip trust.tail).countP fun p => p.1.any fun a => p.2.any fun b => 0 ≤ a && b < a

/-- The polls without a reading behind a poll with one, if it is no negative
number. -/
def lapses (trust : List (Option Int)) : Nat :=
  (trust.zip trust.tail).countP fun p => p.2.isNone && p.1.any (0 ≤ ·)

/-- The falls to a successive reading that are not direct: from `last`, if
there is one, which is that of the poll before if `adjacent`. -/
def hiddenFalls : Option Int → Bool → List (Option Int) → Nat
  | _, _, [] => 0
  | last, _, none :: trust => hiddenFalls last false trust
  | last, adjacent, some b :: trust =>
      (if last.any fun a => b < a && !(adjacent && 0 ≤ a) then 1 else 0) + hiddenFalls (some b) true trust

section Falls

theorem falls_cons (a b : Int) (readings : List Int) :
    falls (a :: b :: readings) = (if b < a then 1 else 0) + falls (b :: readings) := by
  simp [falls, List.countP_cons, Nat.add_comm]

theorem directFalls_cons (x y : Option Int) (trust : List (Option Int)) : directFalls (x :: y :: trust) =
    (if x.any fun a => y.any fun b => 0 ≤ a && b < a then 1 else 0) + directFalls (y :: trust) := by
  simp [directFalls, List.countP_cons, Nat.add_comm]

/-- Nothing falls behind a poll without a reading. -/
theorem directFalls_none (trust : List (Option Int)) : directFalls (none :: trust) = directFalls trust := by
  cases trust with
  | nil => rfl
  | cons y trust =>
      rw [directFalls_cons]
      exact Nat.zero_add _

theorem lapses_cons (x y : Option Int) (trust : List (Option Int)) : lapses (x :: y :: trust) =
    (if y.isNone && x.any (0 ≤ ·) then 1 else 0) + lapses (y :: trust) := by
  simp [lapses, List.countP_cons, Nat.add_comm]

theorem lapses_none (trust : List (Option Int)) : lapses (none :: trust) = lapses trust := by
  cases trust with
  | nil => rfl
  | cons y trust =>
      rw [lapses_cons]
      simp

theorem falls_from (last : Option Int) (adjacent : Bool) (trust : List (Option Int)) :
    falls (last.toList ++ trust.reduceOption) =
      directFalls ((if adjacent then last else none) :: trust) + hiddenFalls last adjacent trust := by
  induction trust generalizing last adjacent with
  | nil =>
      cases last with
      | none => rfl
      | some a => rfl
  | cons y trust ih =>
      cases y with
      | none =>
          have hnext := ih last false
          rw [if_neg Bool.false_ne_true] at hnext
          have hno : ∀ x : Option Int, directFalls (x :: none :: trust) = directFalls (none :: trust) := by
            intro x
            rw [directFalls_cons]
            cases x with
            | none => exact Nat.zero_add _
            | some a => exact Nat.zero_add _
          rw [List.reduceOption_cons_of_none, hiddenFalls, hno, hnext]
      | some b =>
          have hnext : falls (b :: trust.reduceOption) =
              directFalls (some b :: trust) + hiddenFalls (some b) true trust := ih (some b) true
          rw [List.reduceOption_cons_of_some, hiddenFalls, directFalls_cons]
          cases last with
          | none =>
              have hstart : falls ((none : Option Int).toList ++ b :: trust.reduceOption) =
                  falls (b :: trust.reduceOption) := rfl
              rw [hstart, hnext]
              simp
          | some a =>
              have hstart : falls ((some a).toList ++ b :: trust.reduceOption) =
                  (if b < a then 1 else 0) + falls (b :: trust.reduceOption) := falls_cons a b _
              rw [hstart, hnext]
              -- a fall from `a` to `b` is direct or hidden
              cases adjacent with
              | false => simp; omega
              | true =>
                  by_cases hlt : b < a
                  · by_cases hneg : 0 ≤ a
                    · simp [hlt, hneg]; omega
                    · simp [hlt, hneg]; omega
                  · simp [hlt]

/-- **The falls of a window** are the direct and the hidden ones. -/
theorem falls_eq (trust : List (Option Int)) :
    falls trust.reduceOption = directFalls trust + hiddenFalls none false trust := by
  rw [← directFalls_none]
  exact falls_from none false trust

/-- The score of a poll in the window. -/
def marker (reading : Option Int) : Int := reading.getD (-1)

theorem foldl_trendStep {getter : WindowSnap → Int} (snaps : List WindowSnap) (st : Int × Nat) :
    (snaps.foldl (trendStep getter) st).2 = st.2 +
      ((st.1 :: snaps.map getter).zip (snaps.map getter)).countP fun p => 0 ≤ p.1 && p.2 < p.1 := by
  induction snaps generalizing st with
  | nil => rfl
  | cons s snaps ih =>
      rw [List.foldl_cons, ih, List.map_cons, List.zip_cons_cons, List.countP_cons]
      by_cases hfall : 0 ≤ st.1 ∧ getter s < st.1
      · have hstep : trendStep getter st s = (getter s, st.2 + 1) := by rw [trendStep, if_pos hfall]
        rw [hstep, if_pos (by simpa using hfall)]
        dsimp only
        omega
      · have hstep : trendStep getter st s = (getter s, st.2) := by rw [trendStep, if_neg hfall]
        rw [hstep, if_neg (by simpa using hfall)]
        dsimp only
        omega

/-- Neighbours of markers fall if the readings do, or lapse. -/
theorem countP_markers (x : Option Int) (trust : List (Option Int)) :
    ((marker x :: trust.map marker).zip (trust.map marker)).countP (fun p => 0 ≤ p.1 && p.2 < p.1) =
      directFalls (x :: trust) + lapses (x :: trust) := by
  induction trust generalizing x with
  | nil => rfl
  | cons y trust ih =>
      rw [List.map_cons, List.zip_cons_cons, List.countP_cons, ih, directFalls_cons, lapses_cons]
      cases x with
      | none => simp [marker]
      | some a =>
          by_cases hneg : 0 ≤ a
          · cases y with
            | none =>
                have hlt : -1 < a := by omega
                simp [marker, hneg, hlt]
                omega
            | some b =>
                by_cases hlt : b < a
                · simp [marker, hneg, hlt]
                  omega
                · simp [marker, hneg, hlt]
          · simp [marker, hneg]

end Falls

/-! ## Drift -/

/-- Once drift has appeared it stays so. -/
theorem foldl_driftStep_true (snaps : List WindowSnap) (prev : Int) :
    (snaps.foldl driftStep (prev, true)).2 = true := by
  induction snaps generalizing prev with
  | nil => rfl
  | cons s snaps ih =>
      have hstep : driftStep (prev, true) s = (s.kernelDrift, true) := by simp [driftStep]
      rw [List.foldl_cons, hstep, ih]

/-- **Drift appears in every window that has it.** -/
theorem foldl_driftStep {snaps : List WindowSnap} (hflags : ∀ s ∈ snaps, s.kernelDrift = 0 ∨ s.kernelDrift = 1) :
    (snaps.foldl driftStep (0, false)).2 = snaps.any (·.kernelDrift = 1) := by
  induction snaps with
  | nil => rfl
  | cons s snaps ih =>
      rw [List.foldl_cons, List.any_cons]
      rcases hflags s List.mem_cons_self with h | h
      · have hstep : driftStep (0, false) s = (0, false) := by simp [driftStep, h]
        rw [hstep, ih fun s hs => hflags s (List.mem_cons_of_mem _ hs), h]
        rfl
      · have hstep : driftStep (0, false) s = (1, true) := by simp [driftStep, h]
        rw [hstep, foldl_driftStep_true, h]
        rfl

/-! ## When the detector fires -/

section Fires

variable {D : Type} [Document D]

/-- The trust scores of some polls, where there are any. -/
def trusts (polls : List (Poll D)) : List (Option Int) := polls.map fun p => p.docs.int "tigerclawd" "trust_score"

/-- The kernel drift of some polls. -/
def drifts (polls : List (Poll D)) : List (Option Bool) := polls.map fun p => p.docs.bool "shredderd" "detected"

/-- **What the detector asks for**, in terms of the readings. -/
theorem detectPrivEscalation_isSome (polls : List (Poll D)) :
    (detectPrivEscalation (windowAfter polls)).isSome = true ↔ 3 ≤ (polls.rtake windowSize).length ∧
      2 ≤ directFalls (trusts (polls.rtake windowSize)) + lapses (trusts (polls.rtake windowSize)) ∧
      some true ∈ drifts (polls.rtake windowSize) := by
  have hsnaps := snaps_windowAfter polls
  have hcount : (windowAfter polls).count = (polls.rtake windowSize).length := by
    rw [count_eq_length, hsnaps, List.length_map]
  generalize polls.rtake windowSize = window at hsnaps hcount ⊢
  have hmarkers : (window.map snap).map WindowSnap.trustScore = (trusts window).map marker := by
    simp [trusts, snap, marker]
  have hfalls : ((windowAfter polls).snaps.foldl (trendStep WindowSnap.trustScore) (-1, 0)).2 =
      directFalls (trusts window) + lapses (trusts window) := by
    rw [foldl_trendStep, hsnaps, hmarkers, Nat.zero_add, ← directFalls_none, ← lapses_none]
    exact countP_markers none (trusts window)
  have hflags : ∀ s ∈ window.map snap, s.kernelDrift = 0 ∨ s.kernelDrift = 1 := by
    intro s hs
    obtain ⟨p, -, rfl⟩ := List.mem_map.mp hs
    cases hdrift : p.docs.bool "shredderd" "detected" with
    | none => simp [snap, hdrift]
    | some b => cases b <;> simp [snap, hdrift, flag]
  have hdrift : ((windowAfter polls).snaps.foldl driftStep (0, false)).2 = true ↔ some true ∈ drifts window := by
    have hone : ∀ p : Poll D, (snap p).kernelDrift = 1 ↔ p.docs.bool "shredderd" "detected" = some true := by
      intro p
      cases hdrift : p.docs.bool "shredderd" "detected" with
      | none => simp [snap, hdrift]
      | some b => cases b <;> simp [snap, hdrift, flag]
    rw [hsnaps, foldl_driftStep hflags]
    simp [drifts, hone]
  have hfull : (!(windowAfter polls).full && (windowAfter polls).pos < 3) = true ↔ window.length < 3 := by
    rw [← hcount]
    unfold Window.count
    cases (windowAfter polls).full with
    | false => simp
    | true => simp [windowSize]
  unfold detectPrivEscalation windowTrendFalling
  by_cases hshort : window.length < 3
  · rw [if_pos (hfull.mpr hshort)]
    simp only [Option.isSome_none, Bool.false_eq_true, false_iff, not_and]
    omega
  · rw [if_neg (mt hfull.mp hshort), hcount, if_neg hshort, hfalls]
    have hlong : 3 ≤ window.length := by omega
    simp only [hlong, true_and, ← hdrift]
    split
    · rename_i h
      simpa using h
    · rename_i h
      simpa using h

/-- The definition of the pattern: three polls or more, two strict decreases
between successive scores, and drift that was seen to be absent and then to
be there. -/
def Escalates (polls : List (Poll D)) : Prop :=
  3 ≤ polls.length ∧ 2 ≤ falls (trusts polls).reduceOption ∧ [some false, some true].Sublist (drifts polls)

/-- The poll behind a run adds the pattern just if the last ten polls meet
its definition. -/
def FiresExactly (polls : List (Poll D)) (p : Poll D) : Prop :=
  Added p.docs (detectPrivEscalation (windowAfter (polls ++ [p]))) .privEscalation ↔
    Escalates ((polls ++ [p]).rtake windowSize)

/-- There are fewer than three polls, or none has drift; or drift was seen to
be absent before it was there, and the falls that are not direct make no
difference: with the lapses there are two just if with the hidden falls there
are; or drift was there from the start, and there are no two falls and
lapses. -/
def WindowAgrees (polls : List (Poll D)) : Prop :=
  polls.length < 3 ∨ some true ∉ drifts polls ∨
    if [some false, some true].Sublist (drifts polls) then
      (2 ≤ directFalls (trusts polls) + lapses (trusts polls) ↔
        2 ≤ directFalls (trusts polls) + hiddenFalls none false (trusts polls))
    else directFalls (trusts polls) + lapses (trusts polls) < 2

/-- **PRIVILEGE_ESCALATION_CHAIN fires exactly on its definition** if and only
if the polls without a reading make no difference to it. -/
theorem firesExactly_iff (polls : List (Poll D)) (p : Poll D) :
    FiresExactly polls p ↔ WindowAgrees ((polls ++ [p]).rtake windowSize) := by
  have hadded : Added p.docs (detectPrivEscalation (windowAfter (polls ++ [p]))) .privEscalation ↔
      (detectPrivEscalation (windowAfter (polls ++ [p]))).isSome = true := by
    rw [added_iff, detect, Option.isSome_map]
  unfold FiresExactly WindowAgrees Escalates
  rw [hadded, detectPrivEscalation_isSome, falls_eq]
  generalize (polls ++ [p]).rtake windowSize = window
  have hseen : [some false, some true].Sublist (drifts window) → some true ∈ drifts window := by
    intro h
    exact h.subset (by simp)
  by_cases hlong : 3 ≤ window.length
  · have hshort : ¬ window.length < 3 := by omega
    by_cases hdrift : some true ∈ drifts window
    · by_cases happeared : [some false, some true].Sublist (drifts window)
      · simp only [hlong, hshort, hdrift, happeared, true_and, and_true, not_true_eq_false, false_or, if_true]
      · simp only [hlong, hshort, hdrift, happeared, true_and, and_true, not_true_eq_false, false_or, if_false,
          and_false, iff_false, Nat.not_le]
    · have hno : ¬ [some false, some true].Sublist (drifts window) := mt hseen hdrift
      simp only [hdrift, hno, and_false, not_false_eq_true, true_or, or_true]
  · have hshort : window.length < 3 := by omega
    simp only [hlong, hshort, false_and, true_or]

end Fires

/-! ## A window with gaps -/

/-- A poll with a trust score, if it is read, and with drift. -/
def driftPoll (trust : Option String) : Poll Text where
  now := 0
  docs := fun daemon =>
    if daemon = "tigerclawd" then trust.map fun t => ⟨t.toList⟩
    else if daemon = "shredderd" then some ⟨"\x7b\"detected\":true\x7d".toList⟩
    else none

def trusted : Poll Text := driftPoll (some "\x7b\"trust_score\":80\x7d")

def unread : Poll Text := driftPoll none

/-- The score never falls, and drift is there all the time. -/
theorem gaps_escalate :
    Added unread.docs (detectPrivEscalation (windowAfter ([trusted, unread, trusted] ++ [unread]))) .privEscalation ∧
      ¬ FiresExactly [trusted, unread, trusted] unread := by
  have hfires : (detectPrivEscalation (windowAfter ([trusted, unread, trusted] ++ [unread]))).isSome = true := by
    decide +kernel
  have hadded : Added unread.docs (detectPrivEscalation (windowAfter ([trusted, unread, trusted] ++ [unread])))
      .privEscalation := by
    rw [added_iff, detect, Option.isSome_map]
    exact hfires
  have hdrifts : drifts ([trusted, unread, trusted] ++ [unread]) = [some true, some true, some true, some true] := by
    decide +kernel
  refine ⟨hadded, fun h => ?_⟩
  obtain ⟨-, -, happeared⟩ := h.mp hadded
  have hwindow : ([trusted, unread, trusted] ++ [unread]).rtake windowSize = [trusted, unread, trusted] ++ [unread] := rfl
  rw [hwindow, hdrifts] at happeared
  have hmem := happeared.subset (List.mem_cons_self)
  exact absurd hmem (by decide)

end MiuiserPeruser.Overlord
