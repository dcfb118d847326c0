import Mathlib.Data.List.DropRight
import Mathlib.Data.Nat.ModEq
import MiuiserPeruser.Lib.Run

/-!
# Bounded queues that keep the newest

`Fifo` is the ideal queue of capacity `n`: a list, oldest entry first. A
push at capacity gives up the oldest entry.

`RingBuffer` is the same queue the way C programs keep it: an array of `n`
slots, the position of the next read, the position of the next write and
the number of entries, each updated on its own. `RingBuffer.Holds` says which
list a ring holds; every operation of the ring is the operation of the
list (`Holds.push`, `Holds.pop`), so a ring refines the ideal queue over
runs of any length (`run_refines`).
-/

/-! ## The ideal queue -/

namespace Fifo

variable {α : Type} {n : Nat}

/-- Append, after dropping the oldest entry if the queue is full. -/
def push (n : Nat) (q : List α) (a : α) : List α :=
  if q.length ≥ n then q.tail ++ [a] else q ++ [a]

/-- An operation on a queue. -/
inductive Op (α : Type) where
  | push (a : α)
  | pop
  deriving DecidableEq

/-- The entry an operation puts in. -/
def Op.pushed : Op α → Option α
  | .push a => some a
  | .pop => none

/-- What an operation emits: the entry a pop delivers, if there is one. -/
def step (n : Nat) (q : List α) : Op α → List α × List α
  | .push a => (push n q a, [])
  | .pop => (q.tail, q.head?.toList)

/-- How an entry left the queue. -/
inductive Exit (α : Type) where
  | delivered (a : α)
  | dropped (a : α)
  deriving DecidableEq

def Exit.entry : Exit α → α
  | .delivered a => a
  | .dropped a => a

def Exit.delivery : Exit α → Option α
  | .delivered a => some a
  | .dropped _ => none

/-- The entries that leave at an operation. -/
def exits (n : Nat) (q : List α) : Op α → List (Exit α)
  | .push _ => if q.length ≥ n then q.head?.toList.map .dropped else []
  | .pop => q.head?.toList.map .delivered

/-- One operation moves entries from the front of the queue out of it,
and appends what it pushes. -/
theorem step_conserves (hn : 0 < n) (q : List α) (op : Op α) :
    (exits n q op).map Exit.entry ++ (step n q op).1 = q ++ op.pushed.toList ∧
      (exits n q op).filterMap Exit.delivery = (step n q op).2 := by
  cases op with
  | push a =>
      simp only [exits, step, push]
      split
      · rename_i hfull
        cases q with
        | nil =>
            simp only [List.length_nil] at hfull
            omega
        | cons x q => exact ⟨rfl, rfl⟩
      · exact ⟨rfl, rfl⟩
  | pop =>
      cases q with
      | nil => exact ⟨rfl, rfl⟩
      | cons x q => exact ⟨(List.append_nil _).symm, rfl⟩

/-- The queue has the newest of what was pushed. -/
theorem push_rtake (hn : 0 < n) (l : List α) (a : α) : push n (l.rtake n) a = (l ++ [a]).rtake n := by
  have hlen : (l.rtake n).length = min n l.length := by
    rw [List.rtake, List.length_drop]
    omega
  rw [push, hlen]
  by_cases hfull : n ≤ l.length
  · obtain ⟨k, hk⟩ : ∃ k, l.length = k + n := ⟨l.length - n, by omega⟩
    have hdrop : (l ++ [a]).length - n = k + 1 := by
      rw [List.length_append, List.length_singleton]
      omega
    rw [if_pos (by omega), List.rtake, List.rtake, hdrop, List.tail_drop, List.drop_append_of_le_length (by omega)]
    congr 2
    omega
  · have hall : (l ++ [a]).length - n = 0 := by
      rw [List.length_append, List.length_singleton]
      omega
    have hdrop : l.length - n = 0 := by omega
    rw [if_neg (by omega), List.rtake, List.rtake, hall, hdrop]
    rfl

/-- **Conservation.** The entries that have left, in the order they left,
followed by those in the queue, are the entries pushed, in order; and the
ones delivered are those that left without being dropped. -/
theorem run_conserves (hn : 0 < n) (ops : List (Op α)) :
    ∃ left : List (Exit α),
      left.map Exit.entry ++ (Machine.run (step n) [] ops).1 = ops.filterMap Op.pushed ∧
        left.filterMap Exit.delivery = (Machine.run (step n) [] ops).2 := by
  have all : ∀ (ops : List (Op α)) (q tr : List α), ∃ left : List (Exit α),
      left.map Exit.entry ++ (Machine.exec (step n) (q, tr) ops).1 =
          q ++ ops.filterMap Op.pushed ∧
        tr ++ left.filterMap Exit.delivery = (Machine.exec (step n) (q, tr) ops).2 := by
    intro ops
    induction ops with
    | nil => intro q tr; exact ⟨[], (List.append_nil q).symm, List.append_nil tr⟩
    | cons op ops ih =>
        intro q tr
        obtain ⟨hentries, hdelivered⟩ := step_conserves hn q op
        obtain ⟨left, hrest, htrace⟩ := ih (step n q op).1 (tr ++ (step n q op).2)
        refine ⟨exits n q op ++ left, ?_, ?_⟩
        · have hpushed : (op :: ops).filterMap Op.pushed =
              op.pushed.toList ++ ops.filterMap Op.pushed := by
            cases op <;> rfl
          rw [List.map_append, List.append_assoc, Machine.exec, hrest, ← List.append_assoc,
            hentries, List.append_assoc, hpushed]
        · rw [List.filterMap_append, ← List.append_assoc, hdelivered, Machine.exec]
          exact htrace
  exact all ops [] []

end Fifo

/-! ## The ring -/

/-- A ring: its slots, the next read position, the next write position
and the number of entries. -/
structure RingBuffer (α : Type) where
  slots : List α
  head : Nat
  tail : Nat
  count : Nat

namespace RingBuffer

variable {α : Type} {n : Nat} {r : RingBuffer α} {q : List α}

/-- A ring whose `n` slots were all cleared. -/
def empty (n : Nat) (blank : α) : RingBuffer α := ⟨List.replicate n blank, 0, 0, 0⟩

/-- Give up the oldest entry if the ring is full. -/
def makeRoom (n : Nat) (r : RingBuffer α) : RingBuffer α :=
  if r.count ≥ n then { r with head := (r.head + 1) % n, count := r.count - 1 } else r

/-- Write one entry, dropping the oldest if need be. -/
def push (n : Nat) (r : RingBuffer α) (a : α) : RingBuffer α :=
  let r := r.makeRoom n
  { r with slots := r.slots.set r.tail a, tail := (r.tail + 1) % n, count := r.count + 1 }

/-- Read one entry, if there is one. The slot keeps its content. -/
def pop (n : Nat) (r : RingBuffer α) : RingBuffer α × Option α :=
  if r.count = 0 then (r, none)
  else ({ r with head := (r.head + 1) % n, count := r.count - 1 }, r.slots[r.head]?)

def step (n : Nat) (r : RingBuffer α) : Fifo.Op α → RingBuffer α × List α
  | .push a => (r.push n a, [])
  | .pop => ((r.pop n).1, (r.pop n).2.toList)

/-- The bookkeeping of a ring of `n` slots. -/
structure WF (n : Nat) (r : RingBuffer α) : Prop where
  slots : r.slots.length = n
  head : r.head < n
  count : r.count ≤ n
  tail : r.tail = (r.head + r.count) % n

/-- The ring holds the entries `q`: the `k`-th oldest is `k` slots after
the head. -/
structure Holds (n : Nat) (r : RingBuffer α) (q : List α) : Prop where
  wf : r.WF n
  length : q.length = r.count
  entry : ∀ k, k < r.count → r.slots[(r.head + k) % n]? = q[k]?

theorem holds_empty (hn : 0 < n) (blank : α) : (empty n blank).Holds n [] where
  wf := ⟨List.length_replicate, hn, Nat.zero_le n, (Nat.zero_mod n).symm⟩
  length := rfl
  entry := by
    intro k hk
    exact absurd hk (Nat.not_lt_zero k)

/-- The slot after the head is where the second oldest entry is. -/
theorem succ_mod_add (head k n : Nat) : ((head + 1) % n + k) % n = (head + (k + 1)) % n := by
  rw [Nat.mod_add_mod, Nat.add_assoc, Nat.add_comm 1 k]

/-- Two entries of the ring are in different slots. -/
theorem slot_ne {head i j n : Nat} (hij : i < j) (hj : j < n) :
    (head + i) % n ≠ (head + j) % n := by
  intro h
  have hmod : i % n = j % n := Nat.ModEq.add_left_cancel rfl h
  rw [Nat.mod_eq_of_lt (hij.trans hj), Nat.mod_eq_of_lt hj] at hmod
  omega

/-- Moving the head past the oldest entry leaves the others. -/
theorem Holds.advance (h : r.Holds n q) (hc : r.count ≠ 0) :
    Holds n { r with head := (r.head + 1) % n, count := r.count - 1 } q.tail where
  wf :=
    { slots := h.wf.slots
      head := Nat.mod_lt _ (Nat.zero_lt_of_lt h.wf.head)
      count := (Nat.sub_le _ _).trans h.wf.count
      tail := by
        show r.tail = ((r.head + 1) % n + (r.count - 1)) % n
        rw [succ_mod_add, Nat.sub_add_cancel (Nat.pos_of_ne_zero hc), h.wf.tail] }
  length := by rw [List.length_tail, h.length]
  entry := by
    intro k hk
    show r.slots[((r.head + 1) % n + k) % n]? = q.tail[k]?
    have hk : k + 1 < r.count := Nat.add_lt_of_lt_sub hk
    rw [succ_mod_add, h.entry (k + 1) hk, List.getElem?_tail]

/-- The oldest entry is in the slot at the head. -/
theorem Holds.oldest (h : r.Holds n q) (hc : r.count ≠ 0) : r.slots[r.head]? = q.head? := by
  have h0 := h.entry 0 (Nat.pos_of_ne_zero hc)
  rw [Nat.add_zero, Nat.mod_eq_of_lt h.wf.head] at h0
  rw [h0, List.head?_eq_getElem?]

theorem Holds.makeRoom (hn : 0 < n) (h : r.Holds n q) :
    (r.makeRoom n).Holds n (if q.length ≥ n then q.tail else q) ∧ (r.makeRoom n).count < n := by
  rw [h.length]
  unfold RingBuffer.makeRoom
  split
  · refine ⟨h.advance (by omega), ?_⟩
    have := h.wf.count
    show r.count - 1 < n
    omega
  · exact ⟨h, by omega⟩

/-- Writing at the tail of a ring with room appends. -/
theorem Holds.write (h : r.Holds n q) (hroom : r.count < n) (a : α) :
    Holds n { r with slots := r.slots.set r.tail a, tail := (r.tail + 1) % n, count := r.count + 1 }
      (q ++ [a]) where
  wf :=
    { slots := by simpa using h.wf.slots
      head := h.wf.head
      count := hroom
      tail := by
        show (r.tail + 1) % n = (r.head + (r.count + 1)) % n
        rw [h.wf.tail, Nat.mod_add_mod, Nat.add_assoc] }
  length := by simpa using h.length
  entry := by
    intro k hk
    show (r.slots.set r.tail a)[(r.head + k) % n]? = (q ++ [a])[k]?
    rcases Nat.lt_succ_iff_lt_or_eq.mp hk with hk | rfl
    · -- an older entry is in another slot
      have hne : r.tail ≠ (r.head + k) % n := by
        rw [h.wf.tail]
        exact (slot_ne hk hroom).symm
      rw [List.getElem?_set_ne hne, h.entry k hk]
      rw [List.getElem?_append_left (by rw [h.length]; exact hk)]
    · have hlt : r.tail < r.slots.length := by
        rw [h.wf.slots, h.wf.tail]
        exact Nat.mod_lt _ (Nat.zero_lt_of_lt hroom)
      rw [← h.wf.tail, List.getElem?_set_self hlt, ← h.length, List.getElem?_concat_length]

theorem Holds.push (hn : 0 < n) (h : r.Holds n q) (a : α) :
    (r.push n a).Holds n (Fifo.push n q a) := by
  obtain ⟨hroom, hlt⟩ := h.makeRoom hn
  have hwrite := hroom.write hlt a
  rw [show Fifo.push n q a = (if q.length ≥ n then q.tail else q) ++ [a] by
    unfold Fifo.push; split <;> rfl]
  exact hwrite

theorem Holds.pop (h : r.Holds n q) : (r.pop n).1.Holds n q.tail ∧ (r.pop n).2 = q.head? := by
  unfold RingBuffer.pop
  split
  · rename_i hc
    have hq : q = [] := List.length_eq_zero_iff.mp (h.length.trans hc)
    subst hq
    exact ⟨h, rfl⟩
  · rename_i hc
    exact ⟨h.advance hc, h.oldest hc⟩

/-- **A ring refines the ideal queue**: over every run it delivers the
same entries, and holds the same entries at the end. -/
theorem run_refines (hn : 0 < n) (blank : α) (ops : List (Fifo.Op α)) :
    (Machine.run (step n) (empty n blank) ops).1.Holds n (Machine.run (Fifo.step n) [] ops).1 ∧
      (Machine.run (step n) (empty n blank) ops).2 = (Machine.run (Fifo.step n) [] ops).2 := by
  refine Machine.run_simulates (holds_empty hn blank) ?_ ops
  intro r q op h
  cases op with
  | push a => exact ⟨h.push hn a, rfl⟩
  | pop =>
      obtain ⟨hnext, hout⟩ := h.pop
      exact ⟨hnext, congrArg Option.toList hout⟩

end RingBuffer
