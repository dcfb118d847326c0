import Mathlib.Data.List.Nodup
import Mathlib.Logic.Function.Basic

/-!
# Linked FIFO queues

Cells in a heap, each with a value and the address of the next one, and a
queue that is three variables: the addresses of its first and its last cell,
and a count. `Holds heap q cells` says which cells the queue has; appending
and removing keep it, and touch no other cell of the heap.
-/

namespace LinkedQueue

/-- A value, and the address of the next cell. -/
structure Cell (α : Type) where
  value : α
  next : Option Nat

/-- The cells in use, by their addresses. -/
abbrev Heap (α : Type) := Nat → Option (Cell α)

structure Queue where
  head : Option Nat
  tail : Option Nat
  count : Int

variable {α : Type}

/-- The cell at `tail` gets a successor. -/
def link (heap : Heap α) (tail : Option Nat) (a : Nat) : Heap α :=
  match tail with
  | none => heap
  | some t => Function.update heap t ((heap t).map fun cell => { cell with next := some a })

/-- Append a value, in the cell at `a`. -/
def enqueue (heap : Heap α) (q : Queue) (a : Nat) (v : α) : Heap α × Queue :=
  let heap := Function.update heap a (some ⟨v, none⟩)
  match q.head with
  | none => (heap, ⟨some a, some a, q.count + 1⟩)
  | some h => (link heap q.tail a, ⟨some h, some a, q.count + 1⟩)

/-- Remove the first value, and free its cell. -/
def dequeue (heap : Heap α) (q : Queue) : Option (α × Heap α × Queue) :=
  match q.head with
  | none => none
  | some a =>
      (heap a).map fun cell =>
        (cell.value, Function.update heap a none,
          ⟨cell.next, if cell.next = none then none else q.tail, q.count - 1⟩)

/-! ## What a queue holds -/

/-- The cells from `p` on. -/
def Chain (heap : Heap α) : Option Nat → List (Nat × α) → Prop
  | p, [] => p = none
  | p, (a, v) :: cells => p = some a ∧ ∃ next, heap a = some ⟨v, next⟩ ∧ Chain heap next cells

/-- The addresses of cells. -/
def addresses (cells : List (Nat × α)) : List Nat := cells.map Prod.fst

@[simp] theorem addresses_append (front back : List (Nat × α)) :
    addresses (front ++ back) = addresses front ++ addresses back := List.map_append

structure Holds (heap : Heap α) (q : Queue) (cells : List (Nat × α)) : Prop where
  chain : Chain heap q.head cells
  tail : q.tail = (addresses cells).getLast?
  count : q.count = cells.length
  nodup : (addresses cells).Nodup

section Queue

variable {heap heap' : Heap α} {q : Queue} {cells : List (Nat × α)} {a b : Nat} {v : α}

theorem chain_congr {p : Option Nat} (h : ∀ a ∈ addresses cells, heap' a = heap a)
    (hchain : Chain heap p cells) : Chain heap' p cells := by
  induction cells generalizing p with
  | nil => exact hchain
  | cons c cells ih =>
      obtain ⟨a, v⟩ := c
      obtain ⟨rfl, next, hcell, hrest⟩ := hchain
      refine ⟨rfl, next, ?_, ih (fun b hb => h b (List.mem_cons_of_mem a hb)) hrest⟩
      rw [h a List.mem_cons_self, hcell]

/-- The cells of a chain are in use. -/
theorem Chain.in_use {p : Option Nat} (hchain : Chain heap p cells) (h : a ∈ addresses cells) :
    heap a ≠ none := by
  induction cells generalizing p with
  | nil => cases h
  | cons c cells ih =>
      obtain ⟨b, v⟩ := c
      obtain ⟨rfl, next, hcell, hrest⟩ := hchain
      rcases List.mem_cons.mp h with rfl | h
      · intro hfree
        rw [hcell] at hfree
        cases hfree
      · exact ih hrest h

theorem Holds.congr (h : ∀ a ∈ addresses cells, heap' a = heap a) (hq : Holds heap q cells) :
    Holds heap' q cells :=
  ⟨chain_congr h hq.chain, hq.tail, hq.count, hq.nodup⟩

theorem holds_nil_iff : Holds heap q [] ↔ q = ⟨none, none, 0⟩ := by
  obtain ⟨head, tail, count⟩ := q
  constructor
  · rintro ⟨hhead, htail, hcount, -⟩
    simp only [Chain, addresses, List.map_nil, List.getLast?_nil, List.length_nil] at hhead htail hcount
    rw [hhead, htail, hcount]
    rfl
  · intro h
    cases h
    exact ⟨rfl, rfl, rfl, List.nodup_nil⟩

theorem Holds.head_eq_none_iff (hq : Holds heap q cells) : q.head = none ↔ cells = [] := by
  cases cells with
  | nil =>
      have hhead : q.head = none := hq.chain
      simp [hhead]
  | cons c cells =>
      obtain ⟨hhead, -⟩ := hq.chain
      simp [hhead]

theorem Holds.tail_eq_none_iff (hq : Holds heap q cells) : q.tail = none ↔ cells = [] := by
  rw [hq.tail, List.getLast?_eq_none_iff]
  exact List.map_eq_nil_iff

/-! ## Appending -/

/-- The chain goes on with a cell that is linked behind its last one. -/
theorem chain_concat {p : Option Nat} {t : Nat} {w : α} (hnodup : (addresses (cells ++ [(t, w)])).Nodup)
    (hfree : heap a = none) (hchain : Chain heap p (cells ++ [(t, w)])) :
    Chain (link (Function.update heap a (some ⟨v, none⟩)) (some t) a) p
      (cells ++ [(t, w)] ++ [(a, v)]) := by
  have hta : t ≠ a := by
    rintro rfl
    exact hchain.in_use (List.mem_map.mpr ⟨(t, w), by simp, rfl⟩) hfree
  induction cells generalizing p with
  | nil =>
      obtain ⟨rfl, next, hcell, hnext⟩ := hchain
      refine ⟨rfl, some a, ?_, rfl, none, ?_, rfl⟩
      · simp [link, hta, hcell]
      · simp [link, hta.symm]
  | cons c cells ih =>
      obtain ⟨b, x⟩ := c
      obtain ⟨rfl, next, hcell, hrest⟩ := hchain
      obtain ⟨hb, hnodup⟩ := List.nodup_cons.mp hnodup
      have hbt : b ≠ t := by
        rintro rfl
        exact hb (by simp)
      have hba : b ≠ a := by
        rintro rfl
        rw [hcell] at hfree
        cases hfree
      refine ⟨rfl, next, ?_, ih hnodup hrest⟩
      simp [link, hbt, hba, hcell]

/-- **Appending puts a value at the end.** -/
theorem Holds.enqueue (hq : Holds heap q cells) (hfree : heap a = none) :
    Holds (enqueue heap q a v).1 (enqueue heap q a v).2 (cells ++ [(a, v)]) := by
  have hfresh : a ∉ addresses cells := fun h => hq.chain.in_use h hfree
  have hnodup : (addresses (cells ++ [(a, v)])).Nodup := by
    have hdisjoint : List.Disjoint (addresses cells) [a] := by simpa using hfresh
    simpa [addresses] using hq.nodup.append (List.nodup_singleton a) hdisjoint
  have hcount : q.count + 1 = (cells ++ [(a, v)]).length := by
    rw [hq.count, List.length_append]
    rfl
  have hlast : some a = (addresses (cells ++ [(a, v)])).getLast? := by simp [addresses]
  unfold LinkedQueue.enqueue
  cases hhead : q.head with
  | none =>
      obtain rfl := hq.head_eq_none_iff.mp hhead
      exact ⟨⟨rfl, none, Function.update_self .., rfl⟩, hlast, hcount, hnodup⟩
  | some h =>
      have hne : cells ≠ [] := by
        intro hnil
        rw [hq.head_eq_none_iff.mpr hnil] at hhead
        cases hhead
      obtain ⟨front, ⟨t, w⟩, rfl⟩ : ∃ front last, cells = front ++ [last] :=
        ⟨cells.dropLast, cells.getLast hne, (List.dropLast_concat_getLast hne).symm⟩
      have htail : q.tail = some t := by
        rw [hq.tail]
        simp [addresses]
      simp only [htail]
      refine ⟨?_, hlast, hcount, hnodup⟩
      rw [← hhead]
      exact chain_concat hq.nodup hfree hq.chain

/-- Nothing else in the heap changes. -/
theorem Holds.enqueue_frame (hq : Holds heap q cells) (hb : b ∉ addresses cells) (hba : b ≠ a) :
    (LinkedQueue.enqueue heap q a v).1 b = heap b := by
  unfold LinkedQueue.enqueue
  cases q.head with
  | none => exact Function.update_of_ne hba _ _
  | some h =>
      cases htail : q.tail with
      | none => exact Function.update_of_ne hba _ _
      | some t =>
          have hbt : b ≠ t := by
            rintro rfl
            rw [hq.tail] at htail
            exact hb (List.mem_of_getLast? htail)
          simp [link, hbt, hba]

/-! ## Removing -/

/-- **Removing takes the first value.** -/
theorem Holds.dequeue (hq : Holds heap q ((a, v) :: cells)) :
    ∃ q', LinkedQueue.dequeue heap q = some (v, Function.update heap a none, q') ∧
      Holds (Function.update heap a none) q' cells := by
  obtain ⟨hhead, next, hcell, hrest⟩ := hq.chain
  obtain ⟨ha, hnodup⟩ := List.nodup_cons.mp hq.nodup
  refine ⟨⟨next, if next = none then none else q.tail, q.count - 1⟩, ?_, ?_⟩
  · simp only [LinkedQueue.dequeue, hhead, hcell, Option.map_some]
  · have hframe : ∀ b ∈ addresses cells, Function.update heap a none b = heap b := by
      intro b hb
      apply Function.update_of_ne
      rintro rfl
      exact ha hb
    refine ⟨chain_congr hframe hrest, ?_, ?_, hnodup⟩
    · cases cells with
      | nil =>
          obtain rfl : next = none := hrest
          rfl
      | cons c cells =>
          obtain ⟨hnext, -⟩ := hrest
          rw [if_neg (by simp [hnext]), hq.tail]
          exact List.getLast?_cons_cons ..
    · simp [hq.count]

end Queue

end LinkedQueue
