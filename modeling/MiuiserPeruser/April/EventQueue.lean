import Mathlib.Algebra.BigOperators.Fin
import MiuiserPeruser.Lib.CInt
import MiuiserPeruser.Lib.LinkedQueue
import MiuiserPeruser.Lib.Run

/-!
# april — the event queue (`april_event.c`)

One linked queue for each priority, all in one heap, and a total. `pop`
takes from the first class that has something, `LOW` first.

Pushing, popping and dispatching in any order lose and duplicate nothing
(`queue_keeps_every_detection`): what a class was given is what was taken
from it, in that order, followed by what it still holds. The most urgent
detection is popped first only if no other class has one
(`urgent_first_iff_one_class`).
-/

namespace MiuiserPeruser.April

open LinkedQueue Machine CText

/-! ## The queue -/

/-- `SENSEI_DETECTION`, without its link. The enumerations have no negative
value, so they are unsigned. -/
structure Detection where
  pid : UInt32
  name : List Char
  detectionClass : UInt32
  priority : UInt32
  mitreId : UInt32
  detectionType : List Char
  description : List Char
  confidence : Int

/-- `SENSEI_EVENT_PRIORITY_COUNT` classes. -/
abbrev Class := Fin 4

def priorityMedium : Class := 1

/-- `SENSEI_EVENT_QUEUE`. Its counts are `int`s that do not overflow: 2^31
detections do not fit a process. -/
structure EventQueue where
  queues : Class → Queue
  totalCount : Int
  running : Bool

/-- `callback_entry_t`, without its link. -/
structure Callback where
  priority : UInt32
  callback : Nat
  userData : Nat
deriving DecidableEq

/-- The heap of the process, a queue, and `g_callbacks`. -/
structure State where
  heap : Heap Detection
  queue : EventQueue
  callbacks : List Callback

/-- `april_event_queue_init`. -/
def queueInit : EventQueue := ⟨fun _ => ⟨none, none, 0⟩, 0, true⟩

/-- The list a detection goes to: `int idx = detection->priority`. -/
def classOf (d : Detection) : Class :=
  if h : wrap32 d.priority.toNat < 0 ∨ wrap32 d.priority.toNat ≥ 4 then priorityMedium
  else ⟨(wrap32 d.priority.toNat).toNat, by omega⟩

/-- The list of class `i`, the heap and the total get new values. -/
def State.setClass (s : State) (i : Class) (heap : Heap Detection) (q : Queue) (total : Int) :
    State :=
  { s with
    heap := heap
    queue := { s.queue with
      queues := Function.update s.queue.queues i q
      totalCount := total } }

section SetClass

variable (s : State) (i : Class) (heap : Heap Detection) (q : Queue) (total : Int)

@[simp] theorem State.setClass_heap : (s.setClass i heap q total).heap = heap := rfl

@[simp] theorem State.setClass_total : (s.setClass i heap q total).queue.totalCount = total := rfl

@[simp] theorem State.setClass_callbacks : (s.setClass i heap q total).callbacks = s.callbacks :=
  rfl

@[simp] theorem State.setClass_self : (s.setClass i heap q total).queue.queues i = q :=
  Function.update_self ..

theorem State.setClass_of_ne {j : Class} (hj : j ≠ i) :
    (s.setClass i heap q total).queue.queues j = s.queue.queues j :=
  Function.update_of_ne hj ..

end SetClass

/-- `april_event_queue_push`, with `malloc` giving the address `a`. -/
def queuePush (s : State) (d : Detection) (a : Nat) : Option State :=
  if ¬ s.queue.running then none
  else
    let idx := classOf d
    let r := enqueue s.heap (s.queue.queues idx) a d
    some (s.setClass idx r.1 r.2 (s.queue.totalCount + 1))

/-- The loop of `april_event_queue_pop` from the classes `is` on. -/
def popFrom (s : State) : List Class → Option (Detection × State)
  | [] => none
  | i :: is =>
      if (s.queue.queues i).head = none then popFrom s is
      else
        (dequeue s.heap (s.queue.queues i)).map fun r =>
          (r.1, s.setClass i r.2.1 r.2.2 (s.queue.totalCount - 1))

/-- `april_event_queue_pop`; `none` is `SENSEI_STATUS_NOT_FOUND`. -/
def queuePop (s : State) : Option (Detection × State) := popFrom s (List.finRange 4)

/-- `april_event_register_callback`. -/
def registerCallback (s : State) (cb : Callback) : State :=
  { s with callbacks := cb :: s.callbacks }

/-! ## Operations and what they do -/

inductive Event where
  | registered (cb : Callback)
  | pushed (d : Detection)
  | popped (d : Detection)
  | delivered (d : Detection) (cb : Callback)

/-- What dispatching `d` calls. -/
def deliveries (callbacks : List Callback) (d : Detection) : List Event :=
  (callbacks.filter fun cb => cb.priority ≤ d.priority).map (.delivered d)

/-- The loop of `april_dispatch_events`; the callbacks do not touch the queue. -/
def dispatchLoop : Nat → State → State × List Event
  | 0, s => (s, [])
  | fuel + 1, s =>
      match queuePop s with
      | none => (s, [])
      | some (d, s') =>
          let (s'', events) := dispatchLoop fuel s'
          (s'', .popped d :: deliveries s'.callbacks d ++ events)

/-- `april_dispatch_events`. The total bounds its rounds: it ends with an
empty queue (`dispatch_empties`). -/
def dispatchEvents (s : State) : State × List Event :=
  dispatchLoop s.queue.totalCount.toNat s

inductive Label where
  | register (cb : Callback)
  | push (d : Detection) (a : Nat)
  | pop
  | dispatch

/-- One operation. `malloc` never returns the address of a cell in use. -/
def step (s : State) : Label → State × List Event
  | .register cb => (registerCallback s cb, [.registered cb])
  | .push d a =>
      if (s.heap a).isSome then (s, [])
      else
        match queuePush s d a with
        | none => (s, [])
        | some s' => (s', [.pushed d])
  | .pop =>
      match queuePop s with
      | none => (s, [])
      | some (d, s') => (s', [.popped d])
  | .dispatch => dispatchEvents s

/-- A process that has initialised the queue. -/
def init : State := ⟨fun _ => none, queueInit, []⟩

/-! ## What was pushed and popped -/

def Event.pushed? : Event → Option Detection
  | .pushed d => some d
  | _ => none

def Event.popped? : Event → Option Detection
  | .popped d => some d
  | _ => none

def Event.registered? : Event → Option Callback
  | .registered cb => some cb
  | _ => none

/-- The detections of a class that were pushed, in order. -/
def pushedOf (i : Class) (tr : List Event) : List Detection :=
  (tr.filterMap Event.pushed?).filter fun d => classOf d = i

/-- The detections of a class that were popped, in order. -/
def poppedOf (i : Class) (tr : List Event) : List Detection :=
  (tr.filterMap Event.popped?).filter fun d => classOf d = i

/-- The callbacks registered, the newest first. -/
def registeredOf (tr : List Event) : List Callback := (tr.filterMap Event.registered?).reverse

@[simp] theorem pushedOf_append (i : Class) (tr es : List Event) :
    pushedOf i (tr ++ es) = pushedOf i tr ++ pushedOf i es := by
  simp [pushedOf]

@[simp] theorem poppedOf_append (i : Class) (tr es : List Event) :
    poppedOf i (tr ++ es) = poppedOf i tr ++ poppedOf i es := by
  simp [poppedOf]

@[simp] theorem registeredOf_append (tr es : List Event) :
    registeredOf (tr ++ es) = registeredOf es ++ registeredOf tr := by
  simp [registeredOf]

section Events

variable (i : Class) (d : Detection) (cb : Callback)

@[simp] theorem pushedOf_pushed : pushedOf i [.pushed d] = if classOf d = i then [d] else [] := by
  by_cases h : classOf d = i <;> simp [pushedOf, Event.pushed?, h]

@[simp] theorem pushedOf_popped : pushedOf i [.popped d] = [] := rfl

@[simp] theorem pushedOf_registered : pushedOf i [.registered cb] = [] := rfl

@[simp] theorem poppedOf_pushed : poppedOf i [.pushed d] = [] := rfl

@[simp] theorem poppedOf_popped : poppedOf i [.popped d] = if classOf d = i then [d] else [] := by
  by_cases h : classOf d = i <;> simp [poppedOf, Event.popped?, h]

@[simp] theorem poppedOf_registered : poppedOf i [.registered cb] = [] := rfl

@[simp] theorem registeredOf_pushed : registeredOf [.pushed d] = [] := rfl

@[simp] theorem registeredOf_popped : registeredOf [.popped d] = [] := rfl

@[simp] theorem registeredOf_registered : registeredOf [.registered cb] = [cb] := rfl

end Events

section Deliveries

variable (i : Class) (callbacks : List Callback) (d : Detection)

theorem filterMap_deliveries {β : Type} {f : Event → Option β} (h : ∀ cb, f (.delivered d cb) = none) :
    (deliveries callbacks d).filterMap f = [] := by
  apply List.filterMap_eq_nil_iff.mpr
  intro e he
  obtain ⟨cb, -, rfl⟩ := List.mem_map.mp he
  exact h cb

@[simp] theorem pushedOf_deliveries : pushedOf i (deliveries callbacks d) = [] := by
  rw [pushedOf, filterMap_deliveries callbacks d (f := Event.pushed?) (fun cb => rfl)]
  rfl

@[simp] theorem poppedOf_deliveries : poppedOf i (deliveries callbacks d) = [] := by
  rw [poppedOf, filterMap_deliveries callbacks d (f := Event.popped?) (fun cb => rfl)]
  rfl

@[simp] theorem registeredOf_deliveries : registeredOf (deliveries callbacks d) = [] := by
  rw [registeredOf, filterMap_deliveries callbacks d (f := Event.registered?) (fun cb => rfl)]
  rfl

end Deliveries

/-! ## What the queue holds -/

/-- The cells each class has. No two classes share one. -/
structure Represents (s : State) (cells : Class → List (Nat × Detection)) : Prop where
  holds : ∀ i, Holds s.heap (s.queue.queues i) (cells i)
  apart : ∀ i j, i ≠ j → (addresses (cells i)).Disjoint (addresses (cells j))
  classes : ∀ i, ∀ c ∈ cells i, classOf c.2 = i
  total : s.queue.totalCount = ∑ i, (s.queue.queues i).count
  running : s.queue.running = true

/-- The detections of the classes `is`, in the order they will be popped. -/
def queued (is : List Class) (cells : Class → List (Nat × Detection)) : List Detection :=
  is.flatMap fun i => (cells i).map Prod.snd

section Represents

variable {s : State} {cells : Class → List (Nat × Detection)}

/-- **One class changes**: its own cells, and those of no other class. -/
theorem Represents.update (h : Represents s cells) {i : Class} {heap : Heap Detection} {q : Queue}
    {new : List (Nat × Detection)} {total : Int} (hq : Holds heap q new)
    (hframe : ∀ j, j ≠ i → ∀ b ∈ addresses (cells j), heap b = s.heap b)
    (hapart : ∀ j, j ≠ i → (addresses new).Disjoint (addresses (cells j)))
    (hclass : ∀ c ∈ new, classOf c.2 = i)
    (htotal : total - s.queue.totalCount = q.count - (s.queue.queues i).count) :
    Represents (s.setClass i heap q total) (Function.update cells i new) where
  holds j := by
    by_cases hj : j = i
    · subst hj
      simpa using hq
    · simpa [hj, s.setClass_of_ne i _ _ _ hj] using (h.holds j).congr (hframe j hj)
  apart j k hjk := by
    by_cases hj : j = i
    · subst hj
      simpa [hjk.symm] using hapart k hjk.symm
    · by_cases hk : k = i
      · subst hk
        simpa [hj] using (hapart j hj).symm
      · simpa [hj, hk] using h.apart j k hjk
  classes j := by
    by_cases hj : j = i
    · subst hj
      simpa using hclass
    · simpa [hj] using h.classes j
  total := by
    have hrest : ∑ j ∈ Finset.univ.erase i, ((s.setClass i heap q total).queue.queues j).count =
        ∑ j ∈ Finset.univ.erase i, (s.queue.queues j).count := by
      apply Finset.sum_congr rfl
      intro j hj
      rw [s.setClass_of_ne i _ _ _ (Finset.ne_of_mem_erase hj)]
    have hold := h.total
    rw [← Finset.add_sum_erase _ _ (Finset.mem_univ i)] at hold ⊢
    rw [State.setClass_self, hrest, State.setClass_total]
    omega
  running := h.running

/-- Pushing a detection puts it behind those of its class. -/
theorem Represents.push (h : Represents s cells) (d : Detection) {a : Nat} (hfree : s.heap a = none) :
    ∃ s', queuePush s d a = some s' ∧ s'.callbacks = s.callbacks ∧
      Represents s' (Function.update cells (classOf d) (cells (classOf d) ++ [(a, d)])) := by
  have hq := (h.holds (classOf d)).enqueue hfree (v := d)
  have hunused : ∀ j, a ∉ addresses (cells j) := fun j ha => (h.holds j).chain.in_use ha hfree
  refine ⟨s.setClass (classOf d) _ _ (s.queue.totalCount + 1), ?_, rfl, h.update hq ?_ ?_ ?_ ?_⟩
  · simp only [queuePush, h.running, not_true, if_false]
  · intro j hj b hb
    apply (h.holds (classOf d)).enqueue_frame
    · exact fun hb' => h.apart j (classOf d) hj hb hb'
    · rintro rfl
      exact hunused j hb
  · intro j hj b hb hb'
    rw [addresses_append] at hb
    rcases List.mem_append.mp hb with hold | hnew
    · exact h.apart (classOf d) j hj.symm hold hb'
    · obtain rfl := List.mem_singleton.mp hnew
      exact hunused j hb'
  · intro c hc
    rcases List.mem_append.mp hc with hold | hnew
    · exact h.classes _ c hold
    · obtain rfl : c = (a, d) := by simpa using hnew
      rfl
  · rw [hq.count, (h.holds (classOf d)).count, List.length_append]
    simp

/-- A class that has a detection gives its first one. -/
theorem Represents.pop_class (h : Represents s cells) {i : Class} {a : Nat} {d : Detection}
    {rest : List (Nat × Detection)} (hcells : cells i = (a, d) :: rest) (is : List Class) :
    ∃ s', April.popFrom s (i :: is) = some (d, s') ∧ s'.callbacks = s.callbacks ∧
      s'.queue.totalCount = s.queue.totalCount - 1 ∧ Represents s' (Function.update cells i rest) := by
  have hholds := h.holds i
  rw [hcells] at hholds
  obtain ⟨q', hdequeue, hq'⟩ := hholds.dequeue
  have hhead : (s.queue.queues i).head ≠ none := by
    intro hnone
    rw [(h.holds i).head_eq_none_iff.mp hnone] at hcells
    cases hcells
  -- the other classes' cells are not touched, since no two classes share one
  refine ⟨s.setClass i _ q' (s.queue.totalCount - 1), ?_, rfl, rfl, h.update hq' ?_ ?_ ?_ ?_⟩
  · rw [April.popFrom, if_neg hhead, hdequeue]
    rfl
  · intro j hj b hb
    apply Function.update_of_ne
    rintro rfl
    exact h.apart j i hj hb (by simp [hcells, addresses])
  · intro j hj b hb
    have hb' : b ∈ addresses (cells i) := by
      rw [hcells]
      exact List.mem_cons_of_mem a hb
    exact h.apart i j hj.symm hb'
  · intro c hc
    exact h.classes i c (by simp [hcells, hc])
  · rw [hq'.count, hholds.count, List.length_cons]
    push_cast
    omega

/-- The classes behind it keep what they have. -/
theorem queued_update {i : Class} {is : List Class} (hi : i ∉ is) {a : Nat} {d : Detection}
    {rest : List (Nat × Detection)} (hcells : cells i = (a, d) :: rest) :
    queued (i :: is) cells = d :: queued (i :: is) (Function.update cells i rest) := by
  have hrest : queued is (Function.update cells i rest) = queued is cells := by
    apply List.flatMap_congr
    intro j hj
    rw [Function.update_of_ne (ne_of_mem_of_not_mem hj hi)]
  simp only [queued, List.flatMap_cons, Function.update_self, hcells, List.map_cons,
    List.cons_append, List.cons.injEq, true_and]
  exact congrArg (rest.map Prod.snd ++ ·) hrest.symm

/-- Popping takes the first detection of the first class that has one. -/
theorem Represents.popFrom (h : Represents s cells) {is : List Class} (his : is.Nodup) :
    (queued is cells = [] ∧ popFrom s is = none) ∨
      ∃ i a d rest s', cells i = (a, d) :: rest ∧ popFrom s is = some (d, s') ∧
        s'.callbacks = s.callbacks ∧ s'.queue.totalCount = s.queue.totalCount - 1 ∧
        Represents s' (Function.update cells i rest) ∧
        queued is cells = d :: queued is (Function.update cells i rest) := by
  induction is with
  | nil => exact .inl ⟨rfl, rfl⟩
  | cons i is ih =>
      obtain ⟨hi, his⟩ := List.nodup_cons.mp his
      cases hcells : cells i with
      | nil =>
          -- an empty class is passed over
          have hhead : (s.queue.queues i).head = none := (h.holds i).head_eq_none_iff.mpr hcells
          have hskip : April.popFrom s (i :: is) = April.popFrom s is := by
            rw [April.popFrom, if_pos hhead]
          have hnone : ∀ cs : Class → List (Nat × Detection), cs i = [] →
              queued (i :: is) cs = queued is cs := by
            intro cs hcs
            simp [queued, hcs]
          rw [hskip, hnone cells hcells]
          rcases ih his with hempty | ⟨k, a, d, rest, s', hk, hpop, hcb, htotal, hs', hqueued⟩
          · exact .inl hempty
          · have hki : i ≠ k := by
              rintro rfl
              rw [hcells] at hk
              cases hk
            have hstill : Function.update cells k rest i = [] := by
              rw [Function.update_of_ne hki, hcells]
            rw [← hnone _ hstill] at hqueued
            exact .inr ⟨k, a, d, rest, s', hk, hpop, hcb, htotal, hs', hqueued⟩
      | cons c rest =>
          obtain ⟨a, d⟩ := c
          obtain ⟨s', hpop, hcb, htotal, hs'⟩ := h.pop_class hcells is
          exact .inr ⟨i, a, d, rest, s', hcells, hpop, hcb, htotal, hs', queued_update hi hcells⟩

/-- The total is the number of detections queued. -/
theorem Represents.total_eq (h : Represents s cells) :
    s.queue.totalCount = (queued (List.finRange 4) cells).length := by
  have hcount : ∀ i, (s.queue.queues i).count = (cells i).length := fun i => (h.holds i).count
  have hlength : (queued (List.finRange 4) cells).length = ∑ i, (cells i).length := by
    rw [queued, List.length_flatMap, Fin.sum_univ_def]
    simp only [List.length_map]
  rw [h.total, hlength]
  push_cast
  exact Finset.sum_congr rfl fun i _ => hcount i

theorem Represents.eq_init (h : Represents s fun _ => []) : s.queue = queueInit := by
  have hqueues : s.queue.queues = fun _ => ⟨none, none, 0⟩ := by
    funext i
    exact holds_nil_iff.mp (h.holds i)
  have htotal : s.queue.totalCount = 0 := h.total_eq
  rw [queueInit, ← hqueues, ← htotal, ← h.running]

theorem eq_nil_of_queued (h : queued (List.finRange 4) cells = []) : cells = fun _ => [] := by
  funext i
  have hi := List.flatMap_eq_nil_iff.mp h i (List.mem_finRange i)
  exact List.map_eq_nil_iff.mp hi

end Represents

/-! ## Runs -/

/-- The cells account for the trace: what a class was given is what was
taken from it, followed by what it holds. -/
structure Accounts (s : State) (tr : List Event) (cells : Class → List (Nat × Detection)) : Prop where
  represents : Represents s cells
  order : ∀ i, pushedOf i tr = poppedOf i tr ++ (cells i).map Prod.snd
  callbacks : s.callbacks = registeredOf tr

section Accounts

variable {s : State} {tr : List Event} {cells : Class → List (Nat × Detection)}

theorem Accounts.deliveries (h : Accounts s tr cells) (callbacks : List Callback) (d : Detection) :
    Accounts s (tr ++ deliveries callbacks d) cells := by
  refine ⟨h.represents, fun i => ?_, ?_⟩
  · simpa using h.order i
  · simpa using h.callbacks

theorem Accounts.register (h : Accounts s tr cells) (cb : Callback) :
    Accounts (registerCallback s cb) (tr ++ [.registered cb]) cells := by
  refine ⟨⟨h.represents.holds, h.represents.apart, h.represents.classes, h.represents.total,
    h.represents.running⟩, fun i => ?_, ?_⟩
  · simpa using h.order i
  · simp [registerCallback, h.callbacks]

theorem Accounts.push (h : Accounts s tr cells) (d : Detection) {a : Nat} (hfree : s.heap a = none) :
    ∃ s', queuePush s d a = some s' ∧
      Accounts s' (tr ++ [.pushed d])
        (Function.update cells (classOf d) (cells (classOf d) ++ [(a, d)])) := by
  obtain ⟨s', hpush, hcb, hs'⟩ := h.represents.push d hfree
  refine ⟨s', hpush, hs', fun i => ?_, ?_⟩
  · have horder := h.order i
    by_cases hi : classOf d = i
    · simp [horder, hi]
    · simp [horder, hi, Ne.symm hi]
  · simp [hcb, h.callbacks]

/-- Popping takes the next detection, if there is one. -/
theorem Accounts.pop (h : Accounts s tr cells) :
    (queued (List.finRange 4) cells = [] ∧ queuePop s = none) ∨
      ∃ d s' cells', queuePop s = some (d, s') ∧ Accounts s' (tr ++ [.popped d]) cells' ∧
        s'.callbacks = s.callbacks ∧
        queued (List.finRange 4) cells = d :: queued (List.finRange 4) cells' := by
  rcases h.represents.popFrom (List.nodup_finRange 4) with
    hempty | ⟨i, a, d, rest, s', hcells, hpop, hcb, -, hs', hqueued⟩
  · exact .inl hempty
  · have hd : classOf d = i := h.represents.classes i (a, d) (by simp [hcells])
    refine .inr ⟨d, s', _, hpop, ⟨hs', fun j => ?_, ?_⟩, hcb, hqueued⟩
    · have horder := h.order j
      by_cases hj : j = i
      · subst hj
        simp [horder, hcells, hd]
      · simp [horder, hd, hj, Ne.symm hj]
    · simp [hcb, h.callbacks]

/-- What dispatching calls. -/
def dispatched (callbacks : List Callback) (ds : List Detection) : List Event :=
  ds.flatMap fun d => .popped d :: April.deliveries callbacks d

/-- The loop runs until the queue is empty. -/
theorem Accounts.dispatchLoop (h : Accounts s tr cells) {fuel : Nat}
    (hfuel : (queued (List.finRange 4) cells).length ≤ fuel) :
    ∃ s', dispatchLoop fuel s =
        (s', dispatched s.callbacks (queued (List.finRange 4) cells)) ∧
      Accounts s' (tr ++ dispatched s.callbacks (queued (List.finRange 4) cells)) fun _ => [] := by
  induction fuel generalizing s tr cells with
  | zero =>
      have hnone := List.length_eq_zero_iff.mp (Nat.le_zero.mp hfuel)
      rw [hnone]
      rw [eq_nil_of_queued hnone] at h
      exact ⟨s, rfl, by simpa [dispatched] using h⟩
  | succ fuel ih =>
      rcases h.pop with ⟨hnone, hpop⟩ | ⟨d, s', cells', hpop, hs', hcb, hqueued⟩
      · rw [hnone]
        rw [eq_nil_of_queued hnone] at h
        refine ⟨s, ?_, by simpa [dispatched] using h⟩
        rw [April.dispatchLoop, hpop]
        rfl
      · rw [hqueued] at hfuel ⊢
        obtain ⟨s'', hloop, hs''⟩ := ih (hs'.deliveries s'.callbacks d) (Nat.le_of_succ_le_succ hfuel)
        rw [hcb] at hloop hs''
        refine ⟨s'', ?_, ?_⟩
        · rw [April.dispatchLoop, hpop]
          simp only [hloop, hcb]
          rfl
        · simpa [dispatched] using hs''

/-- **Dispatching empties the queue**, and delivers what was in it. -/
theorem Accounts.dispatch (h : Accounts s tr cells) :
    (dispatchEvents s).2 = dispatched s.callbacks (queued (List.finRange 4) cells) ∧
      (dispatchEvents s).1.queue = queueInit ∧
      Accounts (dispatchEvents s).1 (tr ++ (dispatchEvents s).2) fun _ => [] := by
  have hfuel : (queued (List.finRange 4) cells).length ≤ s.queue.totalCount.toNat := by
    rw [h.represents.total_eq]
    simp
  obtain ⟨s', hloop, hs'⟩ := h.dispatchLoop hfuel
  rw [dispatchEvents, hloop]
  exact ⟨rfl, hs'.represents.eq_init, hs'⟩

/-- What one operation keeps. -/
theorem Accounts.step (h : Accounts s tr cells) (l : Label) :
    ∃ cells', Accounts (step s l).1 (tr ++ (step s l).2) cells' := by
  cases l with
  | register cb => exact ⟨cells, h.register cb⟩
  | push d a =>
      cases ha : s.heap a with
      | some cell =>
          refine ⟨cells, ?_⟩
          simpa [April.step, ha] using h
      | none =>
          obtain ⟨s', hpush, hs'⟩ := h.push d ha
          refine ⟨Function.update cells (classOf d) (cells (classOf d) ++ [(a, d)]), ?_⟩
          simpa [April.step, ha, hpush] using hs'
  | pop =>
      rcases h.pop with ⟨-, hpop⟩ | ⟨d, s', cells', hpop, hs', -⟩
      · refine ⟨cells, ?_⟩
        simpa [April.step, hpop] using h
      · refine ⟨cells', ?_⟩
        simpa [April.step, hpop] using hs'
  | dispatch => exact ⟨_, h.dispatch.2.2⟩

end Accounts

theorem accounts_init : Accounts init [] fun _ => [] := by
  refine ⟨⟨fun i => ?_, fun i j _ => ?_, fun i c hc => ?_, rfl, rfl⟩, fun i => rfl, rfl⟩
  · exact holds_nil_iff.mpr rfl
  · exact List.disjoint_nil_left _
  · cases hc

/-- Every run keeps account of its detections. -/
theorem accounts_run (ls : List Label) :
    ∃ cells, Accounts (run step init ls).1 (run step init ls).2 cells := by
  apply run_invariant (P := fun s tr => ∃ cells, Accounts s tr cells) ⟨_, accounts_init⟩
  intro s tr l ⟨cells, h⟩
  exact h.step l

/-- What a queue with the lists `cells` promises after the trace `tr`. -/
structure Keeps (s : State) (tr : List Event) (cells : Class → List (Nat × Detection)) : Prop where
  lists : ∀ i, Chain s.heap (s.queue.queues i).head (cells i)
  counts : ∀ i, (s.queue.queues i).count = (cells i).length
  total : s.queue.totalCount = ∑ i, (s.queue.queues i).count
  ends : ∀ i, (s.queue.queues i).head = none ↔ (s.queue.queues i).tail = none
  order : ∀ i, pushedOf i tr = poppedOf i tr ++ (cells i).map Prod.snd
  accepts : ∀ d a, s.heap a = none → (step s (.push d a)).2 = [.pushed d]
  delivers : (step s .dispatch).2 =
    dispatched (registeredOf tr) (queued (List.finRange 4) cells)
  empties : (step s .dispatch).1.queue = queueInit

theorem Accounts.keeps {s : State} {tr : List Event} {cells : Class → List (Nat × Detection)}
    (h : Accounts s tr cells) : Keeps s tr cells := by
  constructor
  case lists => exact fun i => (h.represents.holds i).chain
  case counts => exact fun i => (h.represents.holds i).count
  case total => exact h.represents.total
  case ends =>
    intro i
    rw [(h.represents.holds i).head_eq_none_iff, (h.represents.holds i).tail_eq_none_iff]
  case order => exact h.order
  case accepts =>
    intro d a hfree
    obtain ⟨s', hpush, -⟩ := h.push d hfree
    simp [April.step, hfree, hpush]
  case delivers =>
    rw [← h.callbacks]
    exact h.dispatch.1
  case empties => exact h.dispatch.2.1

/-- The priorities grow with the urgency: nothing queued is more urgent than
what is popped, and dispatching delivers `CRITICAL` first. -/
structure UrgentFirst (s : State) (cells : Class → List (Nat × Detection)) : Prop where
  pops : (∃ i, cells i ≠ []) →
    ∃ d s', queuePop s = some (d, s') ∧ ∀ i, cells i ≠ [] → i ≤ classOf d
  delivers : (step s .dispatch).2 =
    dispatched s.callbacks (queued (List.finRange 4).reverse cells)

/-- No two classes have something. -/
def OneClass (cells : Class → List (Nat × Detection)) : Prop :=
  ∀ i j, cells i ≠ [] → cells j ≠ [] → i = j

section Urgent

variable {s : State} {cells : Class → List (Nat × Detection)}

theorem exists_mem_queued {is : List Class} {i : Class} (hi : i ∈ is) (hcells : cells i ≠ [])
    (hclasses : ∀ i, ∀ c ∈ cells i, classOf c.2 = i) : ∃ d ∈ queued is cells, classOf d = i := by
  obtain ⟨c, hc⟩ := List.exists_mem_of_ne_nil _ hcells
  exact ⟨c.2, List.mem_flatMap.mpr ⟨i, hi, List.mem_map_of_mem hc⟩, hclasses i c hc⟩

/-- What is queued in ascending classes is popped in ascending classes. -/
theorem pairwise_queued {is : List Class} (his : is.Pairwise (· < ·))
    (hclasses : ∀ i, ∀ c ∈ cells i, classOf c.2 = i) :
    (queued is cells).Pairwise fun d e => classOf d ≤ classOf e := by
  have hclass : ∀ i, ∀ d ∈ (cells i).map Prod.snd, classOf d = i := by
    intro i d hd
    obtain ⟨c, hc, rfl⟩ := List.mem_map.mp hd
    exact hclasses i c hc
  induction is with
  | nil => exact List.Pairwise.nil
  | cons i is ih =>
      obtain ⟨hi, his⟩ := List.pairwise_cons.mp his
      rw [queued, List.flatMap_cons]
      refine List.pairwise_append.mpr ⟨?_, ih his, ?_⟩
      · apply List.pairwise_of_forall_mem_list
        intro d hd e he
        rw [hclass i d hd, hclass i e he]
      · intro d hd e he
        obtain ⟨j, hj, he⟩ := List.mem_flatMap.mp he
        rw [hclass i d hd, hclass j e he]
        exact (hi j hj).le

/-- A single class is popped from its front, whichever way the classes are scanned. -/
theorem queued_of_only {i : Class} (honly : ∀ j, j ≠ i → cells j = []) {is : List Class}
    (his : is.Nodup) :
    queued is cells = if i ∈ is then (cells i).map Prod.snd else [] := by
  induction is with
  | nil => rfl
  | cons j is ih =>
      obtain ⟨hj, his⟩ := List.nodup_cons.mp his
      have hrest := ih his
      rw [queued] at hrest ⊢
      rw [List.flatMap_cons, hrest]
      by_cases hji : j = i
      · subst hji
        rw [if_neg hj, if_pos List.mem_cons_self, List.append_nil]
      · have hmem : i ∈ j :: is ↔ i ∈ is := by simp [Ne.symm hji]
        rw [honly j hji, List.map_nil, List.nil_append]
        simp only [hmem]

theorem queued_reverse (h : OneClass cells) :
    queued (List.finRange 4).reverse cells = queued (List.finRange 4) cells := by
  by_cases hnone : ∀ j, cells j = []
  · have hempty : ∀ is, queued is cells = [] := by
      intro is
      simp [queued, hnone]
    rw [hempty, hempty]
  · obtain ⟨i, hi⟩ := not_forall.mp hnone
    have honly : ∀ j, j ≠ i → cells j = [] := by
      intro j hj
      by_contra hcells
      exact hj (h j i hcells hi)
    have hnodup := List.nodup_finRange 4
    rw [queued_of_only honly hnodup, queued_of_only honly (List.nodup_reverse.mpr hnodup)]
    simp only [List.mem_reverse]

/-- The scan goes up, so it meets the least urgent class first. -/
theorem Accounts.urgentFirst_iff {tr : List Event} (h : Accounts s tr cells) :
    UrgentFirst s cells ↔ OneClass cells := by
  have hclasses := h.represents.classes
  have hmem : ∀ i, cells i ≠ [] → ∃ d ∈ queued (List.finRange 4) cells, classOf d = i :=
    fun i hi => exists_mem_queued (List.mem_finRange i) hi hclasses
  rcases h.pop with ⟨hnone, -⟩ | ⟨d, s', cells', hpop, -, -, hqueued⟩
  · have hempty := eq_nil_of_queued hnone
    subst hempty
    constructor
    · intro _ i j hi
      exact absurd rfl hi
    · intro hone
      refine ⟨fun ⟨i, hi⟩ => absurd rfl hi, ?_⟩
      rw [queued_reverse hone]
      exact h.dispatch.1
  · have hleast : ∀ i, cells i ≠ [] → classOf d ≤ i := by
      intro i hi
      obtain ⟨e, he, rfl⟩ := hmem i hi
      have hsorted := pairwise_queued (List.pairwise_lt_finRange 4) hclasses
      rw [hqueued] at he hsorted
      rcases List.mem_cons.mp he with rfl | he
      · exact le_rfl
      · exact List.rel_of_pairwise_cons hsorted he
    constructor
    · intro hurgent i j hi hj
      obtain ⟨d', s'', hpop', hmost⟩ := hurgent.pops ⟨i, hi⟩
      obtain ⟨rfl, -⟩ : d = d' ∧ s' = s'' := by
        rw [hpop] at hpop'
        exact Prod.mk.inj (Option.some.inj hpop')
      rw [le_antisymm (hmost i hi) (hleast i hi), le_antisymm (hmost j hj) (hleast j hj)]
    · intro hone
      refine ⟨fun _ => ⟨d, s', hpop, fun i hi => ?_⟩, ?_⟩
      · -- The class popped from is the one there is.
        obtain ⟨c, hc, hcd⟩ : ∃ c, cells c ≠ [] ∧ c = classOf d := by
          have hd : d ∈ queued (List.finRange 4) cells := by
            rw [hqueued]
            exact List.mem_cons_self
          obtain ⟨c, -, hd⟩ := List.mem_flatMap.mp hd
          obtain ⟨cell, hcell, rfl⟩ := List.mem_map.mp hd
          exact ⟨c, List.ne_nil_of_mem hcell, (hclasses c cell hcell).symm⟩
        rw [hone i c hi hc, hcd]
      · rw [queued_reverse hone]
        exact h.dispatch.1

end Urgent

/-- **The most urgent detection is popped first only in a queue of one class**, in every
state that can be reached. -/
theorem urgent_first_iff_one_class (ls : List Label) :
    ∃ cells, Keeps (run step init ls).1 (run step init ls).2 cells ∧
      (UrgentFirst (run step init ls).1 cells ↔ OneClass cells) := by
  obtain ⟨cells, h⟩ := accounts_run ls
  exact ⟨cells, h.keeps, h.urgentFirst_iff⟩

/-- A detection of priority `LOW` in front of one of priority `CRITICAL`. -/
def lowThenCritical : List Label :=
  [.push ⟨1, [], 0, 0, 0, [], [], 0⟩ 0, .push ⟨2, [], 0, 3, 0, [], [], 0⟩ 1]

theorem lowThenCritical_pops_low :
    (queuePop (run step init lowThenCritical).1).map (fun r => classOf r.1) = some 0 ∧
      ((run step init lowThenCritical).1.queue.queues 3).count = 1 := by
  decide +kernel

theorem low_before_critical :
    ¬ ∀ ls, ∃ cells, Keeps (run step init ls).1 (run step init ls).2 cells ∧
      UrgentFirst (run step init ls).1 cells := by
  intro h
  obtain ⟨cells, hkeeps, hurgent⟩ := h lowThenCritical
  obtain ⟨hlow, hcritical⟩ := lowThenCritical_pops_low
  have hlength : ((cells 3).length : Int) = 1 := (hkeeps.counts 3).symm.trans hcritical
  have hcells : cells 3 ≠ [] := by
    intro hnil
    rw [hnil] at hlength
    cases hlength
  obtain ⟨d, s', hpop, hmost⟩ := hurgent.pops ⟨3, hcells⟩
  rw [hpop] at hlow
  have hd : classOf d = 0 := Option.some.inj hlow
  have hle := hmost 3 hcells
  rw [hd] at hle
  exact absurd hle (by decide)

end MiuiserPeruser.April
