import MiuiserPeruser.Gaveld.Cases
import MiuiserPeruser.Lib.RingBuffer

/-!
# gaveld — the two queues (`ingest.c`, `cases.c`)

The queue between the ingest and the scorer thread and the one between
case assembly and the verdict thread: two copies of one ring buffer,
each under its own mutex, so that operations follow one another. A
`dequeue` on an empty queue waits, or returns 0 once the module has
stopped; either way it changes nothing.

The rest of the development keeps a queue as a list, oldest entry first,
with `queuePush`. That model is justified here: over every sequence of
operations the rings deliver what the lists deliver.
-/

namespace MiuiserPeruser.Gaveld

/-! ## The rings -/

namespace IngestQueue

/-- `queue_push` of `ingest.c`. -/
def queuePush (q : RingBuffer IngestRecord) (rec : IngestRecord) : RingBuffer IngestRecord :=
  q.push ingestQueueSize rec

def ingestDequeue (q : RingBuffer IngestRecord) : RingBuffer IngestRecord × Option IngestRecord :=
  q.pop ingestQueueSize

def step (q : RingBuffer IngestRecord) :
    Fifo.Op IngestRecord → RingBuffer IngestRecord × List IngestRecord
  | .push rec => (queuePush q rec, [])
  | .pop => ((ingestDequeue q).1, (ingestDequeue q).2.toList)

/-- `g_queue`, `g_head`, `g_tail` and `g_count` before the first operation;
`blank` is a record of zero bytes. -/
def initial (blank : IngestRecord) : RingBuffer IngestRecord := .empty ingestQueueSize blank

end IngestQueue

namespace VerdictQueue

/-- `queue_push` of `cases.c`. -/
def queuePush (q : RingBuffer CaseRecord) (rec : CaseRecord) : RingBuffer CaseRecord :=
  q.push verdictQueueSize rec

def casesDequeue (q : RingBuffer CaseRecord) : RingBuffer CaseRecord × Option CaseRecord :=
  q.pop verdictQueueSize

def step (q : RingBuffer CaseRecord) :
    Fifo.Op CaseRecord → RingBuffer CaseRecord × List CaseRecord
  | .push rec => (queuePush q rec, [])
  | .pop => ((casesDequeue q).1, (casesDequeue q).2.toList)

/-- `g_queue`, `g_head`, `g_tail` and `g_count` before the first operation. -/
def initial (blank : CaseRecord) : RingBuffer CaseRecord := .empty verdictQueueSize blank

end VerdictQueue

theorem IngestQueue.step_eq : IngestQueue.step = RingBuffer.step ingestQueueSize := by
  funext q op
  cases op <;> rfl

theorem VerdictQueue.step_eq : VerdictQueue.step = RingBuffer.step verdictQueueSize := by
  funext q op
  cases op <;> rfl

/-! ## The list model -/

/-- An operation on a queue kept as a list. -/
def listStep (size : Nat) {α : Type} (queue : List α) : Fifo.Op α → List α × List α
  | .push a => ((queuePush size queue a).1, [])
  | .pop => (queue.tail, queue.head?.toList)

theorem listStep_eq (size : Nat) {α : Type} : listStep size (α := α) = Fifo.step size := by
  funext queue op
  cases op with
  | push a =>
      show ((queuePush size queue a).1, []) = (Fifo.push size queue a, [])
      unfold queuePush Fifo.push
      split <;> rfl
  | pop => rfl

/-- What a queue of `size` entries is to do over every sequence of
operations. It delivers what the list delivers that drops its oldest
entry on a push at capacity; what has left it, in order, and what the
list still holds are the entries pushed, in order, and only what was
delivered or dropped has left; its counters stay consistent. -/
def KeepsNewest (size : Nat) {α : Type} (step : RingBuffer α → Fifo.Op α → RingBuffer α × List α)
    (initial : RingBuffer α) : Prop :=
  ∀ ops : List (Fifo.Op α),
    let q := (Machine.run step initial ops).1
    let delivered := (Machine.run step initial ops).2
    let ideal := Machine.run (listStep size) [] ops
    delivered = ideal.2 ∧
      (∃ left : List (Fifo.Exit α),
        left.map Fifo.Exit.entry ++ ideal.1 = ops.filterMap Fifo.Op.pushed ∧
          left.filterMap Fifo.Exit.delivery = delivered) ∧
      q.count = ideal.1.length ∧ q.count ≤ size ∧ q.tail = (q.head + q.count) % size

theorem ringBuffer_keepsNewest {size : Nat} (hsize : 0 < size) {α : Type} (blank : α) :
    KeepsNewest size (RingBuffer.step size) (.empty size blank) := by
  intro ops q delivered ideal
  have hideal : ideal = Machine.run (Fifo.step size) [] ops := by
    show Machine.run (listStep size) [] ops = _
    rw [listStep_eq]
  obtain ⟨hholds, hdelivered⟩ := RingBuffer.run_refines hsize blank ops
  obtain ⟨left, hentries, hleft⟩ := Fifo.run_conserves hsize ops
  rw [hideal]
  refine ⟨hdelivered, ⟨left, hentries, hleft.trans hdelivered.symm⟩, ?_⟩
  exact ⟨hholds.length.symm, hholds.wf.count, hholds.wf.tail⟩

/-- **Both queues keep the newest.** -/
theorem queues_keep_newest :
    (∀ blank, KeepsNewest ingestQueueSize IngestQueue.step (IngestQueue.initial blank)) ∧
      ∀ blank, KeepsNewest verdictQueueSize VerdictQueue.step (VerdictQueue.initial blank) := by
  rw [IngestQueue.step_eq, VerdictQueue.step_eq]
  constructor
  · intro blank
    exact ringBuffer_keepsNewest (by decide) blank
  · intro blank
    exact ringBuffer_keepsNewest (by decide) blank

end MiuiserPeruser.Gaveld
