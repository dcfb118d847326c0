import MiuiserPeruser.Gaveld.Scorer

/-!
# gaveld — case assembly (`cases.c`)

A scoring becomes a case: `make_case_id` names it by the millisecond it
is assembled in, `db_case_insert` records it, and a case that is at least
WARNED is pushed to the verdict queue, a bounded queue that drops its
oldest entry when full. `enforce_cap` does nothing in the source and is
left out.

The ring buffer of the queue is modelled by the list of its entries,
oldest first.
-/

namespace MiuiserPeruser.Gaveld

/-- `ingest_record_t`. The command of a QUERY record is only logged. -/
structure IngestRecord where
  isQuery : Bool
  source : String
  signal : String
  weight : ℚ
  ctx : String
  deriving DecidableEq

/-- `case_record_t`. -/
structure CaseRecord where
  caseId : String
  source : String
  signal : String
  state : ThreatState
  score : ℚ
  delta : ℚ
  epoch : Int
  ctx : String
  deriving DecidableEq

/-- `case_<ms>`, for the wall clock in milliseconds. -/
def makeCaseId (ms : Int) : String := "case_" ++ toString ms

/-- The record `cases_assemble` builds, at second `now` and millisecond `ms`. -/
def assembled (r : IngestRecord) (result : ScoreResult) (now ms : Int) : CaseRecord :=
  { caseId := makeCaseId ms, source := result.source, signal := r.signal, state := result.state,
    score := result.newScore, delta := result.delta, epoch := now, ctx := r.ctx }

/-- The row of `cases` for a record. -/
def CaseRecord.row (c : CaseRecord) : CaseRow :=
  { caseId := c.caseId, source := c.source, signal := c.signal, score := c.score,
    context := c.ctx, status := .pendingJudgement, created := c.epoch }

/-- CLEAN and WATCHED cases are logged only. -/
def CaseRecord.belowThreshold (c : CaseRecord) : Bool :=
  match c.state with
  | .clean | .watched => true
  | _ => false

/-- `queue_push`: the queue afterwards, and the entry it dropped. -/
def queuePush (size : Nat) {α : Type} (queue : List α) (a : α) : List α × Option α :=
  if queue.length ≥ size then (queue.tail ++ [a], queue.head?) else (queue ++ [a], none)

theorem mem_queuePush {size : Nat} {α : Type} {queue : List α} {a x : α}
    (h : x ∈ (queuePush size queue a).1) : x = a ∨ x ∈ queue := by
  unfold queuePush at h
  split at h
  · rcases List.mem_append.mp h with h | h
    · exact .inr (List.mem_of_mem_tail h)
    · exact .inl (List.mem_singleton.mp h)
  · rcases List.mem_append.mp h with h | h
    · exact .inr h
    · exact .inl (List.mem_singleton.mp h)

/-- Nothing leaves the queue on a push but what is reported dropped. -/
theorem queuePush_keeps (size : Nat) {α : Type} (queue : List α) (a : α) {x : α}
    (h : x ∈ queue) : x ∈ (queuePush size queue a).1 ∨ (queuePush size queue a).2 = some x := by
  unfold queuePush
  split
  · cases queue with
    | nil => cases h
    | cons y ys =>
        rcases List.mem_cons.mp h with rfl | h
        · exact .inr rfl
        · exact .inl (List.mem_append_left _ h)
  · exact .inl (List.mem_append_left _ h)

theorem mem_of_queuePush_dropped {size : Nat} {α : Type} {queue : List α} {a x : α}
    (h : (queuePush size queue a).2 = some x) : x ∈ queue := by
  unfold queuePush at h
  split at h
  · exact List.mem_of_mem_head? h
  · cases h

theorem self_mem_queuePush (size : Nat) {α : Type} (queue : List α) (a : α) :
    a ∈ (queuePush size queue a).1 := by
  unfold queuePush
  split <;> simp

/-- Different milliseconds give different case ids. -/
theorem makeCaseId_injective : Function.Injective makeCaseId := fun _ _ h =>
  CText.intRepr_injective ((String.append_right_inj "case_").mp h)

end MiuiserPeruser.Gaveld
