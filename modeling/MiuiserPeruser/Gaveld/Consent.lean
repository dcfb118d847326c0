import Mathlib.Data.Fin.Basic
import Mathlib.Data.List.FinRange
import Mathlib.Logic.Function.Basic
import MiuiserPeruser.Gaveld.Db

/-!
# gaveld — the table of pending consents (`consent.c`)

`g_pending` and the functions on it that run under `g_mutex`. A slot
that is not active is `none`: nothing reads the other fields of such a
slot, and `consent_enqueue` clears it before use. Notifications go to
the user and come back, if at all, as APPROVE and DENY messages; their
text is left out.
-/

namespace MiuiserPeruser.Gaveld

/-- An index into `g_pending`. -/
abbrev Slot := Fin consentQueueSize

/-- An active `pending_t`. `reply` is `none` for 0, `some true` for 1 and
`some false` for -1. -/
structure Pending where
  req : ConsentRequest
  lastNotified : Int
  reply : Option Bool
  deriving DecidableEq

/-- `g_pending`. -/
abbrev PendingTable := Slot → Option Pending

/-- The table after `memset`. -/
def PendingTable.clear : PendingTable := fun _ => none

/-- `find_pending`: the first active slot with the case id. -/
def findPending (pending : PendingTable) (caseId : String) : Option Slot :=
  (List.finRange consentQueueSize).find? fun i =>
    (pending i).any fun p => p.req.caseId = caseId

/-- The first slot that is not active. -/
def freeSlot (pending : PendingTable) : Option Slot :=
  (List.finRange consentQueueSize).find? fun i => (pending i).isNone

/-- `consent_enqueue` into a free slot. -/
def consentEnqueue (pending : PendingTable) (i : Slot) (req : ConsentRequest) : PendingTable :=
  Function.update pending i (some ⟨req, 0, none⟩)

/-- `consent_reply` on the slot that was found. -/
def consentReply (pending : PendingTable) (i : Slot) (approved : Bool) : PendingTable :=
  Function.update pending i ((pending i).map fun p => { p with reply := some approved })

/-- A request held for too long: its age restarts, and the user is to be
notified again. -/
def Pending.held (now : Int) (p : Pending) : Pending :=
  { p with req := { p.req with queued := now }, lastNotified := 0 }

/-- The hard limit for JAILED, whose timeout is 0. -/
def Pending.hardLimit (now : Int) (p : Pending) : Pending :=
  if p.req.timeoutSecs = 0 ∧ now - p.req.queued > consentJailedHardLimit then p.held now else p

/-- The timeout of the other verdicts. -/
def Pending.timeout (now : Int) (p : Pending) : Pending :=
  if p.req.timeoutSecs > 0 ∧ now - p.req.queued ≥ p.req.timeoutSecs then p.held now else p

/-- Send the notification, or send it again. -/
def Pending.notify (now : Int) (p : Pending) : Pending :=
  if p.lastNotified = 0 ∨ now - p.lastNotified ≥ consentRenotifyInterval then
    { p with lastNotified := now }
  else p

/-- What a poll does to a slot without a reply. -/
def Pending.polled (now : Int) (p : Pending) : Pending :=
  ((p.hardLimit now).timeout now).notify now

/-- Two requests about the same case: everything but the time in queue,
which a poll restarts. -/
def ConsentRequest.Same (r q : ConsentRequest) : Prop := { r with queued := q.queued } = q

namespace ConsentRequest.Same

variable {r q : ConsentRequest}

theorem refl (r : ConsentRequest) : r.Same r := rfl

theorem trans {p : ConsentRequest} (h₁ : r.Same q) (h₂ : q.Same p) : r.Same p := by
  unfold ConsentRequest.Same at *
  rw [← h₂, ← h₁]

theorem caseId (h : r.Same q) : r.caseId = q.caseId := by rw [← h]
theorem source (h : r.Same q) : r.source = q.source := by rw [← h]
theorem verdict (h : r.Same q) : r.verdict = q.verdict := by rw [← h]
theorem score (h : r.Same q) : r.score = q.score := by rw [← h]
theorem timeoutSecs (h : r.Same q) : r.timeoutSecs = q.timeoutSecs := by rw [← h]

end ConsentRequest.Same

/-- A poll changes nothing about a request but its time in queue, and
leaves a slot without a reply without one. -/
theorem Pending.polled_same (now : Int) (p : Pending) :
    p.req.Same (p.polled now).req ∧ (p.polled now).reply = p.reply := by
  have held : ∀ p : Pending, p.req.Same (p.held now).req ∧ (p.held now).reply = p.reply :=
    fun p => ⟨rfl, rfl⟩
  have hard : p.req.Same (p.hardLimit now).req ∧ (p.hardLimit now).reply = p.reply := by
    unfold Pending.hardLimit
    split
    · exact held p
    · exact ⟨rfl, rfl⟩
  have timeout : ∀ p : Pending, p.req.Same (p.timeout now).req ∧ (p.timeout now).reply = p.reply := by
    intro p
    unfold Pending.timeout
    split
    · exact held p
    · exact ⟨rfl, rfl⟩
  have notify : ∀ p : Pending, (p.notify now).req = p.req ∧ (p.notify now).reply = p.reply := by
    intro p
    unfold Pending.notify
    split <;> exact ⟨rfl, rfl⟩
  unfold Pending.polled
  rw [(notify _).1, (notify _).2]
  exact ⟨hard.1.trans (timeout _).1, (timeout _).2.trans hard.2⟩

/-- What stands in a slot after one slot was written. -/
theorem slot_of_update {pending : PendingTable} {i j : Slot} {q : Option Pending} {p : Pending}
    (h : Function.update pending i q j = some p) :
    (j = i ∧ q = some p) ∨ (j ≠ i ∧ pending j = some p) := by
  by_cases hji : j = i
  · subst hji
    exact .inl ⟨rfl, by simpa only [Function.update_self] using h⟩
  · exact .inr ⟨hji, by simpa only [Function.update_of_ne hji] using h⟩

theorem findPending_some {pending : PendingTable} {caseId : String} {i : Slot}
    (h : findPending pending caseId = some i) :
    ∃ p, pending i = some p ∧ p.req.caseId = caseId := by
  have := List.find?_some h
  cases hp : pending i with
  | none => simp [hp] at this
  | some p => exact ⟨p, rfl, by simpa [hp] using this⟩

theorem freeSlot_some {pending : PendingTable} {i : Slot} (h : freeSlot pending = some i) :
    pending i = none := by
  have := List.find?_some h
  simpa using this

end MiuiserPeruser.Gaveld
