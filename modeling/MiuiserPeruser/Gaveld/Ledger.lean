import MiuiserPeruser.Gaveld.Consent

/-!
# gaveld — the ledger of pending consents

A request awaiting consent is booked twice: as a row of `consent_queue`
and as a slot of `g_pending`. The two are never written at once; between
the two writings the request is IN HAND of a thread. `Ledger` says what
the two books and the hands owe each other, and the lemmas are the
bookings: filing a row, seating a request in a slot, refusing it a seat,
taking a slot up for resolution, striking the row, reloading.

A row may be `waived` its slot; who is waived, and why, is the caller's.
-/

namespace MiuiserPeruser.Gaveld

structure Ledger (t : Sql.Table ConsentRequest ConsentRequest.caseId) (pending : PendingTable)
    (hand : List ConsentRequest) (waived : String → Prop) : Prop where
  slotRow : ∀ i p, pending i = some p → ∃ r ∈ t.rows, r.Same p.req
  slotUnique : ∀ i j p q, pending i = some p → pending j = some q →
    p.req.caseId = q.req.caseId → i = j
  handRow : ∀ req ∈ hand, ∃ r ∈ t.rows, r.Same req
  handSlot : ∀ req ∈ hand, ∀ i p, pending i = some p → p.req.caseId ≠ req.caseId
  handUnique : (hand.map ConsentRequest.caseId).Nodup
  placed : ∀ r ∈ t.rows, (∃ i p, pending i = some p ∧ p.req.caseId = r.caseId) ∨
    (∃ req ∈ hand, req.caseId = r.caseId) ∨ waived r.caseId

namespace Ledger

variable {t : Sql.Table ConsentRequest ConsentRequest.caseId} {pending : PendingTable}
  {hand : List ConsentRequest} {waived : String → Prop} {req : ConsentRequest}

/-- Nothing seated and nothing in hand: every row must be waived. -/
theorem blank (h : ∀ r ∈ t.rows, waived r.caseId) : Ledger t .clear [] waived where
  slotRow := fun i p hp => by cases hp
  slotUnique := fun i j p q hp => by cases hp
  handRow := fun req hreq => by cases hreq
  handSlot := fun req hreq => by cases hreq
  handUnique := List.nodup_nil
  placed := fun r hr => .inr (.inr (h r hr))

theorem waive {waived' : String → Prop} (h : Ledger t pending hand waived)
    (hw : ∀ caseId, waived caseId → waived' caseId) : Ledger t pending hand waived' :=
  { h with placed := fun r hr => (h.placed r hr).imp_right (Or.imp_right (hw _)) }

theorem perm {hand' : List ConsentRequest} (h : Ledger t pending hand waived)
    (hperm : hand.Perm hand') : Ledger t pending hand' waived where
  slotRow := h.slotRow
  slotUnique := h.slotUnique
  handRow := fun req hreq => h.handRow req (hperm.mem_iff.mpr hreq)
  handSlot := fun req hreq => h.handSlot req (hperm.mem_iff.mpr hreq)
  handUnique := (hperm.map _).nodup_iff.mp h.handUnique
  placed := fun r hr => (h.placed r hr).imp_right (Or.imp_left
    fun ⟨req, hreq, hid⟩ => ⟨req, hperm.mem_iff.mp hreq, hid⟩)

/-- A slot is rewritten, for the same request up to its time in queue. -/
theorem revise {i : Slot} {p : Pending} (h : Ledger t pending hand waived) (p' : Pending)
    (hp : pending i = some p) (hsame : p.req.Same p'.req) :
    Ledger t (Function.update pending i (some p')) hand waived := by
  -- every slot of the new table has a slot of the old one behind it
  have back : ∀ j q, Function.update pending i (some p') j = some q →
      ∃ q', pending j = some q' ∧ q'.req.Same q.req := by
    intro j q hq
    rcases slot_of_update hq with ⟨rfl, heq⟩ | ⟨-, hold⟩
    · obtain rfl := Option.some.inj heq
      exact ⟨p, hp, hsame⟩
    · exact ⟨q, hold, .refl _⟩
  refine ⟨fun j q hq => ?_, fun j k q q' hq hq' hid => ?_, h.handRow, fun req hreq j q hq => ?_,
    h.handUnique, fun r hr => (h.placed r hr).imp_left ?_⟩
  · obtain ⟨q', hq', hs⟩ := back j q hq
    obtain ⟨r, hr, hrs⟩ := h.slotRow j q' hq'
    exact ⟨r, hr, hrs.trans hs⟩
  · obtain ⟨x, hx, hxs⟩ := back j q hq
    obtain ⟨y, hy, hys⟩ := back k q' hq'
    exact h.slotUnique j k x y hx hy (hxs.caseId.trans (hid.trans hys.caseId.symm))
  · obtain ⟨q', hq', hs⟩ := back j q hq
    exact hs.caseId ▸ h.handSlot req hreq j q' hq'
  · rintro ⟨j, q, hq, hid⟩
    by_cases hj : j = i
    · subst hj
      obtain rfl := Option.some.inj (hp.symm.trans hq)
      exact ⟨j, p', Function.update_self .., hsame.caseId.symm.trans hid⟩
    · exact ⟨j, q, by rw [Function.update_of_ne hj, hq], hid⟩

/-- `db_consent_insert` of a request with a new id. -/
theorem file (h : Ledger t pending hand waived) (hnew : ∀ r ∈ t.rows, r.caseId ≠ req.caseId) :
    Ledger (t.insertOrReplace req) pending (req :: hand) waived := by
  have mem : ∀ r, r ∈ (t.insertOrReplace req).rows ↔ r ∈ t.rows ∨ r = req := by
    intro r
    rw [Sql.Table.mem_insertOrReplace]
    exact or_congr_left ⟨And.left, fun hr => ⟨hr, hnew r hr⟩⟩
  have row : ∀ x : ConsentRequest, (∃ r ∈ t.rows, r.Same x) → x.caseId ≠ req.caseId := by
    rintro x ⟨r, hr, hs⟩
    exact hs.caseId ▸ hnew r hr
  have keep : ∀ x : ConsentRequest, (∃ r ∈ t.rows, r.Same x) →
      ∃ r ∈ (t.insertOrReplace req).rows, r.Same x :=
    fun x ⟨r, hr, hs⟩ => ⟨r, (mem r).mpr (.inl hr), hs⟩
  refine ⟨fun i p hp => keep _ (h.slotRow i p hp), h.slotUnique, fun x hx => ?_, fun x hx => ?_, ?_,
    fun r hr => ?_⟩
  · rcases List.mem_cons.mp hx with rfl | hx
    · exact ⟨x, (mem x).mpr (.inr rfl), .refl x⟩
    · exact keep x (h.handRow x hx)
  · rcases List.mem_cons.mp hx with rfl | hx
    · exact fun i p hp => row p.req (h.slotRow i p hp)
    · exact h.handSlot x hx
  · refine List.nodup_cons.mpr ⟨fun hmem => ?_, h.handUnique⟩
    obtain ⟨x, hx, hid⟩ := List.mem_map.mp hmem
    exact row x (h.handRow x hx) hid
  · rcases (mem r).mp hr with hr | rfl
    · refine (h.placed r hr).imp_right (Or.imp_left ?_)
      rintro ⟨x, hx, hid⟩
      exact ⟨x, List.mem_cons_of_mem _ hx, hid⟩
    · exact .inr (.inl ⟨r, List.mem_cons_self, rfl⟩)

/-- `consent_enqueue` into a free slot. -/
theorem seat {i : Slot} (h : Ledger t pending (req :: hand) waived) (hi : pending i = none) :
    Ledger t (consentEnqueue pending i req) hand waived := by
  have back : ∀ j q, consentEnqueue pending i req j = some q →
      j = i ∧ q.req = req ∨ j ≠ i ∧ pending j = some q := by
    intro j q hq
    refine (slot_of_update hq).imp_left (And.imp_right fun heq => ?_)
    obtain rfl := Option.some.inj heq
    rfl
  have hreq : req ∈ req :: hand := List.mem_cons_self
  have hnodup := List.nodup_cons.mp h.handUnique
  refine ⟨fun j q hq => ?_, fun j k q q' hq hq' hid => ?_,
    fun x hx => h.handRow x (List.mem_cons_of_mem _ hx), fun x hx j q hq => ?_, hnodup.2,
    fun r hr => ?_⟩
  · rcases back j q hq with ⟨-, heq⟩ | ⟨-, hq⟩
    · exact heq ▸ h.handRow req hreq
    · exact h.slotRow j q hq
  · rcases back j q hq with ⟨hj, heq⟩ | ⟨-, hold⟩ <;>
      rcases back k q' hq' with ⟨hk, heq'⟩ | ⟨-, hold'⟩
    · exact hj.trans hk.symm
    -- a request in hand has no slot yet
    · exact absurd (heq ▸ hid.symm) (h.handSlot req hreq k q' hold')
    · exact absurd (heq' ▸ hid) (h.handSlot req hreq j q hold)
    · exact h.slotUnique j k q q' hold hold' hid
  · rcases back j q hq with ⟨-, heq⟩ | ⟨-, hq⟩
    · rw [heq]
      exact fun hid => hnodup.1 (hid ▸ List.mem_map_of_mem hx)
    · exact h.handSlot x (List.mem_cons_of_mem _ hx) j q hq
  · rcases h.placed r hr with ⟨j, q, hq, hid⟩ | ⟨x, hx, hid⟩ | hw
    · have hj : j ≠ i := by
        rintro rfl
        rw [hi] at hq
        cases hq
      exact .inl ⟨j, q, by rw [consentEnqueue, Function.update_of_ne hj, hq], hid⟩
    · rcases List.mem_cons.mp hx with rfl | hx
      · exact .inl ⟨i, _, Function.update_self .., hid⟩
      · exact .inr (.inl ⟨x, hx, hid⟩)
    · exact .inr (.inr hw)

/-- A request leaves the hand without a slot, and its row is waived. -/
theorem refuse (h : Ledger t pending (req :: hand) waived) (hw : waived req.caseId) :
    Ledger t pending hand waived where
  slotRow := h.slotRow
  slotUnique := h.slotUnique
  handRow := fun x hx => h.handRow x (List.mem_cons_of_mem _ hx)
  handSlot := fun x hx => h.handSlot x (List.mem_cons_of_mem _ hx)
  handUnique := (List.nodup_cons.mp h.handUnique).2
  placed := by
    intro r hr
    rcases h.placed r hr with hs | ⟨x, hx, hid⟩ | hr
    · exact .inl hs
    · rcases List.mem_cons.mp hx with rfl | hx
      · exact .inr (.inr (hid ▸ hw))
      · exact .inr (.inl ⟨x, hx, hid⟩)
    · exact .inr (.inr hr)

/-- `resolve_entry` gives a slot up and takes its request in hand. -/
theorem take {i : Slot} {p : Pending} (h : Ledger t pending hand waived) (hp : pending i = some p) :
    Ledger t (Function.update pending i none) (p.req :: hand) waived := by
  have back : ∀ j q, Function.update pending i none j = some q → j ≠ i ∧ pending j = some q :=
    fun j q hq => (slot_of_update hq).resolve_left fun ⟨_, hnone⟩ => by cases hnone
  refine ⟨fun j q hq => h.slotRow j q (back j q hq).2,
    fun j k q q' hq hq' => h.slotUnique j k q q' (back j q hq).2 (back k q' hq').2,
    fun x hx => ?_, fun x hx j q hq => ?_, ?_, fun r hr => ?_⟩
  · rcases List.mem_cons.mp hx with rfl | hx
    · exact h.slotRow i p hp
    · exact h.handRow x hx
  · obtain ⟨hj, hq⟩ := back j q hq
    rcases List.mem_cons.mp hx with rfl | hx
    · exact fun hid => hj (h.slotUnique j i q p hq hp hid)
    · exact h.handSlot x hx j q hq
  · refine List.nodup_cons.mpr ⟨fun hmem => ?_, h.handUnique⟩
    obtain ⟨x, hx, hid⟩ := List.mem_map.mp hmem
    exact h.handSlot x hx i p hp hid.symm
  · rcases h.placed r hr with ⟨j, q, hq, hid⟩ | ⟨x, hx, hid⟩ | hw
    · by_cases hj : j = i
      · subst hj
        obtain rfl := Option.some.inj (hp.symm.trans hq)
        exact .inr (.inl ⟨p.req, List.mem_cons_self, hid⟩)
      · exact .inl ⟨j, q, by rw [Function.update_of_ne hj, hq], hid⟩
    · exact .inr (.inl ⟨x, List.mem_cons_of_mem _ hx, hid⟩)
    · exact .inr (.inr hw)

/-- `db_consent_remove` of a request in hand. -/
theorem strike (h : Ledger t pending (req :: hand) waived) :
    Ledger (t.delete req.caseId) pending hand waived := by
  have hreq : req ∈ req :: hand := List.mem_cons_self
  have hnodup := List.nodup_cons.mp h.handUnique
  have keep : ∀ x : ConsentRequest, x.caseId ≠ req.caseId → (∃ r ∈ t.rows, r.Same x) →
      ∃ r ∈ (t.delete req.caseId).rows, r.Same x := by
    rintro x hne ⟨r, hr, hs⟩
    exact ⟨r, Sql.Table.mem_delete.mpr ⟨hr, hs.caseId.symm ▸ hne⟩, hs⟩
  refine ⟨fun i p hp => keep _ (h.handSlot req hreq i p hp) (h.slotRow i p hp), h.slotUnique,
    fun x hx => keep x (fun hid => ?_) (h.handRow x (List.mem_cons_of_mem _ hx)),
    fun x hx => h.handSlot x (List.mem_cons_of_mem _ hx), hnodup.2, fun r hr => ?_⟩
  · exact hnodup.1 (hid ▸ List.mem_map_of_mem hx)
  · obtain ⟨hr, hne⟩ := Sql.Table.mem_delete.mp hr
    rcases h.placed r hr with hs | ⟨x, hx, hid⟩ | hw
    · exact .inl hs
    · rcases List.mem_cons.mp hx with rfl | hx
      · exact absurd hid.symm hne
      · exact .inr (.inl ⟨x, hx, hid⟩)
    · exact .inr (.inr hw)

/-- The reload takes rows in hand; those it leaves out must be waived. -/
theorem reload {rows : List ConsentRequest} (hrows : ∀ r ∈ rows, r ∈ t.rows)
    (hnodup : (rows.map ConsentRequest.caseId).Nodup)
    (hrest : ∀ r ∈ t.rows, r ∈ rows ∨ waived r.caseId) : Ledger t .clear rows waived where
  slotRow := fun i p hp => by cases hp
  slotUnique := fun i j p q hp => by cases hp
  handRow := fun req hreq => ⟨req, hrows req hreq, .refl req⟩
  handSlot := fun req hreq i p hp => by cases hp
  handUnique := hnodup
  placed := fun r hr => .inr ((hrest r hr).imp_left fun h => ⟨r, h, rfl⟩)

/-- With nothing in hand, the two books agree up to the rows waived. -/
theorem settled (h : Ledger t pending [] waived) :
    (∀ i j p q, pending i = some p → pending j = some q → p.req.caseId = q.req.caseId → i = j) ∧
    (∀ i p, pending i = some p → ∃ r ∈ t.rows, r.Same p.req) ∧
    ∀ r ∈ t.rows, (∃ i p, pending i = some p ∧ r.Same p.req) ∨ waived r.caseId := by
  refine ⟨h.slotUnique, h.slotRow, fun r hr => ?_⟩
  rcases h.placed r hr with ⟨i, p, hp, hid⟩ | ⟨x, hx, -⟩ | hw
  · -- the slot has a row of this id, and ids are unique
    obtain ⟨r', hr', hs⟩ := h.slotRow i p hp
    obtain rfl : r' = r := t.eq_of_key hr' hr (hs.caseId.trans hid)
    exact .inl ⟨i, p, hp, hs⟩
  · cases hx
  · exact .inr hw

end Ledger

end MiuiserPeruser.Gaveld
