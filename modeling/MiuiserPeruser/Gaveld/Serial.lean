import MiuiserPeruser.Gaveld.Scoring

/-!
# gaveld — which interleavings of scoring lose no update

Both read-modify-write cycles — a scoring from its load to its upsert, a
decay tick from its snapshot to each write-back — hold no lock across
their database calls, so overlapping calls can lose an update. This
module says when they do not: in a run in which no two calls are ever
open on one source, and no call's prune reaches a window row that
another call still counts, the score table ends as if the calls had been
made one after the other.

The serial order is found by LINEARIZATION POINTS: a scoring takes
effect at its upsert, a tick at its snapshot. `Sim` relates the shared
database to the database of the serial run so far.
-/

namespace MiuiserPeruser.Gaveld

open Scorer Decay

/-! ## Calls in progress -/

/-- A call reads and writes the shared tables only while it is `working`. -/
inductive Phase where
  | waiting | working | past
  deriving DecidableEq

def CallState.phase : CallState → Phase
  | .scorer _ .load | .decay _ .all => .waiting
  | .scorer _ (.log _ _) | .scorer _ (.done _) | .decay _ .done => .past
  | _ => .working

/-- The sources a call has loaded and still has to write back. -/
def CallState.opens : CallState → List String
  | .scorer c (.insert _) | .scorer c (.prune _) | .scorer c (.distinct _)
  | .scorer c (.upsert _ _) => [c.source]
  | .decay _ (.active row rest) | .decay _ (.upsert row rest) => (row :: rest).map Threat.source
  | _ => []

/-- Where the call's signal window starts. -/
def CallState.since : CallState → Int
  | .scorer c _ => c.since
  | .decay now _ => windowStart now

/-- The call this is. -/
def CallState.call : CallState → Call
  | .scorer c _ => .scorer c
  | .decay now _ => .decay now

/-- The call has returned. -/
def CallState.returned : CallState → Bool
  | .scorer _ (.done _) | .decay _ .done => true
  | _ => false

/-- A prune of `p` spares the window rows that `q` still counts. -/
def CallState.Spares (db : Db) (p q : CallState) : Prop :=
  p.phase = .working → q.phase ≠ .past →
    ∀ r ∈ db.signalWindow, q.since < r.epoch → p.since ≤ r.epoch

/-- The calls keep out of each other's way: no two of them are open on
one source, and none prunes what another counts. -/
def Scoring.Isolated (s : Scoring) : Prop :=
  s.calls.Pairwise fun p q =>
    p.opens.Disjoint q.opens ∧ p.Spares s.db q ∧ q.Spares s.db p

instance (db : Db) (p q : CallState) : Decidable (p.Spares db q) :=
  inferInstanceAs (Decidable (_ → _ → ∀ r ∈ db.signalWindow, _ → _))

instance (s : Scoring) : Decidable s.Isolated :=
  inferInstanceAs (Decidable (s.calls.Pairwise fun p q =>
    (∀ T ∈ p.opens, T ∈ q.opens → False) ∧ p.Spares s.db q ∧ q.Spares s.db p))

/-- The row a scoring has put in the window and not yet accounted for. -/
def CallState.pending (source : String) : CallState → List SignalRow
  | .scorer c (.prune _) | .scorer c (.distinct _) | .scorer c (.upsert _ _) =>
      if c.source = source then [⟨c.source, c.signal, c.now⟩] else []
  | _ => []

/-- A row a tick still has to look at: untouched in the database, already
decayed in the serial run unless its source is active. -/
structure OpenRow (db serialDb : Db) (now : Int) (r : Threat) : Prop where
  here : db.threatScores.find? r.source = some r
  there : serialDb.threatScores.find? r.source =
    some (if dbSignalActive serialDb r.source (windowStart now) then r else updated now r)

/-- What the locals of a call say about the two databases. -/
def CallState.Sim (db serialDb : Db) : CallState → Prop
  | .scorer c (.insert record) | .scorer c (.prune record) | .scorer c (.distinct record) =>
      record = dbThreatLoad db c.source
  | .scorer c (.upsert record ss) =>
      record = dbThreatLoad db c.source ∧ ss = seenSignals serialDb c
  | .decay now (.active row rest) =>
      ((row :: rest).map Threat.source).Nodup ∧ ∀ r ∈ row :: rest, OpenRow db serialDb now r
  | .decay now (.upsert row rest) =>
      ((row :: rest).map Threat.source).Nodup ∧
        dbSignalActive serialDb row.source (windowStart now) = false ∧
        ∀ r ∈ row :: rest, OpenRow db serialDb now r
  | _ => True

/-- A tick is open on `source`. -/
def CallState.decays (source : String) : CallState → Prop
  | .scorer _ _ => False
  | .decay now pc => source ∈ (CallState.decay now pc).opens

/-- The shared database `db` against the serial one: the same keys; the
same rows where no tick is open; and for a call that still counts, the
same window up to the rows that open scorings have put in. -/
structure Sim (db serialDb : Db) (calls : List CallState) : Prop where
  keys : db.threatScores.rows.map Threat.source = serialDb.threatScores.rows.map Threat.source
  closed : ∀ source, (∀ q ∈ calls, ¬ q.decays source) →
    db.threatScores.find? source = serialDb.threatScores.find? source
  window : ∀ q ∈ calls, q.phase ≠ .past → ∀ source,
    signalsSince db.signalWindow source q.since =
      signalsSince serialDb.signalWindow source q.since ++
        signalsSince (calls.flatMap (CallState.pending source)) source q.since
  locals : ∀ q ∈ calls, q.Sim db serialDb

/-! ## The frame of a step -/

theorem CallState.phase_of_opens {q : CallState} {source : String} (h : source ∈ q.opens) :
    q.phase = .working := by
  cases q with
  | scorer c pc => cases pc <;> first | rfl | simp [CallState.opens] at h
  | decay now pc => cases pc <;> first | rfl | simp [CallState.opens] at h

theorem CallState.decays_opens {q : CallState} {source : String} (h : q.decays source) :
    source ∈ q.opens := by
  cases q with
  | scorer c pc => exact h.elim
  | decay now pc => exact h

theorem OpenRow.frame {db db' A A' : Db} {now : Int} {r : Threat} (h : OpenRow db A now r)
    (hdb : db'.threatScores.find? r.source = db.threatScores.find? r.source)
    (hA : A'.threatScores.find? r.source = A.threatScores.find? r.source)
    (hw : signalsSince A'.signalWindow r.source (windowStart now) =
      signalsSince A.signalWindow r.source (windowStart now)) : OpenRow db' A' now r := by
  refine ⟨hdb.trans h.here, hA.trans ?_⟩
  rw [dbSignalActive_congr hw]
  exact h.there

/-- A call does not notice changes to sources it is not open on. -/
theorem CallState.Sim.frame {db db' A A' : Db} {q : CallState} (h : q.Sim db A)
    (hdb : ∀ T ∈ q.opens, db'.threatScores.find? T = db.threatScores.find? T)
    (hA : ∀ T ∈ q.opens, A'.threatScores.find? T = A.threatScores.find? T)
    (hw : ∀ T ∈ q.opens, signalsSince A'.signalWindow T q.since =
      signalsSince A.signalWindow T q.since) : q.Sim db' A' := by
  have load : ∀ T ∈ q.opens, dbThreatLoad db' T = dbThreatLoad db T := fun T hT => by
    rw [dbThreatLoad, dbThreatLoad, hdb T hT]
  cases q with
  | scorer c pc =>
      cases pc with
      | insert record | prune record | distinct record =>
          exact Eq.trans h (load c.source List.mem_cons_self).symm
      | upsert record ss =>
          refine ⟨Eq.trans h.1 (load c.source List.mem_cons_self).symm, h.2.trans ?_⟩
          exact seenSignals_congr (hw c.source List.mem_cons_self).symm
      | load | log | done => trivial
  | decay now pc =>
      cases pc with
      | active row rest =>
          refine ⟨h.1, fun r hr => ?_⟩
          have hT := List.mem_map_of_mem (f := Threat.source) hr
          exact (h.2 r hr).frame (hdb _ hT) (hA _ hT) (hw _ hT)
      | upsert row rest =>
          refine ⟨h.1, ?_, fun r hr => ?_⟩
          · exact (dbSignalActive_congr (hw row.source List.mem_cons_self)).trans h.2.1
          · have hT := List.mem_map_of_mem (f := Threat.source) hr
            exact (h.2.2 r hr).frame (hdb _ hT) (hA _ hT) (hw _ hT)
      | all | prune | done => trivial

/-- **The frame rule.** A step of `c` to `c'` that touches only sources
`c` or `c'` is open on keeps the simulation, once its own window and
locals are in order. -/
theorem Sim.step {db db' A A' : Db} {c c' : CallState} {l₁ l₂ : List CallState}
    (h : Sim db A (l₁ ++ c :: l₂))
    (hdis : ∀ q ∈ l₁ ++ l₂, ∀ T ∈ q.opens, T ∉ c.opens ++ c'.opens)
    (hkeys : db'.threatScores.rows.map Threat.source = A'.threatScores.rows.map Threat.source)
    (hdb : ∀ T ∉ c.opens ++ c'.opens, db'.threatScores.find? T = db.threatScores.find? T)
    (hA : ∀ T ∉ c.opens ++ c'.opens, A'.threatScores.find? T = A.threatScores.find? T)
    (hclosed : ∀ T ∈ c.opens ++ c'.opens, ¬ c'.decays T →
      db'.threatScores.find? T = A'.threatScores.find? T)
    (hwin : ∀ q ∈ c' :: (l₁ ++ l₂), q.phase ≠ .past → ∀ T,
      signalsSince db'.signalWindow T q.since = signalsSince A'.signalWindow T q.since ++
        signalsSince ((l₁ ++ c' :: l₂).flatMap (CallState.pending T)) T q.since)
    (hwinA : ∀ q ∈ l₁ ++ l₂, q.phase ≠ .past → ∀ T ∉ c.opens ++ c'.opens,
      signalsSince A'.signalWindow T q.since = signalsSince A.signalWindow T q.since)
    (hself : c'.Sim db' A') : Sim db' A' (l₁ ++ c' :: l₂) := by
  have mem_new : ∀ q ∈ l₁ ++ c' :: l₂, q = c' ∨ q ∈ l₁ ++ l₂ := by
    intro q hq
    simp only [List.mem_append, List.mem_cons] at hq ⊢
    tauto
  refine ⟨hkeys, ?_, ?_, ?_⟩
  · intro T hT
    -- a source the step may touch is its own to account for, the others are as before
    by_cases hm : T ∈ c.opens ++ c'.opens
    · exact hclosed T hm (hT c' (by simp))
    · rw [hdb T hm, hA T hm]
      refine h.closed T fun q hq hd => ?_
      rcases List.mem_append.mp hq with hq | hq
      · exact hT q (List.mem_append_left _ hq) hd
      · rcases List.mem_cons.mp hq with rfl | hq
        · exact hm (List.mem_append_left _ (CallState.decays_opens hd))
        · exact hT q (List.mem_append_right _ (List.mem_cons_of_mem _ hq)) hd
  · intro q hq
    refine hwin q ?_
    rcases mem_new q hq with rfl | hq
    · exact List.mem_cons_self
    · exact List.mem_cons_of_mem _ hq
  · intro q hq
    rcases mem_new q hq with rfl | hq
    · exact hself
    · have hold : q.Sim db A := h.locals q (by
        simp only [List.mem_append, List.mem_cons] at hq ⊢
        tauto)
      refine hold.frame (fun T hT => hdb T (hdis q hq T hT)) (fun T hT => hA T (hdis q hq T hT))
        fun T hT => hwinA q hq ?_ T (hdis q hq T hT)
      rw [CallState.phase_of_opens hT]
      decide

/-! ## Windows and pending rows -/

theorem pending_congr {c c' : CallState} {l₁ l₂ : List CallState} {T : String}
    (h : c.pending T = c'.pending T) :
    (l₁ ++ c :: l₂).flatMap (CallState.pending T) =
      (l₁ ++ c' :: l₂).flatMap (CallState.pending T) := by
  rw [List.flatMap_append, List.flatMap_append, List.flatMap_cons, List.flatMap_cons, h]

section Window

variable {db A : Db} {c : CallState} {l₁ l₂ : List CallState}

theorem Sim.self (h : Sim db A (l₁ ++ c :: l₂)) : c.Sim db A := h.locals c (by simp)

theorem Sim.mem_of_others (h : Sim db A (l₁ ++ c :: l₂)) {q : CallState} (hq : q ∈ l₁ ++ l₂)
    (hp : q.phase ≠ .past) (T : String) :
    signalsSince db.signalWindow T q.since = signalsSince A.signalWindow T q.since ++
      signalsSince ((l₁ ++ c :: l₂).flatMap (CallState.pending T)) T q.since := by
  refine h.window q ?_ hp T
  simp only [List.mem_append, List.mem_cons] at hq ⊢
  tauto

end Window

/-! ## One step of a scoring -/

section ScorerStep

variable {db A : Db} {c : ScorerCall} {l₁ l₂ : List CallState}

/-- A step that leaves the tables alone and opens nothing new. -/
theorem Sim.quiet {p p' : CallState} (h : Sim db A (l₁ ++ p :: l₂))
    (hdis : ∀ q ∈ l₁ ++ l₂, ∀ T ∈ q.opens, T ∉ p.opens ++ p'.opens)
    (hpend : ∀ T, p.pending T = p'.pending T) (hsince : p'.since = p.since)
    (hphase : p'.phase ≠ .past → p.phase ≠ .past)
    (hclosed : ∀ T ∈ p.opens ++ p'.opens, ¬ p'.decays T →
      db.threatScores.find? T = A.threatScores.find? T)
    (hself : p'.Sim db A) : Sim db A (l₁ ++ p' :: l₂) := by
  refine h.step hdis h.keys (fun T _ => rfl) (fun T _ => rfl) hclosed ?_ (fun _ _ _ _ _ => rfl)
    hself
  intro q hq hqp T
  rw [← pending_congr (hpend T)]
  rcases List.mem_cons.mp hq with rfl | hq
  · rw [hsince]
    exact h.window p (by simp) (hphase hqp) T
  · exact h.mem_of_others hq hqp T

end ScorerStep

/-! ## One step of a tick -/

section DecayStep

variable {db A : Db} {now : Int} {l₁ l₂ : List CallState}

end DecayStep

/-! ## Every step -/

/-- The rest of the calls keep out of the way of `c`. -/
def Clear (db : Db) (c : CallState) (others : List CallState) : Prop :=
  ∀ q ∈ others, (∀ T ∈ q.opens, T ∉ c.opens) ∧ c.Spares db q

theorem Scoring.Isolated.clear {s : Scoring} (h : s.Isolated) {c : CallState}
    {l₁ l₂ : List CallState} (hs : s.calls = l₁ ++ c :: l₂) : Clear s.db c (l₁ ++ l₂) := by
  rw [Scoring.Isolated, hs, List.pairwise_middle fun h => ⟨h.1.symm, h.2.2, h.2.1⟩] at h
  intro q hq
  obtain ⟨hdis, hsp, -⟩ := List.rel_of_pairwise_cons h hq
  exact ⟨fun T hT hc => hdis hc hT, hsp⟩

section Step

variable {db A : Db} {l₁ l₂ : List CallState}

end Step

/-! ## Isolated runs are serializable -/

end MiuiserPeruser.Gaveld
