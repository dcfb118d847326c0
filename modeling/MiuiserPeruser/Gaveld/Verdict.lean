import MiuiserPeruser.Gaveld.Cases
import MiuiserPeruser.Gaveld.Consent
import MiuiserPeruser.Gaveld.Enforce

/-!
# gaveld — verdicts (`verdict.c`)

The parts of `verdict_process` and `verdict_emit` that compute: the
sovereignty cap, the two ethical floors, the routing of a capped state
and the rows and requests they write. The order in which the verdict
thread calls them, and what it reads in between, is in `Threads`.
-/

namespace MiuiserPeruser.Gaveld

/-- Sovereignty apps are capped at QUARANTINED. -/
def applySovereigntyCap (list : SovereigntyList) (source : String) (state : ThreatState) :
    ThreatState :=
  if ¬ tierIsSovereignty list source then state
  else match state with
    | .jailed | .houseArrest => .quarantined
    | s => s

/-- Where the 24 h window of `apply_floor_jailed` starts. -/
def sessionStart (now : Int) : Int := now - 24 * 3600

/-- `apply_floor_jailed` on a JAILED state, from its two counts. -/
def applyFloorJailed (priorHa priorQ : Nat) : ThreatState :=
  if priorHa = 0 ∧ priorQ = 0 then .houseArrest else .jailed

/-- `cutoff` of `floor_has_fresh_signal`. -/
def freshCutoff (now : Int) : Int := now - floorCleanSignalMaxAgeSec

/-! ## verdict_emit -/

/-- The arguments of one `verdict_emit` call. -/
structure Emission where
  caseId : String
  source : String
  verdict : Verdict
  score : ℚ
  consentRequired : Bool
  consentGranted : Bool
  deriving DecidableEq

/-- The row it inserts, with the ATT&CK entry of the source if there is one. -/
def Emission.row (e : Emission) (now : Int) : VerdictRow :=
  let m := mitreLookup e.source
  { caseId := e.caseId, source := e.source, verdict := e.verdict, score := e.score, epoch := now,
    consentRequired := e.consentRequired, consentGranted := e.consentGranted,
    mitreId := (m.map Prod.fst).getD "", mitreTactic := (m.map Prod.snd).getD "" }

/-- The row it adds to `criminal_record` for a containment verdict. -/
def Emission.criminalRow (e : Emission) (now : Int) : CriminalRow :=
  ⟨e.source, e.verdict, "verdict_thread", "gaveld", now⟩

/-- The emission of a case the verdict thread settles itself. -/
def CaseRecord.emission (c : CaseRecord) (verdict : Verdict) (granted : Bool) : Emission :=
  ⟨c.caseId, c.source, verdict, c.score, false, granted⟩

/-- The emission of a request the user has answered. -/
def ConsentRequest.emission (req : ConsentRequest) (approved : Bool) : Emission :=
  ⟨req.caseId, req.source, if approved then req.verdict else .consentDenied, req.score, true,
    approved⟩

/-! ## The consent request -/

/-- The timeout policy of `config.h`. -/
def consentTimeout (state : ThreatState) : Int :=
  match state with
  | .jailed => consentTimeoutJailed
  | .houseArrest => consentTimeoutHouseArrest
  | _ => consentTimeoutQuarantined

/-- The request for a case with its capped state. -/
def CaseRecord.request (c : CaseRecord) (state : ThreatState) (now : Int) : ConsentRequest :=
  { caseId := c.caseId, source := c.source, verdict := .state state, score := c.score,
    queued := now, timeoutSecs := consentTimeout state, timeoutAction := .hold }

theorem applyFloorJailed_jailed {ha q : Nat} (h : applyFloorJailed ha q = .jailed) :
    ha ≠ 0 ∨ q ≠ 0 := by
  unfold applyFloorJailed at h
  split at h
  · cases h
  · rename_i hn
    omega

/-- A capped sovereignty app is never above QUARANTINED. -/
theorem applySovereigntyCap_capped {list : SovereigntyList} {source : String}
    (h : tierIsSovereignty list source = true) (state : ThreatState) :
    applySovereigntyCap list source state ≠ .jailed ∧
      applySovereigntyCap list source state ≠ .houseArrest := by
  cases state <;> simp [applySovereigntyCap, h]

/-- The cap neither makes nor unmakes a WARNED state. -/
theorem applySovereigntyCap_warned {list : SovereigntyList} {source : String}
    {state : ThreatState} :
    applySovereigntyCap list source state = .warned ↔ state = .warned := by
  unfold applySovereigntyCap
  split
  · rfl
  · cases state <;> simp

end MiuiserPeruser.Gaveld
