import MiuiserPeruser.Gaveld.Db
import MiuiserPeruser.Gaveld.Tier

/-!
# gaveld — enforcement (`enforce.c`)

Which shell commands `enforce_execute` runs for a verdict. How a command
reaches the device (rish, adb or a direct shell) is chosen once at
startup and does not change which commands are run; the exit codes are
only logged.
-/

namespace MiuiserPeruser.Gaveld

/-- A command run on the device, for one source. -/
inductive Cmd where
  | amKill (source : String)
  | amForceStop (source : String)
  | pmDisableUser (source : String)
  deriving DecidableEq, Repr

/-- Sovereignty and system apps and the court's own daemons are never disabled. -/
def canDisableUser (list : SovereigntyList) (source : String) : Bool :=
  if tierIsSovereignty list source then false
  else if tierIsSystem source then false
  else if tierIsOwnDaemon source then false
  else true

/-- `enforce_execute`: the commands it runs, in order. -/
def enforceExecute (list : SovereigntyList) (source : String) (verdict : Verdict) : List Cmd :=
  match verdict with
  | .state .warned => [.amKill source]
  | .state .quarantined | .state .houseArrest => [.amForceStop source]
  | .state .jailed =>
      .amForceStop source :: if canDisableUser list source then [.pmDisableUser source] else []
  | _ => []

/-- Only a JAILED verdict disables, and only its own source. -/
theorem pmDisableUser_mem_enforceExecute {list : SovereigntyList} {source target : String}
    {verdict : Verdict} (h : .pmDisableUser target ∈ enforceExecute list source verdict) :
    verdict = .state .jailed ∧ target = source := by
  unfold enforceExecute at h
  split at h
  · simp at h
  · simp at h
  · simp at h
  · split at h <;> simp at h
    exact ⟨rfl, h⟩
  · simp at h

end MiuiserPeruser.Gaveld
