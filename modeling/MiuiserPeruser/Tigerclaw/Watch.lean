import MiuiserPeruser.Lib.History
import MiuiserPeruser.Lib.Run
import MiuiserPeruser.Tigerclaw.Admins
import MiuiserPeruser.Tigerclaw.Certs

/-!
# tigerclawd — what a poll reports (`tigerclawd.c`)

A process takes its baseline from the first poll that lists more than ten
services and can be saved, and compares every later poll with it: it is never
renewed, and never read back after a restart. Until then nothing counts as new,
although the admins are all printed as new.

The report has room for 16 anomalies, and what comes later is neither printed nor
sent. The admins come last: sixteen certificates that came or went hide a new
device admin from the court, though not from the trust score (`watch_exact`).
-/

namespace MiuiserPeruser.Tigerclaw

open CText Placed History Probe

/-! ## The checks -/

/-- The text of a section; nothing if it is not there. -/
def sectionText (p : ProbeState) (tag : String) : Option (List Char) := (probeSection p tag.toList).1

/-- `count_lines`. -/
def countLines (s : Option (List Char)) : Int := s.elim 0 fun s => s.count '\n'

/-- `bad`. -/
def bad : List String :=
  ["frida", "xposed", "inject", "magisk", "supersu", "substrate", "lspatch", "hook", "edxp", "taichi"]

/-- `check_suspicious_services`: the anomalies, and how many were found. -/
def checkSuspiciousServices (services : Option (List Char)) (as : List Anomaly) : List Anomaly × Nat :=
  bad.foldl (fun st name =>
    if services.any (holds name) then
      (addAnomaly st.1 "URGENT" "SUSPICIOUS_BINDER_SERVICE"
        (snprintf 128 ("Suspicious binder service: ".toList ++ name.toList)), st.2 + 1)
    else st) (as, 0)

/-- `check_selinux`, and whether it is enforcing. -/
def checkSelinux (p : ProbeState) (as : List Anomaly) : List Anomaly × Bool :=
  if (sectionText p "GETENFORCE").any (holds "Permissive") then
    (addAnomaly as "URGENT" "SELINUX_PERMISSIVE" "SELinux is PERMISSIVE".toList, false)
  else (as, true)

/-- A row of `checks`. -/
structure PropCheck where
  tag : String
  prop : String
  safe : String

def checks : List PropCheck :=
  [⟨"DEBUGGABLE", "ro.debuggable", "0"⟩, ⟨"SECURE", "ro.secure", "1"⟩, ⟨"BUILDTYPE", "ro.build.type", "user"⟩]

/-- A property that is set, and not to its safe value. -/
def PropCheck.wrong (p : ProbeState) (c : PropCheck) : Option (List Char) :=
  (sectionText p c.tag).filter fun v => v ≠ [] && v ≠ c.safe.toList

def PropCheck.message (c : PropCheck) (v : List Char) : List Char :=
  snprintf 256 (c.prop.toList ++ '=' :: v ++ " (expected ".toList ++ c.safe.toList ++ [')'])

/-- `check_debug_props`, and whether they are clean. -/
def checkDebugProps (p : ProbeState) (as : List Anomaly) : List Anomaly × Bool :=
  checks.foldl (fun st c =>
    match c.wrong p with
    | some v => (addAnomaly st.1 "URGENT" "DEBUG_PROP_ANOMALY" (c.message v), false)
    | none => st) (as, true)

/-- `check_security_center`, and whether it is running. -/
def checkSecurityCenter (p : ProbeState) (as : List Anomaly) : List Anomaly × Bool :=
  if !(sectionText p "SECCENTERPATH").any (holds "package:") then
    (addAnomaly as "WARNING" "SECURITY_CENTER_MISSING" "MIUI Security Center not installed".toList, false)
  else if !(sectionText p "SECCENTERCOUNT").any (0 < atoi ·) then
    (addAnomaly as "WARNING" "SECURITY_CENTER_DOWN"
      "MIUI Security Center installed but not running".toList, false)
  else (as, true)

/-- `dev_opts` and `adb_net`. -/
def devOpts (p : ProbeState) : Bool := (sectionText p "DEBUGGABLE").any fun v => v ≠ [] && v ≠ ['0']

def adbNet (p : ProbeState) : Bool := (sectionText p "ADBTCP").any (0 < atoi ·)

/-- `check_dev_state`; `adb_enabled` is not used. -/
def checkDevState (p : ProbeState) (as : List Anomaly) : List Anomaly :=
  let as := if devOpts p then
      addAnomaly as "WARNING" "DEV_OPTIONS_ENABLED" "Developer options enabled".toList
    else as
  if adbNet p then addAnomaly as "WARNING" "ADB_OVER_NETWORK" "ADB over network enabled".toList else as

/-- `selinux_mode`. -/
def selinuxMode (p : ProbeState) : List Char :=
  (sectionText p "GETENFORCE").elim "unknown".toList (snprintf 16)

/-! ## A poll -/

/-- What a poll reads: the probe that `load_probe_data` leaves, the hash of the properties,
and what `save_baseline` meets. -/
structure PollInput where
  probe : ProbeState
  propHash : Int
  env : Surroundings

/-- What a poll finds. -/
structure Found where
  report : Report
  suspiciousServices : Nat
  svcDrift : Int
  propDrift : Bool
  trustScore : Int

/-- `%+d`. -/
def formatPlusD (n : Int) : List Char := if n < 0 then formatD n else '+' :: formatD n

def driftMessage (baselineSvc svcCount : Int) : List Char :=
  snprintf 128 ("Binder drift: ".toList ++ formatPlusD (svcCount - baselineSvc) ++ " services (baseline ".toList ++
    formatD baselineSvc ++ ", now ".toList ++ formatD svcCount ++ [')'])

/-- `calc_trust_score`. -/
def calcTrustScore (p : ProbeState) (suspiciousServices : Nat) (d : Delta) : Int :=
  let score : Int := 100
  let score := if !holds "enforcing" (selinuxMode p) && !holds "Enforcing" (selinuxMode p) then score - 25 else score
  let score := score - suspiciousServices * 15
  let score := score - d.certDeltaNew * 5
  let score := score - d.certDeltaRemoved * 3
  let score := score - d.adminDeltaNew * 10
  if score < 0 then 0 else score

/-- The anomalies that no baseline is needed for, and the values of the checks. -/
structure Status where
  anomalies : List Anomaly
  suspiciousServices : Nat
  selinux : Bool
  debugClean : Bool
  scRunning : Bool

/-- The core probes. -/
def checkStatus (p : ProbeState) : Status :=
  let suspicious := checkSuspiciousServices (sectionText p "SVCLIST") []
  let selinux := checkSelinux p suspicious.1
  let debug := checkDebugProps p selinux.1
  let center := checkSecurityCenter p debug.1
  { anomalies := checkDevState p center.1
    suspiciousServices := suspicious.2
    selinux := selinux.2
    debugClean := debug.2
    scRunning := center.2 }

/-- `svc_drift`. -/
def svcDriftOf (g : Baseline) (svcCount : Int) : Int :=
  if g.established ∧ 0 < svcCount then svcCount - g.svc else 0

/-- `prop_drift`. -/
def propDriftOf (g : Baseline) (propHash : Int) : Bool :=
  g.established && propHash ≠ g.propHash && g.propHash ≠ 0

/-- The comparison of the counts and of the hash. -/
def checkDrift (g : Baseline) (svcCount propHash : Int) (as : List Anomaly) : List Anomaly :=
  let as := if 5 < (svcDriftOf g svcCount).natAbs then
      addAnomaly as "WARNING" "BINDER_TOPOLOGY_DRIFT" (driftMessage g.svc svcCount)
    else as
  if propDriftOf g propHash then
    addAnomaly as "WARNING" "PROP_HASH_DRIFT" "Read-only property set changed".toList
  else as

/-- The report, up to the deltas. -/
def reportOf (p : ProbeState) (svcCount : Int) (as : List Anomaly) : Report :=
  let rpt : Report := ⟨svcCount, [], [], ⟨0, 0, 0, as⟩, no_certs_fit, Nat.zero_le _⟩
  probeAdmins (sectionText p "DEVICEPOLICY") (probeCerts p rpt).1

/-- `trust_score`, in `main`. -/
def trustScoreOf (p : ProbeState) (st : Status) (d : Delta) : Int :=
  let trust := calcTrustScore p st.suspiciousServices d
  let trust := if !st.selinux then trust - 25 else trust
  let trust := if !st.debugClean then trust - 20 else trust
  let trust := if !st.scRunning then trust - 15 else trust
  let trust := if devOpts p then trust - 10 else trust
  let trust := if adbNet p then trust - 10 else trust
  if trust < 0 then 0 else trust

/-- A pass of the loop of `main`, up to the score. -/
def pollFinds (g : Baseline) (i : PollInput) : Found :=
  let svcCount := countLines (sectionText i.probe "SVCLIST")
  let st := checkStatus i.probe
  let rpt := computeDelta g (reportOf i.probe svcCount (checkDrift g svcCount i.propHash st.anomalies))
  { report := rpt
    suspiciousServices := st.suspiciousServices
    svcDrift := svcDriftOf g svcCount
    propDrift := propDriftOf g i.propHash
    trustScore := trustScoreOf i.probe st rpt.delta }

/-! ## The processes -/

/-- The file, and the globals of the process. -/
structure Daemon where
  file : Option (List Char)
  globals : Baseline

/-- Before the first process. -/
def Daemon.installed : Daemon := ⟨none, .zero⟩

/-- What can happen: a process starts, or goes through its loop. -/
inductive Step where
  | start
  | poll (i : PollInput)

inductive Event where
  | started
  | polled (i : PollInput) (found : Found)

def daemonStep (st : Daemon) : Step → Daemon × List Event
  | .start => (⟨st.file, loadBaseline st.file .zero⟩, [.started])
  | .poll i =>
      let found := pollFinds st.globals i
      let saved := if !st.globals.established ∧ 10 < found.report.svcCount then
          saveBaseline i.env st.file st.globals found.report
        else (st.file, st.globals)
      (⟨saved.1, saved.2⟩, [.polled i found])

/-- A run of processes, one after the other. -/
def daemonRun (steps : List Step) : Daemon × List Event := Machine.run daemonStep .installed steps

/-! ## What is due -/

/-- An anomaly, as it is kept. -/
def Anomaly.of (type code : String) (detail : List Char) : Anomaly :=
  ⟨type.toList.take 15, code.toList.take 31, detail.take 255⟩

/-- The suspicious services. -/
def foundServices (services : Option (List Char)) (names : List String) : List String :=
  names.filter fun name => services.any (holds name)

def serviceDue (name : String) : Anomaly :=
  .of "URGENT" "SUSPICIOUS_BINDER_SERVICE" (snprintf 128 ("Suspicious binder service: ".toList ++ name.toList))

def permissive (p : ProbeState) : Bool := (sectionText p "GETENFORCE").any (holds "Permissive")

def selinuxDue (p : ProbeState) : List Anomaly :=
  if permissive p then [.of "URGENT" "SELINUX_PERMISSIVE" "SELinux is PERMISSIVE".toList] else []

/-- The properties that are wrong, with their values. -/
def wrongProps (p : ProbeState) (cs : List PropCheck) : List (PropCheck × List Char) :=
  cs.filterMap fun c => (c.wrong p).map (c, ·)

def propDue (c : PropCheck × List Char) : Anomaly := .of "URGENT" "DEBUG_PROP_ANOMALY" (c.1.message c.2)

def centerInstalled (p : ProbeState) : Bool := (sectionText p "SECCENTERPATH").any (holds "package:")

def centerRunning (p : ProbeState) : Bool := (sectionText p "SECCENTERCOUNT").any (0 < atoi ·)

def centerDue (p : ProbeState) : List Anomaly :=
  if !centerInstalled p then
    [.of "WARNING" "SECURITY_CENTER_MISSING" "MIUI Security Center not installed".toList]
  else if !centerRunning p then
    [.of "WARNING" "SECURITY_CENTER_DOWN" "MIUI Security Center installed but not running".toList]
  else []

def devDue (p : ProbeState) : List Anomaly :=
  (if devOpts p then [.of "WARNING" "DEV_OPTIONS_ENABLED" "Developer options enabled".toList] else []) ++
    if adbNet p then [.of "WARNING" "ADB_OVER_NETWORK" "ADB over network enabled".toList] else []

/-- The anomalies of the device as it is. -/
def statusDue (p : ProbeState) : List Anomaly :=
  (foundServices (sectionText p "SVCLIST") bad).map serviceDue ++ selinuxDue p ++
    (wrongProps p checks).map propDue ++ centerDue p ++ devDue p

section Checks

theorem addAnomaly_take (l : List Anomaly) (type code : String) (detail : List Char) :
    addAnomaly (l.take maxAnomalies) type code detail =
      (l ++ [Anomaly.of type code detail]).take maxAnomalies := by
  rw [← push_take, push, addAnomaly]
  by_cases hfull : maxAnomalies ≤ (l.take maxAnomalies).length
  · rw [if_pos hfull, if_neg (not_lt.mpr hfull)]
  · rw [if_neg hfull, if_pos (not_le.mp hfull)]
    rfl

theorem checkSuspiciousServices_take (services : Option (List Char)) (l : List Anomaly) :
    checkSuspiciousServices services (l.take maxAnomalies) =
      ((l ++ (foundServices services bad).map serviceDue).take maxAnomalies,
        (foundServices services bad).length) := by
  have hloop : ∀ (names : List String) (l : List Anomaly) (n : Nat),
      names.foldl (fun st name =>
          if services.any (holds name) then
            (addAnomaly st.1 "URGENT" "SUSPICIOUS_BINDER_SERVICE"
              (snprintf 128 ("Suspicious binder service: ".toList ++ name.toList)), st.2 + 1)
          else st) (l.take maxAnomalies, n) =
        ((l ++ (foundServices services names).map serviceDue).take maxAnomalies,
          n + (foundServices services names).length) := by
    intro names
    induction names with
    | nil =>
        intro l n
        show (l.take maxAnomalies, n) = ((l ++ []).take maxAnomalies, n)
        rw [List.append_nil]
    | cons name names ih =>
        intro l n
        rw [List.foldl_cons]
        by_cases hname : services.any (holds name) = true
        · have hfound : foundServices services (name :: names) = name :: foundServices services names :=
            List.filter_cons_of_pos hname
          rw [if_pos hname, addAnomaly_take, ih, hfound, List.map_cons, List.append_assoc,
            List.singleton_append, List.length_cons, Nat.add_assoc, Nat.add_comm 1]
          rfl
        · have hnot : foundServices services (name :: names) = foundServices services names :=
            List.filter_cons_of_neg hname
          rw [if_neg hname, ih, hnot]
  rw [checkSuspiciousServices, hloop, Nat.zero_add]

theorem checkSelinux_take (p : ProbeState) (l : List Anomaly) :
    checkSelinux p (l.take maxAnomalies) = ((l ++ selinuxDue p).take maxAnomalies, !permissive p) := by
  rw [checkSelinux, ← permissive, selinuxDue]
  cases permissive p with
  | true => exact congrArg (·, false) (addAnomaly_take _ _ _ _)
  | false => exact congrArg (fun l => (l.take maxAnomalies, true)) (List.append_nil l).symm

theorem checkDebugProps_take (p : ProbeState) (l : List Anomaly) :
    checkDebugProps p (l.take maxAnomalies) =
      ((l ++ (wrongProps p checks).map propDue).take maxAnomalies, (wrongProps p checks).isEmpty) := by
  have hloop : ∀ (cs : List PropCheck) (l : List Anomaly) (clean : Bool),
      cs.foldl (fun st c =>
          match c.wrong p with
          | some v => (addAnomaly st.1 "URGENT" "DEBUG_PROP_ANOMALY" (c.message v), false)
          | none => st) (l.take maxAnomalies, clean) =
        ((l ++ (wrongProps p cs).map propDue).take maxAnomalies, clean && (wrongProps p cs).isEmpty) := by
    intro cs
    induction cs with
    | nil =>
        intro l clean
        show (l.take maxAnomalies, clean) = ((l ++ []).take maxAnomalies, clean && true)
        rw [List.append_nil, Bool.and_true]
    | cons c cs ih =>
        intro l clean
        rw [List.foldl_cons]
        cases hwrong : c.wrong p with
        | none =>
            have hnone : wrongProps p (c :: cs) = wrongProps p cs :=
              List.filterMap_cons_none (by rw [hwrong]; rfl)
            rw [hnone]
            exact ih l clean
        | some v =>
            have hsome : wrongProps p (c :: cs) = (c, v) :: wrongProps p cs :=
              List.filterMap_cons_some (by rw [hwrong]; rfl)
            show cs.foldl _ (addAnomaly (l.take maxAnomalies) _ _ _, false) = _
            rw [hsome, addAnomaly_take, ih, List.map_cons, List.append_assoc, List.singleton_append,
              List.isEmpty_cons, Bool.and_false, Bool.false_and]
            rfl
  rw [checkDebugProps, hloop, Bool.true_and]

theorem checkSecurityCenter_take (p : ProbeState) (l : List Anomaly) :
    checkSecurityCenter p (l.take maxAnomalies) =
      ((l ++ centerDue p).take maxAnomalies, centerInstalled p && centerRunning p) := by
  rw [checkSecurityCenter, ← centerInstalled, ← centerRunning, centerDue]
  cases centerInstalled p with
  | false => exact congrArg (·, false) (addAnomaly_take _ _ _ _)
  | true =>
      cases centerRunning p with
      | false => exact congrArg (·, false) (addAnomaly_take _ _ _ _)
      | true => exact congrArg (fun l => (l.take maxAnomalies, true)) (List.append_nil l).symm

theorem checkDevState_take (p : ProbeState) (l : List Anomaly) :
    checkDevState p (l.take maxAnomalies) = (l ++ devDue p).take maxAnomalies := by
  unfold checkDevState devDue
  rw [← List.append_assoc]
  have hdev : (if devOpts p then
        addAnomaly (l.take maxAnomalies) "WARNING" "DEV_OPTIONS_ENABLED" "Developer options enabled".toList
      else l.take maxAnomalies) =
      (l ++ if devOpts p then [Anomaly.of "WARNING" "DEV_OPTIONS_ENABLED" "Developer options enabled".toList]
        else []).take maxAnomalies := by
    cases devOpts p with
    | true => exact addAnomaly_take _ _ _ _
    | false => exact congrArg (List.take maxAnomalies) (List.append_nil l).symm
  rw [hdev]
  cases adbNet p with
  | true => exact addAnomaly_take _ _ _ _
  | false => exact congrArg (List.take maxAnomalies) (List.append_nil _).symm

/-- **The checks** report what is due, as far as there is room. -/
theorem checkStatus_eq (p : ProbeState) :
    checkStatus p =
      { anomalies := (statusDue p).take maxAnomalies
        suspiciousServices := (foundServices (sectionText p "SVCLIST") bad).length
        selinux := !permissive p
        debugClean := (wrongProps p checks).isEmpty
        scRunning := centerInstalled p && centerRunning p } := by
  have hservices := checkSuspiciousServices_take (sectionText p "SVCLIST") []
  rw [List.take_nil, List.nil_append] at hservices
  unfold checkStatus statusDue
  rw [hservices]
  simp only [checkSelinux_take, checkDebugProps_take, checkSecurityCenter_take, checkDevState_take]

end Checks

/-! ## What is new -/

/-- The poll a baseline is of. -/
abbrev Base := PollInput × Found

/-- The certificates of a probe. -/
def certsOf (p : ProbeState) : List CertEntry := (probeCerts p noReport).1.certs

/-- The admins of a probe. -/
def adminsOf (p : ProbeState) : List AdminEntry := scanAdmins (sectionText p "DEVICEPOLICY")

def svcCountOf (p : ProbeState) : Int := countLines (sectionText p "SVCLIST")

def certNew (b : Base) (c : CertEntry) : Bool := !b.2.report.certs.any (sameCert c)

def adminNew (b : Base) (a : AdminEntry) : Bool := !b.2.report.admins.any (sameAdmin a)

def newCerts (b : Option Base) (p : ProbeState) : List CertEntry :=
  b.elim [] fun b => (certsOf p).filter (certNew b)

def goneCerts (b : Option Base) (p : ProbeState) : List CertEntry :=
  b.elim [] fun b => b.2.report.certs.filter fun c => !(certsOf p).any (sameCert c)

def newAdmins (b : Option Base) (p : ProbeState) : List AdminEntry :=
  b.elim [] fun b => (adminsOf p).filter (adminNew b)

def driftOf (b : Option Base) (p : ProbeState) : Int :=
  b.elim 0 fun b => if 0 < svcCountOf p then svcCountOf p - b.2.report.svcCount else 0

def hashChanged (b : Option Base) (propHash : Int) : Bool :=
  b.any fun b => propHash ≠ b.1.env.keptHash && b.1.env.keptHash ≠ 0

def driftDue (b : Option Base) (p : ProbeState) : List Anomaly :=
  if 5 < (driftOf b p).natAbs then
    [.of "WARNING" "BINDER_TOPOLOGY_DRIFT"
      (driftMessage (b.elim 0 fun b => b.2.report.svcCount) (svcCountOf p))]
  else []

def hashDue (b : Option Base) (propHash : Int) : List Anomaly :=
  if hashChanged b propHash then
    [.of "WARNING" "PROP_HASH_DRIFT" "Read-only property set changed".toList]
  else []

def certDue (what : String) (c : CertEntry) : Anomaly :=
  .of "WARNING" "CERT_STORE_DELTA" (certMessage what c)

def adminDue (a : AdminEntry) : Anomaly := .of "URGENT" "DEVICE_ADMIN_NEW" (adminMessage a)

/-- All anomalies of a poll, in the order of the checks. -/
def due (b : Option Base) (i : PollInput) : List Anomaly :=
  statusDue i.probe ++ driftDue b i.probe ++ hashDue b i.propHash ++
    (newCerts b i.probe).map (certDue "New") ++ (goneCerts b i.probe).map (certDue "Removed") ++
    (newAdmins b i.probe).map adminDue

/-- What is lost for a condition. -/
def loss (c : Bool) (points : Int) : Int := if c then points else 0

/-- What the score loses. -/
def penalties (b : Option Base) (p : ProbeState) : Int :=
  loss (!holds "enforcing" (selinuxMode p) && !holds "Enforcing" (selinuxMode p)) 25 +
    15 * (foundServices (sectionText p "SVCLIST") bad).length + 5 * (newCerts b p).length +
    3 * (goneCerts b p).length + 10 * (newAdmins b p).length + loss (permissive p) 25 +
    loss (!(wrongProps p checks).isEmpty) 20 + loss (!(centerInstalled p && centerRunning p)) 15 +
    loss (devOpts p) 10 + loss (adbNet p) 10

/-- A poll finds what is there, compared with the baseline. -/
structure PollExact (b : Option Base) (i : PollInput) (f : Found) : Prop where
  certs : f.report.certs = b.elim (certsOf i.probe) fun b =>
    (certsOf i.probe).map fun c => { c with isNew := certNew b c }
  admins : f.report.admins = b.elim (adminsOf i.probe) fun b =>
    (adminsOf i.probe).map fun a => { a with isNew := adminNew b a }
  counts : f.report.svcCount = svcCountOf i.probe ∧
    f.report.delta.certDeltaNew = (newCerts b i.probe).length ∧
    f.report.delta.certDeltaRemoved = (goneCerts b i.probe).length ∧
    f.report.delta.adminDeltaNew = (newAdmins b i.probe).length
  drifts : f.svcDrift = driftOf b i.probe ∧ f.propDrift = hashChanged b i.propHash
  anomalies : f.report.delta.anomalies = (due b i).take maxAnomalies
  trust : f.trustScore = max 0 (100 - penalties b i.probe)

/-- The globals hold the baseline. -/
structure KeepsBase (g : Baseline) (b : Option Base) : Prop where
  established : g.established = b.isSome
  kept : ∀ base, b = some base → g.svc = base.2.report.svcCount ∧ g.propHash = base.1.env.keptHash ∧
    g.certList = base.2.report.certs ∧ g.adminList = base.2.report.admins

section Poll

variable {g : Baseline} {b : Option Base} {i : PollInput} {p : ProbeState} {rpt : Report} {l : List Anomaly}

theorem foldl_certLine_keeps (isSystem : Bool) (tokens : List (List Char)) (rpt : Report) :
    (tokens.foldl (certLine isSystem) rpt).delta = rpt.delta ∧
      (tokens.foldl (certLine isSystem) rpt).svcCount = rpt.svcCount := by
  induction tokens generalizing rpt with
  | nil => exact ⟨rfl, rfl⟩
  | cons line tokens ih =>
      have hline : (certLine isSystem rpt line).delta = rpt.delta ∧
          (certLine isSystem rpt line).svcCount = rpt.svcCount := by
        unfold certLine
        split
        · split
          all_goals exact ⟨rfl, rfl⟩
        · exact ⟨rfl, rfl⟩
      rw [List.foldl_cons, (ih _).1, (ih _).2]
      exact hline

/-- What a section adds is the same for every report with the same certificates. -/
theorem parseCertSection_spec (raw : Option (List Char)) (isSystem : Bool) (rpt rpt' : Report)
    (h : rpt.certs = rpt'.certs) :
    (parseCertSection raw isSystem rpt).certs = (parseCertSection raw isSystem rpt').certs ∧
      (parseCertSection raw isSystem rpt).delta = rpt.delta ∧
      (parseCertSection raw isSystem rpt).svcCount = rpt.svcCount := by
  match raw with
  | none | some [] => exact ⟨h, rfl, rfl⟩
  | some (c :: raw) =>
      refine ⟨?_, foldl_certLine_keeps _ _ _⟩
      unfold parseCertSection
      rw [foldl_certLine, foldl_certLine, h]

theorem probeCerts_spec (p : ProbeState) (rpt : Report) :
    (probeCerts p rpt).1.certs = certsOf p ∧
      (probeCerts p rpt).1.delta = { rpt.delta with certDeltaNew := 0, certDeltaRemoved := 0 } ∧
      (probeCerts p rpt).1.svcCount = rpt.svcCount := by
  have hsystem := parseCertSection_spec (sectionText p "SYSCERTS") true
    { rpt with
      certs := []
      certs_fit := no_certs_fit
      delta := { rpt.delta with certDeltaNew := 0, certDeltaRemoved := 0 } } noReport rfl
  have huser := parseCertSection_spec
    (probeSection (probeSection p "SYSCERTS".toList).2 "USERCERTS".toList).1 false _ _ hsystem.1
  exact ⟨huser.1, huser.2.1.trans hsystem.2.1, huser.2.2.trans hsystem.2.2⟩

/-- The report, before the deltas. -/
theorem reportOf_spec (p : ProbeState) (svcCount : Int) (as : List Anomaly) :
    (reportOf p svcCount as).certs = certsOf p ∧ (reportOf p svcCount as).admins = adminsOf p ∧
      (reportOf p svcCount as).svcCount = svcCount ∧ (reportOf p svcCount as).delta = ⟨0, 0, 0, as⟩ := by
  obtain ⟨hcerts, hdelta, hsvc⟩ :=
    probeCerts_spec p ⟨svcCount, [], [], ⟨0, 0, 0, as⟩, no_certs_fit, Nat.zero_le _⟩
  refine ⟨hcerts, rfl, hsvc, ?_⟩
  show { (probeCerts p _).1.delta with adminDeltaNew := 0 } = _
  rw [hdelta]

theorem driftOf_eq (h : KeepsBase g b) (p : ProbeState) : svcDriftOf g (svcCountOf p) = driftOf b p := by
  unfold svcDriftOf driftOf
  cases b with
  | none => simp [h.established]
  | some base => simp [h.established, (h.kept base rfl).1]

theorem hashChanged_eq (h : KeepsBase g b) (hash : Int) : propDriftOf g hash = hashChanged b hash := by
  unfold propDriftOf hashChanged
  cases b with
  | none => simp [h.established]
  | some base => simp [h.established, (h.kept base rfl).2.1]

/-- What `checkDrift` adds. -/
theorem checkDrift_take (h : KeepsBase g b) (p : ProbeState) (hash : Int) (l : List Anomaly) :
    checkDrift g (svcCountOf p) hash (l.take maxAnomalies) =
      (l ++ driftDue b p ++ hashDue b hash).take maxAnomalies := by
  have hdrift : (if 5 < (driftOf b p).natAbs then
        addAnomaly (l.take maxAnomalies) "WARNING" "BINDER_TOPOLOGY_DRIFT" (driftMessage g.svc (svcCountOf p))
      else l.take maxAnomalies) = (l ++ driftDue b p).take maxAnomalies := by
    unfold driftDue
    by_cases hfar : 5 < (driftOf b p).natAbs
    · have hsvc : g.svc = b.elim 0 fun b => b.2.report.svcCount := by
        cases b with
        | none =>
            have hnone : driftOf none p = 0 := rfl
            rw [hnone] at hfar
            exact absurd hfar (by decide)
        | some base => exact (h.kept base rfl).1
      rw [if_pos hfar, if_pos hfar, addAnomaly_take, hsvc]
    · rw [if_neg hfar, if_neg hfar, List.append_nil]
  unfold checkDrift hashDue
  rw [driftOf_eq h, hashChanged_eq h, hdrift]
  cases hashChanged b hash with
  | true => exact addAnomaly_take _ _ _ _
  | false => exact congrArg (List.take maxAnomalies) (List.append_nil _).symm

/-- A loop of `compute_delta` reports what it misses, as far as there is room. -/
theorem missing_anomalies {α : Type} (same : α → α → Bool) (others : List α) (report : Delta → α → Delta)
    (note : α → Anomaly)
    (hreport : ∀ d l x, d.anomalies = l.take maxAnomalies →
      (report d x).anomalies = (l ++ [note x]).take maxAnomalies)
    (entries : List α) {d : Delta} (hd : d.anomalies = l.take maxAnomalies) :
    (missing same others report entries d).anomalies =
      (l ++ (entries.filter fun x => !others.any (same x)).map note).take maxAnomalies := by
  induction entries generalizing d l with
  | nil =>
      rw [List.filter_nil, List.map_nil, List.append_nil]
      exact hd
  | cons x entries ih =>
      show (missing same others report entries (if others.any (same x) then d else report d x)).anomalies = _
      by_cases hx : others.any (same x) = true
      · rw [if_pos hx, ih hd, List.filter_cons_of_neg (by rw [hx]; decide)]
      · rw [if_neg hx, ih (hreport d l x hd), List.filter_cons_of_pos (by rw [Bool.eq_false_iff.mpr hx]; rfl),
          List.map_cons, List.append_assoc, List.singleton_append]

theorem computeDelta_anomalies (hg : g.established = true) (hd : rpt.delta.anomalies = l.take maxAnomalies) :
    (computeDelta g rpt).delta.anomalies =
      (l ++ (rpt.certs.filter fun c => !g.certList.any (sameCert c)).map (certDue "New") ++
        (g.certList.filter fun c => !rpt.certs.any (sameCert c)).map (certDue "Removed") ++
        (rpt.admins.filter fun a => !g.adminList.any (sameAdmin a)).map adminDue).take maxAnomalies := by
  have hnote : ∀ (d : Delta) (l : List Anomaly) (type code : String) (detail : List Char),
      d.anomalies = l.take maxAnomalies → addAnomaly d.anomalies type code detail =
        (l ++ [Anomaly.of type code detail]).take maxAnomalies := by
    intro d l type code detail h
    rw [h, addAnomaly_take]
  have hnew := missing_anomalies sameCert g.certList Delta.newCert (certDue "New")
    (fun d l c h => hnote d l _ _ _ h) rpt.certs hd
  have hgone := missing_anomalies sameCert rpt.certs Delta.removedCert (certDue "Removed")
    (fun d l c h => hnote d l _ _ _ h) g.certList hnew
  simp only [computeDelta, hg, Bool.not_true, Bool.false_eq_true, if_false]
  exact missing_anomalies sameAdmin g.adminList Delta.newAdmin adminDue
    (fun d l a h => hnote d l _ _ _ h) rpt.admins hgone

theorem loss_nonneg (c : Bool) {points : Int} (h : 0 ≤ points) : 0 ≤ loss c points := by
  unfold loss
  split
  · exact h
  · exact le_refl 0

theorem sub_loss (c : Bool) (n points : Int) : (if c then n - points else n) = n - loss c points := by
  cases c with
  | true => rfl
  | false => exact (sub_zero n).symm

/-- The score is cut off at zero twice, which is as good as once. -/
theorem trustScoreOf_eq {d : Delta} (hnew : d.certDeltaNew = (newCerts b p).length)
    (hgone : d.certDeltaRemoved = (goneCerts b p).length) (hadmin : d.adminDeltaNew = (newAdmins b p).length) :
    trustScoreOf p (checkStatus p) d = max 0 (100 - penalties b p) := by
  have hpermissive := loss_nonneg (permissive p) (show (0 : Int) ≤ 25 by decide)
  have hprops := loss_nonneg (!(wrongProps p checks).isEmpty) (show (0 : Int) ≤ 20 by decide)
  have hcenter := loss_nonneg (!(centerInstalled p && centerRunning p)) (show (0 : Int) ≤ 15 by decide)
  have hdev := loss_nonneg (devOpts p) (show (0 : Int) ≤ 10 by decide)
  have hadb := loss_nonneg (adbNet p) (show (0 : Int) ≤ 10 by decide)
  rw [checkStatus_eq]
  simp only [trustScoreOf, calcTrustScore, sub_loss, Bool.not_not, hnew, hgone, hadmin]
  unfold penalties
  split_ifs
  all_goals omega

theorem svcCount_computeDelta (g : Baseline) (rpt : Report) : (computeDelta g rpt).svcCount = rpt.svcCount := by
  unfold computeDelta
  split
  all_goals rfl

/-- Without a baseline. -/
theorem pollFinds_first (hg : KeepsBase g none) (i : PollInput) : PollExact none i (pollFinds g i) := by
  have hest : g.established = false := hg.established
  obtain ⟨hcerts, hadmins, hsvc, hdelta⟩ := reportOf_spec i.probe (svcCountOf i.probe)
    (checkDrift g (svcCountOf i.probe) i.propHash (checkStatus i.probe).anomalies)
  have hreport : (pollFinds g i).report = reportOf i.probe (svcCountOf i.probe)
      (checkDrift g (svcCountOf i.probe) i.propHash (checkStatus i.probe).anomalies) := by
    show computeDelta g _ = _
    rw [computeDelta, hest]
    rfl
  constructor
  case certs => rw [hreport, hcerts]; rfl
  case admins => rw [hreport, hadmins]; rfl
  case counts => rw [hreport, hsvc, hdelta]; exact ⟨rfl, rfl, rfl, rfl⟩
  case drifts => exact ⟨driftOf_eq hg i.probe, hashChanged_eq hg i.propHash⟩
  case anomalies =>
    rw [hreport, hdelta, checkStatus_eq, checkDrift_take hg]
    unfold due newCerts goneCerts newAdmins
    simp only [Option.elim_none, List.map_nil, List.append_nil]
  case trust =>
    show trustScoreOf i.probe (checkStatus i.probe) (pollFinds g i).report.delta = _
    rw [hreport, hdelta]
    exact trustScoreOf_eq rfl rfl rfl

/-- With one. -/
theorem pollFinds_later {base : Base} (hg : KeepsBase g (some base)) (i : PollInput) :
    PollExact (some base) i (pollFinds g i) := by
  have hest : g.established = true := hg.established
  obtain ⟨-, -, hbasecerts, hbaseadmins⟩ := hg.kept base rfl
  obtain ⟨hcerts, hadmins, hsvc, hdelta⟩ := reportOf_spec i.probe (svcCountOf i.probe)
    (checkDrift g (svcCountOf i.probe) i.propHash (checkStatus i.probe).anomalies)
  have hreport : (pollFinds g i).report = computeDelta g (reportOf i.probe (svcCountOf i.probe)
      (checkDrift g (svcCountOf i.probe) i.propHash (checkStatus i.probe).anomalies)) := rfl
  have hcounts := @computeDelta_counts g (reportOf i.probe (svcCountOf i.probe)
    (checkDrift g (svcCountOf i.probe) i.propHash (checkStatus i.probe).anomalies)) hest
  rw [← hreport, hcerts, hadmins, hdelta, hbasecerts, hbaseadmins] at hcounts
  simp only [Nat.zero_add, List.countP_eq_length_filter] at hcounts
  constructor
  case certs =>
    rw [hreport, ← hcerts]
    simp only [computeDelta, hest, hbasecerts]
    rfl
  case admins =>
    rw [hreport, ← hadmins]
    simp only [computeDelta, hest, hbaseadmins]
    rfl
  case counts =>
    exact ⟨(svcCount_computeDelta g _).trans hsvc, hcounts⟩
  case drifts => exact ⟨driftOf_eq hg i.probe, hashChanged_eq hg i.propHash⟩
  case anomalies =>
    have hchecks : (checkDrift g (svcCountOf i.probe) i.propHash (checkStatus i.probe).anomalies) =
        (statusDue i.probe ++ driftDue (some base) i.probe ++ hashDue (some base) i.propHash).take
          maxAnomalies := by
      rw [checkStatus_eq, checkDrift_take hg]
    rw [hreport, computeDelta_anomalies hest (by rw [hdelta, hchecks]), hcerts, hadmins, hbasecerts, hbaseadmins]
    rfl
  case trust => exact trustScoreOf_eq hcounts.1 hcounts.2.1 hcounts.2.2

/-- **A poll finds what is there.** -/
theorem pollFinds_exact (hg : KeepsBase g b) (i : PollInput) : PollExact b i (pollFinds g i) := by
  cases b with
  | none => exact pollFinds_first hg i
  | some base => exact pollFinds_later hg i

end Poll

/-! ## The baseline of a process -/

def Event.isPoll : Event → Bool
  | .started => false
  | .polled _ _ => true

/-- What a poll needs to make a baseline. -/
def saves (i : PollInput) (f : Found) : Bool :=
  10 < f.report.svcCount && i.env.stateDir && i.env.resultsDir && i.env.opens

def savedPoll : Event → Option Base
  | .started => none
  | .polled i f => if saves i f then some (i, f) else none

/-- The first poll of the process that could be saved. -/
def baselineOf (tr : List Event) : Option Base := (tr.rtakeWhile Event.isPoll).findSome? savedPoll

/-- The polls of a process are exact, compared with its baseline. -/
def Watched (earlier : List Event) : Event → Prop
  | .started => True
  | .polled i f => PollExact (baselineOf earlier) i f

theorem baselineOf_started (tr : List Event) : baselineOf (tr ++ [.started]) = none := by
  rw [baselineOf, List.rtakeWhile_concat_neg _ _ _ (by decide)]
  rfl

theorem baselineOf_polled (tr : List Event) (i : PollInput) (f : Found) :
    baselineOf (tr ++ [.polled i f]) = (baselineOf tr).or (savedPoll (.polled i f)) := by
  rw [baselineOf, List.rtakeWhile_concat_pos _ _ _ rfl, List.findSome?_append]
  cases hsaved : savedPoll (.polled i f) with
  | none => rw [List.findSome?_cons, hsaved]; rfl
  | some base => rw [List.findSome?_cons, hsaved]; rfl

/-- The file is one that `save_baseline` wrote. -/
def Written (file : Option (List Char)) : Prop :=
  file = none ∨ ∃ env rpt, (env.stateDir = true ∧ env.resultsDir = true) ∧ env.opens = true ∧
    file = (saveBaseline env none .zero rpt).1

theorem loadBaseline_written {file : Option (List Char)} (h : Written file) :
    loadBaseline file .zero = .zero := by
  rcases h with rfl | ⟨env, rpt, hdirs, hopens, rfl⟩
  · rfl
  · exact loadBaseline_saveBaseline hdirs hopens

/-- The globals and the file of a run. -/
structure Runs (st : Daemon) (tr : List Event) : Prop where
  file : Written st.file
  base : KeepsBase st.globals (baselineOf tr)
  watched : Always Watched tr

theorem keepsBase_zero : KeepsBase .zero none := ⟨rfl, fun _ h => nomatch h⟩

section Run

variable {st : Daemon} {tr : List Event}

theorem Runs.start (h : Runs st tr) : Runs ⟨st.file, loadBaseline st.file .zero⟩ (tr ++ [.started]) := by
  constructor
  case file => exact h.file
  case base =>
    rw [baselineOf_started, loadBaseline_written h.file]
    exact keepsBase_zero
  case watched => exact h.watched.snoc trivial

/-- A poll that makes no baseline leaves everything as it was. -/
theorem Runs.unsaved (h : Runs st tr) {i : PollInput}
    (hno : baselineOf tr ≠ none ∨ saves i (pollFinds st.globals i) = false) :
    Runs st (tr ++ [.polled i (pollFinds st.globals i)]) := by
  have hsame : baselineOf (tr ++ [.polled i (pollFinds st.globals i)]) = baselineOf tr := by
    rw [baselineOf_polled]
    rcases hno with hbase | hno
    · obtain ⟨base, hbase⟩ := Option.ne_none_iff_exists'.mp hbase
      rw [hbase]
      rfl
    · rw [savedPoll, hno, if_neg (by decide), Option.or_none]
  constructor
  case file => exact h.file
  case base =>
    rw [hsame]
    exact h.base
  case watched => exact h.watched.snoc (pollFinds_exact h.base i)

/-- One that makes it. -/
theorem Runs.saved (h : Runs st tr) {i : PollInput} (hnone : baselineOf tr = none)
    (hyes : saves i (pollFinds st.globals i) = true) :
    Runs ⟨(saveBaseline i.env st.file st.globals (pollFinds st.globals i).report).1,
        (saveBaseline i.env st.file st.globals (pollFinds st.globals i).report).2⟩
      (tr ++ [.polled i (pollFinds st.globals i)]) := by
  simp only [saves, Bool.and_eq_true, decide_eq_true_eq] at hyes
  obtain ⟨⟨⟨hsvc, hstate⟩, hresults⟩, hopens⟩ := hyes
  obtain ⟨hest, hkeptsvc, hhash, hcerts, hadmins⟩ :=
    @saveBaseline_keeps i.env st.file st.globals (pollFinds st.globals i).report ⟨hstate, hresults⟩ hopens
  have hbase : baselineOf (tr ++ [.polled i (pollFinds st.globals i)]) = some (i, pollFinds st.globals i) := by
    rw [baselineOf_polled, hnone, Option.none_or, savedPoll, saves]
    simp [hsvc, hstate, hresults, hopens]
  constructor
  case file =>
    refine .inr ⟨i.env, (pollFinds st.globals i).report, ⟨hstate, hresults⟩, hopens, ?_⟩
    simp [saveBaseline, hstate, hresults, hopens]
  case base =>
    rw [hbase]
    refine ⟨hest, ?_⟩
    rintro base hsome
    obtain rfl := Option.some.inj hsome
    exact ⟨hkeptsvc, hhash, hcerts, hadmins⟩
  case watched => exact h.watched.snoc (pollFinds_exact h.base i)

theorem saveBaseline_fails {i : PollInput} {f : Found} (hsvc : 10 < f.report.svcCount)
    (hno : saves i f = false) (file : Option (List Char)) (g : Baseline) :
    saveBaseline i.env file g f.report = (file, g) := by
  rw [saves, decide_eq_true hsvc, Bool.true_and] at hno
  unfold saveBaseline
  cases hstate : i.env.stateDir <;> cases hresults : i.env.resultsDir <;> cases hopens : i.env.opens <;>
    simp_all

theorem Runs.step (h : Runs st tr) (s : Step) : Runs (daemonStep st s).1 (tr ++ (daemonStep st s).2) := by
  cases s with
  | start => exact h.start
  | poll i =>
      unfold daemonStep
      simp only
      split
      · rename_i hfirst
        have hnone : baselineOf tr = none := by
          have hnot := hfirst.1
          rw [h.base.established, Option.not_isSome] at hnot
          exact Option.isNone_iff_eq_none.mp hnot
        cases hsaves : saves i (pollFinds st.globals i) with
        | true => exact h.saved hnone hsaves
        | false =>
            rw [saveBaseline_fails hfirst.2 hsaves]
            exact h.unsaved (.inr hsaves)
      · rename_i hlater
        apply h.unsaved
        cases hbase : baselineOf tr with
        | some base => exact .inl (Option.some_ne_none base)
        | none =>
            have hest : st.globals.established = false := by
              rw [h.base.established, hbase]
              rfl
            have hfew : ¬ 10 < (pollFinds st.globals i).report.svcCount := fun hsvc =>
              hlater ⟨by rw [hest]; rfl, hsvc⟩
            right
            rw [saves, decide_eq_false hfew]
            rfl

end Run

/-- **Every poll of every process is exact**, compared with the first one since the process
started that could be saved; and the court hears of the first 16 anomalies only. -/
theorem watch_exact (steps : List Step) : Always Watched (daemonRun steps).2 := by
  have hruns : Runs (daemonRun steps).1 (daemonRun steps).2 := by
    unfold daemonRun
    refine Machine.run_invariant (P := Runs) ?_ ?_ steps
    · exact ⟨.inl rfl, keepsBase_zero, .nil⟩
    · exact fun st tr s h => h.step s
  exact hruns.watched

end MiuiserPeruser.Tigerclaw
