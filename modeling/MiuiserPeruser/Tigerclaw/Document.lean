import MiuiserPeruser.Lib.Lines
import MiuiserPeruser.Tigerclaw.Baseline

/-!
# tigerclawd — the document it writes (`tigerclawd.c`)

`write_json` prints the report line by line: the device, the binder and the
integrity of the system first, then the certificates, the admins and the
kill policies one by one, and behind them the trust score. The texts in it
come from the device and have been through `sanitize_field`.
-/

namespace MiuiserPeruser.Tigerclaw

open CText Lines

/-! ## The report -/

/-- A C string in a `char[size]`. -/
structure CStr (size : Nat) where
  text : List Char
  fits : text.length < size

def maxKillPolicies : Nat := 64

/-- `miui_surface_t`. -/
structure MiuiSurface where
  selinuxMode : List Char
  verifiedBoot : List Char
  miuiOptimization : Bool
  shizukuBound : Bool
  killTargets : List (List Char)
  targets_fit : killTargets.length ≤ maxKillPolicies

/-- `tigerclaw_report_t`, as far as it is printed. -/
structure FullReport where
  codename : CStr 32
  board : CStr 32
  hardware : CStr 32
  hyperos : CStr 32
  secPatch : CStr 32
  bootloader : CStr 32
  svcCount : Int32
  svcDrift : Int32
  suspiciousServices : Int32
  propDrift : Int32
  trustScore : Int32
  anomalies : List Anomaly
  certDeltaNew : Int32
  certDeltaRemoved : Int32
  certs : List CertEntry
  adminDeltaNew : Int32
  admins : List AdminEntry
  miui : MiuiSurface
  sequence : UInt64
  timestamp : CStr 32
  pollMs : Int32
  anomalies_fit : anomalies.length ≤ maxAnomalies
  certs_fit : certs.length ≤ maxCerts
  admins_fit : admins.length ≤ maxAdmins
  /-- It is `%Y-%m-%dT%H:%M:%S`. -/
  timestamp_chars : ∀ c ∈ timestamp.text, c.isDigit = true ∨ c ∈ ['-', 'T', ':']

/-- `sanitize_field`. -/
def sanitizeField (s : List Char) : List Char :=
  s.map fun c => if c = '"' ∨ c = '\\' ∨ c = '|' ∨ c.toNat < 0x20 then '_' else c

def CStr.sanitize {size : Nat} (s : CStr size) : CStr size where
  text := sanitizeField s.text
  fits := by
    rw [sanitizeField, List.length_map]
    exact s.fits

def CertEntry.sanitize (c : CertEntry) : CertEntry :=
  { c with fingerprint := sanitizeField c.fingerprint, subject := sanitizeField c.subject }

def AdminEntry.sanitize (a : AdminEntry) : AdminEntry :=
  { a with package := sanitizeField a.package, adminClass := sanitizeField a.adminClass }

def Anomaly.sanitize (a : Anomaly) : Anomaly :=
  ⟨sanitizeField a.type, sanitizeField a.code, sanitizeField a.detail⟩

/-- `sanitize_report_strings`. -/
def sanitizeReportStrings (rpt : FullReport) : FullReport :=
  { rpt with
    codename := rpt.codename.sanitize
    board := rpt.board.sanitize
    hardware := rpt.hardware.sanitize
    hyperos := rpt.hyperos.sanitize
    secPatch := rpt.secPatch.sanitize
    bootloader := rpt.bootloader.sanitize
    certs := rpt.certs.map CertEntry.sanitize
    admins := rpt.admins.map AdminEntry.sanitize
    anomalies := rpt.anomalies.map Anomaly.sanitize
    miui :=
      { rpt.miui with
        selinuxMode := sanitizeField rpt.miui.selinuxMode
        verifiedBoot := sanitizeField rpt.miui.verifiedBoot
        killTargets := rpt.miui.killTargets.map sanitizeField
        targets_fit := by
          rw [List.length_map]
          exact rpt.miui.targets_fit }
    certs_fit := by
      rw [List.length_map]
      exact rpt.certs_fit
    admins_fit := by
      rw [List.length_map]
      exact rpt.admins_fit
    anomalies_fit := by
      rw [List.length_map]
      exact rpt.anomalies_fit }

/-! ## write_json -/

/-- `%d`. -/
def printInt (n : Int32) : List Char := formatD n.toInt

/-- The bootloader counts as locked. -/
def isLocked (rpt : FullReport) : Bool :=
  rpt.bootloader.text = "green".toList || rpt.bootloader.text = "locked".toList

/-- SELinux counts as enforcing. -/
def isEnforcing (rpt : FullReport) : Bool :=
  (strstr "enforcing".toList rpt.miui.selinuxMode).isSome ||
    (strstr "Enforcing".toList rpt.miui.selinuxMode).isSome

/-- `g_poll_sec`, which nothing changes. -/
def pollSec : Int32 := 30

/-- The lines up to the number of services of the baseline. -/
def headLines (baselineSvc : Int32) (rpt : FullReport) : List Piece :=
  [.plain "\x7b\n".toList] ++
    memberStr "  " "daemon" "tigerclawd".toList ",\n" ++
    memberStr "  " "version" "1.2.2".toList ",\n" ++
    member "  " "sequence" (decimal rpt.sequence.toNat) ",\n" ++
    memberStr "  " "timestamp" rpt.timestamp.text ",\n" ++
    member "  " "poll_interval_sec" (printInt pollSec) ",\n" ++
    member "  " "poll_duration_ms" (printInt rpt.pollMs) ",\n" ++
    member "  " "device" ['\x7b'] "\n" ++
    memberStr "    " "codename" rpt.codename.text ",\n" ++
    memberStr "    " "board" rpt.board.text ",\n" ++
    memberStr "    " "hardware" rpt.hardware.text ",\n" ++
    memberStr "    " "hyperos_version" rpt.hyperos.text ",\n" ++
    memberStr "    " "security_patch" rpt.secPatch.text ",\n" ++
    member "    " "bootloader_locked" (boolText (isLocked rpt)) "\n" ++
    [.plain "  \x7d,\n".toList] ++
    member "  " "binder" ['\x7b'] "\n" ++
    member "    " "service_count" (printInt rpt.svcCount) ",\n" ++
    member "    " "baseline_count" (printInt baselineSvc) ",\n"

/-- The lines from the drift to the beginning of the certificates. -/
def integrityLines (rpt : FullReport) : List Piece :=
  member "    " "suspicious_services" (printInt rpt.suspiciousServices) "\n" ++
    [.plain "  \x7d,\n".toList] ++
    member "  " "integrity" ['\x7b'] "\n" ++
    member "    " "selinux_enforcing" (boolText (isEnforcing rpt)) ",\n" ++
    member "    " "debug_props_clean" (boolText true) ",\n" ++
    member "    " "security_center_running" (boolText true) ",\n" ++
    member "    " "developer_options" (boolText false) ",\n" ++
    member "    " "adb_enabled" (boolText false) ",\n" ++
    member "    " "adb_over_network" (boolText false) ",\n" ++
    member "    " "prop_hash_drift" (boolText (rpt.propDrift ≠ 0)) "\n" ++
    [.plain "  \x7d,\n".toList] ++
    member "  " "cert_store" ['\x7b'] "\n" ++
    member "    " "count" (decimal rpt.certs.length) ",\n" ++
    member "    " "delta_new" (printInt rpt.certDeltaNew) ",\n" ++
    member "    " "delta_removed" (printInt rpt.certDeltaRemoved) ",\n" ++
    member "    " "certs" ['['] "\n"

def certLines (c : CertEntry) (last : Bool) : List Piece :=
  [.plain "      \x7b\n".toList] ++
    memberStr "        " "fingerprint" c.fingerprint ",\n" ++
    memberStr "        " "subject" c.subject ",\n" ++
    member "        " "system" (boolText c.isSystem) ",\n" ++
    member "        " "new" (boolText c.isNew) "\n" ++
    [.plain ("      \x7d".toList ++ comma last ++ ['\n'])]

/-- The lines between the certificates and the admins. -/
def adminHead (rpt : FullReport) : List Piece :=
  [.plain "    ]\n  \x7d,\n".toList] ++
    member "  " "device_admins" ['\x7b'] "\n" ++
    member "    " "count" (decimal rpt.admins.length) ",\n" ++
    member "    " "delta_new" (printInt rpt.adminDeltaNew) ",\n" ++
    member "    " "admins" ['['] "\n"

def adminLines (a : AdminEntry) (last : Bool) : List Piece :=
  [.plain "      \x7b\n".toList] ++
    memberStr "        " "package" a.package ",\n" ++
    memberStr "        " "class" a.adminClass ",\n" ++
    member "        " "profile_owner" (boolText a.isProfileOwner) ",\n" ++
    member "        " "device_owner" (boolText a.isDeviceOwner) ",\n" ++
    member "        " "new" (boolText a.isNew) "\n" ++
    [.plain ("      \x7d".toList ++ comma last ++ ['\n'])]

/-- The lines between the admins and the kill policies. -/
def miuiHead (miui : MiuiSurface) : List Piece :=
  [.plain "    ]\n  \x7d,\n".toList] ++
    member "  " "miui_surface" ['\x7b'] "\n" ++
    memberStr "    " "selinux_mode" miui.selinuxMode ",\n" ++
    memberStr "    " "verified_boot" miui.verifiedBoot ",\n" ++
    member "    " "miui_optimization" (boolText miui.miuiOptimization) ",\n" ++
    member "    " "shizuku_bound" (boolText miui.shizukuBound) ",\n" ++
    member "    " "kill_policies" ['\x7b'] "\n" ++
    member "      " "count" (decimal miui.killTargets.length) ",\n" ++
    member "      " "targets" ['['] "\n"

def targetLines (target : List Char) (last : Bool) : List Piece :=
  item "        " target (if last then "\n" else ",\n")

def anomalyLines (a : Anomaly) (last : Bool) : List Piece :=
  [.plain "    \x7b\n".toList] ++
    memberStr "      " "type" a.type ",\n" ++
    memberStr "      " "code" a.code ",\n" ++
    memberStr "      " "detail" a.detail "\n" ++
    [.plain ("    \x7d".toList ++ comma last ++ ['\n'])]

/-- The lines from the drift to the trust score. -/
def middleLines (rpt : FullReport) : List Piece :=
  integrityLines rpt ++ entries certLines rpt.certs ++ adminHead rpt ++
    entries adminLines rpt.admins ++ miuiHead rpt.miui ++ entries targetLines rpt.miui.killTargets ++
    [.plain "      ]\n    \x7d\n  \x7d,\n".toList]

/-- The lines behind the trust score. -/
def tailLines (rpt : FullReport) : List Piece :=
  member "  " "anomalies" ['['] "\n" ++ entries anomalyLines rpt.anomalies ++
    [.plain "  ]\n\x7d\n".toList]

/-- `write_json`. -/
def writeJson (baselineSvc : Int32) (rpt : FullReport) : List Char :=
  render (headLines baselineSvc rpt ++ member "    " "drift" (printInt rpt.svcDrift) ",\n" ++
    middleLines rpt ++ member "  " "trust_score" (printInt rpt.trustScore) ",\n" ++ tailLines rpt)

/-- The document of a poll. -/
def document (baselineSvc : Int32) (rpt : FullReport) : List Char :=
  writeJson baselineSvc (sanitizeReportStrings rpt)

/-! ## Where the trust score ends -/

def certLength (c : CertEntry) : Nat :=
  102 + c.fingerprint.length + c.subject.length + (boolText c.isSystem).length +
    (boolText c.isNew).length

def adminLength (a : AdminEntry) : Nat :=
  129 + a.package.length + a.adminClass.length + (boolText a.isProfileOwner).length +
    (boolText a.isDeviceOwner).length + (boolText a.isNew).length

def targetLength (target : List Char) : Nat := 11 + target.length

/-- How many bytes of the document stand in front of its trust score. -/
def scoreStart (baselineSvc : Int32) (rpt : FullReport) : Nat :=
  1027 + (decimal rpt.sequence.toNat).length + rpt.timestamp.text.length +
    (printInt rpt.pollMs).length + rpt.codename.text.length + rpt.board.text.length +
    rpt.hardware.text.length + rpt.hyperos.text.length + rpt.secPatch.text.length +
    (boolText (isLocked rpt)).length + (printInt rpt.svcCount).length +
    (printInt baselineSvc).length + (printInt rpt.svcDrift).length +
    (printInt rpt.suspiciousServices).length + (boolText (isEnforcing rpt)).length +
    (boolText (rpt.propDrift ≠ 0)).length + (decimal rpt.certs.length).length +
    (printInt rpt.certDeltaNew).length + (printInt rpt.certDeltaRemoved).length +
    ((rpt.certs.map certLength).sum + (rpt.certs.length - 1)) +
    (decimal rpt.admins.length).length + (printInt rpt.adminDeltaNew).length +
    ((rpt.admins.map adminLength).sum + (rpt.admins.length - 1)) +
    rpt.miui.selinuxMode.length + rpt.miui.verifiedBoot.length +
    (boolText rpt.miui.miuiOptimization).length + (boolText rpt.miui.shizukuBound).length +
    (decimal rpt.miui.killTargets.length).length +
    ((rpt.miui.killTargets.map targetLength).sum + (rpt.miui.killTargets.length - 1))

section Length

variable (baselineSvc : Int32) (rpt : FullReport)

theorem length_pollSec : (printInt pollSec).length = 2 := by decide +kernel

theorem length_headLines : (render (headLines baselineSvc rpt)).length =
    352 + (decimal rpt.sequence.toNat).length + rpt.timestamp.text.length +
      (printInt rpt.pollMs).length + rpt.codename.text.length + rpt.board.text.length +
      rpt.hardware.text.length + rpt.hyperos.text.length + rpt.secPatch.text.length +
      (boolText (isLocked rpt)).length + (printInt rpt.svcCount).length +
      (printInt baselineSvc).length := by
  simp only [headLines, render_cons, render_append, render_nil, Piece.text, List.length_append,
    length_member, length_memberStr, length_pollSec, String.reduceToList, List.length_cons,
    List.length_nil]
  omega

theorem length_integrityLines : (render (integrityLines rpt)).length =
    353 + (printInt rpt.suspiciousServices).length + (boolText (isEnforcing rpt)).length +
      (boolText (rpt.propDrift ≠ 0)).length + (decimal rpt.certs.length).length +
      (printInt rpt.certDeltaNew).length + (printInt rpt.certDeltaRemoved).length := by
  simp only [integrityLines, render_cons, render_append, render_nil, Piece.text, List.length_append,
    length_member, length_boolText_true, length_boolText_false, String.reduceToList,
    List.length_cons, List.length_nil]
  omega

theorem length_certLines (c : CertEntry) (last : Bool) :
    (render (certLines c last)).length = certLength c + if last then 0 else 1 := by
  simp only [certLines, certLength, render_cons, render_append, render_nil, Piece.text,
    List.length_append, length_member, length_memberStr, length_comma, String.reduceToList,
    List.length_cons, List.length_nil]
  omega

theorem length_adminHead : (render (adminHead rpt)).length =
    82 + (decimal rpt.admins.length).length + (printInt rpt.adminDeltaNew).length := by
  simp only [adminHead, render_cons, render_append, render_nil, Piece.text, List.length_append,
    length_member, String.reduceToList, List.length_cons, List.length_nil]
  omega

theorem length_adminLines (a : AdminEntry) (last : Bool) :
    (render (adminLines a last)).length = adminLength a + if last then 0 else 1 := by
  simp only [adminLines, adminLength, render_cons, render_append, render_nil, Piece.text,
    List.length_append, length_member, length_memberStr, length_comma, String.reduceToList,
    List.length_cons, List.length_nil]
  omega

theorem length_miuiHead (miui : MiuiSurface) : (render (miuiHead miui)).length =
    189 + miui.selinuxMode.length + miui.verifiedBoot.length +
      (boolText miui.miuiOptimization).length + (boolText miui.shizukuBound).length +
      (decimal miui.killTargets.length).length := by
  simp only [miuiHead, render_cons, render_append, render_nil, Piece.text, List.length_append,
    length_member, length_memberStr, String.reduceToList, List.length_cons, List.length_nil]
  omega

theorem length_targetLines (target : List Char) (last : Bool) :
    (render (targetLines target last)).length = targetLength target + if last then 0 else 1 := by
  cases last <;>
    simp only [targetLines, targetLength, length_item, String.reduceToList, List.length_cons,
      List.length_nil, if_true, Bool.false_eq_true, if_false] <;>
    omega

/-- Everything in front of the trust score, its key and the space included. -/
theorem length_front : (render (headLines baselineSvc rpt ++
    member "    " "drift" (printInt rpt.svcDrift) ",\n" ++ middleLines rpt)).length +
      "  \"trust_score\": ".toList.length = scoreStart baselineSvc rpt := by
  simp only [middleLines, render_append, List.length_append, length_headLines, length_integrityLines,
    length_entries length_certLines, length_entries length_adminLines,
    length_entries length_targetLines, length_adminHead, length_miuiHead, length_member,
    render_cons, render_nil, Piece.text, String.reduceToList, List.length_cons, List.length_nil,
    scoreStart]
  omega

end Length

end MiuiserPeruser.Tigerclaw
