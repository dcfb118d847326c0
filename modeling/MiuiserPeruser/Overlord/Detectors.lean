import MiuiserPeruser.Overlord.Documents

/-!
# overlordd — the detectors (`overlordd.c`)

Sixteen detectors read the documents of one poll; each adds its pattern or
does nothing. They differ in what they take for a key that cannot be read:
some conditions ask that the key was read, others go on with a default.
`detect_priv_escalation` reads the sliding window instead of documents, and
what it adds is a parameter of the poll here.

Confidences are exact rationals. Their comparisons come out the same for
`double`s, also the one that is tight: 0.55 less 0.25 is not below 0.30.
-/

namespace MiuiserPeruser.Overlord

open CText

/-- The names of the patterns. -/
inductive Kind where
  | thermalOom
  | idleSurveillance
  | sensorExfil
  | securityWeakening
  | privacyErosion
  | thermalDeception
  | idleExfilBeacon
  | sensorStalking
  | wakelockAbuse
  | privEscalation
  | memoryPressureManip
  | dozeBypass
  | thermalAmnesia
  | binderProximity
  | memoryExtensionTrap
  | radioSilence
  | privacyDecoy
  deriving DecidableEq, Repr

def Kind.name : Kind → String
  | .thermalOom => "THERMAL_OOM_MANIPULATION"
  | .idleSurveillance => "IDLE_SURVEILLANCE_CYCLE"
  | .sensorExfil => "SENSOR_NETWORK_EXFILTRATION"
  | .securityWeakening => "COORDINATED_SECURITY_WEAKENING"
  | .privacyErosion => "SYSTEMIC_PRIVACY_EROSION"
  | .thermalDeception => "THERMAL_DECEPTION_CYCLE"
  | .idleExfilBeacon => "IDLE_EXFILTRATION_BEACON"
  | .sensorStalking => "SENSOR_STALKING_CAMOUFLAGE"
  | .wakelockAbuse => "WAKE_LOCK_ABUSE_SYNDROME"
  | .privEscalation => "PRIVILEGE_ESCALATION_CHAIN"
  | .memoryPressureManip => "MEMORY_PRESSURE_MANIPULATION"
  | .dozeBypass => "DOZE_BYPASS_SYNDROME"
  | .thermalAmnesia => "THERMAL_AMNESIA_SEQUENCE"
  | .binderProximity => "BINDER_PROXIMITY_EXPLOIT"
  | .memoryExtensionTrap => "MEMORY_EXTENSION_TRAP"
  | .radioSilence => "RADIO_SILENCE_FLIP"
  | .privacyDecoy => "PRIVACY_SIGNAL_DECOY"

/-- `Pattern`. -/
structure Pattern where
  kind : Kind
  severity : String
  detail : List Char
  mitre : String
  confidence : ℚ

def maxPatterns : Nat := 32

/-- `add_pattern`; its log line and its signal repeat the pattern. -/
def addPattern (patterns : List Pattern) (p : Pattern) : List Pattern :=
  if patterns.length ≥ maxPatterns then patterns else patterns ++ [p]

/-- The bytes of a text in the source. -/
def bytes (s : String) : List Char := s.toUTF8.toList.map fun b => Char.ofNat b.toNat

/-- `snprintf` of the pieces of a detail. -/
def detail (pieces : List (List Char)) : List Char := snprintf 512 pieces.flatten

/-! ## Reading -/

section Reading

variable {D : Type}

/-- The documents of a poll, by daemon. -/
abbrev Results (D : Type) := String → Option D

def Results.has (docs : Results D) (daemon : String) : Bool := (docs daemon).isSome

variable [Document D]

/-- A key of a daemon's document, if there is one and it can be read. -/
def Results.int (docs : Results D) (daemon key : String) : Option Int :=
  (docs daemon).bind fun doc => getInt doc key

def Results.double (docs : Results D) (daemon key : String) : Option Number :=
  (docs daemon).bind fun doc => Document.getDouble doc key

def Results.bool (docs : Results D) (daemon key : String) : Option Bool :=
  (docs daemon).bind fun doc => Document.getBool doc key

def Results.fired (docs : Results D) (propkey : String) : Bool :=
  (docs "burned").bind (fun doc => Document.propFired doc propkey) == some true

/-- `screen`, a buffer of sixteen bytes, empty at first. -/
def screen (docs : Results D) : List Char :=
  ((docs "nulld").bind fun doc => Document.getStr doc "screen" 16).getD []

/-- `drain` with its default. -/
def drain (docs : Results D) : Number := (docs.double "bebopd" "drain_mah_h").getD (.finite 0)

/-- The sum of rahzerd's connections, 0 where they cannot be read. -/
def tcpTotal (docs : Results D) : Int :=
  wrap32 ((docs.int "rahzerd" "established_tcp4").getD 0 +
    (docs.int "rahzerd" "established_tcp6").getD 0)

/-- `x > q` for a `double`. -/
def above (x : Number) (q : ℚ) : Bool :=
  match x with
  | .finite x => q < x
  | .inf negative => !negative
  | .nan => false

end Reading

/-! ## The detectors -/

section Detectors

variable {D : Type} [Document D] (docs : Results D)

def detectThermalOom : Option Pattern :=
  let thermal := docs.int "leatherheadd" "thermal_score"
  let throttled := docs.int "leatherheadd" "throttled_cores"
  let zombies := docs.int "ratkingd" "zombies"
  let crashes := docs.int "fugitoidd" "crashes"
  let ooms := docs.int "fugitoidd" "oom_events"
  let memLow := docs.bool "ratkingd" "memory_low"
  if !docs.has "leatherheadd" || !docs.has "ratkingd" || !docs.has "fugitoidd" then none
  else if thermal.any (fun t => 0 < t && t < 70) && (memLow == some true || ooms.any (0 < ·)) &&
      (crashes.any (0 < ·) || zombies.any (3 < ·)) then
    some
      { kind := .thermalOom
        severity := "CRITICAL"
        detail := detail
          [bytes "Thermal ", formatD (thermal.getD 0), bytes "/100 + ",
            bytes (if memLow == some true then "memory_low" else "OOM events"), bytes " + ",
            formatD (crashes.getD 0), bytes " crashes + ", formatD (zombies.getD 0),
            bytes " zombies — HyperOS thermal-triggered OOM targeting suspected"]
        mitre := "T1426"
        confidence := 6 / 10 + (if throttled.any (4 < ·) then 1 / 10 else 0) +
          (if ooms.any (0 < ·) then 15 / 100 else 0) }
  else none

def detectIdleSurveillance : Option Pattern :=
  let spikes := docs.int "nulld" "total_spike_events"
  let idleSec := (docs.int "nulld" "idle_seconds").getD 0
  let tcp4 := (docs.int "rahzerd" "established_tcp4").getD 0
  let tcp6 := (docs.int "rahzerd" "established_tcp6").getD 0
  if !docs.has "nulld" || !docs.has "rahzerd" then none
  else if spikes.any (2 < ·) then
    some
      { kind := .idleSurveillance
        severity := "WARNING"
        detail := detail
          [formatD (spikes.getD 0), bytes " connection spikes during ", formatD idleSec,
            bytes "s idle — background surveillance activity detected. Active connections: ",
            formatD tcp4, bytes " TCP4 + ", formatD tcp6, bytes " TCP6"]
        mitre := "T1430"
        confidence := min (95 / 100) (5 / 10 + spikes.getD 0 * (8 / 100)) }
  else none

def detectSensorExfil : Option Pattern :=
  let sensitive := docs.int "metalheadd" "sensitive_active"
  let senScore := (docs.int "metalheadd" "sensor_score").getD 0
  if !docs.has "metalheadd" || !docs.has "rahzerd" then none
  else if sensitive.any (2 < ·) && 20 < tcpTotal docs then
    some
      { kind := .sensorExfil
        severity := "WARNING"
        detail := detail
          [formatD (sensitive.getD 0), bytes " sensitive sensors active with ",
            formatD (tcpTotal docs),
            bytes " TCP connections — possible sensor data exfiltration. Score: ",
            formatD senScore, bytes "/100. Drain: ", formatF1 (drain docs), bytes " mAh/hr"]
        mitre := "T1430"
        confidence := 4 / 10 + sensitive.getD 0 * (1 / 10) +
          (if above (drain docs) 300 then 15 / 100 else 0) }
  else none

/-- The anomalies `detect_security_weakening` counts, with their labels. -/
def weaknesses : List String :=
  (if (docs.int "tigerclawd" "trust_score").any (fun t => 0 < t && t < 75) then ["low_trust; "]
    else []) ++
  (if (docs.int "tigerclawd" "drift").any (fun d => 5 < wrap32 |d|) then ["binder_drift; "]
    else []) ++
  (if docs.bool "tigerclawd" "selinux_anomaly" == some true then ["selinux_anomaly; "] else []) ++
  (if docs.bool "shredderd" "detected" == some true then ["kernel_drift; "] else []) ++
  (if docs.bool "granitord" "root_present" == some true then ["root_present; "] else [])

def detectSecurityWeakening : Option Pattern :=
  let count := (weaknesses docs).length
  if !docs.has "tigerclawd" || !docs.has "shredderd" || !docs.has "granitord" then none
  else if 2 ≤ count then
    some
      { kind := .securityWeakening
        severity := if 3 ≤ count then "CRITICAL" else "WARNING"
        detail := detail
          [formatD count, bytes " concurrent security anomalies: ",
            ((weaknesses docs).map bytes).flatten, bytes "(trust=",
            formatD ((docs.int "tigerclawd" "trust_score").getD 0), bytes "/100 granite=",
            formatD ((docs.int "granitord" "score").getD 0), bytes "/100)"]
        mitre := "T1462"
        confidence := min (95 / 100) (3 / 10 + count * (15 / 100)) }
  else none

def detectPrivacyErosion : Option Pattern :=
  let sigs := docs.int "burned" "privacy_signal_count"
  let spikes := (docs.int "nulld" "total_spike_events").getD 0
  let trust := (docs.int "tigerclawd" "trust_score").getD 100
  if !docs.has "burned" then none
  else if sigs.any (5 ≤ ·) && 0 < spikes then
    some
      { kind := .privacyErosion
        severity := "CRITICAL"
        detail := detail
          [formatD (sigs.getD 0), bytes " privacy signals in ROM + ", formatD spikes,
            bytes " idle transmission spikes + device trust ", formatD trust,
            bytes ("/100 — systemic privacy erosion. " ++
              "Leith, Patras & Liu (TCD/Edinburgh 2021) confirmed on this device.")]
        mitre := "T1429"
        confidence := 90 / 100 }
  else none

def detectThermalDeception : Option Pattern :=
  let thermal := docs.int "leatherheadd" "thermal_score"
  let throttl := (docs.int "leatherheadd" "throttled_cores").getD 0
  let rThrottl := (docs.int "rocksteadyd" "throttled_cores").getD 0
  if !docs.has "leatherheadd" then none
  else if thermal.any (fun t => 0 < t && t < 75) && throttl = 0 && rThrottl = 0 &&
      above (drain docs) 150 then
    some
      { kind := .thermalDeception
        severity := "CRITICAL"
        detail := detail
          [bytes "Thermal score ", formatD (thermal.getD 0),
            bytes ("/100 but ZERO throttled cores — " ++
              "HyperOS underreporting temps to Android framework. Drain "),
            formatF1 (drain docs),
            bytes (" mAh/hr while system believes device is cool. " ++
              "Confirmed 18C HAL vs cached delta on this device.")]
        mitre := "T1481"
        confidence := 85 / 100 }
  else none

def detectIdleExfilBeacon : Option Pattern :=
  let spikes := docs.int "nulld" "total_spike_events"
  let idleSec := (docs.int "nulld" "idle_seconds").getD 0
  let privSigs := (docs.int "burned" "privacy_signal_count").getD 0
  if !docs.has "nulld" then none
  else if screen docs = "off".toList && spikes.any (0 < ·) && above (drain docs) 50 &&
      5 ≤ privSigs then
    some
      { kind := .idleExfilBeacon
        severity := "CRITICAL"
        detail := detail
          [bytes "Screen off ", formatD idleSec, bytes "s — ", formatD (spikes.getD 0),
            bytes " idle connection spikes + ", formatF1 (drain docs), bytes " mAh/hr drain + ",
            formatD privSigs,
            bytes (" ROM privacy signals. Xiaomi beaconing to Azure every ~10min " ++
              "confirmed via PCAPdroid (fr.resolver.msg.global.xiaomi.net)")]
        mitre := "T1430"
        confidence := 88 / 100 }
  else none

def detectSensorStalking : Option Pattern :=
  let sensitive := docs.int "metalheadd" "sensitive_active"
  let trust := (docs.int "tigerclawd" "trust_score").getD 100
  if !docs.has "metalheadd" || !docs.has "rahzerd" || !docs.has "nulld" then none
  else if sensitive.any (1 < ·) && 10 < tcpTotal docs && screen docs = "off".toList &&
      80 ≤ trust then
    some
      { kind := .sensorStalking
        severity := "WARNING"
        detail := detail
          [formatD (sensitive.getD 0), bytes " sensitive sensors active + ",
            formatD (tcpTotal docs),
            bytes " TCP connections while screen is off + trust score ", formatD trust,
            bytes ("/100 (appears normal). " ++
              "INVISIBLE to individual daemons — only visible via correlation. " ++
              "Possible sensor-based location tracking during sleep.")]
        mitre := "T1430"
        confidence := 70 / 100 }
  else none

def detectWakelockAbuse : Option Pattern :=
  let idleSec := (docs.int "nulld" "idle_seconds").getD 0
  let spikes := docs.int "nulld" "total_spike_events"
  let drain := docs.double "bebopd" "drain_mah_h"
  let anrs := (docs.int "fugitoidd" "anrs").getD 0
  if !docs.has "nulld" || !docs.has "bebopd" then none
  else if screen docs = "off".toList && 300 < idleSec && drain.any (above · 100) &&
      spikes.any (1 < ·) then
    some
      { kind := .wakelockAbuse
        severity := "WARNING"
        detail := detail
          [formatD idleSec, bytes "s idle but ", formatF1 (drain.getD (.finite 0)),
            bytes " mAh/hr drain + ", formatD (spikes.getD 0), bytes " network spikes + ",
            formatD anrs,
            bytes (" ANRs — services holding wake locks against Doze. " ++
              "GMS + MIUI Security Center confirmed active during idle on this device.")]
        mitre := "T1426"
        confidence := 65 / 100 + (if 0 < anrs then 1 / 10 else 0) +
          (if drain.any (above · 200) then 1 / 10 else 0) }
  else none

/-- The disclosed properties that explain a memory symptom, with their labels. -/
def disclosures (props : List (String × String)) : List String :=
  (props.filter fun p => docs.fired p.1).map (·.2)

/-- The properties `detect_memory_extension_trap` asks for. -/
def extensionProps : List (String × String) :=
  [("persist.sys.memory_extension_enabled", "ram_extension; "),
    ("persist.sys.miui_scout_binder_full_kill_process", "binder_full_kill; "),
    ("persist.sys.cleaner_level", "cleaner_aggressive; ")]

/-- The properties `detect_memory_pressure_manip` asks for. -/
def pressureProps : List (String × String) :=
  extensionProps ++ [("persist.sys.powerkeeper", "powerkeeper; ")]

def detectMemoryPressureManip : Option Pattern :=
  let availMb := docs.int "ratkingd" "avail_mb"
  let memLow := docs.bool "ratkingd" "memory_low"
  let zombies := (docs.int "ratkingd" "zombies").getD 0
  let ooms := (docs.int "fugitoidd" "oom_events").getD 0
  let crashes := (docs.int "fugitoidd" "crashes").getD 0
  let throttled := (docs.int "rocksteadyd" "throttled_cores").getD 0
  let reportedHealthy := memLow == some false && availMb.any (400 < ·)
  let actualPressure : Bool := 0 < ooms || 0 < crashes || 3 < zombies
  let explain := disclosures docs pressureProps
  let disclosed : Bool := explain ≠ []
  let conf : ℚ := 55 / 100 + (if 4 < throttled then 1 / 10 else 0) +
    (if above (drain docs) 400 then 1 / 10 else 0) + (if 1 < ooms then 1 / 10 else 0) -
    (if disclosed then 25 / 100 else 0)
  let symptoms :=
    [bytes "Reported healthy (avail=", formatD (availMb.getD 0), bytes "MB, memory_low=false) but ",
      formatD ooms, bytes " OOMs + ", formatD crashes, bytes " crashes + ", formatD zombies]
  if !docs.has "ratkingd" || !docs.has "fugitoidd" then none
  else if reportedHealthy && actualPressure && 30 / 100 ≤ conf then
    some
      { kind := .memoryPressureManip
        severity := if disclosed then "WARNING" else "HIGH"
        detail :=
          if disclosed then
            detail (symptoms ++
              [bytes (" zombies say otherwise — partially explained by " ++
                  "disclosed HyperOS behavior ("),
                (explain.map bytes).flatten, bytes "), confidence reduced accordingly"])
          else
            detail (symptoms ++
              [bytes (" zombies say otherwise — memory state may be " ++
                "misreported or artificially masked")])
        mitre := "T1414"
        confidence := conf }
  else none

def detectDozeBypass : Option Pattern :=
  let idleSec := (docs.int "nulld" "idle_seconds").getD 0
  let spikes := docs.int "nulld" "total_spike_events"
  let drain := docs.double "bebopd" "drain_mah_h"
  let anrs := (docs.int "fugitoidd" "anrs").getD 0
  if !docs.has "nulld" || !docs.has "bebopd" then none
  else if screen docs = "off".toList && 600 < idleSec && spikes.any (2 < ·) &&
      drain.any (above · 80) then
    some
      { kind := .dozeBypass
        severity := "WARNING"
        detail := detail
          [bytes "Screen off ", formatD idleSec, bytes "s but ", formatD (spikes.getD 0),
            bytes " spikes + ", formatF1 (drain.getD (.finite 0)), bytes " mAh/hr drain + ",
            formatD anrs,
            bytes (" ANRs -- Doze bypassed. PARTIAL_WAKE_LOCK held by system component. " ++
              "Precursor to IDLE_EXFILTRATION_BEACON.")]
        mitre := "T1426"
        confidence := 70 / 100 + (if 0 < anrs then 10 / 100 else 0) +
          (if drain.any (above · 200) then 10 / 100 else 0) }
  else none

def detectThermalAmnesia : Option Pattern :=
  let thermal := docs.int "leatherheadd" "thermal_score"
  let throttled := (docs.int "leatherheadd" "throttled_cores").getD 0
  let rThrottl := (docs.int "rocksteadyd" "throttled_cores").getD 0
  let kernDrift := docs.bool "shredderd" "detected"
  let selinux := docs.bool "granitord" "selinux_enforcing"
  if !docs.has "leatherheadd" then none
  else if thermal.any (fun t => 0 < t && t < 60) && (2 < throttled || 2 < rThrottl) &&
      kernDrift == some true && selinux == some false then
    some
      { kind := .thermalAmnesia
        severity := "CRITICAL"
        detail := detail
          [bytes "Thermal ", formatD (thermal.getD 0), bytes "/100 but ",
            formatD (wrap32 (throttled + rThrottl)),
            bytes (" cores throttled + kernel drift + SELinux permissive -- " ++
              "thermal HAL interception. Dynamic deception: history rewritten post-boot.")]
        mitre := "T1481"
        confidence := 80 / 100 }
  else none

def detectBinderProximity : Option Pattern :=
  let trust := docs.int "tigerclawd" "trust_score"
  let drift := docs.int "tigerclawd" "drift"
  let orphans := docs.int "ratkingd" "orphans"
  let priv := (docs.int "burned" "privacy_signal_count").getD 0
  if !docs.has "tigerclawd" || !docs.has "ratkingd" then none
  else if drift.any (fun d => 2 ≤ d && d ≤ 6) && trust.any (85 < ·) && orphans.any (2 < ·) &&
      tcpTotal docs < 5 && 5 ≤ priv then
    some
      { kind := .binderProximity
        severity := "CRITICAL"
        detail := detail
          [bytes "Binder drift ", formatD (drift.getD 0), bytes " but trust ",
            formatD (trust.getD 0), bytes "/100 + ", formatD (orphans.getD 0), bytes " orphans + ",
            formatD (tcpTotal docs),
            bytes (" TCP -- binder injection staging. Orphans (PPID=1) suggest " ++
              "parent killed post-exploit. Low TCP = pre-exfil.")]
        mitre := "T1437"
        confidence := 72 / 100 }
  else none

def detectMemoryExtensionTrap : Option Pattern :=
  let memLow := docs.bool "ratkingd" "memory_low"
  let ooms := (docs.int "fugitoidd" "oom_events").getD 0
  let crashes := (docs.int "fugitoidd" "crashes").getD 0
  let throttled := (docs.int "rocksteadyd" "throttled_cores").getD 0
  let explain := disclosures docs extensionProps
  let disclosed : Bool := explain ≠ []
  let conf : ℚ := 68 / 100 + (if 2 < throttled then 10 / 100 else 0) -
    (if disclosed then 25 / 100 else 0)
  let symptoms :=
    [bytes "memory_low=false but ", formatD ooms, bytes " OOMs + ", formatD crashes,
      bytes " crashes + ", formatF1 (drain docs), bytes " mAh/hr + ", formatD throttled]
  if !docs.has "ratkingd" || !docs.has "fugitoidd" then none
  else if memLow == some false && 0 < ooms && 0 < crashes && above (drain docs) 150 &&
      30 / 100 ≤ conf then
    some
      { kind := .memoryExtensionTrap
        severity := if disclosed then "LOW" else "WARNING"
        detail :=
          if disclosed then
            detail (symptoms ++
              [bytes (" throttled -- matches HyperOS Memory Extension pattern, but " ++
                  "disclosed as active in policy ("),
                (explain.map bytes).flatten,
                bytes "); likely expected behavior, not a hidden trap"])
          else
            detail (symptoms ++
              [bytes (" throttled -- directed kills via HyperOS Memory Extension. " ++
                "Targets likely privacy tools or VPN processes.")])
        mitre := "T1426"
        confidence := conf }
  else none

def detectRadioSilence : Option Pattern :=
  let spikes := docs.int "nulld" "total_spike_events"
  let idleSec := (docs.int "nulld" "idle_seconds").getD 0
  if !docs.has "rahzerd" || !docs.has "nulld" then none
  else if screen docs = "off".toList && 300 < idleSec && tcpTotal docs < 3 && spikes.any (2 < ·) &&
      above (drain docs) 100 then
    some
      { kind := .radioSilence
        severity := "WARNING"
        detail := detail
          [bytes "Screen off ", formatD idleSec, bytes "s: only ", formatD (tcpTotal docs),
            bytes " TCP + ", formatD (spikes.getD 0), bytes " spikes + ", formatF1 (drain docs),
            bytes (" mAh/hr -- possible QUIC/UDP fallback. Device may have detected " ++
              "network monitor and switched to UDP to evade TCP inspection.")]
        mitre := "T1437"
        confidence := 65 / 100 }
  else none

def detectPrivacyDecoy : Option Pattern :=
  let sigs := docs.int "burned" "privacy_signal_count"
  let trust := (docs.int "tigerclawd" "trust_score").getD 100
  let gScore := (docs.int "granitord" "score").getD 100
  if !docs.has "burned" then none
  else if sigs.any (10 ≤ ·) && 90 < trust && 90 < gScore then
    some
      { kind := .privacyDecoy
        severity := "WARNING"
        detail := detail
          [formatD (sigs.getD 0), bytes " signals but trust ", formatD trust,
            bytes "/100 + posture ", formatD gScore,
            bytes ("/100 high -- decoy flood. High-volume benign signals masking " ++
              "critical insertion. Review signal list manually.")]
        mitre := "T1429"
        confidence := 60 / 100 }
  else none

/-! ## One poll -/

/-- What `detect_priv_escalation` adds. -/
structure Escalation where
  pattern : Pattern
  kind_eq : pattern.kind = .privEscalation

/-- The detectors in the order `main` calls them. -/
def detectors (window : Option Escalation) : List (Option Pattern) :=
  [detectThermalOom docs, detectIdleSurveillance docs, detectSensorExfil docs,
    detectSecurityWeakening docs, detectPrivacyErosion docs, detectThermalDeception docs,
    detectIdleExfilBeacon docs, detectSensorStalking docs, detectWakelockAbuse docs,
    window.map Escalation.pattern, detectMemoryPressureManip docs, detectDozeBypass docs,
    detectThermalAmnesia docs, detectBinderProximity docs, detectMemoryExtensionTrap docs,
    detectRadioSilence docs, detectPrivacyDecoy docs]

/-- The patterns in the order of their detectors. -/
def Kind.all : List Kind :=
  [.thermalOom, .idleSurveillance, .sensorExfil, .securityWeakening, .privacyErosion,
    .thermalDeception, .idleExfilBeacon, .sensorStalking, .wakelockAbuse, .privEscalation,
    .memoryPressureManip, .dozeBypass, .thermalAmnesia, .binderProximity, .memoryExtensionTrap,
    .radioSilence, .privacyDecoy]

/-- The detector of a pattern. -/
def detect (window : Option Escalation) : Kind → Option Pattern
  | .thermalOom => detectThermalOom docs
  | .idleSurveillance => detectIdleSurveillance docs
  | .sensorExfil => detectSensorExfil docs
  | .securityWeakening => detectSecurityWeakening docs
  | .privacyErosion => detectPrivacyErosion docs
  | .thermalDeception => detectThermalDeception docs
  | .idleExfilBeacon => detectIdleExfilBeacon docs
  | .sensorStalking => detectSensorStalking docs
  | .wakelockAbuse => detectWakelockAbuse docs
  | .privEscalation => window.map Escalation.pattern
  | .memoryPressureManip => detectMemoryPressureManip docs
  | .dozeBypass => detectDozeBypass docs
  | .thermalAmnesia => detectThermalAmnesia docs
  | .binderProximity => detectBinderProximity docs
  | .memoryExtensionTrap => detectMemoryExtensionTrap docs
  | .radioSilence => detectRadioSilence docs
  | .privacyDecoy => detectPrivacyDecoy docs

/-- `g_patterns` at the end of a poll. -/
def patterns (window : Option Escalation) : List Pattern :=
  (detectors docs window).foldl (fun ps found => found.elim ps (addPattern ps)) []

end Detectors

/-! ## What is added -/

/-- As long as there is room, what a detector found is added. -/
theorem mem_addPatterns {found : List (Option Pattern)} {ps : List Pattern}
    (hroom : ps.length + found.length ≤ maxPatterns) (p : Pattern) :
    p ∈ found.foldl (fun ps found => found.elim ps (addPattern ps)) ps ↔ p ∈ ps ∨ some p ∈ found := by
  induction found generalizing ps with
  | nil => simp
  | cons x found ih =>
      rw [List.length_cons] at hroom
      rw [List.foldl_cons]
      cases x with
      | none =>
          rw [ih (by simpa using by omega)]
          simp
      | some q =>
          have hadd : addPattern ps q = ps ++ [q] := if_neg (by omega)
          have hlen : (ps ++ [q]).length + found.length ≤ maxPatterns := by
            rw [List.length_append, List.length_singleton]
            omega
          rw [Option.elim_some, hadd, ih hlen]
          simp [or_assoc]

/-- The array of patterns is never full. -/
theorem mem_patterns {D : Type} [Document D] {docs : Results D} {window : Option Escalation}
    {p : Pattern} : p ∈ patterns docs window ↔ some p ∈ detectors docs window := by
  unfold patterns
  rw [mem_addPatterns (by simp [detectors, maxPatterns])]
  simp

section Guarded

variable {absent cond : Prop} [Decidable absent] [Decidable cond]

/-- A detector adds its own pattern or nothing. -/
theorem of_guarded {q p : Pattern}
    (h : (if absent then none else if cond then some q else none) = some p) : p = q := by
  split at h
  · cases h
  · split at h
    · exact (Option.some.inj h).symm
    · cases h

theorem isSome_guarded {q : Pattern} :
    (if absent then none else if cond then some q else none).isSome = true ↔ ¬ absent ∧ cond := by
  by_cases ha : absent <;> by_cases hc : cond <;> simp [ha, hc]

end Guarded

section Added

variable {D : Type} [Document D] {docs : Results D} {window : Option Escalation}

theorem kind_of_detect {k : Kind} {p : Pattern} (h : detect docs window k = some p) : p.kind = k := by
  cases k with
  | privEscalation =>
      obtain ⟨e, -, rfl⟩ := Option.map_eq_some_iff.mp h
      exact e.kind_eq
  | _ =>
      rw [of_guarded h]

/-- Some pattern of this name is added in the poll. -/
def Added (docs : Results D) (window : Option Escalation) (k : Kind) : Prop :=
  ∃ p ∈ patterns docs window, p.kind = k

/-- **A pattern is added just if its detector finds it.** -/
theorem added_iff {k : Kind} : Added docs window k ↔ (detect docs window k).isSome = true := by
  have hlist : detectors docs window = Kind.all.map (detect docs window) := rfl
  have hall : k ∈ Kind.all := by cases k <;> decide
  unfold Added
  simp only [mem_patterns, hlist, List.mem_map]
  constructor
  · rintro ⟨p, ⟨k', -, hk'⟩, rfl⟩
    rw [kind_of_detect hk', hk']
    rfl
  · intro h
    obtain ⟨p, hp⟩ := Option.isSome_iff_exists.mp h
    exact ⟨p, ⟨k, hall, hp⟩, kind_of_detect hp⟩

end Added

end MiuiserPeruser.Overlord
