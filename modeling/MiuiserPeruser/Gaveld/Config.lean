import Mathlib.Tactic.Linarith
import Mathlib.Tactic.NormNum

/-!
# gaveld — configuration (`config.h`)

The constants the modelled functions read, under the names of `config.h`
in camel case. Scores and multipliers are exact rationals; times are
seconds unless a name says otherwise.
-/

namespace MiuiserPeruser.Gaveld

/-! ## Scoring thresholds and decay -/

abbrev threshJailed : ℚ := 80
abbrev threshHouseArrest : ℚ := 70
abbrev threshQuarantined : ℚ := 50
abbrev threshWarned : ℚ := 40
abbrev threshWatched : ℚ := 20
abbrev maxScore : ℚ := 100
abbrev scoreFloor : ℚ := 0

abbrev decayFactor : ℚ := 88 / 100
def signalWindowSec : Int := 120

/-! ## Consent and ethical floors -/

def consentTimeoutJailed : Int := 0
def consentTimeoutHouseArrest : Int := 1800
def consentTimeoutQuarantined : Int := 600
def consentJailedHardLimit : Int := 86400
def consentRenotifyInterval : Int := 600

def floorCleanSignalMaxAgeSec : Int := 60

/-! ## Covariance, tier and recidivism multipliers -/

abbrev covIntegrityViolation : ℚ := 180 / 100
abbrev covNetworkCpu : ℚ := 160 / 100
abbrev covWakelockNetwork : ℚ := 150 / 100
abbrev covThermalCpuCritical : ℚ := 140 / 100
abbrev covThermalNetwork : ℚ := 130 / 100
abbrev covCpuWakelock : ℚ := 120 / 100
abbrev covStackBonus : ℚ := 120 / 100
abbrev covStackMinSignals : Nat := 3

abbrev tierModOwnDaemon : ℚ := 40 / 100
abbrev tierModSovereignty : ℚ := 15 / 100
abbrev tierModMiuiAosp : ℚ := 60 / 100
abbrev tierModUnknown : ℚ := 1

abbrev recidMultiJail : ℚ := 2
abbrev recidSingleJail : ℚ := 160 / 100
abbrev recidQuarantine : ℚ := 130 / 100
abbrev recidNone : ℚ := 1

/-! ## Queue sizes -/

def ingestQueueSize : Nat := 256
def verdictQueueSize : Nat := 64
def consentQueueSize : Nat := 32

/-- `db_threat_t rows[512]` in `decay_tick`. -/
def decayMaxRows : Nat := 512

/-- `BUF_SIZE`, the line buffers of the socket and the ingest pipe. -/
abbrev bufSize : Nat := 2048

/-! ## Paths -/

def baseDir : String := "/data/data/com.termux/files/home/MiuiserPeruser"
def gaveldSock : String := baseDir ++ "/pipes/gaveld.sock"
def rishPath : String := baseDir ++ "/rish"

end MiuiserPeruser.Gaveld
