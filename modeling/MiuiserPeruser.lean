import MiuiserPeruser.Gaveld.ScoringLog
import MiuiserPeruser.Gaveld.Serial
import MiuiserPeruser.Gaveld.Verdict
import MiuiserPeruser.Gaveld.Threads
import MiuiserPeruser.Gaveld.System
import MiuiserPeruser.Gaveld.Approval
import MiuiserPeruser.Gaveld.InFlight
import MiuiserPeruser.Gaveld.Protection
import MiuiserPeruser.Gaveld.EthicalFloor
import MiuiserPeruser.Gaveld.Gates
import MiuiserPeruser.Gaveld.CaseIdentity
import MiuiserPeruser.Gaveld.Judgement
import MiuiserPeruser.Gaveld.PendingTable
import MiuiserPeruser.Gaveld.Queues
import MiuiserPeruser.Gaveld.Noninterference
import MiuiserPeruser.Gaveld.Emit
import MiuiserPeruser.Gaveld.Commands
import MiuiserPeruser.Bexec.Wrap
import MiuiserPeruser.Bexec.Pty
import MiuiserPeruser.Splinter.Copies
import MiuiserPeruser.Splinter.Accounting
import MiuiserPeruser.Krang.Status
import MiuiserPeruser.Krang.Poll
import MiuiserPeruser.Tigerclaw.Probe
import MiuiserPeruser.Lib.CInt
import MiuiserPeruser.Tigerclaw.Baseline
import MiuiserPeruser.Overlord.Documents
import MiuiserPeruser.Overlord.Detectors
import MiuiserPeruser.Overlord.Telemetry
import MiuiserPeruser.Lib.Quoted
import MiuiserPeruser.Nulld.Document
import MiuiserPeruser.Overlord.Screen
import MiuiserPeruser.Gaveld.Fleet
import MiuiserPeruser.Shredder.Drift
import MiuiserPeruser.Shredder.DriftReport
import MiuiserPeruser.Lib.FirstMatch
import MiuiserPeruser.Gaveld.Covariance
import MiuiserPeruser.Gaveld.DecayTicks
import MiuiserPeruser.Lib.LinkedQueue
import MiuiserPeruser.April.EventQueue
import MiuiserPeruser.Raph.Network
import MiuiserPeruser.Turtlecom.Singleton
import MiuiserPeruser.Lib.FileTree
import MiuiserPeruser.Gdpr.Purge
import MiuiserPeruser.Lib.Lines
import MiuiserPeruser.Tigerclaw.Document
import MiuiserPeruser.Overlord.Trust
import MiuiserPeruser.Burned.Results
import MiuiserPeruser.Overlord.Disclosures
import MiuiserPeruser.Burned.Props
import MiuiserPeruser.Lib.Json
import MiuiserPeruser.Leo.SarExport
import MiuiserPeruser.Bexec.Batch
import MiuiserPeruser.Bexec.Budget
import MiuiserPeruser.Bexec.BatchSplit
import MiuiserPeruser.Shredder.Confirmation
import MiuiserPeruser.Krang.Package
import MiuiserPeruser.Splinter.Notification
import MiuiserPeruser.Gaveld.Informational
import MiuiserPeruser.Gaveld.Enrichment
import MiuiserPeruser.Lib.CTime
import MiuiserPeruser.Splinter.SilenceGap
import MiuiserPeruser.Lib.InsertionSort
import MiuiserPeruser.Rocksteady.Cores
import MiuiserPeruser.Lib.Word
import MiuiserPeruser.Rocksteady.Stat
import MiuiserPeruser.Rocksteady.Poll
import MiuiserPeruser.Lib.LineTokens
import MiuiserPeruser.Shredder.VmTrends
import MiuiserPeruser.Shredder.BaselineFile
import MiuiserPeruser.Shredder.ModuleSurface
import MiuiserPeruser.Tigerclaw.Certs
import MiuiserPeruser.Nulld.Poll
import MiuiserPeruser.Nulld.Idle
import MiuiserPeruser.Nulld.Transmitters
import MiuiserPeruser.Overlord.Window
import MiuiserPeruser.Lib.NumberRow
import MiuiserPeruser.Ratking.CpuTime
import MiuiserPeruser.Lib.Welford
import MiuiserPeruser.Ratking.Baseline
import MiuiserPeruser.Ratking.Poll
import MiuiserPeruser.Lib.JoinedText
import MiuiserPeruser.Burned.Signals
import MiuiserPeruser.Leo.Baseline
import MiuiserPeruser.Casey.Modules
import MiuiserPeruser.Casey.Services
import MiuiserPeruser.Don.Integrity
import MiuiserPeruser.Don.FailedReads
import MiuiserPeruser.Granitor.Attestation
import MiuiserPeruser.Bebop.WakeLocks
import MiuiserPeruser.Burned.JsonEscape
import MiuiserPeruser.Raph.Loopback
import MiuiserPeruser.Lib.Readings
import MiuiserPeruser.Rahzer.State
import MiuiserPeruser.Rahzer.Wifi
import MiuiserPeruser.Leatherhead.Thermal
import MiuiserPeruser.Fugitoid.Settings
import MiuiserPeruser.Lib.Reach
import MiuiserPeruser.Gaveld.Shutdown
import MiuiserPeruser.Gaveld.Record
import MiuiserPeruser.Lib.Journal
import MiuiserPeruser.Gaveld.Audit
import MiuiserPeruser.Gaveld.Blocking
import MiuiserPeruser.Gaveld.Cadence
import MiuiserPeruser.Lib.SharedFile
import MiuiserPeruser.Bexec.Cache
import MiuiserPeruser.Superhero.Consent
import MiuiserPeruser.Turtlecom.Transport
import MiuiserPeruser.Rahzer.Ports
import MiuiserPeruser.Don.Behavior
import MiuiserPeruser.Lib.KeyedRows
import MiuiserPeruser.Raph.Memory
import MiuiserPeruser.Superhero.DeepScan
import MiuiserPeruser.Ratking.Lifecycle
import MiuiserPeruser.Ratking.Learning
import MiuiserPeruser.Lib.Placed
import MiuiserPeruser.Tigerclaw.Admins
import MiuiserPeruser.Tigerclaw.Watch
import MiuiserPeruser.Bexec.Portscan
import MiuiserPeruser.Lib.Streak
import MiuiserPeruser.Granitor.Posture
