import MiuiserPeruser.Nulld.Document

/-!
# nulld — the polls (`nulld.c`)

A poll as a function of the globals and of what the commands print: the
screen, the connections and the bytes, the spikes while the screen is off,
and every 60 seconds of it the packages that netstats has sessions of. The
copies `baseline_rx` and `baseline_tx` always hold the bytes of
`g_idle_baseline`, so there is one baseline here.

`g_baseline_sessions` is read, and nothing writes it
(`stateAfter_baselineSessions`).
-/

namespace MiuiserPeruser.Nulld

open CText

/-! ## What is read -/

/-- What the commands of a poll print, and the last bytes of the names in the
array of `check_suspicious_transmitters`. -/
structure Outputs where
  health : Option (List Char)
  power : Option (List Char)
  tcp4 : Option (List Char)
  tcp6 : Option (List Char)
  netDev : Option (List Char)
  netstats : Option (List Char)
  last : Nat → Char

/-- `null_run`: an empty output is none. -/
def nullRun (out : Option (List Char)) : Option (List Char) := out.filter (· ≠ [])

/-- `get_screen_state`. -/
def getScreenState (o : Outputs) : ScreenState :=
  match nullRun o.power with
  | none => .unknown
  | some out =>
      if (strstr "Asleep".toList out).isSome ∨ (strstr "Dozing".toList out).isSome then .off
      else if (strstr "Awake".toList out).isSome then .on
      else .unknown

/-- One of the counts of `get_tcp_counts`. -/
def tcpCount (out : Option (List Char)) : Int :=
  match nullRun out with
  | none => 0
  | some t => wrap32 (atoi t - 1)

/-- The format of `get_net_bytes`. -/
def netFormat : List Directive := (List.replicate 9 percentLD).flatten

/-- What `get_net_bytes` scans. -/
def netValues (o : Outputs) : List Value :=
  match (nullRun o.netDev).map (·.dropWhile (· ≠ ':')) with
  | some (':' :: p) => scanf netFormat p
  | _ => []

/-- `net_snapshot_t` without its time. -/
structure Snapshot where
  tcp4 : Int
  tcp6 : Int
  rx : Int
  tx : Int
  ints : IsInt tcp4 ∧ IsInt tcp6
  longs : IsLong rx ∧ IsLong tx

theorem isInt_zero : IsInt 0 ∧ IsInt 0 := by decide

theorem isLong_zero : IsLong 0 ∧ IsLong 0 := by decide

theorem isInt_tcpCount (out : Option (List Char)) : IsInt (tcpCount out) := by
  unfold tcpCount
  split
  · decide
  · exact isInt_wrap32 _

theorem isLong_netValues (o : Outputs) (i : Nat) : IsLong (numAt (netValues o) i) := by
  refine numAt_of_forall isLong_zero.1 (fun n h => ?_) i
  unfold netValues at h
  split at h
  · obtain ⟨base, store, negative, k, hmem, rfl⟩ := scanf_num_stored h
    have hd : Directive.number base store ∈ percentLD := by
      obtain ⟨ds, hds, hmem⟩ := List.mem_flatten.mp hmem
      rwa [List.eq_of_mem_replicate hds] at hmem
    have hstore : Directive.number base store = .number 10 (storeSigned 64) := by
      simpa [percentLD] using hd
    cases hstore
    exact isLong_wrap64 _
  · exact absurd h List.not_mem_nil

/-- `get_tcp_counts` and `get_net_bytes`. -/
def snapshot (o : Outputs) : Snapshot where
  tcp4 := tcpCount o.tcp4
  tcp6 := tcpCount o.tcp6
  rx := numAt (netValues o) 0
  tx := numAt (netValues o) 8
  ints := ⟨isInt_tcpCount _, isInt_tcpCount _⟩
  longs := ⟨isLong_netValues o 0, isLong_netValues o 8⟩

/-- The connections. -/
def Snapshot.tcp (n : Snapshot) : Int := wrap32 (n.tcp4 + n.tcp6)

/-- `{0}`. -/
def Snapshot.zero : Snapshot := ⟨0, 0, 0, 0, isInt_zero, isLong_zero⟩

/-! ## What is reported -/

/-- A signal, to the court and to splinterd: the number before it is made a
double, and the text. -/
structure Event where
  code : String
  value : Int
  context : List Char
  deriving DecidableEq

/-- `SUSPICIOUS_IDLE_PKGS`. -/
def suspiciousIdlePkgs : List String :=
  ["com.miui.analytics", "com.xiaomi.market", "com.miui.daemon", "com.xiaomi.finddevice",
    "com.miui.systemAdSolution", "com.miui.cloudbackup", "com.miui.cloudservice", "com.miui.stats"]

/-- The signal of a package that is one of them. -/
def telemetryEvent (p : PkgSessions) (delta : Int) : Event where
  code := "XIAOMI_IDLE_TELEMETRY"
  value := delta
  context := snprintf 256 ("Xiaomi telemetry active while idle: ".toList ++ p.pkg ++ " +".toList ++
    formatD delta ++ " sessions".toList)

def telemetry (p : PkgSessions) (delta : Int) : List Event :=
  (suspiciousIdlePkgs.filter fun k => (strstr k.toList p.pkg).isSome).map fun _ => telemetryEvent p delta

/-- What `check_suspicious_transmitters` has so far: its report, the packages
that `found` counts, and the signals. -/
structure TransmitterCheck where
  report : List Char
  found : List PkgSessions
  events : List Event

def TransmitterCheck.empty : TransmitterCheck := ⟨[], [], []⟩

/-- A pass of the loop. -/
def checkTransmitter (baseline : List PkgSessions) (rlen : Nat) (c : TransmitterCheck) (p : PkgSessions) :
    TransmitterCheck :=
  let delta := wrap32 (p.sessions - baselineSessions baseline p.uid)
  if 0 < delta then
    { report := addTransmitter baseline rlen c.report p
      found := c.found ++ [p]
      events := c.events ++ telemetry p delta }
  else c

/-- `check_suspicious_transmitters`; `none` where a name runs on past its
array. -/
def checkTransmitters (baseline : List PkgSessions) (o : Outputs) (rlen : Nat) : Option TransmitterCheck :=
  (getPackageSessions o.last (nullRun o.netstats) 64).map (·.foldl (checkTransmitter baseline rlen) .empty)

/-! ## The loop -/

/-- The globals. -/
structure IdleState where
  prevScreen : ScreenState
  idleBaseline : Snapshot
  idleSecs : Int
  totalEvents : Int
  baselineSessions : List PkgSessions
  adbHealthy : Bool
  consecutiveFailures : Int

/-- When a process starts. -/
def IdleState.initial : IdleState where
  prevScreen := .unknown
  idleBaseline := .zero
  idleSecs := 0
  totalEvents := 0
  baselineSessions := []
  adbHealthy := true
  consecutiveFailures := 0

def pollSec : Int := 10
def idleSpikeThreshold : Int := 5
def idleBytesThreshold : Int := 102400

/-- `check_adb_health`. -/
def checkAdbHealth (s : IdleState) (o : Outputs) : IdleState :=
  let healthy := (nullRun o.health).any fun out => (strstr "adb_ok".toList out).isSome
  { s with
    adbHealthy := healthy
    consecutiveFailures := if healthy then 0 else wrap32 (s.consecutiveFailures + 1) }

/-- The block under "Screen just turned off". -/
def captureBaseline (s : IdleState) (o : Outputs) : IdleState :=
  if getScreenState o = .off ∧ s.prevScreen = .on then { s with idleBaseline := snapshot o, idleSecs := 0 }
  else s

/-- What a poll measures while the screen is off; otherwise there is nothing
of it. -/
structure Measured where
  idleRxDelta : Int
  idleTxDelta : Int
  tcpDelta : Int
  spikes : List Event
  check : Option TransmitterCheck

def Measured.nothing : Measured := ⟨0, 0, 0, [], some .empty⟩

/-- The signal of a connection spike. -/
def connectionSpike (n : Snapshot) (tcpDelta idleSecs : Int) : Event where
  code := "IDLE_CONNECTION_SPIKE"
  value := tcpDelta
  context := snprintf 256 ("CONNECTION SPIKE while idle: +".toList ++ formatD tcpDelta ++
    " connections (tcp4=".toList ++ formatD n.tcp4 ++ " tcp6=".toList ++ formatD n.tcp6 ++
    ") after ".toList ++ formatD idleSecs ++ "s idle".toList)

/-- The signal of data that was transmitted. -/
def dataTransmission (idleRxDelta idleTxDelta idleSecs : Int) : Event where
  code := "IDLE_DATA_TRANSMISSION"
  value := idleTxDelta.tdiv 1024
  context := snprintf 256 ("DATA TRANSMITTED while idle: ".toList ++ formatD (idleTxDelta.tdiv 1024) ++
    "KB tx, ".toList ++ formatD (idleRxDelta.tdiv 1024) ++ "KB rx after ".toList ++ formatD idleSecs ++
    "s idle".toList)

/-- The block under "Screen is off". -/
def monitorIdle (s : IdleState) (o : Outputs) : IdleState × Measured :=
  let n := snapshot o
  let idleSecs := wrap32 (s.idleSecs + pollSec)
  let idleRxDelta := wrap64 (n.rx - s.idleBaseline.rx)
  let idleTxDelta := wrap64 (n.tx - s.idleBaseline.tx)
  let tcpDelta := wrap32 (n.tcp - s.idleBaseline.tcp)
  let spikes :=
    (if idleSpikeThreshold ≤ tcpDelta then [connectionSpike n tcpDelta idleSecs] else []) ++
      if idleBytesThreshold < idleTxDelta then [dataTransmission idleRxDelta idleTxDelta idleSecs] else []
  let check :=
    if idleSecs.tmod 60 = 0 ∧ 0 < idleSecs then checkTransmitters s.baselineSessions o 512 else some .empty
  ({ s with
      idleSecs := idleSecs
      totalEvents := wrap32 (s.totalEvents + spikes.length) },
    ⟨idleRxDelta, idleTxDelta, tcpDelta, spikes, check⟩)

/-- An iteration of the loop in `main`: the globals, and what it measured. -/
def poll (s : IdleState) (o : Outputs) : IdleState × Measured :=
  let screen := getScreenState o
  let s := captureBaseline (checkAdbHealth s o) o
  let (s, m) := if screen = .off then monitorIdle s o else (s, .nothing)
  let s := if screen = .on ∧ s.prevScreen = .off then { s with idleSecs := 0 } else s
  ({ s with prevScreen := screen }, m)

/-- The signals of a poll. -/
def Measured.events (m : Measured) (c : TransmitterCheck) : List Event :=
  m.spikes ++ c.events ++ if c.report = [] then [] else [⟨"SUSPICIOUS_IDLE_TRANSMITTER", 1, c.report⟩]

/-- The arguments of `write_json`. -/
def reading (time : Tm) (s : IdleState) (o : Outputs) (c : TransmitterCheck) : Reading :=
  let n := snapshot o
  let (s', m) := poll s o
  { time := time
    screen := getScreenState o
    tcp4 := n.tcp4
    tcp6 := n.tcp6
    rx := n.rx
    tx := n.tx
    spike := m.spikes ≠ []
    idleSecs := s'.idleSecs
    idleRxDelta := m.idleRxDelta
    idleTxDelta := m.idleTxDelta
    suspicious := c.report
    totalEvents := s'.totalEvents
    adbHealthy := s'.adbHealthy
    consecutiveFailures := s'.consecutiveFailures }

/-- The globals after a run. -/
def stateAfter (run : List Outputs) : IdleState := run.foldl (fun s o => (poll s o).1) .initial

/-! ## What a poll changes -/

section Poll

variable {s : IdleState} {o : Outputs}

/-- With the screen off: at the edge the baseline is the counters of the poll,
and the seconds are gone. -/
theorem captureBaseline_off (h : getScreenState o = .off) : captureBaseline s o =
    { s with
      idleBaseline := if s.prevScreen = .on then snapshot o else s.idleBaseline
      idleSecs := if s.prevScreen = .on then 0 else s.idleSecs } := by
  unfold captureBaseline
  by_cases hon : s.prevScreen = .on
  · rw [if_pos ⟨h, hon⟩, if_pos hon, if_pos hon]
  · rw [if_neg fun hedge => hon hedge.2, if_neg hon, if_neg hon]

theorem captureBaseline_other (h : getScreenState o ≠ .off) : captureBaseline s o = s :=
  if_neg fun hedge => h hedge.1

/-- A poll with the screen off. -/
theorem poll_off (h : getScreenState o = .off) : poll s o =
    ({ (monitorIdle (captureBaseline (checkAdbHealth s o) o) o).1 with prevScreen := .off },
      (monitorIdle (captureBaseline (checkAdbHealth s o) o) o).2) := by
  unfold poll
  simp only [h, if_true, reduceCtorEq, false_and, if_false]

/-- A poll with the screen on. -/
theorem poll_on (h : getScreenState o = .on) : poll s o =
    ({ checkAdbHealth s o with
        idleSecs := if s.prevScreen = .off then 0 else s.idleSecs
        prevScreen := .on }, .nothing) := by
  have hsame : captureBaseline (checkAdbHealth s o) o = checkAdbHealth s o :=
    captureBaseline_other (by simp [h])
  have hprev : (checkAdbHealth s o).prevScreen = s.prevScreen := rfl
  unfold poll
  simp only [h, reduceCtorEq, if_false, hsame, true_and, hprev]
  split
  · rfl
  · rfl

/-- A poll that cannot tell. -/
theorem poll_unknown (h : getScreenState o = .unknown) : poll s o =
    ({ checkAdbHealth s o with prevScreen := .unknown }, .nothing) := by
  have hsame : captureBaseline (checkAdbHealth s o) o = checkAdbHealth s o :=
    captureBaseline_other (by simp [h])
  unfold poll
  simp only [h, reduceCtorEq, if_false, false_and, hsame]

theorem poll_prevScreen : (poll s o).1.prevScreen = getScreenState o := rfl

/-- The baseline is captured when the screen goes from on to off. -/
theorem poll_idleBaseline : (poll s o).1.idleBaseline =
    if getScreenState o = .off ∧ s.prevScreen = .on then snapshot o else s.idleBaseline := by
  cases h : getScreenState o with
  | unknown =>
      rw [poll_unknown h]
      rfl
  | on =>
      rw [poll_on h]
      rfl
  | off =>
      rw [poll_off h, captureBaseline_off h]
      simp only [true_and]
      rfl

theorem poll_idleSecs_off (h : getScreenState o = .off) : (poll s o).1.idleSecs =
    wrap32 ((if s.prevScreen = .on then 0 else s.idleSecs) + pollSec) := by
  rw [poll_off h, captureBaseline_off h]
  rfl

theorem poll_idleSecs_unknown (h : getScreenState o = .unknown) : (poll s o).1.idleSecs = s.idleSecs := by
  rw [poll_unknown h]
  rfl

theorem poll_idleSecs_on (h : getScreenState o = .on) : (poll s o).1.idleSecs =
    if s.prevScreen = .off then 0 else s.idleSecs := by
  rw [poll_on h]

/-- What is measured refers to the baseline that the poll leaves. -/
theorem poll_measured (h : getScreenState o = .off) :
    (poll s o).2.idleRxDelta = wrap64 ((snapshot o).rx - (poll s o).1.idleBaseline.rx) ∧
      (poll s o).2.idleTxDelta = wrap64 ((snapshot o).tx - (poll s o).1.idleBaseline.tx) ∧
      (poll s o).2.tcpDelta = wrap32 ((snapshot o).tcp - (poll s o).1.idleBaseline.tcp) := by
  rw [poll_off h]
  exact ⟨rfl, rfl, rfl⟩

/-- Nothing writes the sessions. -/
theorem poll_baselineSessions : (poll s o).1.baselineSessions = s.baselineSessions := by
  cases h : getScreenState o with
  | unknown =>
      rw [poll_unknown h]
      rfl
  | on =>
      rw [poll_on h]
      rfl
  | off =>
      rw [poll_off h, captureBaseline_off h]
      rfl

end Poll

/-! ## Runs -/

theorem stateAfter_concat (run : List Outputs) (o : Outputs) :
    stateAfter (run ++ [o]) = (poll (stateAfter run) o).1 := by
  simp [stateAfter, List.foldl_append]

theorem stateAfter_append (run rest : List Outputs) :
    stateAfter (run ++ rest) = rest.foldl (fun s o => (poll s o).1) (stateAfter run) := List.foldl_append

/-- **The sessions are never kept.** -/
theorem stateAfter_baselineSessions (run : List Outputs) : (stateAfter run).baselineSessions = [] := by
  induction run using List.reverseRecOn with
  | nil => rfl
  | append_singleton run o ih => rw [stateAfter_concat, poll_baselineSessions, ih]

/-- `g_idle_secs` is an `int`. -/
theorem isInt_idleSecs (run : List Outputs) : IsInt (stateAfter run).idleSecs := by
  induction run using List.reverseRecOn with
  | nil => exact isInt_zero.1
  | append_singleton run o ih =>
      rw [stateAfter_concat]
      cases h : getScreenState o with
      | unknown => rwa [poll_idleSecs_unknown h]
      | on =>
          rw [poll_idleSecs_on h]
          split
          · exact isInt_zero.1
          · exact ih
      | off =>
          rw [poll_idleSecs_off h]
          exact isInt_wrap32 _

/-! ## Idle periods -/

/-- The polls from the first one with the screen off, after the last one with
the screen on if there was any. -/
def idlePeriod (run : List Outputs) : List Outputs :=
  (run.rtakeWhile (getScreenState · ≠ .on)).dropWhile (getScreenState · ≠ .off)

/-- The polls before them. -/
def beforeIdle (run : List Outputs) : List Outputs := run.take (run.length - (idlePeriod run).length)

theorem beforeIdle_append (run : List Outputs) : beforeIdle run ++ idlePeriod run = run :=
  List.suffix_iff_eq_append.mp ((List.dropWhile_suffix _).trans (List.rtakeWhile_suffix _ _))

theorem idlePeriod_not_on {run : List Outputs} : ∀ o ∈ idlePeriod run, getScreenState o ≠ .on := by
  intro o h
  have hmem := List.mem_rtakeWhile_imp ((List.dropWhile_suffix _).subset h)
  simpa using hmem

/-- While the screen is off there is one, and it begins with the screen off. -/
theorem idlePeriod_concat (run : List Outputs) {o : Outputs} (h : getScreenState o = .off) :
    ∃ first rest, idlePeriod (run ++ [o]) = first :: rest ∧ getScreenState first = .off := by
  cases hcons : idlePeriod (run ++ [o]) with
  | nil =>
      -- the last poll cannot be dropped
      have hmem : o ∈ (run ++ [o]).rtakeWhile (getScreenState · ≠ .on) := by
        rw [List.rtakeWhile_concat_pos _ _ _ (by simp [h])]
        simp
      have hdropped := List.dropWhile_eq_nil_iff.mp hcons o hmem
      simp [h] at hdropped
  | cons first rest =>
      have hnot := List.head?_dropWhile_not (getScreenState · ≠ .off)
        ((run ++ [o]).rtakeWhile (getScreenState · ≠ .on))
      have hfirst : ((run ++ [o]).rtakeWhile (getScreenState · ≠ .on)).dropWhile (getScreenState · ≠ .off) =
          first :: rest := hcons
      rw [hfirst] at hnot
      exact ⟨first, rest, rfl, by simpa using hnot⟩

end MiuiserPeruser.Nulld
