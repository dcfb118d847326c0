import Mathlib.Data.List.TakeDrop
import MiuiserPeruser.Lib.CText
import MiuiserPeruser.Lib.Readings
import MiuiserPeruser.Lib.Run

/-!
# rahzerd — history counters and baseline (`rahzerd.c`)

`rz_state_update` compares a snapshot with the one before it, and the first
one with nothing. The counters are those of the known readings exactly as
long as every change is seen between two neighbours, and the baseline is that
of the first connected poll as long as no reading before it is unknown
(`counters_exact`).
-/

namespace MiuiserPeruser.Rahzer

open CText Machine Readings

/-! ## The state engine -/

/-- What `rz_state_update` and `rz_establish_baseline` read of `rz_snapshot_t`.
-1 is an unknown reading. -/
structure Snapshot where
  timestamp : Int
  wifi_connected : Int
  wifi_bssid : List Char
  bssid_fits : wifi_bssid.length < 24
  mobile_data_active : Int
  dns_resolves : Int
  dns_latency_ms : Int
  divergence_detected : Int
  divergence_reason : List Char
  suspicious_listeners : Int

/-- A snapshot of zero bytes. -/
def Snapshot.zero : Snapshot := ⟨0, 0, [], Nat.zero_lt_succ _, 0, 0, 0, 0, [], 0⟩

/-- `rz_state_t`. No counter overflows: a poll takes five seconds. -/
structure State where
  prev : Snapshot
  curr : Snapshot
  first_poll : Bool
  wifi_connected_since : Int
  mobile_data_since : Int
  dns_failing_since : Int
  wifi_flap_count : Int
  dns_spike_count : Int

/-- What is sent: `rz_emit_delta`, `rz_emit_anomaly` and `gaveld_emit`. -/
inductive Emission where
  | delta (layer detail : List Char)
  | anomaly (type detail : List Char)
  | gaveld (signal context : List Char)

/-- The Wi-Fi part of `rz_state_update`. -/
def State.updateWifi (s : State) : State :=
  if s.prev.wifi_connected = 1 ∧ s.curr.wifi_connected = 0 then
    { s with wifi_flap_count := s.wifi_flap_count + 1, wifi_connected_since := 0 }
  else if s.prev.wifi_connected = 0 ∧ s.curr.wifi_connected = 1 then
    { s with wifi_connected_since := s.curr.timestamp }
  else s

/-- The mobile part. -/
def State.updateMobile (s : State) : State :=
  if s.prev.mobile_data_active ≠ s.curr.mobile_data_active ∧ s.curr.mobile_data_active = 1 then
    { s with mobile_data_since := s.curr.timestamp }
  else s

/-- The DNS part. -/
def State.updateDns (s : State) : State :=
  if s.prev.dns_resolves = 1 ∧ s.curr.dns_resolves = 0 then
    { s with dns_failing_since := s.curr.timestamp }
  else if s.curr.dns_resolves = 1 then { s with dns_failing_since := 0 }
  else s

/-- The latency part. -/
def State.updateSpikes (s : State) : State :=
  if s.curr.dns_latency_ms > 2000 then { s with dns_spike_count := s.dns_spike_count + 1 } else s

/-- What `rz_state_update` sends about two snapshots, in its order. -/
def emissions (prev curr : Snapshot) : List Emission :=
  (if prev.wifi_connected = 1 ∧ curr.wifi_connected = 0 then
    [.delta "wifi".toList "\x7b\"event\":\"disconnected\"\x7d".toList]
  else if prev.wifi_connected = 0 ∧ curr.wifi_connected = 1 then
    [.delta "wifi".toList "\x7b\"event\":\"connected\"\x7d".toList]
  else []) ++
  (if prev.mobile_data_active ≠ curr.mobile_data_active then
    [.delta "mobile".toList "\x7b\"event\":\"data_state_change\"\x7d".toList]
  else []) ++
  (if prev.dns_resolves = 1 ∧ curr.dns_resolves = 0 then
    [.gaveld "NO_DNS_RESOLUTION".toList "host=dns.google".toList,
      .anomaly "dns_failure".toList "\x7b\"host\":\"dns.google\"\x7d".toList]
  else []) ++
  (if curr.dns_latency_ms > 2000 then
    [.gaveld "DNS_ANOMALY".toList "latency=high".toList,
      .anomaly "dns_latency_spike".toList "\x7b\"latency_ms\":\"high\"\x7d".toList]
  else []) ++
  (if curr.divergence_detected ≠ 0 ∧ prev.divergence_detected = 0 then
    [.gaveld "XIAOMI_DIVERGENCE".toList curr.divergence_reason,
      .anomaly "xiaomi_divergence".toList curr.divergence_reason]
  else []) ++
  (if curr.suspicious_listeners > prev.suspicious_listeners then
    [.gaveld "PORT_ANOMALY".toList "suspicious_listener_detected".toList,
      .anomaly "suspicious_listener".toList "\x7b\"layer\":\"ports\"\x7d".toList]
  else [])

/-- `rz_state_update`, with the snapshot that `rz_snapshot` takes. -/
def stateUpdate (s : State) (snap : Snapshot) : State × List Emission :=
  let next := { s with prev := s.curr, curr := snap, first_poll := false }
  -- the first snapshot has none before it: the update returns here
  if s.first_poll then (next, [])
  else (next.updateWifi.updateMobile.updateDns.updateSpikes, emissions next.prev next.curr)

/-- `g_baseline_bssid`, `g_baseline_dns_ms` and `g_baseline_established`. -/
structure Baseline where
  bssid : List Char
  dns_ms : Int
  established : Bool

/-- `rz_establish_baseline`. -/
def establishBaseline (b : Baseline) (snap : Snapshot) : Baseline :=
  if b.established then b
  -- `!wifi.connected`: an unknown reading passes
  else if snap.wifi_connected = 0 then b
  else ⟨snap.wifi_bssid.take 17, snap.dns_latency_ms, true⟩

/-- The state of the daemon between two polls. -/
structure Daemon where
  state : State
  baseline : Baseline

/-- The state `main` starts with. -/
def boot : Daemon := ⟨⟨.zero, .zero, true, 0, 0, 0, 0, 0⟩, ⟨[], 0, false⟩⟩

/-- One round of `main`. -/
def poll (d : Daemon) (snap : Snapshot) : Daemon × List Emission :=
  let r := stateUpdate d.state snap
  (⟨r.1, establishBaseline d.baseline r.1.curr⟩, r.2)

def stateAfter (polls : List Snapshot) : Daemon := (run poll boot polls).1

/-! ## Known readings -/

/-- A flag of three values, as a reading. -/
def triState (flag : Int) : Option Bool :=
  if flag = 1 then some true else if flag = 0 then some false else none

def wifiReading (p : Snapshot) : Option Bool := triState p.wifi_connected

def dnsReading (p : Snapshot) : Option Bool := triState p.dns_resolves

theorem triState_eq_true_iff {flag : Int} : triState flag = some true ↔ flag = 1 := by
  unfold triState
  grind

theorem triState_eq_false_iff {flag : Int} : triState flag = some false ↔ flag = 0 := by
  unfold triState
  grind

/-- The first poll that is connected. -/
def firstConnected (polls : List Snapshot) : Option Snapshot :=
  polls.find? fun p => p.wifi_connected = 1

/-- The baseline is that of the first connected poll, and there is none before it. -/
def Rightly (b : Baseline) (first : Option Snapshot) : Prop :=
  b.established = first.isSome ∧
    ∀ p, first = some p → b.bssid = p.wifi_bssid ∧ b.dns_ms = p.dns_latency_ms

/-- When a run began, or 0. -/
def since (start : Option Snapshot) : Int := (start.map Snapshot.timestamp).getD 0

/-- The counters are those of the known readings. -/
structure Exact (d : Daemon) (polls : List Snapshot) : Prop where
  flaps : d.state.wifi_flap_count = changes wifiReading true false polls
  connected : d.state.wifi_connected_since = since (runStart wifiReading true polls)
  failing : d.state.dns_failing_since = since (runStart dnsReading false polls)
  baseline : Rightly d.baseline (firstConnected polls)

/-- What the next poll reads is seen as what it is: a change of a known reading between
neighbours, and no unknown reading before there is a baseline. -/
structure Seen (polls : List Snapshot) (p : Snapshot) : Prop where
  connects : wifiReading p = some true → latest wifiReading polls ≠ some true →
    polls.getLast?.bind wifiReading = some false
  disconnects : wifiReading p = some false → latest wifiReading polls = some true →
    polls.getLast?.bind wifiReading = some true
  fails : dnsReading p = some false → latest dnsReading polls ≠ some false →
    polls.getLast?.bind dnsReading = some true
  known : firstConnected polls = none → wifiReading p ≠ none
  short : firstConnected polls = none → wifiReading p = some true → p.wifi_bssid.length ≤ 17

/-- Every poll of the history is seen. -/
def AllSeen (polls : List Snapshot) : Prop := ∀ front p, front ++ [p] <+: polls → Seen front p

/-! ## What one poll does -/

section Update

variable (s : State)

/-- The parts behind the Wi-Fi part leave its counters alone. -/
theorem wifi_of_rest : (s.updateMobile.updateDns.updateSpikes).wifi_flap_count = s.wifi_flap_count ∧
    (s.updateMobile.updateDns.updateSpikes).wifi_connected_since = s.wifi_connected_since := by
  unfold State.updateSpikes State.updateDns State.updateMobile
  split_ifs <;> exact ⟨rfl, rfl⟩

theorem updateWifi_frame : s.updateWifi.prev = s.prev ∧ s.updateWifi.curr = s.curr ∧
    s.updateWifi.first_poll = s.first_poll ∧ s.updateWifi.dns_failing_since = s.dns_failing_since := by
  unfold State.updateWifi
  split_ifs <;> exact ⟨rfl, rfl, rfl, rfl⟩

theorem updateMobile_frame : s.updateMobile.prev = s.prev ∧ s.updateMobile.curr = s.curr ∧
    s.updateMobile.first_poll = s.first_poll ∧
    s.updateMobile.dns_failing_since = s.dns_failing_since := by
  unfold State.updateMobile
  split_ifs <;> exact ⟨rfl, rfl, rfl, rfl⟩

theorem updateWifi_flaps : s.updateWifi.wifi_flap_count = s.wifi_flap_count +
    if s.prev.wifi_connected = 1 ∧ s.curr.wifi_connected = 0 then 1 else 0 := by
  unfold State.updateWifi
  split_ifs
  · rfl
  · exact (Int.add_zero _).symm
  · exact (Int.add_zero _).symm

theorem updateWifi_since : s.updateWifi.wifi_connected_since =
    if s.prev.wifi_connected = 1 ∧ s.curr.wifi_connected = 0 then 0
    else if s.prev.wifi_connected = 0 ∧ s.curr.wifi_connected = 1 then s.curr.timestamp
    else s.wifi_connected_since := by
  unfold State.updateWifi
  split_ifs <;> rfl

theorem updateDns_since : s.updateDns.dns_failing_since =
    if s.prev.dns_resolves = 1 ∧ s.curr.dns_resolves = 0 then s.curr.timestamp
    else if s.curr.dns_resolves = 1 then 0 else s.dns_failing_since := by
  unfold State.updateDns
  split_ifs <;> rfl

theorem updateDns_frame : s.updateDns.curr = s.curr ∧ s.updateDns.first_poll = s.first_poll := by
  unfold State.updateDns
  split_ifs <;> exact ⟨rfl, rfl⟩

theorem updateSpikes_frame : s.updateSpikes.curr = s.curr ∧
    s.updateSpikes.first_poll = s.first_poll ∧
    s.updateSpikes.dns_failing_since = s.dns_failing_since := by
  unfold State.updateSpikes
  split_ifs <;> exact ⟨rfl, rfl, rfl⟩

end Update

section Concat

variable (polls : List Snapshot) (p : Snapshot)

theorem stateAfter_concat : stateAfter (polls ++ [p]) = (poll (stateAfter polls) p).1 :=
  run_concat boot polls p

theorem curr_stateUpdate (s : State) : (stateUpdate s p).1.curr = p := by
  unfold stateUpdate
  split
  · rfl
  · rw [(updateSpikes_frame _).1, (updateDns_frame _).1, (updateMobile_frame _).2.1,
      (updateWifi_frame _).2.1]

theorem first_poll_stateUpdate (s : State) : (stateUpdate s p).1.first_poll = false := by
  unfold stateUpdate
  split
  · rfl
  · rw [(updateSpikes_frame _).2.1, (updateDns_frame _).2, (updateMobile_frame _).2.2.1,
      (updateWifi_frame _).2.2.1]

theorem baseline_concat : (stateAfter (polls ++ [p])).baseline =
    establishBaseline (stateAfter polls).baseline p := by
  rw [stateAfter_concat]
  show establishBaseline _ (stateUpdate _ p).1.curr = _
  rw [curr_stateUpdate]

/-- The snapshot before is the last one, if there is one. -/
theorem first_poll_stateAfter : (stateAfter polls).state.first_poll = polls.isEmpty := by
  induction polls using List.reverseRecOn with
  | nil => rfl
  | append_singleton polls p _ =>
      rw [stateAfter_concat]
      show (stateUpdate _ p).1.first_poll = _
      rw [first_poll_stateUpdate]
      simp

theorem curr_stateAfter : (stateAfter (polls ++ [p])).state.curr = p := by
  rw [stateAfter_concat]
  exact curr_stateUpdate p _

/-- What is read of the snapshot before the next one. -/
theorem last_reading (flag : Snapshot → Int) (b : Bool) :
    polls.getLast?.bind (fun q => triState (flag q)) = some b ↔
      (stateAfter polls).state.first_poll = false ∧
        triState (flag (stateAfter polls).state.curr) = some b := by
  rw [first_poll_stateAfter]
  induction polls using List.reverseRecOn with
  | nil => simp
  | append_singleton polls q _ =>
      rw [curr_stateAfter, List.getLast?_concat]
      simp

theorem flaps_concat : (stateAfter (polls ++ [p])).state.wifi_flap_count =
    (stateAfter polls).state.wifi_flap_count +
      if polls.getLast?.bind wifiReading = some true ∧ wifiReading p = some false then 1 else 0 := by
  have hlast := last_reading polls Snapshot.wifi_connected true
  rw [stateAfter_concat]
  show (stateUpdate _ p).1.wifi_flap_count = _
  unfold wifiReading
  rw [triState_eq_true_iff] at hlast
  simp only [triState_eq_false_iff, hlast]
  cases hfirst : (stateAfter polls).state.first_poll with
  | true => simp [stateUpdate, hfirst]
  | false =>
      simp only [stateUpdate, hfirst, Bool.false_eq_true, if_false, (wifi_of_rest _).1, true_and,
        updateWifi_flaps]

theorem connected_concat : (stateAfter (polls ++ [p])).state.wifi_connected_since =
    if polls.getLast?.bind wifiReading = some true ∧ wifiReading p = some false then 0
    else if polls.getLast?.bind wifiReading = some false ∧ wifiReading p = some true then p.timestamp
    else (stateAfter polls).state.wifi_connected_since := by
  have htrue := last_reading polls Snapshot.wifi_connected true
  have hfalse := last_reading polls Snapshot.wifi_connected false
  rw [stateAfter_concat]
  show (stateUpdate _ p).1.wifi_connected_since = _
  unfold wifiReading
  rw [triState_eq_true_iff] at htrue
  rw [triState_eq_false_iff] at hfalse
  simp only [triState_eq_false_iff, triState_eq_true_iff, htrue, hfalse]
  cases hfirst : (stateAfter polls).state.first_poll with
  | true => simp [stateUpdate, hfirst]
  | false =>
      simp only [stateUpdate, hfirst, Bool.false_eq_true, if_false, (wifi_of_rest _).2, true_and,
        updateWifi_since]

theorem failing_concat : (stateAfter (polls ++ [p])).state.dns_failing_since =
    if polls.getLast?.bind dnsReading = some true ∧ dnsReading p = some false then p.timestamp
    else if polls ≠ [] ∧ dnsReading p = some true then 0
    else (stateAfter polls).state.dns_failing_since := by
  have htrue := last_reading polls Snapshot.dns_resolves true
  have hempty : polls ≠ [] ↔ (stateAfter polls).state.first_poll = false := by
    rw [first_poll_stateAfter, List.isEmpty_eq_false_iff]
  rw [stateAfter_concat]
  show (stateUpdate _ p).1.dns_failing_since = _
  unfold dnsReading
  rw [triState_eq_true_iff] at htrue
  simp only [triState_eq_false_iff, triState_eq_true_iff, htrue, hempty]
  cases hfirst : (stateAfter polls).state.first_poll with
  | true => simp [stateUpdate, hfirst]
  | false =>
      simp only [stateUpdate, hfirst, Bool.false_eq_true, if_false, (updateSpikes_frame _).2.2, true_and,
        updateDns_since, (updateMobile_frame _).1, (updateMobile_frame _).2.1, (updateWifi_frame _).1,
        (updateWifi_frame _).2.1, (updateMobile_frame _).2.2.2, (updateWifi_frame _).2.2.2]

end Concat

/-! ## Which histories are counted right -/

section Exact

variable {polls : List Snapshot} {p : Snapshot}

/-- The last reading, if it is known, is the latest. -/
theorem latest_of_last {reading : Snapshot → Option Bool} {b : Bool}
    (h : polls.getLast?.bind reading = some b) : latest reading polls = some b := by
  induction polls using List.reverseRecOn with
  | nil => cases h
  | append_singleton polls q _ =>
      rw [List.getLast?_concat] at h
      exact latest_concat_some h

theorem since_eq_zero {reading : Snapshot → Option Bool} {b : Bool}
    (h : latest reading polls ≠ some b) : since (runStart reading b polls) = 0 := by
  rw [runStart_eq_none_iff.mpr h]
  rfl

/-- The flaps stay right exactly if a disconnection follows its connection. -/
theorem flaps_iff (h : Exact (stateAfter polls) polls) :
    (stateAfter (polls ++ [p])).state.wifi_flap_count =
        changes wifiReading true false (polls ++ [p]) ↔
      (wifiReading p = some false → latest wifiReading polls = some true →
        polls.getLast?.bind wifiReading = some true) := by
  rw [flaps_concat, h.flaps]
  cases hp : wifiReading p with
  | none =>
      rw [changes_concat_none hp]
      simp
  | some b =>
      rw [changes_concat_some hp]
      by_cases hlast : polls.getLast?.bind wifiReading = some true
      · have hlatest := latest_of_last hlast
        cases b with
        | false => simp [hlast, hlatest]
        | true => simp
      · by_cases hlatest : latest wifiReading polls = some true
        · cases b with
          | false =>
              -- a flap that the reading between hides
              rw [if_neg fun h => hlast h.1, if_pos ⟨hlatest, rfl⟩]
              constructor
              · intro heq
                omega
              · intro hseen
                exact absurd (hseen rfl hlatest) hlast
          | true => simp
        · simp [hlast, hlatest]

/-- The time of connection stays right if both ends of a run are seen, -/
theorem connected_concat_of_seen (h : Exact (stateAfter polls) polls) (hp : Seen polls p) :
    (stateAfter (polls ++ [p])).state.wifi_connected_since =
      since (runStart wifiReading true (polls ++ [p])) := by
  rw [connected_concat, h.connected]
  cases hread : wifiReading p with
  | none => simp [runStart_concat_none hread]
  | some b =>
      cases b with
      | false =>
          rw [runStart_concat_other hread (by decide)]
          by_cases hlatest : latest wifiReading polls = some true
          · simp [hp.disconnects hread hlatest, since]
          · rw [since_eq_zero hlatest]
            simp [since]
      | true =>
          -- the run goes on, or begins with this poll
          rw [runStart_concat_same hread]
          by_cases hlatest : latest wifiReading polls = some true
          · have hlast : polls.getLast?.bind wifiReading ≠ some false := by
              intro hlast
              rw [latest_of_last hlast] at hlatest
              cases hlatest
            simp [hlatest, hlast]
          · simp [hlatest, hp.connects hread hlatest, since]

/-- and only then. -/
theorem connects_of_exact (h : Exact (stateAfter polls) polls)
    (hnext : Exact (stateAfter (polls ++ [p])) (polls ++ [p])) (htime : p.timestamp ≠ 0)
    (hread : wifiReading p = some true) (hlatest : latest wifiReading polls ≠ some true) :
    polls.getLast?.bind wifiReading = some false := by
  have hsince := hnext.connected
  rw [connected_concat, h.connected, runStart_concat_same hread, since_eq_zero hlatest] at hsince
  by_contra hlast
  simp [hread, hlatest, hlast, since] at hsince
  exact htime hsince.symm

theorem failing_concat_of_seen (h : Exact (stateAfter polls) polls) (hp : Seen polls p) :
    (stateAfter (polls ++ [p])).state.dns_failing_since =
      since (runStart dnsReading false (polls ++ [p])) := by
  rw [failing_concat, h.failing]
  cases hread : dnsReading p with
  | none => simp [runStart_concat_none hread]
  | some b =>
      cases b with
      | true =>
          rw [runStart_concat_other hread (by decide)]
          by_cases hempty : polls = []
          · subst hempty
            simp [since, runStart]
          · simp [hempty, since]
      | false =>
          rw [runStart_concat_same hread]
          by_cases hlatest : latest dnsReading polls = some false
          · have hlast : polls.getLast?.bind dnsReading ≠ some true := by
              intro hlast
              rw [latest_of_last hlast] at hlatest
              cases hlatest
            simp [hlatest, hlast]
          · simp [hlatest, hp.fails hread hlatest, since]

theorem fails_of_exact (h : Exact (stateAfter polls) polls)
    (hnext : Exact (stateAfter (polls ++ [p])) (polls ++ [p])) (htime : p.timestamp ≠ 0)
    (hread : dnsReading p = some false) (hlatest : latest dnsReading polls ≠ some false) :
    polls.getLast?.bind dnsReading = some true := by
  have hsince := hnext.failing
  rw [failing_concat, h.failing, runStart_concat_same hread, since_eq_zero hlatest] at hsince
  by_contra hlast
  simp [hread, hlatest, hlast, since] at hsince
  exact htime hsince.symm

theorem firstConnected_concat : firstConnected (polls ++ [p]) =
    (firstConnected polls).or (if p.wifi_connected = 1 then some p else none) := by
  rw [firstConnected, List.find?_append, firstConnected]
  congr 1
  by_cases hp : p.wifi_connected = 1
  · rw [if_pos hp, List.find?_cons_of_pos (by simpa using hp)]
  · rw [if_neg hp, List.find?_cons_of_neg (by simpa using hp), List.find?_nil]

/-- The baseline stays right exactly if the first reading that is not 0 is a
connected one, with a name that fits. -/
theorem rightly_concat_iff (h : Rightly (stateAfter polls).baseline (firstConnected polls)) :
    Rightly (stateAfter (polls ++ [p])).baseline (firstConnected (polls ++ [p])) ↔
      (firstConnected polls = none → wifiReading p ≠ none) ∧
        (firstConnected polls = none → wifiReading p = some true → p.wifi_bssid.length ≤ 17) := by
  rw [baseline_concat, firstConnected_concat]
  cases hfirst : firstConnected polls with
  | some q =>
      rw [hfirst] at h
      have hkept : establishBaseline (stateAfter polls).baseline p = (stateAfter polls).baseline :=
        if_pos h.1
      simp [hkept, h]
  | none =>
      rw [hfirst] at h
      have hopen : ¬ (stateAfter polls).baseline.established = true := by simp [h.1]
      rw [establishBaseline, if_neg hopen, Option.none_or]
      cases hread : wifiReading p with
      | none =>
          -- an unknown reading is taken for a connection
          have hzero : p.wifi_connected ≠ 0 := fun h0 => by
            rw [wifiReading, triState_eq_false_iff.mpr h0] at hread
            cases hread
          have hone : p.wifi_connected ≠ 1 := fun h1 => by
            rw [wifiReading, triState_eq_true_iff.mpr h1] at hread
            cases hread
          simp [hzero, hone, Rightly]
      | some b =>
          cases b with
          | false =>
              have hzero : p.wifi_connected = 0 := triState_eq_false_iff.mp hread
              have hone : ¬ p.wifi_connected = 1 := by omega
              rw [if_pos hzero, if_neg hone]
              simp [h]
          | true =>
              have hone : p.wifi_connected = 1 := triState_eq_true_iff.mp hread
              have hzero : ¬ p.wifi_connected = 0 := by omega
              rw [if_neg hzero, if_pos hone]
              simp [Rightly, List.take_eq_self_iff]

/-- **One more poll is counted right if it is seen**, -/
theorem Exact.concat (h : Exact (stateAfter polls) polls) (hp : Seen polls p) :
    Exact (stateAfter (polls ++ [p])) (polls ++ [p]) := by
  constructor
  case flaps => exact (flaps_iff h).mpr hp.disconnects
  case connected => exact connected_concat_of_seen h hp
  case failing => exact failing_concat_of_seen h hp
  case baseline => exact (rightly_concat_iff h.baseline).mpr ⟨hp.known, hp.short⟩

/-- and only then. -/
theorem Exact.seen (h : Exact (stateAfter polls) polls)
    (hnext : Exact (stateAfter (polls ++ [p])) (polls ++ [p])) (htime : p.timestamp ≠ 0) :
    Seen polls p := by
  obtain ⟨hknown, hshort⟩ := (rightly_concat_iff h.baseline).mp hnext.baseline
  constructor
  case connects => exact connects_of_exact h hnext htime
  case disconnects => exact (flaps_iff h).mp hnext.flaps
  case fails => exact fails_of_exact h hnext htime
  case known => exact hknown
  case short => exact hshort

theorem allSeen_concat_iff : AllSeen (polls ++ [p]) ↔ AllSeen polls ∧ Seen polls p := by
  constructor
  · intro h
    exact ⟨fun front q hq => h front q (hq.trans (List.prefix_append polls [p])),
      h polls p (List.prefix_refl _)⟩
  · rintro ⟨h, hp⟩ front q hq
    rcases List.prefix_concat_iff.mp hq with heq | hq
    · obtain ⟨rfl, hqp⟩ := List.append_inj' heq rfl
      obtain rfl : q = p := List.singleton_inj.mp hqp
      exact hp
    · exact h front q hq

theorem exact_nil : Exact (stateAfter []) [] where
  flaps := rfl
  connected := rfl
  failing := rfl
  baseline := by
    refine ⟨rfl, fun p hp => ?_⟩
    cases hp

/-- What is seen is counted right. -/
theorem exact_of_allSeen (h : AllSeen polls) : Exact (stateAfter polls) polls := by
  induction polls using List.reverseRecOn with
  | nil => exact exact_nil
  | append_singleton polls p ih =>
      obtain ⟨hpolls, hp⟩ := allSeen_concat_iff.mp h
      exact (ih hpolls).concat hp

/-- What is counted right after every poll was seen. -/
theorem allSeen_of_exact (htimes : ∀ p ∈ polls, p.timestamp ≠ 0)
    (h : ∀ front, front <+: polls → Exact (stateAfter front) front) : AllSeen polls := by
  intro front p hp
  have hfront : front <+: polls := (List.prefix_append front [p]).trans hp
  have hmem : p ∈ polls := hp.subset (List.mem_append_right _ List.mem_cons_self)
  exact (h front hfront).seen (h _ hp) (htimes p hmem)

end Exact

/-- **The counters and the baseline are exact in every state of a history all of whose polls
are seen**, and, the clock not standing at 0, of no other. -/
theorem counters_exact (polls : List Snapshot) :
    (AllSeen polls → ∀ front, front <+: polls → Exact (stateAfter front) front) ∧
      ((∀ p ∈ polls, p.timestamp ≠ 0) →
        (∀ front, front <+: polls → Exact (stateAfter front) front) → AllSeen polls) := by
  constructor
  · intro h front hfront
    exact exact_of_allSeen fun g p hg => h g p (hg.trans hfront)
  · exact allSeen_of_exact

/-- A poll at a time, with a Wi-Fi reading. -/
def pollAt (time connected : Int) : Snapshot :=
  { Snapshot.zero with timestamp := time, wifi_connected := connected, dns_resolves := 1 }

theorem counters_exact_reconnect :
    ∀ front, front <+: [pollAt 10 0, pollAt 20 1, pollAt 30 0, pollAt 40 1] →
      Exact (stateAfter front) front := by
  refine (counters_exact _).1 ?_
  have hnil : AllSeen [] := by
    intro front p hp
    exact absurd (List.prefix_nil.mp hp) (List.concat_ne_nil p front)
  have h1 : AllSeen [pollAt 10 0] := allSeen_concat_iff.mpr ⟨hnil, by constructor <;> decide⟩
  have h2 : AllSeen [pollAt 10 0, pollAt 20 1] :=
    allSeen_concat_iff.mpr ⟨h1, by constructor <;> decide⟩
  have h3 : AllSeen [pollAt 10 0, pollAt 20 1, pollAt 30 0] :=
    allSeen_concat_iff.mpr ⟨h2, by constructor <;> decide⟩
  exact allSeen_concat_iff.mpr ⟨h3, by constructor <;> decide⟩

/-- A connection that is there at the first poll has no time. -/
theorem connected_at_first_poll : ¬ ∀ polls, Exact (stateAfter polls) polls := by
  intro h
  have hsince := (h [pollAt 10 1]).connected
  exact absurd hsince (by decide)

end MiuiserPeruser.Rahzer
