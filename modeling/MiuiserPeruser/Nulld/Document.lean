import MiuiserPeruser.Lib.CInt
import MiuiserPeruser.Lib.Quoted

/-!
# nulld — the document it writes (`nulld.c`)

`write_json` prints a document with a space behind every colon. Its one free
text is the list of suspicious transmitters, whose package names lose their
quotes and control characters when they are read (`sanitize_field`), so no
text of the document has a quote of its own (`quote_not_mem_transmitters`).

`pkg` is copied with `strncpy` into an array nothing has cleared. A name of
127 bytes then ends with whatever its last byte holds; where that is not a
NUL the text runs on past the buffer, and the model says `none`.
-/

namespace MiuiserPeruser.Nulld

open CText

/-- `screen_state_t`. -/
inductive ScreenState where
  | unknown
  | on
  | off
  deriving DecidableEq, Repr

/-- `pkg_sessions_t`. -/
structure PkgSessions where
  pkg : List Char
  uid : Int
  sessions : Int
  deriving DecidableEq

/-- `sanitize_field`. -/
def sanitizeField (buf : List Char) : List Char :=
  buf.map fun c =>
    if c = '"' ∨ c = '\\' ∨ c = '\n' ∨ c = '\r' ∨ c.toNat < 0x20 then '_' else c

/-- The directives of `" {uid=%d,package=%127[^}]}=%d"`. -/
def sessionsFormat : List Directive :=
  [.space] ++ "\x7buid=".toList.map .lit ++ percentD ++ ",package=".toList.map .lit ++
    [.chars 127 (· ≠ '}')] ++ "\x7d=".toList.map .lit ++ percentD

/-- The lines `strtok(raw, "\n")` returns. -/
def lines (raw : List Char) : List (List Char) :=
  (raw.splitOn '\n').filter (· ≠ [])

/-- The entry a line is copied to; `last` is what its name's last byte holds. -/
def copySessions (last : Char) (values : List Value) : Option PkgSessions :=
  (strncpyOpen 127 last (textAt values 1)).map fun pkg =>
    { pkg := sanitizeField pkg
      uid := numAt values 0
      sessions := numAt values 2 }

/-- The loop of `get_package_sessions`, from entry `count` on. -/
def readSessions (last : Nat → Char) (max : Nat) :
    Nat → List (List Char) → Option (List PkgSessions)
  | _, [] => some []
  | count, line :: rest =>
      let values := scanf sessionsFormat line
      if max ≤ count then some []
      else if values.length = 3 then
        match copySessions (last count) values, readSessions last max (count + 1) rest with
        | some p, some ps => some (p :: ps)
        | _, _ => none
      else readSessions last max count rest

/-- `get_package_sessions`. -/
def getPackageSessions (last : Nat → Char) (raw : Option (List Char)) (max : Nat) :
    Option (List PkgSessions) :=
  readSessions last max 0 (lines (raw.getD []))

/-- The sessions of a package at the baseline. -/
def baselineSessions (baseline : List PkgSessions) (uid : Int) : Int :=
  ((baseline.find? (·.uid = uid)).map (·.sessions)).getD 0

/-- One entry of the report. -/
def transmitterEntry (p : PkgSessions) (delta : Int) : List Char :=
  snprintf 256 (p.pkg ++ "(+".toList ++ formatD delta ++ ") ".toList)

/-- The loop of `check_suspicious_transmitters`: an entry that does not fit
is left out. -/
def addTransmitter (baseline : List PkgSessions) (rlen : Nat) (report : List Char)
    (p : PkgSessions) : List Char :=
  let delta := wrap32 (p.sessions - baselineSessions baseline p.uid)
  if 0 < delta then
    let entry := transmitterEntry p delta
    if report.length + entry.length < rlen - 1 then report ++ entry else report
  else report

/-- The report of `check_suspicious_transmitters`. -/
def checkSuspiciousTransmitters (baseline : List PkgSessions) (last : Nat → Char)
    (raw : Option (List Char)) (rlen : Nat) : Option (List Char) :=
  (getPackageSessions last raw 64).map (·.foldl (addTransmitter baseline rlen) [])

/-! ## The free text -/

theorem quote_not_mem_sanitizeField (buf : List Char) : '"' ∉ sanitizeField buf := by
  intro h
  obtain ⟨c, -, hc⟩ := List.mem_map.mp h
  split at hc
  · exact absurd hc (by decide)
  · rename_i hkept
    exact hkept (.inl hc)

theorem quote_not_mem_formatD (n : Int) : '"' ∉ formatD n := notMem_formatD (by decide) (by decide) n

theorem quote_not_mem_transmitterEntry {p : PkgSessions} {delta : Int} (hp : '"' ∉ p.pkg) :
    '"' ∉ transmitterEntry p delta := by
  intro h
  have h := List.mem_of_mem_take h
  simp only [List.mem_append] at h
  rcases h with ((h | h) | h) | h
  · exact hp h
  · exact absurd h (by decide)
  · exact quote_not_mem_formatD delta h
  · exact absurd h (by decide)

section Report

variable {baseline : List PkgSessions} {last : Nat → Char} {raw : Option (List Char)} {rlen : Nat}

/-- Every entry is copied from a line. -/
theorem mem_readSessions {max count : Nat} {texts : List (List Char)} {sessions : List PkgSessions} {p : PkgSessions}
    (h : readSessions last max count texts = some sessions) (hp : p ∈ sessions) :
    ∃ line k, copySessions (last k) (scanf sessionsFormat line) = some p := by
  induction texts generalizing count sessions with
  | nil =>
      obtain rfl := Option.some.inj h
      exact absurd hp List.not_mem_nil
  | cons line rest ih =>
      simp only [readSessions] at h
      split at h
      · obtain rfl := Option.some.inj h
        exact absurd hp List.not_mem_nil
      · split at h
        · cases hq : copySessions (last count) (scanf sessionsFormat line) with
          | none =>
              rw [hq] at h
              exact absurd h nofun
          | some q =>
              cases hqs : readSessions last max (count + 1) rest with
              | none =>
                  rw [hq, hqs] at h
                  exact absurd h nofun
              | some qs =>
                  rw [hq, hqs] at h
                  obtain rfl := Option.some.inj h
                  rcases List.mem_cons.mp hp with rfl | hp
                  · exact ⟨line, count, hq⟩
                  · exact ih hqs hp
        · exact ih h hp

theorem quote_not_mem_readSessions {max count : Nat} {texts : List (List Char)}
    {sessions : List PkgSessions} (h : readSessions last max count texts = some sessions) :
    ∀ p ∈ sessions, '"' ∉ p.pkg := by
  intro p hp
  obtain ⟨line, k, hcopy⟩ := mem_readSessions h hp
  obtain ⟨pkg, -, rfl⟩ := Option.map_eq_some_iff.mp hcopy
  exact quote_not_mem_sanitizeField pkg

theorem quote_not_mem_foldl {sessions : List PkgSessions} (h : ∀ p ∈ sessions, '"' ∉ p.pkg)
    {report : List Char} (hreport : '"' ∉ report) :
    '"' ∉ sessions.foldl (addTransmitter baseline rlen) report := by
  induction sessions generalizing report with
  | nil => exact hreport
  | cons p sessions ih =>
      rw [List.foldl_cons]
      apply ih fun q hq => h q (List.mem_cons_of_mem p hq)
      simp only [addTransmitter]
      split
      · split
        · intro hmem
          rcases List.mem_append.mp hmem with hmem | hmem
          · exact hreport hmem
          · exact quote_not_mem_transmitterEntry (h p List.mem_cons_self) hmem
        · exact hreport
      · exact hreport

/-- **The free text has no quotes**, whatever netstats printed. -/
theorem quote_not_mem_transmitters {report : List Char}
    (h : checkSuspiciousTransmitters baseline last raw rlen = some report) : '"' ∉ report := by
  obtain ⟨sessions, hsessions, rfl⟩ := Option.map_eq_some_iff.mp h
  exact quote_not_mem_foldl (quote_not_mem_readSessions hsessions) List.not_mem_nil

end Report

/-! ## write_json -/

/-- What `localtime` returns, as far as it is printed. -/
structure Tm where
  year : Int
  mon : Nat
  mday : Nat
  hour : Nat
  min : Nat
  sec : Nat

/-- `%02d`. -/
def twoDigits (n : Nat) : List Char := (decimal n).leftpad 2 '0'

/-- `strftime(ts, sizeof(ts), "%Y-%m-%dT%H:%M:%S", ...)`. -/
def timestamp (t : Tm) : List Char :=
  formatD t.year ++ '-' :: twoDigits t.mon ++ '-' :: twoDigits t.mday ++ 'T' :: twoDigits t.hour ++
    ':' :: twoDigits t.min ++ ':' :: twoDigits t.sec

/-- The arguments of `write_json`, its time and the two globals it prints. -/
structure Reading where
  time : Tm
  screen : ScreenState
  tcp4 : Int
  tcp6 : Int
  rx : Int
  tx : Int
  spike : Bool
  idleSecs : Int
  idleRxDelta : Int
  idleTxDelta : Int
  suspicious : List Char
  totalEvents : Int
  adbHealthy : Bool
  consecutiveFailures : Int

def ScreenState.text : ScreenState → String
  | .on => "on"
  | .off => "off"
  | .unknown => "unknown"

def boolText (b : Bool) : List Char := if b then "true".toList else "false".toList

/-- `write_json`. -/
def writeJson (d : Reading) : List Char :=
  "\x7b\n".toList ++
    "  \"daemon\": \"nulld\",\n".toList ++
    "  \"version\": \"1.1\",\n".toList ++
    "  \"timestamp\": \"".toList ++ timestamp d.time ++ "\",\n".toList ++
    "  \"screen\": \"".toList ++ d.screen.text.toList ++ "\",\n".toList ++
    "  \"idle_seconds\": ".toList ++ formatD d.idleSecs ++ ",\n".toList ++
    "  \"connections\": \x7b\n".toList ++
    "    \"tcp4\": ".toList ++ formatD d.tcp4 ++ ",\n".toList ++
    "    \"tcp6\": ".toList ++ formatD d.tcp6 ++ "\n".toList ++
    "  \x7d,\n".toList ++
    "  \"traffic\": \x7b\n".toList ++
    "    \"rx_bytes\": ".toList ++ formatD d.rx ++ ",\n".toList ++
    "    \"tx_bytes\": ".toList ++ formatD d.tx ++ ",\n".toList ++
    "    \"idle_rx_delta\": ".toList ++ formatD d.idleRxDelta ++ ",\n".toList ++
    "    \"idle_tx_delta\": ".toList ++ formatD d.idleTxDelta ++ "\n".toList ++
    "  \x7d,\n".toList ++
    "  \"idle_spike_detected\": ".toList ++ boolText d.spike ++ ",\n".toList ++
    "  \"total_spike_events\": ".toList ++ formatD d.totalEvents ++ ",\n".toList ++
    "  \"suspicious_transmitters\": \"".toList ++ d.suspicious ++ "\",\n".toList ++
    "  \"sensor_health\": \x7b\n".toList ++
    "    \"adb_reachable\": ".toList ++ boolText d.adbHealthy ++ ",\n".toList ++
    "    \"consecutive_failures\": ".toList ++ formatD d.consecutiveFailures ++ "\n".toList ++
    "  \x7d\n".toList ++
    "\x7d\n".toList

/-- The pieces between quotes up to the time. -/
def header : List (List Char) :=
  ["daemon".toList, ": ".toList, "nulld".toList, ",\n  ".toList, "version".toList, ": ".toList,
    "1.1".toList, ",\n  ".toList, "timestamp".toList, ": ".toList]

/-- The pieces of the counters. -/
def counters (d : Reading) : List (List Char) :=
  ["connections".toList, ": \x7b\n    ".toList,
    "tcp4".toList, ": ".toList ++ formatD d.tcp4 ++ ",\n    ".toList,
    "tcp6".toList, ": ".toList ++ formatD d.tcp6 ++ "\n  \x7d,\n  ".toList,
    "traffic".toList, ": \x7b\n    ".toList,
    "rx_bytes".toList, ": ".toList ++ formatD d.rx ++ ",\n    ".toList,
    "tx_bytes".toList, ": ".toList ++ formatD d.tx ++ ",\n    ".toList,
    "idle_rx_delta".toList, ": ".toList ++ formatD d.idleRxDelta ++ ",\n    ".toList,
    "idle_tx_delta".toList, ": ".toList ++ formatD d.idleTxDelta ++ "\n  \x7d,\n  ".toList,
    "idle_spike_detected".toList, ": ".toList ++ boolText d.spike ++ ",\n  ".toList]

/-- The pieces behind the suspicious transmitters. -/
def health (d : Reading) : List (List Char) :=
  ["sensor_health".toList, ": \x7b\n    ".toList,
    "adb_reachable".toList, ": ".toList ++ boolText d.adbHealthy ++ ",\n    ".toList,
    "consecutive_failures".toList,
    ": ".toList ++ formatD d.consecutiveFailures ++ "\n  \x7d\n\x7d\n".toList]

/-- The pieces of the document between its quotes. -/
def pieces (d : Reading) : List (List Char) :=
  "\x7b\n  ".toList ::
    (header ++ timestamp d.time :: ",\n  ".toList ::
      "screen".toList :: ": ".toList :: d.screen.text.toList :: ",\n  ".toList ::
      "idle_seconds".toList :: (": ".toList ++ formatD d.idleSecs ++ ",\n  ".toList) ::
      (counters d ++
        "total_spike_events".toList :: (": ".toList ++ formatD d.totalEvents ++ ",\n  ".toList) ::
        "suspicious_transmitters".toList :: ": ".toList :: d.suspicious :: ",\n  ".toList :: health d))

set_option maxRecDepth 4000 in
/-- **The document, piece by piece.** -/
theorem writeJson_eq_pieces (d : Reading) : writeJson d = joinQuotes '"' (pieces d) := by
  unfold writeJson pieces header counters health
  -- not by `String.reduceToList`: the kernel would decode the literals
  repeat rw [String.toList_ofList]
  simp only [joinQuotes, List.cons_append, List.nil_append, List.append_assoc]

theorem quote_not_mem_twoDigits (n : Nat) : '"' ∉ twoDigits n := by
  intro h
  rcases List.mem_append.mp h with h | h
  · exact absurd (List.eq_of_mem_replicate h) (by decide)
  · exact absurd (isDigit_decimal h) (by decide)

theorem quote_not_mem_timestamp (t : Tm) : '"' ∉ timestamp t := by
  unfold timestamp
  simp [quote_not_mem_formatD, quote_not_mem_twoDigits]

theorem quote_not_mem_pieces {d : Reading} (hsuspicious : '"' ∉ d.suspicious) :
    ∀ p ∈ pieces d, '"' ∉ p := by
  have hscreen : '"' ∉ d.screen.text.toList := by cases d.screen <;> decide
  have hbool : ∀ b, '"' ∉ boolText b := by decide
  unfold pieces header counters health
  simp only [List.cons_append, List.nil_append, List.forall_mem_cons, List.mem_append, not_or, quote_not_mem_formatD,
    quote_not_mem_timestamp, hscreen, hbool, hsuspicious, not_false_eq_true, and_true, true_and,
    List.not_mem_nil, false_implies, implies_true]
  and_intros <;> decide +kernel

end MiuiserPeruser.Nulld
