import MiuiserPeruser.Nulld.Document
import MiuiserPeruser.Overlord.Telemetry

/-!
# overlordd — what it reads of nulld's document (`nulld.c`, `overlordd.c`)

nulld writes a space behind every colon. `json_get_double` passes over
spaces, `json_get_str` does not. So the numbers of the document are read as
they were written (`getInt_writeJson`), and the screen is never read: the
five detectors that ask for a screen that is off find nothing, whatever the
documents say (`screen_never_read`).
-/

namespace MiuiserPeruser.Overlord

open CText Nulld

section Keys

variable {d : Reading}

/-- Where a search in the document arrives. -/
theorem strstr_writeJson {key t : List Char} (hkey : '"' ∉ key) (hsuspicious : '"' ∉ d.suspicious) :
    (strstr ('"' :: (key ++ '"' :: t)) (writeJson d)).map
        (·.drop ('"' :: (key ++ '"' :: t)).length) =
      seek '"' key t (pieces d).tail := by
  rw [writeJson_eq_pieces]
  exact strstr_quoted hkey (quote_not_mem_pieces hsuspicious)

/-- A value behind its colon is no key. -/
theorem colon_ne {p key : List Char} (hp : p.head? = some ':') (hkey : key.head? ≠ some ':') :
    p ≠ key := by
  rintro rfl
  exact hkey hp

/-- The time is followed by a comma. -/
theorem seek_timestamp {key tail : List Char} {ps : List (List Char)} (hkey : ∀ p ∈ header, p ≠ key) :
    seek '"' key (':' :: tail) (header ++ timestamp d.time :: ",\n  ".toList :: ps) =
      seek '"' key (':' :: tail) (",\n  ".toList :: ps) := by
  rw [seek_front hkey (List.cons_ne_nil _ _)]
  apply seek_other
  obtain ⟨rest, hrest⟩ := exists_joinQuotes_cons '"' ",\n  ".toList ps
  rw [hrest]
  exact fun h => absurd (List.cons_prefix_cons.mp h).1 (by decide)

/-- So are the suspicious transmitters. -/
theorem seek_suspicious {key tail : List Char} {ps : List (List Char)} :
    seek '"' key (':' :: tail) (d.suspicious :: ",\n  ".toList :: ps) =
      seek '"' key (':' :: tail) (",\n  ".toList :: ps) := by
  apply seek_other
  obtain ⟨rest, hrest⟩ := exists_joinQuotes_cons '"' ",\n  ".toList ps
  rw [hrest]
  exact fun h => absurd (List.cons_prefix_cons.mp h).1 (by decide)

theorem screenText_ne {key : List Char}
    (hkey : ∀ s ∈ [ScreenState.on, .off, .unknown], s.text.toList ≠ key) :
    d.screen.text.toList ≠ key := by
  cases d.screen <;> exact hkey _ (by simp)

theorem counters_ne {key : List Char} (hcolon : key.head? ≠ some ':')
    (hkeys : ∀ k ∈ ["connections", "tcp4", "tcp6", "traffic", "rx_bytes", "tx_bytes", "idle_rx_delta",
      "idle_tx_delta", "idle_spike_detected"], k.toList ≠ key) :
    ∀ p ∈ counters d, p ≠ key := by
  simp only [List.forall_mem_cons, List.not_mem_nil, false_implies, implies_true, and_true] at hkeys
  obtain ⟨h1, h2, h3, h4, h5, h6, h7, h8, h9⟩ := hkeys
  have hvalue : ∀ {p : List Char}, p.head? = some ':' → p ≠ key := fun hp => colon_ne hp hcolon
  unfold counters
  simp only [List.forall_mem_cons, List.not_mem_nil, false_implies, implies_true, and_true]
  exact ⟨h1, hvalue rfl, h2, hvalue rfl, h3, hvalue rfl, h4, hvalue rfl, h5, hvalue rfl, h6,
    hvalue rfl, h7, hvalue rfl, h8, hvalue rfl, h9, hvalue rfl⟩

/-- A number is found behind its key. -/
theorem seek_number {key value : List Char} {ps : List (List Char)} :
    ∃ rest, seek '"' key [':'] (key :: (": ".toList ++ value ++ ",\n  ".toList) :: ps) =
      some (' ' :: (value ++ ',' :: rest)) := by
  obtain ⟨rest, hrest⟩ := exists_joinQuotes_cons '"' (": ".toList ++ value ++ ",\n  ".toList) ps
  have htext : joinQuotes '"' ((": ".toList ++ value ++ ",\n  ".toList) :: ps) =
      ':' :: (' ' :: (value ++ ',' :: ("\n  ".toList ++ rest))) := by
    rw [hrest]
    simp
  rw [seek_found (by rw [htext]; simp), htext]
  exact ⟨_, rfl⟩

theorem seek_idleSeconds : ∃ rest, seek '"' "idle_seconds".toList [':'] (pieces d).tail =
    some (' ' :: (formatD d.idleSecs ++ ',' :: rest)) := by
  unfold pieces
  rw [List.tail_cons, seek_timestamp (by decide +kernel),
    seek_cons (by decide +kernel) (List.cons_ne_nil _ _),
    seek_cons (by decide +kernel) (List.cons_ne_nil _ _),
    seek_cons (by decide +kernel) (List.cons_ne_nil _ _),
    seek_cons (screenText_ne (by decide +kernel)) (List.cons_ne_nil _ _),
    seek_cons (by decide +kernel) (List.cons_ne_nil _ _)]
  exact seek_number

theorem seek_totalSpikeEvents : ∃ rest, seek '"' "total_spike_events".toList [':'] (pieces d).tail =
    some (' ' :: (formatD d.totalEvents ++ ',' :: rest)) := by
  have hcolon : ("total_spike_events".toList).head? ≠ some ':' := by decide +kernel
  unfold pieces
  rw [List.tail_cons, seek_timestamp (by decide +kernel),
    seek_cons (by decide +kernel) (List.cons_ne_nil _ _),
    seek_cons (by decide +kernel) (List.cons_ne_nil _ _),
    seek_cons (by decide +kernel) (List.cons_ne_nil _ _),
    seek_cons (screenText_ne (by decide +kernel)) (List.cons_ne_nil _ _),
    seek_cons (by decide +kernel) (List.cons_ne_nil _ _),
    seek_cons (by decide +kernel) (List.cons_ne_nil _ _),
    seek_cons (colon_ne rfl hcolon) (by simp),
    seek_front (counters_ne hcolon (by decide +kernel)) (List.cons_ne_nil _ _)]
  exact seek_number

theorem health_ne {key : List Char} (hcolon : key.head? ≠ some ':')
    (hkeys : ∀ k ∈ ["sensor_health", "adb_reachable", "consecutive_failures"], k.toList ≠ key) :
    ∀ p ∈ health d, p ≠ key := by
  simp only [List.forall_mem_cons, List.not_mem_nil, false_implies, implies_true, and_true] at hkeys
  obtain ⟨h1, h2, h3⟩ := hkeys
  have hvalue : ∀ {p : List Char}, p.head? = some ':' → p ≠ key := fun hp => colon_ne hp hcolon
  unfold health
  simp only [List.forall_mem_cons, List.not_mem_nil, false_implies, implies_true, and_true]
  exact ⟨h1, hvalue rfl, h2, hvalue rfl, h3, hvalue rfl⟩

/-- Behind the key `screen` stands a space, where a quote is searched for. -/
theorem seek_screen : seek '"' "screen".toList [':', '"'] (pieces d).tail = none := by
  have hcolon : ("screen".toList).head? ≠ some ':' := by decide +kernel
  have hspace : ∀ ps, ¬ [':', '"'] <+: joinQuotes '"' (": ".toList :: ps) := by
    intro ps h
    obtain ⟨rest, hrest⟩ := exists_joinQuotes_cons '"' ": ".toList ps
    rw [hrest] at h
    have h := (List.cons_prefix_cons.mp h).2
    exact absurd (List.cons_prefix_cons.mp h).1 (by decide)
  unfold pieces
  rw [List.tail_cons, seek_timestamp (by decide +kernel),
    seek_cons (by decide +kernel) (List.cons_ne_nil _ _), seek_other (hspace _),
    seek_cons (by decide +kernel) (List.cons_ne_nil _ _),
    seek_cons (screenText_ne (by decide +kernel)) (List.cons_ne_nil _ _),
    seek_cons (by decide +kernel) (List.cons_ne_nil _ _),
    seek_cons (by decide +kernel) (List.cons_ne_nil _ _),
    seek_cons (colon_ne rfl hcolon) (by simp),
    seek_front (counters_ne hcolon (by decide +kernel)) (List.cons_ne_nil _ _),
    seek_cons (by decide +kernel) (List.cons_ne_nil _ _),
    seek_cons (colon_ne rfl hcolon) (List.cons_ne_nil _ _),
    seek_cons (by decide +kernel) (List.cons_ne_nil _ _),
    seek_cons (colon_ne rfl hcolon) (List.cons_ne_nil _ _), seek_suspicious,
    seek_cons (by decide +kernel) (by simp [health])]
  exact seek_eq_none (health_ne hcolon (by decide +kernel))

end Keys

/-! ## What the getters read -/

section Getters

variable {json : List Char}

/-- A numeral in front of a comma is read as its number. -/
theorem getInt_of_valueOf {key : String} {n : Int} {rest : List Char} (hn : IsInt n)
    (h : valueOf json key = some (formatD n ++ ',' :: rest)) :
    getInt (Text.mk json) key = some n := by
  have hdouble : jsonGetDouble json key = some (.finite n) := by
    rw [jsonGetDouble, h, Option.bind_some, strtod_formatD n (stops_cons.mpr (by decide))]
  exact getInt_of_isInt hdouble hn

/-- A text that does not hold the key with a quote behind its colon. -/
theorem jsonGetStr_eq_none {content : List Char} {key : String} (outlen : Nat)
    (hno : ¬ needle key "\":\"" <:+: content) (hjson : json <:+: content) :
    jsonGetStr json key outlen = none := by
  have hnone : strstr (needle key "\":\"") json = none :=
    strstr_eq_none_iff.mpr fun h => hno (h.trans hjson)
  rw [jsonGetStr, hnone]

/-- Whatever part of such a file `read_daemon` takes. -/
theorem screen_eq_nil {docs : Results Text} {content : List Char}
    (hno : ¬ needle "screen" "\":\"" <:+: content)
    (hdoc : docs "nulld" = readDaemon (some content)) : screen docs = [] := by
  have hpart : cstr (content.take 65535) <:+: content :=
    ((List.takeWhile_prefix _).trans (List.take_prefix _ _)).isInfix
  have hnone := jsonGetStr_eq_none 16 hno hpart
  unfold screen
  rw [hdoc]
  show (jsonGetStr (cstr (content.take 65535)) "screen" 16).getD [] = []
  rw [hnone]
  rfl

end Getters

section Written

variable {d : Reading} (hsuspicious : '"' ∉ d.suspicious)
include hsuspicious

/-- A number of the document, behind its key and a space. -/
theorem valueOf_of_seek {key : String} {n : Int} {rest : List Char} (hkey : '"' ∉ key.toList)
    (hneedle : needle key "\":" = '"' :: (key.toList ++ '"' :: [':']))
    (hseek : seek '"' key.toList [':'] (pieces d).tail = some (' ' :: (formatD n ++ ',' :: rest))) :
    valueOf (writeJson d) key = some (formatD n ++ ',' :: rest) := by
  have hfound := strstr_writeJson (t := [':']) hkey hsuspicious
  rw [hseek, ← hneedle] at hfound
  obtain ⟨p, hp, hdrop⟩ := Option.map_eq_some_iff.mp hfound
  have hspace : (formatD n ++ ',' :: rest).dropWhile (· = ' ') = formatD n ++ ',' :: rest :=
    dropWhile_formatD (by decide) (fun _ hc => decide_eq_false (ne_of_isDigit hc (by decide))) n _
  rw [valueOf, hp, Option.map_some, hdrop, List.dropWhile_cons_of_pos (by decide), hspace]

theorem getInt_idleSeconds (hidle : IsInt d.idleSecs) :
    getInt (Text.mk (writeJson d)) "idle_seconds" = some d.idleSecs := by
  obtain ⟨rest, hseek⟩ := seek_idleSeconds (d := d)
  exact getInt_of_valueOf hidle
    (valueOf_of_seek hsuspicious (by decide +kernel) (by decide +kernel) hseek)

theorem getInt_totalSpikeEvents (htotal : IsInt d.totalEvents) :
    getInt (Text.mk (writeJson d)) "total_spike_events" = some d.totalEvents := by
  obtain ⟨rest, hseek⟩ := seek_totalSpikeEvents (d := d)
  exact getInt_of_valueOf htotal
    (valueOf_of_seek hsuspicious (by decide +kernel) (by decide +kernel) hseek)

/-- **The text that is searched for is not in the document.** -/
theorem needle_screen_not_infix : ¬ needle "screen" "\":\"" <:+: writeJson d := by
  have hneedle : needle "screen" "\":\"" = '"' :: ("screen".toList ++ '"' :: [':', '"']) := by
    decide +kernel
  have hkey : '"' ∉ "screen".toList := by decide +kernel
  have hfound := strstr_writeJson (t := [':', '"']) hkey hsuspicious
  rw [seek_screen, ← hneedle, Option.map_eq_none_iff] at hfound
  exact strstr_eq_none_iff.mp hfound

end Written

/-! ## The detectors that ask for the screen -/

/-- The patterns whose detectors ask for a screen that is off. -/
def screenKinds : List Kind :=
  [.idleExfilBeacon, .sensorStalking, .wakelockAbuse, .dozeBypass, .radioSilence]

theorem screen_of_added {D : Type} [Document D] {docs : Results D} {window : Option Escalation}
    {k : Kind} (hk : k ∈ screenKinds) (h : Added docs window k) : screen docs = "off".toList := by
  have h := added_iff.mp h
  simp only [screenKinds, List.mem_cons, List.not_mem_nil, or_false] at hk
  rcases hk with rfl | rfl | rfl | rfl | rfl
  · simp only [detect, detectIdleExfilBeacon, isSome_guarded, Bool.and_eq_true,
      decide_eq_true_eq] at h
    exact h.2.1.1.1
  · exact (detectSensorStalking_isSome.mp h).2.2.2.2.2.1
  · simp only [detect, detectWakelockAbuse, isSome_guarded, Bool.and_eq_true,
      decide_eq_true_eq] at h
    exact h.2.1.1.1
  · simp only [detect, detectDozeBypass, isSome_guarded, Bool.and_eq_true,
      decide_eq_true_eq] at h
    exact h.2.1.1.1
  · exact (detectRadioSilence_isSome.mp h).2.2.1

/-- overlordd reads what nulld wrote, and the detectors can fire: with
counters above all their thresholds each does for some other documents. -/
structure ReadsBack (d : Reading) : Prop where
  screen : jsonGetStr (writeJson d) "screen" 16 = some d.screen.text.toList
  idle : getInt (Text.mk (writeJson d)) "idle_seconds" = some d.idleSecs
  total : getInt (Text.mk (writeJson d)) "total_spike_events" = some d.totalEvents
  fires : d.screen = .off → 600 < d.idleSecs → 2 < d.totalEvents → ∀ k ∈ screenKinds,
    ∃ docs : Results Text, docs "nulld" = readDaemon (some (writeJson d)) ∧ Added docs none k

/-- **The screen is never read.** The two numbers are, for every state of
nulld; but its document never reads back whole, and no detector that asks
for the screen finds anything beside it. -/
theorem screen_never_read {d : Reading} {baseline : List PkgSessions} {last : Nat → Char}
    {raw : Option (List Char)}
    (hsuspicious : checkSuspiciousTransmitters baseline last raw 512 = some d.suspicious)
    (hidle : IsInt d.idleSecs) (htotal : IsInt d.totalEvents) :
    ¬ ReadsBack d ∧ jsonGetStr (writeJson d) "screen" 16 = none ∧
      getInt (Text.mk (writeJson d)) "idle_seconds" = some d.idleSecs ∧
      getInt (Text.mk (writeJson d)) "total_spike_events" = some d.totalEvents ∧
      ∀ (docs : Results Text) (window : Option Escalation),
        docs "nulld" = readDaemon (some (writeJson d)) → ∀ k ∈ screenKinds, ¬ Added docs window k := by
  have hplain := quote_not_mem_transmitters hsuspicious
  have hno := needle_screen_not_infix hplain
  have hnone := jsonGetStr_eq_none 16 hno List.infix_rfl
  refine ⟨?_, hnone, getInt_idleSeconds hplain hidle, getInt_totalSpikeEvents hplain htotal, ?_⟩
  · intro h
    have hscreen := h.screen
    rw [hnone] at hscreen
    cases hscreen
  · intro docs window hdoc k hk hadded
    have hoff := screen_of_added hk hadded
    rw [screen_eq_nil hno hdoc] at hoff
    exact absurd hoff (by decide +kernel)

/-- The screen off for eleven minutes, three spikes. -/
def quietNight : Reading where
  time := ⟨2026, 7, 28, 3, 15, 0⟩
  screen := .off
  tcp4 := 4
  tcp6 := 6
  rx := 1000
  tx := 2000
  spike := true
  idleSecs := 660
  idleRxDelta := 10
  idleTxDelta := 20
  suspicious := []
  totalEvents := 3
  adbHealthy := true
  consecutiveFailures := 0

theorem screen_never_read_quietNight :
    ¬ ReadsBack quietNight ∧ jsonGetStr (writeJson quietNight) "screen" 16 = none ∧
      getInt (Text.mk (writeJson quietNight)) "idle_seconds" = some 660 ∧
      getInt (Text.mk (writeJson quietNight)) "total_spike_events" = some 3 ∧
      ∀ (docs : Results Text) (window : Option Escalation),
        docs "nulld" = readDaemon (some (writeJson quietNight)) →
          ∀ k ∈ screenKinds, ¬ Added docs window k :=
  @screen_never_read quietNight [] (fun _ => '\x00') none rfl ⟨by decide, by decide⟩ ⟨by decide, by decide⟩

/-- The document says that the screen is off, and it is not read. -/
theorem screen_off_unread : quietNight.screen.text = "off" ∧
    jsonGetStr (writeJson quietNight) "screen" 16 = none := by
  have hno := needle_screen_not_infix (d := quietNight) (by decide)
  exact ⟨rfl, jsonGetStr_eq_none 16 hno List.infix_rfl⟩

end MiuiserPeruser.Overlord
