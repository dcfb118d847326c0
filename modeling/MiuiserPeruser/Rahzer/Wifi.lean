import Mathlib.Data.List.DropRight
import Mathlib.Data.List.Infix
import MiuiserPeruser.Lib.CInt
import MiuiserPeruser.Lib.JoinedText

/-!
# rahzerd — the Wi-Fi probe (`rahzerd.c`)

`rz_probe_wifi` reads the line `dumpsys` prints of the connection. The line
is sanitised first, which takes the quote marks away that the extraction
looks for: the name never comes back as it is (`name_never_exact`). What the
name holds is searched like the rest of the line, so it can claim to be
connected (`probeWifi_connected_iff`).
-/

namespace MiuiserPeruser.Rahzer

open CText

/-! ## The probe -/

/-- `sanitize_field`. -/
def sanitizeField (s : List Char) : List Char :=
  s.map fun c => if c = '"' ∨ c = '\\' ∨ c = '|' ∨ c.toNat < 0x20 then '_' else c

/-- `rz_has`. -/
def rzHas (h n : List Char) : Bool := (strstr n h).isSome

/-- The value behind a key. Blanks at its end are left out. -/
def fieldText (a : List Char) (outlen : Nat) : List Char :=
  let quoted := a.head? = some '"'
  let a := if quoted then a.tail else a
  ((a.takeWhile fun c => c ≠ ',' ∧ c ≠ '\n' ∧ c ≠ '\r' ∧ ¬ (quoted ∧ c = '"')).take
    (outlen - 1)).rdropWhile (· ∈ [' ', '\t'])

/-- `rz_extract_field_csv`. -/
def extractFieldCsv (hay key : List Char) (outlen : Nat) : Option (List Char) :=
  if outlen < 2 then none
  else
    (strstr key hay).bind fun p =>
      let out := fieldText ((p.drop key.length).dropWhile (· ∈ ['=', ':', ' ', '\t'])) outlen
      if out = [] then none else some out

/-- `rz_prebaked_get`: the first line with the key and a value. -/
def prebakedGet (data key : List Char) : Option (List Char) :=
  (data.splitOnP (· ∈ ['\n', '\r'])).findSome? fun line =>
    if key ++ ['='] <+: line ∧ line.drop (key.length + 1) ≠ [] then some (line.drop (key.length + 1))
    else none

/-- `atol`. -/
def atol (s : List Char) : Int := numAt (scanf percentLD s) 0

/-- What `rz_probe_wifi` fills in of `rz_wifi_t`, but for the backend. -/
structure Wifi where
  connected : Int := -1
  ssid : List Char := []
  bssid : List Char := []
  rssi_dbm : Int := 0
  link_speed_mbps : Int := -1
  frequency_mhz : Int := -1
  tx_bytes : Int := 0
  rx_bytes : Int := 0

/-- The extraction of a name that may stand for none. -/
def nameField (wi key unknown : List Char) (size : Nat) : List Char :=
  match extractFieldCsv wi key 64 with
  | none => []
  | some tmp => if tmp = unknown then [] else tmp.take (size - 1)

/-- What `rz_probe_wifi` reads of the line. -/
def wifiOf (wi : List Char) : Wifi :=
  -- before anything is extracted
  let wi := sanitizeField wi
  { connected := if rzHas wi "Supplicant state: COMPLETED".toList then 1 else 0
    ssid := nameField wi "SSID".toList "<unknown ssid>".toList 64
    bssid := nameField wi "BSSID".toList "<none>".toList 24
    rssi_dbm := ((extractFieldCsv wi "RSSI".toList 64).map atoi).getD 0 }

/-- `rz_probe_wifi`, with `g_probe_data`. -/
def probeWifi (data : List Char) : Wifi :=
  let bytes key := ((prebakedGet data key).map atol).getD 0
  { ((prebakedGet data "mwifiinfo".toList).map wifiOf).getD {} with
    tx_bytes := bytes "/sys/class/net/wlan0/statistics/tx_bytes".toList
    rx_bytes := bytes "/sys/class/net/wlan0/statistics/rx_bytes".toList }

/-! ## The line of a network -/

/-- A connection. Its name is what an access point broadcasts. -/
structure WifiInfo where
  ssid : List Char
  ssid_fits : ssid.length ≤ 32
  ssid_line : ∀ c ∈ ssid, c ≠ '\x00' ∧ c ≠ '\r' ∧ c ≠ '\n'
  bssid : List Char
  state : List Char
  rssi : Int

/-- What `dumpsys` prints of it, and the dump hands on. -/
def WifiInfo.line (i : WifiInfo) : List Char :=
  "mWifiInfo SSID: \"".toList ++ i.ssid ++ "\", BSSID: ".toList ++ i.bssid ++
    ", Supplicant state: ".toList ++ i.state ++ ", RSSI: ".toList ++ formatD i.rssi ++ [' ']

/-- The probe reports the connection, and its name without what would break a message. -/
structure Reports (w : Wifi) (i : WifiInfo) : Prop where
  connected : w.connected = 1 ↔ i.state = "COMPLETED".toList
  bssid : w.bssid = i.bssid
  rssi : w.rssi_dbm = i.rssi
  ssid : w.ssid = sanitizeField i.ssid

section Line

variable {i : WifiInfo}

theorem sanitizeField_append (s t : List Char) :
    sanitizeField (s ++ t) = sanitizeField s ++ sanitizeField t := List.map_append

theorem sanitize_front : sanitizeField "mWifiInfo SSID: \"".toList =
    "mWifiInfo ".toList ++ ("SSID".toList ++ (": ".toList ++ ['_'])) := by decide

theorem sanitize_name : sanitizeField "\", BSSID: ".toList = '_' :: ',' :: " BSSID: ".toList := by
  decide

theorem sanitize_state :
    sanitizeField ", Supplicant state: ".toList = ',' :: " Supplicant state: ".toList := by decide

theorem sanitize_rssi : sanitizeField ", RSSI: ".toList = ',' :: " RSSI: ".toList := by decide

/-- What stands behind the name in the line as it is searched. -/
def behindName (i : WifiInfo) : List Char :=
  " BSSID: ".toList ++ sanitizeField i.bssid ++ ',' :: (" Supplicant state: ".toList ++
    sanitizeField i.state ++ ',' :: (" RSSI: ".toList ++ sanitizeField (formatD i.rssi) ++ [' ']))

/-- The line as it is searched: the quote marks of the name are gone. -/
theorem sanitize_line (i : WifiInfo) : sanitizeField i.line =
    "mWifiInfo ".toList ++ ("SSID".toList ++ (": ".toList ++
      '_' :: (sanitizeField i.ssid ++ '_' :: ',' :: behindName i))) := by
  have hpieces : ∀ a b c d : List Char,
      sanitizeField (a ++ i.ssid ++ b ++ i.bssid ++ c ++ i.state ++ d ++ formatD i.rssi ++ [' ']) =
        sanitizeField a ++ (sanitizeField i.ssid ++ (sanitizeField b ++ (sanitizeField i.bssid ++
          (sanitizeField c ++ (sanitizeField i.state ++ (sanitizeField d ++
            (sanitizeField (formatD i.rssi) ++ sanitizeField [' ']))))))) := by
    intro a b c d
    simp only [sanitizeField_append, List.append_assoc]
  have hend : sanitizeField [' '] = [' '] := by decide
  unfold WifiInfo.line behindName
  refine (hpieces _ _ _ _).trans ?_
  rw [sanitize_front, sanitize_name, sanitize_state, sanitize_rssi, hend]
  simp only [List.append_assoc, List.cons_append, List.nil_append]

/-- Behind a name whose quote marks are gone, a value is what stands before the next comma. -/
theorem fieldText_name (rest : List Char) :
    fieldText ('_' :: rest) 64 =
      ((('_' :: rest).takeWhile fun c => c ≠ ',' ∧ c ≠ '\n' ∧ c ≠ '\r').take 63).rdropWhile
        (· ∈ [' ', '\t']) := by
  simp [fieldText]

theorem comma_mem_sanitize {s : List Char} : ',' ∈ sanitizeField s ↔ ',' ∈ s := by
  rw [sanitizeField, List.mem_map]
  constructor
  · rintro ⟨c, hc, heq⟩
    split at heq
    · cases heq
    · exact heq ▸ hc
  · intro h
    exact ⟨',', h, by decide⟩

/-- No control character is left. -/
theorem low_sanitize {s : List Char} : ∀ c ∈ sanitizeField s, 0x20 ≤ c.toNat := by
  intro c hc
  obtain ⟨d, -, rfl⟩ := List.mem_map.mp hc
  split
  · decide
  · next h =>
      obtain ⟨-, -, -, hlow⟩ : d ≠ '"' ∧ d ≠ '\\' ∧ d ≠ '|' ∧ ¬ d.toNat < 0x20 := by
        simpa only [not_or] using h
      omega

theorem rdropWhile_cons {p : Char → Bool} {a : Char} (ha : p a = false) (l : List Char) :
    (a :: l).rdropWhile p = a :: l.rdropWhile p := by
  induction l using List.reverseRecOn with
  | nil => simp [List.rdropWhile, ha]
  | append_singleton l x ih =>
      rw [← List.cons_append, List.rdropWhile_concat, List.rdropWhile_concat, ih]
      split <;> rfl

/-- A value that begins with the mark keeps it. -/
theorem fieldText_mark (rest : List Char) :
    ∃ s, fieldText ('_' :: rest) 64 = '_' :: s ∧ s.length ≤ 62 := by
  rw [fieldText_name, List.takeWhile_cons_of_pos (by decide), List.take_succ_cons,
    rdropWhile_cons (by decide)]
  refine ⟨_, rfl, ?_⟩
  exact (List.rdropWhile_prefix _ _).length_le.trans (List.length_take_le _ _)

/-- A value that begins with the mark is a name. -/
theorem nameField_mark {wi key unknown rest : List Char}
    (hkey : strstr key wi = some (key ++ (": ".toList ++ '_' :: rest)))
    (hunknown : unknown.head? ≠ some '_') : nameField wi key unknown 64 = fieldText ('_' :: rest) 64 := by
  obtain ⟨s, hs, hlength⟩ := fieldText_mark rest
  have hskip : (": ".toList ++ '_' :: rest).dropWhile (· ∈ ['=', ':', ' ', '\t']) = '_' :: rest :=
    dropWhile_append_of_stop (forall_mem_of_all (by decide)) (stops_cons.mpr (by decide))
  have hfield : extractFieldCsv wi key 64 = some ('_' :: s) := by
    unfold extractFieldCsv
    rw [if_neg (by decide), hkey, Option.bind_some, List.drop_left, hskip, hs]
    exact if_neg (List.cons_ne_nil _ _)
  have hne : '_' :: s ≠ unknown := by
    rintro rfl
    exact hunknown rfl
  unfold nameField
  rw [hfield, hs]
  exact (if_neg hne).trans (List.take_of_length_le (by rw [List.length_cons]; omega))

theorem wifiOf_ssid (wi : List Char) :
    (wifiOf wi).ssid = nameField (sanitizeField wi) "SSID".toList "<unknown ssid>".toList 64 := rfl

/-- The name is what is extracted behind the mark. -/
theorem ssid_eq (i : WifiInfo) :
    (wifiOf i.line).ssid = fieldText ('_' :: (sanitizeField i.ssid ++ '_' :: ',' :: behindName i)) 64 := by
  have hkey : strstr "SSID".toList (sanitizeField i.line) =
      some ("SSID".toList ++ (": ".toList ++
        '_' :: (sanitizeField i.ssid ++ '_' :: ',' :: behindName i))) := by
    rw [sanitize_line, strstr_append_of_head (d := 'S') rfl (by decide)]
    exact strstr_of_prefix (List.prefix_append _ _)
  rw [wifiOf_ssid]
  exact nameField_mark hkey (by decide)

/-- The name that is reported has no comma, -/
theorem comma_notMem_ssid (i : WifiInfo) : ',' ∉ (wifiOf i.line).ssid := by
  rw [ssid_eq, fieldText_name]
  intro hcomma
  have htaken := List.mem_of_mem_take ((List.rdropWhile_prefix _ _).subset hcomma)
  simpa using List.mem_takeWhile_imp htaken

/-- and if it never had one, stands between the marks. -/
theorem ssid_between_marks (h : ',' ∉ i.ssid) :
    (wifiOf i.line).ssid = '_' :: (sanitizeField i.ssid ++ ['_']) := by
  have hfree : ∀ c ∈ '_' :: (sanitizeField i.ssid ++ ['_']),
      decide (c ≠ ',' ∧ c ≠ '\n' ∧ c ≠ '\r') = true := by
    intro c hc
    rcases List.mem_cons.mp hc with rfl | hc
    · decide
    rcases List.mem_append.mp hc with hc | hc
    · have hlow := low_sanitize c hc
      have hcomma : c ≠ ',' := by
        rintro rfl
        exact h (comma_mem_sanitize.mp hc)
      refine decide_eq_true ⟨hcomma, ?_, ?_⟩
      · rintro rfl
        exact absurd hlow (by decide)
      · rintro rfl
        exact absurd hlow (by decide)
    · obtain rfl := List.mem_singleton.mp hc
      decide
  have htake : ('_' :: (sanitizeField i.ssid ++ '_' :: ',' :: behindName i)).takeWhile
      (fun c => c ≠ ',' ∧ c ≠ '\n' ∧ c ≠ '\r') = '_' :: (sanitizeField i.ssid ++ ['_']) := by
    have hsplit : '_' :: (sanitizeField i.ssid ++ '_' :: ',' :: behindName i) =
        '_' :: (sanitizeField i.ssid ++ ['_']) ++ ',' :: behindName i := by simp
    rw [hsplit]
    exact takeWhile_append_of_stop hfree (stops_cons.mpr (by decide))
  have hlength : ('_' :: (sanitizeField i.ssid ++ ['_'])).length ≤ 63 := by
    have hfits := i.ssid_fits
    rw [List.length_cons, List.length_append, List.length_singleton, sanitizeField, List.length_map]
    omega
  rw [ssid_eq, fieldText_name, htake, List.take_of_length_le hlength, ← List.cons_append]
  exact List.rdropWhile_concat_neg _ _ _ (by decide)

/-- The name is never reported as it is. -/
theorem ssid_ne (i : WifiInfo) : (wifiOf i.line).ssid ≠ sanitizeField i.ssid := by
  intro heq
  -- a name with a comma is cut, any other has two marks too many
  have hcomma : ',' ∉ i.ssid := by
    rw [← comma_mem_sanitize, ← heq]
    exact comma_notMem_ssid i
  rw [ssid_between_marks hcomma] at heq
  have hlength := congrArg List.length heq
  rw [List.length_cons, List.length_append, List.length_singleton] at hlength
  omega

/-- The state that is searched for. -/
def completed : List Char := "Supplicant state: COMPLETED".toList

/-- The key in front of it. -/
def stateKey : List Char := " Supplicant state: ".toList

/-- What the names of the states are made of. -/
def stateLetters : List Char := "ABCDEFGHIJKLMNOPQRSTUVWXYZ_".toList

/-- A state of the supplicant, as it is printed. -/
structure IsState (state : List Char) : Prop where
  letters : ∀ c ∈ state, c ∈ stateLetters
  whole : "COMPLETED".toList <+: state → state = "COMPLETED".toList

theorem wifiOf_connected (wi : List Char) :
    (wifiOf wi).connected = 1 ↔ completed <:+: sanitizeField wi := by
  show (if rzHas (sanitizeField wi) completed then (1 : Int) else 0) = 1 ↔ _
  have hfound : rzHas (sanitizeField wi) completed = true ↔ completed <:+: sanitizeField wi := by
    rw [rzHas, Option.isSome_iff_ne_none, ne_eq, strstr_eq_none_iff, not_not]
  rw [← hfound]
  split
  · next h => exact ⟨fun _ => h, fun _ => rfl⟩
  · next h => exact ⟨fun hone => absurd hone (by decide), fun hfound => absurd hfound h⟩

/-- A text without the letter `u` does not hold it. -/
theorem not_completed {s : List Char} (h : 'u' ∉ s) : ¬ completed <:+: s := by
  intro hinfix
  exact h (List.IsInfix.subset hinfix (by decide))

/-- Only in one place the key ends as the searched word begins. -/
theorem stateKey_overlap {x y : List Char} (hword : completed = x ++ y) (hx : x <:+ stateKey) :
    x = [] ∨ y = "COMPLETED".toList := by
  have hlength : x.length ≤ 19 := hx.length_le
  have hend : ∀ k ≤ 19, completed.take k = stateKey.drop (19 - k) → k = 0 ∨ k = 18 := by decide
  have htake : completed.take x.length = x := by rw [hword, List.take_left]
  have hdrop : stateKey.drop (19 - x.length) = x := (List.suffix_iff_eq_drop.mp hx).symm
  rcases hend x.length hlength (htake.trans hdrop.symm) with hzero | hkey
  · exact .inl (List.length_eq_zero_iff.mp hzero)
  · have hy : completed.drop x.length = y := by rw [hword, List.drop_left]
    rw [hkey] at hy
    exact .inr (hy.symm.trans (by decide))

theorem sanitize_isState {state : List Char} (h : IsState state) : sanitizeField state = state := by
  have hkept : ∀ c ∈ stateLetters,
      (if c = '"' ∨ c = '\\' ∨ c = '|' ∨ c.toNat < 0x20 then '_' else c) = c :=
    forall_mem_of_all (by decide)
  exact (List.map_congr_left fun c hc => hkept c (h.letters c hc)).trans (List.map_id _)

theorem completed_state_iff {state : List Char} (h : IsState state) :
    completed <:+: stateKey ++ state ↔ state = "COMPLETED".toList := by
  have hno : ¬ completed <:+: state := by
    apply not_completed
    intro hu
    exact absurd (h.letters 'u' hu) (by decide)
  constructor
  · intro hinfix
    rcases List.infix_append_iff.mp hinfix with hkey | hstate | ⟨x, y, hword, hx, hy⟩
    · exact absurd hkey (by decide)
    · exact absurd hstate hno
    · -- the word ends in the state: all of it, or what follows the key
      rcases stateKey_overlap hword hx with rfl | rfl
      · rw [List.nil_append] at hword
        rw [← hword] at hy
        exact absurd hy.isInfix hno
      · exact h.whole hy
  · rintro rfl
    decide

theorem notMem_sanitize {s : List Char} (h : 'u' ∉ s) : 'u' ∉ sanitizeField s := by
  intro hu
  obtain ⟨c, hc, heq⟩ := List.mem_map.mp hu
  split at heq
  · cases heq
  · exact h (heq ▸ hc)

/-- Behind the name only the state can be it. -/
theorem completed_behindName_iff (hbssid : 'u' ∉ i.bssid) (hstate : IsState i.state) :
    completed <:+: behindName i ↔ i.state = "COMPLETED".toList := by
  have hcomma : ',' ∉ completed := by decide
  have hb : ¬ completed <:+: " BSSID: ".toList ++ sanitizeField i.bssid := by
    apply not_completed
    rw [List.mem_append]
    rintro (hu | hu)
    · exact absurd hu (by decide)
    · exact notMem_sanitize hbssid hu
  have hr : ¬ completed <:+: " RSSI: ".toList ++ sanitizeField (formatD i.rssi) ++ [' '] := by
    apply not_completed
    rw [List.mem_append, List.mem_append]
    rintro ((hu | hu) | hu)
    · exact absurd hu (by decide)
    · exact notMem_sanitize (notMem_formatD (by decide) (by decide) i.rssi) hu
    · exact absurd hu (by decide)
  unfold behindName
  rw [infix_append_cons_iff hcomma, infix_append_cons_iff hcomma, sanitize_isState hstate,
    or_iff_right hb, or_iff_left hr]
  exact completed_state_iff hstate

/-- **A network is taken for connected if it is, or if its name says so.** -/
theorem connected_iff (hbssid : 'u' ∉ i.bssid) (hstate : IsState i.state) :
    (wifiOf i.line).connected = 1 ↔
      i.state = "COMPLETED".toList ∨ completed <:+: sanitizeField i.ssid := by
  have hmark : '_' ∉ completed := by decide
  have hfront : ¬ completed <:+: "mWifiInfo ".toList ++ "SSID".toList ++ ": ".toList := by decide
  have hhead : ¬ completed <+: ',' :: behindName i := by
    intro h
    exact absurd (List.cons_prefix_cons.mp h).1 (by decide)
  rw [wifiOf_connected, sanitize_line, ← List.append_assoc, ← List.append_assoc,
    infix_append_cons_iff hmark, infix_append_cons_iff hmark, or_iff_right hfront,
    List.infix_cons_iff, completed_behindName_iff hbssid hstate, or_iff_right hhead]
  exact or_comm

end Line

theorem probeWifi_ssid {data wi : List Char} (h : prebakedGet data "mwifiinfo".toList = some wi) :
    (probeWifi data).ssid = (wifiOf wi).ssid := by
  unfold probeWifi
  rw [h]
  rfl

/-- **The probe never reports a network as it is**: its name keeps the marks, or is cut. -/
theorem name_never_exact {i : WifiInfo} {data : List Char}
    (h : prebakedGet data "mwifiinfo".toList = some i.line) : ¬ Reports (probeWifi data) i := by
  intro hreports
  exact ssid_ne i ((probeWifi_ssid h).symm.trans hreports.ssid)

theorem completed_fits : completed.length ≤ 32 := by decide

theorem completed_line : ∀ c ∈ completed, c ≠ '\x00' ∧ c ≠ '\r' ∧ c ≠ '\n' :=
  forall_mem_of_all (by decide)

/-- A network whose name is what the probe searches for, and that is not connected. -/
def forgedInfo : WifiInfo where
  ssid := completed
  ssid_fits := completed_fits
  ssid_line := completed_line
  bssid := "02:00:00:00:00:00".toList
  state := "DISCONNECTED".toList
  rssi := -127

def forgedData : List Char := "mwifiinfo=".toList ++ forgedInfo.line ++ ['\n']

theorem name_never_exact_forged : ¬ Reports (probeWifi forgedData) forgedInfo :=
  name_never_exact (by decide +kernel)

theorem forged_connected :
    (probeWifi forgedData).connected = 1 ∧ ¬ forgedInfo.state = "COMPLETED".toList ∧
      ¬ Reports (probeWifi forgedData) forgedInfo := by
  have hconnected : (probeWifi forgedData).connected = 1 := by decide +kernel
  have hstate : ¬ forgedInfo.state = "COMPLETED".toList := by decide
  exact ⟨hconnected, hstate, fun h => hstate (h.connected.mp hconnected)⟩

/-- **What the probe takes for a connection**: one that is complete, or a network of any state
whose name says that it is. -/
theorem probeWifi_connected_iff {i : WifiInfo} {data : List Char}
    (h : prebakedGet data "mwifiinfo".toList = some i.line) (hbssid : 'u' ∉ i.bssid)
    (hstate : IsState i.state) : (probeWifi data).connected = 1 ↔
      i.state = "COMPLETED".toList ∨ completed <:+: sanitizeField i.ssid := by
  have hprobe : (probeWifi data).connected = (wifiOf i.line).connected := by
    unfold probeWifi
    rw [h]
    rfl
  rw [hprobe]
  exact connected_iff hbssid hstate

/-- The forged name is enough. -/
theorem probeWifi_connected_iff_forged :
    (probeWifi forgedData).connected = 1 ∧ forgedInfo.state = "DISCONNECTED".toList := by
  have hfound : prebakedGet forgedData "mwifiinfo".toList = some forgedInfo.line := by decide +kernel
  have hstate : IsState forgedInfo.state := ⟨forall_mem_of_all (by decide), fun h => absurd h (by decide)⟩
  have hiff := probeWifi_connected_iff hfound (by decide) hstate
  exact ⟨hiff.mpr (.inr (by decide +kernel)), rfl⟩

end MiuiserPeruser.Rahzer
