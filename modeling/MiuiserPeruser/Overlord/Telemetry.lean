import MiuiserPeruser.Overlord.Detectors

/-!
# overlordd — missing telemetry (`overlordd.c`)

Two polls are compared: in the second, documents are missing or have lost
keys. What is still read has the same value (`Fewer`), so a condition that
asks for a reading, or that the default does not meet, holds in the first
poll if it holds in the second; ten detectors have only such conditions.
The other six go on with a default that meets a condition: no throttled
cores, no connections, a trust or posture score of 100. They raise an alarm
on what is missing just where the first poll reads a value that does not
meet it (`missing_telemetry_harmless_iff`).
-/

namespace MiuiserPeruser.Overlord

open CText

section Fewer

variable {D : Type} [Document D]

/-- Whatever is read in `B` is read in `A`, with the same value. -/
structure Fewer (A B : Results D) : Prop where
  has : ∀ daemon, B.has daemon = true → A.has daemon = true
  int : ∀ daemon key n, B.int daemon key = some n → A.int daemon key = some n
  double : ∀ daemon key x, B.double daemon key = some x → A.double daemon key = some x
  bool : ∀ daemon key b, B.bool daemon key = some b → A.bool daemon key = some b
  screen_read : screen B = screen A ∨ screen B = []

/-- A reading the first poll has and the second has lost. -/
def Lost (A B : Results D) (daemon key : String) (bad : Int → Prop) : Prop :=
  B.int daemon key = none ∧ ∃ n, A.int daemon key = some n ∧ bad n

namespace Fewer

variable {A B : Results D} {daemon key : String}

/-- A condition on a reading that was made. -/
theorem any_int (h : Fewer A B) {p : Int → Bool} (hp : (B.int daemon key).any p = true) :
    (A.int daemon key).any p = true := by
  obtain ⟨n, hn, hpn⟩ := (Option.any_eq_true _ _).mp hp
  rw [h.int daemon key n hn]
  exact hpn

theorem any_double (h : Fewer A B) {p : Number → Bool} (hp : (B.double daemon key).any p = true) :
    (A.double daemon key).any p = true := by
  obtain ⟨x, hx, hpx⟩ := (Option.any_eq_true _ _).mp hp
  rw [h.double daemon key x hx]
  exact hpx

/-- A condition the default does not meet. -/
theorem getD_int (h : Fewer A B) {p : Int → Prop} {d : Int} (hd : ¬ p d)
    (hp : p ((B.int daemon key).getD d)) : p ((A.int daemon key).getD d) := by
  cases hB : B.int daemon key with
  | none =>
      rw [hB] at hp
      exact absurd hp hd
  | some n =>
      rw [hB] at hp
      rw [h.int daemon key n hB]
      exact hp

/-- A condition the default meets fails in the first poll just if a reading
was lost that does not meet it. -/
theorem getD_int_iff (h : Fewer A B) {p : Int → Prop} {d : Int} (hd : p d)
    (hp : p ((B.int daemon key).getD d)) :
    p ((A.int daemon key).getD d) ↔ ¬ Lost A B daemon key fun n => ¬ p n := by
  cases hB : B.int daemon key with
  | none =>
      cases hA : A.int daemon key with
      | none => simp [Lost, hA, hd]
      | some n => simp [Lost, hA, hB]
  | some n =>
      rw [hB] at hp
      rw [h.int daemon key n hB]
      simpa [Lost, hB] using hp

theorem drain_above (h : Fewer A B) {q : ℚ} (hq : 0 ≤ q) (hB : above (drain B) q = true) :
    above (drain A) q = true := by
  unfold drain at hB ⊢
  cases hd : B.double "bebopd" "drain_mah_h" with
  | none =>
      rw [hd] at hB
      have : q < 0 := by simpa [above] using hB
      exact absurd this (not_lt.mpr hq)
  | some x =>
      rw [hd] at hB
      rw [h.double _ _ x hd]
      exact hB

theorem screen_off (h : Fewer A B) (hB : screen B = "off".toList) : screen A = "off".toList := by
  rcases h.screen_read with heq | hnil
  · rw [← heq, hB]
  · rw [hnil] at hB
    exact absurd hB (by decide +kernel)

end Fewer

/-! ## Detectors that ask for their readings -/

section Safe

variable {A B : Results D}

theorem detectThermalOom_fewer (h : Fewer A B) (hB : (detectThermalOom B).isSome = true) :
    (detectThermalOom A).isSome = true := by
  simp only [detectThermalOom, isSome_guarded, Bool.or_eq_true, Bool.and_eq_true, not_or,
    Bool.not_eq_true', Bool.not_eq_false, beq_iff_eq] at hB ⊢
  obtain ⟨⟨⟨hl, hr⟩, hf⟩, ⟨hthermal, hpressure⟩, hcrash⟩ := hB
  refine ⟨⟨⟨h.has _ hl, h.has _ hr⟩, h.has _ hf⟩, ⟨h.any_int hthermal, ?_⟩, ?_⟩
  · exact hpressure.imp (h.bool _ _ _) h.any_int
  · exact hcrash.imp h.any_int h.any_int

theorem detectIdleSurveillance_fewer (h : Fewer A B)
    (hB : (detectIdleSurveillance B).isSome = true) : (detectIdleSurveillance A).isSome = true := by
  simp only [detectIdleSurveillance, isSome_guarded, Bool.or_eq_true, not_or, Bool.not_eq_true',
    Bool.not_eq_false] at hB ⊢
  obtain ⟨⟨hn, hr⟩, hspikes⟩ := hB
  exact ⟨⟨h.has _ hn, h.has _ hr⟩, h.any_int hspikes⟩

theorem length_label_le {p q : Bool} {l : String} (hpq : p = true → q = true) :
    (if p then [l] else []).length ≤ (if q then [l] else []).length := by
  cases p with
  | false => simp
  | true => simp [hpq rfl]

theorem length_weaknesses_le (h : Fewer A B) : (weaknesses B).length ≤ (weaknesses A).length := by
  unfold weaknesses
  simp only [List.length_append]
  have hbool : ∀ {daemon key}, (B.bool daemon key == some true) = true →
      (A.bool daemon key == some true) = true := by
    intro daemon key hB
    rw [beq_iff_eq] at hB ⊢
    exact h.bool _ _ _ hB
  exact Nat.add_le_add (Nat.add_le_add (Nat.add_le_add (Nat.add_le_add
    (length_label_le h.any_int) (length_label_le h.any_int)) (length_label_le hbool))
    (length_label_le hbool)) (length_label_le hbool)

theorem detectSecurityWeakening_fewer (h : Fewer A B)
    (hB : (detectSecurityWeakening B).isSome = true) :
    (detectSecurityWeakening A).isSome = true := by
  simp only [detectSecurityWeakening, isSome_guarded, Bool.or_eq_true, not_or, Bool.not_eq_true',
    Bool.not_eq_false] at hB ⊢
  obtain ⟨⟨⟨ht, hs⟩, hg⟩, hcount⟩ := hB
  exact ⟨⟨⟨h.has _ ht, h.has _ hs⟩, h.has _ hg⟩, le_trans hcount (length_weaknesses_le h)⟩

theorem detectPrivacyErosion_fewer (h : Fewer A B)
    (hB : (detectPrivacyErosion B).isSome = true) : (detectPrivacyErosion A).isSome = true := by
  simp only [detectPrivacyErosion, isSome_guarded, Bool.and_eq_true, Bool.not_eq_true',
    Bool.not_eq_false, decide_eq_true_eq] at hB ⊢
  obtain ⟨hb, hsigs, hspikes⟩ := hB
  exact ⟨h.has _ hb, h.any_int hsigs, h.getD_int (p := (0 < ·)) (by decide) hspikes⟩

theorem detectIdleExfilBeacon_fewer (h : Fewer A B)
    (hB : (detectIdleExfilBeacon B).isSome = true) : (detectIdleExfilBeacon A).isSome = true := by
  simp only [detectIdleExfilBeacon, isSome_guarded, Bool.and_eq_true, Bool.not_eq_true',
    Bool.not_eq_false, decide_eq_true_eq] at hB ⊢
  obtain ⟨hn, ⟨⟨hscreen, hspikes⟩, hdrain⟩, hpriv⟩ := hB
  exact ⟨h.has _ hn, ⟨⟨h.screen_off hscreen, h.any_int hspikes⟩, h.drain_above (by norm_num) hdrain⟩,
    h.getD_int (p := (5 ≤ ·)) (by decide) hpriv⟩

theorem detectWakelockAbuse_fewer (h : Fewer A B)
    (hB : (detectWakelockAbuse B).isSome = true) : (detectWakelockAbuse A).isSome = true := by
  simp only [detectWakelockAbuse, isSome_guarded, Bool.or_eq_true, Bool.and_eq_true, not_or,
    Bool.not_eq_true', Bool.not_eq_false, decide_eq_true_eq] at hB ⊢
  obtain ⟨⟨hn, hb⟩, ⟨⟨hscreen, hidle⟩, hdrain⟩, hspikes⟩ := hB
  exact ⟨⟨h.has _ hn, h.has _ hb⟩,
    ⟨⟨h.screen_off hscreen, h.getD_int (p := (300 < ·)) (by decide) hidle⟩, h.any_double hdrain⟩,
    h.any_int hspikes⟩

/-- The confidence never falls below the threshold of the detector: what is
disclosed lowers it by less. -/
theorem pressure_confident {throttled drained repeated disclosed : Prop} [Decidable throttled]
    [Decidable drained] [Decidable repeated] [Decidable disclosed] :
    (30 / 100 : ℚ) ≤ 55 / 100 + (if throttled then 1 / 10 else 0) + (if drained then 1 / 10 else 0) +
      (if repeated then 1 / 10 else 0) - (if disclosed then 25 / 100 else 0) := by
  split_ifs <;> norm_num

theorem trap_confident {throttled disclosed : Prop} [Decidable throttled] [Decidable disclosed] :
    (30 / 100 : ℚ) ≤ 68 / 100 + (if throttled then 10 / 100 else 0) -
      (if disclosed then 25 / 100 else 0) := by
  split_ifs <;> norm_num

theorem detectMemoryPressureManip_fewer (h : Fewer A B)
    (hB : (detectMemoryPressureManip B).isSome = true) :
    (detectMemoryPressureManip A).isSome = true := by
  simp only [detectMemoryPressureManip, isSome_guarded, Bool.or_eq_true, Bool.and_eq_true, not_or,
    Bool.not_eq_true', Bool.not_eq_false, decide_eq_true_eq, beq_iff_eq] at hB ⊢
  obtain ⟨⟨hr, hf⟩, ⟨⟨hlow, havail⟩, hpressure⟩, -⟩ := hB
  refine ⟨⟨h.has _ hr, h.has _ hf⟩, ⟨⟨h.bool _ _ _ hlow, h.any_int havail⟩, ?_⟩,
    pressure_confident⟩
  rcases hpressure with (hooms | hcrashes) | hzombies
  · exact .inl (.inl (h.getD_int (p := (0 < ·)) (by decide) hooms))
  · exact .inl (.inr (h.getD_int (p := (0 < ·)) (by decide) hcrashes))
  · exact .inr (h.getD_int (p := (3 < ·)) (by decide) hzombies)

theorem detectDozeBypass_fewer (h : Fewer A B) (hB : (detectDozeBypass B).isSome = true) :
    (detectDozeBypass A).isSome = true := by
  simp only [detectDozeBypass, isSome_guarded, Bool.or_eq_true, Bool.and_eq_true, not_or,
    Bool.not_eq_true', Bool.not_eq_false, decide_eq_true_eq] at hB ⊢
  obtain ⟨⟨hn, hb⟩, ⟨⟨hscreen, hidle⟩, hspikes⟩, hdrain⟩ := hB
  exact ⟨⟨h.has _ hn, h.has _ hb⟩,
    ⟨⟨h.screen_off hscreen, h.getD_int (p := (600 < ·)) (by decide) hidle⟩, h.any_int hspikes⟩,
    h.any_double hdrain⟩

theorem detectThermalAmnesia_fewer (h : Fewer A B)
    (hB : (detectThermalAmnesia B).isSome = true) : (detectThermalAmnesia A).isSome = true := by
  simp only [detectThermalAmnesia, isSome_guarded, Bool.or_eq_true, Bool.and_eq_true,
    Bool.not_eq_true', Bool.not_eq_false, decide_eq_true_eq, beq_iff_eq] at hB ⊢
  obtain ⟨hl, ⟨⟨hthermal, hcores⟩, hdrift⟩, hselinux⟩ := hB
  refine ⟨h.has _ hl, ⟨⟨h.any_int hthermal, ?_⟩, h.bool _ _ _ hdrift⟩, h.bool _ _ _ hselinux⟩
  exact hcores.imp (h.getD_int (p := (2 < ·)) (by decide)) (h.getD_int (p := (2 < ·)) (by decide))

theorem detectMemoryExtensionTrap_fewer (h : Fewer A B)
    (hB : (detectMemoryExtensionTrap B).isSome = true) :
    (detectMemoryExtensionTrap A).isSome = true := by
  simp only [detectMemoryExtensionTrap, isSome_guarded, Bool.or_eq_true, Bool.and_eq_true, not_or,
    Bool.not_eq_true', Bool.not_eq_false, decide_eq_true_eq, beq_iff_eq] at hB ⊢
  obtain ⟨⟨hr, hf⟩, ⟨⟨⟨hlow, hooms⟩, hcrashes⟩, hdrain⟩, -⟩ := hB
  exact ⟨⟨h.has _ hr, h.has _ hf⟩,
    ⟨⟨⟨h.bool _ _ _ hlow, h.getD_int (p := (0 < ·)) (by decide) hooms⟩,
      h.getD_int (p := (0 < ·)) (by decide) hcrashes⟩, h.drain_above (by norm_num) hdrain⟩,
    trap_confident⟩

end Safe

/-! ## Detectors that go on with a default

The conditions of each as a predicate of the documents. -/

section Defaults

variable (docs : Results D)

def SensorExfil : Prop :=
  docs.has "metalheadd" = true ∧ docs.has "rahzerd" = true ∧
    (docs.int "metalheadd" "sensitive_active").any (2 < ·) = true ∧ 20 < tcpTotal docs

def ThermalDeception : Prop :=
  docs.has "leatherheadd" = true ∧
    (docs.int "leatherheadd" "thermal_score").any (fun t => 0 < t && t < 75) = true ∧
    (docs.int "leatherheadd" "throttled_cores").getD 0 = 0 ∧
    (docs.int "rocksteadyd" "throttled_cores").getD 0 = 0 ∧ above (drain docs) 150 = true

def SensorStalking : Prop :=
  docs.has "metalheadd" = true ∧ docs.has "rahzerd" = true ∧ docs.has "nulld" = true ∧
    (docs.int "metalheadd" "sensitive_active").any (1 < ·) = true ∧ 10 < tcpTotal docs ∧
    screen docs = "off".toList ∧ 80 ≤ (docs.int "tigerclawd" "trust_score").getD 100

def BinderProximity : Prop :=
  docs.has "tigerclawd" = true ∧ docs.has "ratkingd" = true ∧
    (docs.int "tigerclawd" "drift").any (fun d => 2 ≤ d && d ≤ 6) = true ∧
    (docs.int "tigerclawd" "trust_score").any (85 < ·) = true ∧
    (docs.int "ratkingd" "orphans").any (2 < ·) = true ∧ tcpTotal docs < 5 ∧
    5 ≤ (docs.int "burned" "privacy_signal_count").getD 0

def RadioSilence : Prop :=
  docs.has "rahzerd" = true ∧ docs.has "nulld" = true ∧ screen docs = "off".toList ∧
    300 < (docs.int "nulld" "idle_seconds").getD 0 ∧ tcpTotal docs < 3 ∧
    (docs.int "nulld" "total_spike_events").any (2 < ·) = true ∧ above (drain docs) 100 = true

def PrivacyDecoy : Prop :=
  docs.has "burned" = true ∧ (docs.int "burned" "privacy_signal_count").any (10 ≤ ·) = true ∧
    90 < (docs.int "tigerclawd" "trust_score").getD 100 ∧
    90 < (docs.int "granitord" "score").getD 100

variable {docs}

theorem detectSensorExfil_isSome : (detectSensorExfil docs).isSome = true ↔ SensorExfil docs := by
  simp only [detectSensorExfil, isSome_guarded, Bool.or_eq_true, Bool.and_eq_true, not_or, Bool.not_eq_true',
    Bool.not_eq_false, decide_eq_true_eq, SensorExfil, and_assoc]

theorem detectThermalDeception_isSome :
    (detectThermalDeception docs).isSome = true ↔ ThermalDeception docs := by
  simp only [detectThermalDeception, isSome_guarded, Bool.and_eq_true, Bool.not_eq_true', Bool.not_eq_false,
    decide_eq_true_eq, ThermalDeception, and_assoc]

theorem detectSensorStalking_isSome :
    (detectSensorStalking docs).isSome = true ↔ SensorStalking docs := by
  simp only [detectSensorStalking, isSome_guarded, Bool.or_eq_true, Bool.and_eq_true, not_or, Bool.not_eq_true',
    Bool.not_eq_false, decide_eq_true_eq, SensorStalking, and_assoc]

theorem detectBinderProximity_isSome :
    (detectBinderProximity docs).isSome = true ↔ BinderProximity docs := by
  simp only [detectBinderProximity, isSome_guarded, Bool.or_eq_true, Bool.and_eq_true, not_or, Bool.not_eq_true',
    Bool.not_eq_false, decide_eq_true_eq, BinderProximity, and_assoc]

theorem detectRadioSilence_isSome : (detectRadioSilence docs).isSome = true ↔ RadioSilence docs := by
  simp only [detectRadioSilence, isSome_guarded, Bool.or_eq_true, Bool.and_eq_true, not_or, Bool.not_eq_true',
    Bool.not_eq_false, decide_eq_true_eq, RadioSilence, and_assoc]

theorem detectPrivacyDecoy_isSome : (detectPrivacyDecoy docs).isSome = true ↔ PrivacyDecoy docs := by
  simp only [detectPrivacyDecoy, isSome_guarded, Bool.and_eq_true, Bool.not_eq_true', Bool.not_eq_false,
    decide_eq_true_eq, PrivacyDecoy, and_assoc]

end Defaults

/-- No detector takes a default for a reading that was lost and would have
kept it still. -/
structure DefaultsHarmless (A B : Results D) : Prop where
  sensor_exfil : SensorExfil B → 20 < tcpTotal A
  thermal_deception : ThermalDeception B →
    ¬ Lost A B "leatherheadd" "throttled_cores" (¬ · = 0) ∧
    ¬ Lost A B "rocksteadyd" "throttled_cores" (¬ · = 0)
  sensor_stalking : SensorStalking B →
    10 < tcpTotal A ∧ ¬ Lost A B "tigerclawd" "trust_score" (¬ 80 ≤ ·)
  binder_proximity : BinderProximity B → tcpTotal A < 5
  radio_silence : RadioSilence B → tcpTotal A < 3
  privacy_decoy : PrivacyDecoy B →
    ¬ Lost A B "tigerclawd" "trust_score" (¬ 90 < ·) ∧ ¬ Lost A B "granitord" "score" (¬ 90 < ·)

section Defaults

variable {A B : Results D} (h : Fewer A B)
include h

theorem sensorExfil_fewer (hB : SensorExfil B) : SensorExfil A ↔ 20 < tcpTotal A := by
  obtain ⟨hm, hr, hsensitive, -⟩ := hB
  exact ⟨fun hA => hA.2.2.2, fun htcp => ⟨h.has _ hm, h.has _ hr, h.any_int hsensitive, htcp⟩⟩

theorem thermalDeception_fewer (hB : ThermalDeception B) : ThermalDeception A ↔
    ¬ Lost A B "leatherheadd" "throttled_cores" (¬ · = 0) ∧
    ¬ Lost A B "rocksteadyd" "throttled_cores" (¬ · = 0) := by
  obtain ⟨hl, hthermal, hcores, hrocky, hdrain⟩ := hB
  rw [← h.getD_int_iff (p := (· = 0)) rfl hcores, ← h.getD_int_iff (p := (· = 0)) rfl hrocky]
  constructor
  · exact fun hA => ⟨hA.2.2.1, hA.2.2.2.1⟩
  · intro hgate
    exact ⟨h.has _ hl, h.any_int hthermal, hgate.1, hgate.2, h.drain_above (by norm_num) hdrain⟩

theorem sensorStalking_fewer (hB : SensorStalking B) : SensorStalking A ↔
    10 < tcpTotal A ∧ ¬ Lost A B "tigerclawd" "trust_score" (¬ 80 ≤ ·) := by
  obtain ⟨hm, hr, hn, hsensitive, -, hscreen, htrust⟩ := hB
  rw [← h.getD_int_iff (p := (80 ≤ ·)) (by decide) htrust]
  constructor
  · exact fun hA => ⟨hA.2.2.2.2.1, hA.2.2.2.2.2.2⟩
  · intro hgate
    exact ⟨h.has _ hm, h.has _ hr, h.has _ hn, h.any_int hsensitive, hgate.1, h.screen_off hscreen,
      hgate.2⟩

theorem binderProximity_fewer (hB : BinderProximity B) : BinderProximity A ↔ tcpTotal A < 5 := by
  obtain ⟨ht, hr, hdrift, htrust, horphans, -, hpriv⟩ := hB
  constructor
  · exact fun hA => hA.2.2.2.2.2.1
  · intro htcp
    exact ⟨h.has _ ht, h.has _ hr, h.any_int hdrift, h.any_int htrust, h.any_int horphans, htcp,
      h.getD_int (p := (5 ≤ ·)) (by decide) hpriv⟩

theorem radioSilence_fewer (hB : RadioSilence B) : RadioSilence A ↔ tcpTotal A < 3 := by
  obtain ⟨hr, hn, hscreen, hidle, -, hspikes, hdrain⟩ := hB
  constructor
  · exact fun hA => hA.2.2.2.2.1
  · intro htcp
    exact ⟨h.has _ hr, h.has _ hn, h.screen_off hscreen,
      h.getD_int (p := (300 < ·)) (by decide) hidle, htcp, h.any_int hspikes,
      h.drain_above (by norm_num) hdrain⟩

theorem privacyDecoy_fewer (hB : PrivacyDecoy B) : PrivacyDecoy A ↔
    ¬ Lost A B "tigerclawd" "trust_score" (¬ 90 < ·) ∧
    ¬ Lost A B "granitord" "score" (¬ 90 < ·) := by
  obtain ⟨hb, hsigs, htrust, hscore⟩ := hB
  rw [← h.getD_int_iff (p := (90 < ·)) (by decide) htrust,
    ← h.getD_int_iff (p := (90 < ·)) (by decide) hscore]
  constructor
  · exact fun hA => hA.2.2
  · exact fun hgate => ⟨h.has _ hb, h.any_int hsigs, hgate.1, hgate.2⟩

/-- **Alarms of a poll with fewer readings.** -/
theorem fewer_readings_harmless_iff {wA wB : Option Escalation} :
    (∀ k, k ≠ .privEscalation → Added B wB k → Added A wA k) ↔ DefaultsHarmless A B := by
  simp only [added_iff]
  constructor
  · intro hall
    constructor
    · intro hB
      have hA := hall .sensorExfil (by decide) (detectSensorExfil_isSome.mpr hB)
      exact (sensorExfil_fewer h hB).mp (detectSensorExfil_isSome.mp hA)
    · intro hB
      have hA := hall .thermalDeception (by decide) (detectThermalDeception_isSome.mpr hB)
      exact (thermalDeception_fewer h hB).mp (detectThermalDeception_isSome.mp hA)
    · intro hB
      have hA := hall .sensorStalking (by decide) (detectSensorStalking_isSome.mpr hB)
      exact (sensorStalking_fewer h hB).mp (detectSensorStalking_isSome.mp hA)
    · intro hB
      have hA := hall .binderProximity (by decide) (detectBinderProximity_isSome.mpr hB)
      exact (binderProximity_fewer h hB).mp (detectBinderProximity_isSome.mp hA)
    · intro hB
      have hA := hall .radioSilence (by decide) (detectRadioSilence_isSome.mpr hB)
      exact (radioSilence_fewer h hB).mp (detectRadioSilence_isSome.mp hA)
    · intro hB
      have hA := hall .privacyDecoy (by decide) (detectPrivacyDecoy_isSome.mpr hB)
      exact (privacyDecoy_fewer h hB).mp (detectPrivacyDecoy_isSome.mp hA)
  · intro hgates k hk hB
    cases k with
    | thermalOom => exact detectThermalOom_fewer h hB
    | idleSurveillance => exact detectIdleSurveillance_fewer h hB
    | sensorExfil =>
        have hB := detectSensorExfil_isSome.mp hB
        exact detectSensorExfil_isSome.mpr
          ((sensorExfil_fewer h hB).mpr (hgates.sensor_exfil hB))
    | securityWeakening => exact detectSecurityWeakening_fewer h hB
    | privacyErosion => exact detectPrivacyErosion_fewer h hB
    | thermalDeception =>
        have hB := detectThermalDeception_isSome.mp hB
        exact detectThermalDeception_isSome.mpr
          ((thermalDeception_fewer h hB).mpr (hgates.thermal_deception hB))
    | idleExfilBeacon => exact detectIdleExfilBeacon_fewer h hB
    | sensorStalking =>
        have hB := detectSensorStalking_isSome.mp hB
        exact detectSensorStalking_isSome.mpr
          ((sensorStalking_fewer h hB).mpr (hgates.sensor_stalking hB))
    | wakelockAbuse => exact detectWakelockAbuse_fewer h hB
    | privEscalation => exact absurd rfl hk
    | memoryPressureManip => exact detectMemoryPressureManip_fewer h hB
    | dozeBypass => exact detectDozeBypass_fewer h hB
    | thermalAmnesia => exact detectThermalAmnesia_fewer h hB
    | binderProximity =>
        have hB := detectBinderProximity_isSome.mp hB
        exact detectBinderProximity_isSome.mpr
          ((binderProximity_fewer h hB).mpr (hgates.binder_proximity hB))
    | memoryExtensionTrap => exact detectMemoryExtensionTrap_fewer h hB
    | radioSilence =>
        have hB := detectRadioSilence_isSome.mp hB
        exact detectRadioSilence_isSome.mpr
          ((radioSilence_fewer h hB).mpr (hgates.radio_silence hB))
    | privacyDecoy =>
        have hB := detectPrivacyDecoy_isSome.mp hB
        exact detectPrivacyDecoy_isSome.mpr
          ((privacyDecoy_fewer h hB).mpr (hgates.privacy_decoy hB))

end Defaults

end Fewer

/-! ## Deleting documents and keys -/

/-- Every document of `B` is absent, or is that of `A` without some keys. -/
def Thinned (A B : Results Fields) : Prop :=
  ∀ daemon, B daemon = none ∨
    ∃ d deleted, A daemon = some d ∧ B daemon = some (d.without deleted)

section Thinned

variable {A B : Results Fields}

/-- A value that is left is the value there was. -/
theorem Thinned.get (h : Thinned A B) {α : Type} (f : Field → Option α) {daemon key : String} {v : α}
    (hB : ((B daemon).bind fun d => (d.get key).bind f) = some v) :
    ((A daemon).bind fun d => (d.get key).bind f) = some v := by
  rcases h daemon with hnone | ⟨d, deleted, hA, hthin⟩
  · rw [hnone] at hB
    cases hB
  · rw [hthin, Option.bind_some, Fields.get_without] at hB
    rw [hA, Option.bind_some]
    split at hB
    · cases hB
    · exact hB

/-- The integer of a number that was read. -/
def intOf : Number → Option Int
  | .finite q => if q > intMax ∨ q < intMin then none else some (truncate q)
  | _ => none

theorem Thinned.fewer (h : Thinned A B) : Fewer A B where
  has := by
    intro daemon hB
    rcases h daemon with hnone | ⟨d, deleted, hA, -⟩
    · rw [Results.has, hnone] at hB
      cases hB
    · rw [Results.has, hA]
      rfl
  int := by
    have hint : ∀ (docs : Results Fields) daemon key, docs.int daemon key =
        (docs daemon).bind fun d => (d.get key).bind fun f => f.double.bind intOf := by
      intro docs daemon key
      unfold Results.int
      congr 1
      funext d
      unfold getInt
      rw [show Document.getDouble d key = (d.get key).bind Field.double from rfl]
      cases d.get key with
      | none => rfl
      | some f =>
          cases hf : f.double with
          | none => simp [hf]
          | some x => cases x <;> simp [hf, intOf]
    intro daemon key n hB
    rw [hint] at hB ⊢
    exact h.get _ hB
  double := fun _ _ _ hB => h.get Field.double hB
  bool := fun _ _ _ hB => h.get Field.boolean hB
  screen_read := by
    unfold screen
    cases hB : (B "nulld").bind fun d => Document.getStr d "screen" 16 with
    | none => exact .inr rfl
    | some s =>
        left
        have hA : ((A "nulld").bind fun d => Document.getStr d "screen" 16) = some s :=
          h.get (Field.textOf 16) hB
        rw [hA]

/-- **Missing telemetry.** Every pattern of the thinned documents is one of
the full documents, just if no default stands in for a lost reading that
kept a detector still. -/
theorem missing_telemetry_harmless_iff (h : Thinned A B) (wA wB : Option Escalation) :
    (∀ k, k ≠ .privEscalation → Added B wB k → Added A wA k) ↔ DefaultsHarmless A B :=
  fewer_readings_harmless_iff h.fewer

end Thinned

/-- Twelve privacy signals on a device whose trust score is 10. -/
def distrusted : Results Fields := fun daemon =>
  if daemon = "burned" then some ⟨[("privacy_signal_count", .number (.finite 12))]⟩
  else if daemon = "tigerclawd" then some ⟨[("trust_score", .number (.finite 10))]⟩
  else none

/-- The same without tigerclawd's document. -/
def unwatched : Results Fields := fun daemon =>
  if daemon = "tigerclawd" then none else distrusted daemon

theorem thinned_unwatched : Thinned distrusted unwatched := by
  intro daemon
  by_cases ht : daemon = "tigerclawd"
  · exact .inl (if_pos ht)
  · by_cases hb : daemon = "burned"
    · subst hb
      exact .inr ⟨_, fun _ => false, rfl, rfl⟩
    · left
      simp [unwatched, distrusted, ht, hb]

theorem missing_telemetry_harmless_iff_unwatched :
    (∀ k, k ≠ .privEscalation → Added unwatched none k → Added distrusted none k) ↔
      DefaultsHarmless distrusted unwatched :=
  missing_telemetry_harmless_iff thinned_unwatched none none

/-- Without tigerclawd's document the device counts as trusted, and the
signals as a decoy. -/
theorem absent_score_raises_decoy : Thinned distrusted unwatched ∧
    Added unwatched none .privacyDecoy ∧ ¬ Added distrusted none .privacyDecoy := by
  refine ⟨thinned_unwatched, ?_, ?_⟩
  · rw [added_iff]
    decide +kernel
  · rw [added_iff]
    decide +kernel

end MiuiserPeruser.Overlord
