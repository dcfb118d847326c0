import MiuiserPeruser.Casey.Modules

/-!
# casey — accessibility services and notification listeners (`casey_hook.c`)

`check_overlay_keylogger` reads two settings, each a list of components with
colons between them, and reports a list in which no prefix of a trusted vendor
is found. It looks for the prefix anywhere in the list: one trusted component
hides all others, and so does a component that only holds such a prefix
somewhere (`services_reported_iff`).
-/

namespace MiuiserPeruser.Casey

open CText April

/-- The constants of `sensei_types.h` of these two detections. -/
def classBehavior : UInt32 := 5
def priorityHigh : UInt32 := 2
def mitreT1055 : UInt32 := 1

/-! ## check_overlay_keylogger -/

/-- `safe` and `safe_nl`. -/
def safeA11y : List String :=
  ["com.google.", "com.android.", "com.miui.", "com.xiaomi.", "com.samsung."]

def safeListener : List String := ["com.google.", "com.android.", "com.miui.", "com.xiaomi."]

/-- `safe_pkg`: a prefix is found in the text of the setting. -/
def safePkg (safe : List String) (text : List Char) : Bool :=
  safe.any fun pre => (strstr pre.toList text).isSome

/-- The detection of an unknown service. -/
def serviceDetection (conf : Int) (type label : String) (text : List Char) : Detection :=
  { pid := 0
    name := []
    detectionClass := classBehavior
    priority := priorityHigh
    mitreId := mitreT1055
    detectionType := type.toList.take 63
    description := snprintf 511 (label.toList ++ text)
    confidence := conf }

/-- One of the two checks, on what `direct_exec` returns for the setting. -/
def checkSetting (safe : List String) (conf : Int) (type label : String) (setting : Option (List Char))
    (r : List Detection) : List Detection :=
  match setting with
  | none => r
  | some text =>
      if text.length > 2 ∧ text ≠ "null\n".toList ∧ safePkg safe text = false then
        r ++ [serviceDetection conf type label text]
      else r

def checkA11y : Option (List Char) → List Detection → List Detection :=
  checkSetting safeA11y 88 "SUSPICIOUS_A11Y" "Unknown accessibility service: "

def checkListeners : Option (List Char) → List Detection → List Detection :=
  checkSetting safeListener 85 "NOTIF_LISTENER" "Unknown notification listener: "

/-- `check_overlay_keylogger`. -/
def checkOverlayKeylogger (a11y listeners : Option (List Char)) (r : List Detection) : List Detection :=
  checkListeners listeners (checkA11y a11y r)

/-! ## The settings -/

/-- A component: `package/class`. -/
structure Component where
  package : List Char
  cls : List Char
  package_ne : package ≠ []
  noSlash : '/' ∉ package
  plain : ∀ c ∈ package ++ cls, c ≠ ':' ∧ c ≠ '\n' ∧ c ≠ '\x00'

def Component.text (c : Component) : List Char := c.package ++ '/' :: c.cls

/-- What `settings get` prints of a list of components. -/
def settingText (comps : List Component) : List Char :=
  if comps = [] then "null\n".toList else [':'].intercalate (comps.map Component.text) ++ ['\n']

/-- A package of a trusted vendor. -/
def Trusted (safe : List String) (c : Component) : Prop := ∃ pre ∈ safe, pre.toList <+: c.package

/-- A component that holds no trusted prefix at all. -/
def Unmarked (safe : List String) (c : Component) : Prop := ∀ pre ∈ safe, ¬ pre.toList <:+: c.text

/-- The detections the two lists lead to. -/
def detections (a11y listeners : List Component) : List Detection :=
  checkOverlayKeylogger (some (settingText a11y)) (some (settingText listeners)) []

def Reported (a11y listeners : List Component) (type : String) : Prop :=
  ∃ d ∈ detections a11y listeners, d.detectionType = type.toList

section Settings

variable {safe : List String} {comps a11y listeners : List Component}

/-- Prefixes as they are found inside of one component only. -/
def PlainPrefixes (safe : List String) : Prop := ∀ pre ∈ safe, ':' ∉ pre.toList ∧ '\n' ∉ pre.toList ∧ pre ≠ ""

theorem plain_safeA11y : PlainPrefixes safeA11y := by
  unfold PlainPrefixes safeA11y
  decide

theorem plain_safeListener : PlainPrefixes safeListener := by
  unfold PlainPrefixes safeListener
  decide

/-- The text begins with the first component, and does not end with it. -/
theorem settingText_cons (c : Component) (comps : List Component) :
    ∃ e rest, settingText (c :: comps) = c.text ++ e :: rest := by
  cases comps with
  | nil => exact ⟨'\n', [], by simp [settingText]⟩
  | cons d comps => exact ⟨':', _, by simp [settingText]; rfl⟩

/-- The text of a list is long enough, and not that of a missing one. -/
theorem settingText_of_ne_nil (h : comps ≠ []) :
    2 < (settingText comps).length ∧ settingText comps ≠ "null\n".toList := by
  obtain ⟨c, comps, rfl⟩ := List.exists_cons_of_ne_nil h
  obtain ⟨e, rest, htext⟩ := settingText_cons c comps
  have hpos := List.length_pos_of_ne_nil c.package_ne
  rw [htext]
  constructor
  · simp only [Component.text, List.length_append, List.length_cons]
    omega
  · intro hnull
    have hslash : '/' ∈ c.text ++ e :: rest := by simp [Component.text]
    rw [hnull] at hslash
    revert hslash
    decide

/-- A prefix is found exactly if a component holds it. -/
theorem safePkg_eq_false_iff (hsafe : PlainPrefixes safe) (h : comps ≠ []) :
    safePkg safe (settingText comps) = false ↔ ∀ c ∈ comps, Unmarked safe c := by
  obtain ⟨c, comps, rfl⟩ := List.exists_cons_of_ne_nil h
  have hfound : ∀ pre ∈ safe, (strstr pre.toList (settingText (c :: comps))).isSome = true ↔
      ∃ d ∈ c :: comps, pre.toList <:+: d.text := by
    intro pre hpre
    obtain ⟨hcolon, hline, hne⟩ := hsafe pre hpre
    have hnil : pre.toList ≠ [] := fun h => hne (String.toList_eq_nil_iff.mp h)
    rw [Option.isSome_iff_ne_none, ne_eq, strstr_eq_none_iff, not_not, settingText, if_neg (by simp),
      List.map_cons, infix_intercalate_iff hcolon hline, ← List.map_cons]
    simp [hnil]
  rw [safePkg, List.any_eq_false]
  constructor
  · intro hnone d hd pre hpre hpart
    exact hnone pre hpre ((hfound pre hpre).mpr ⟨d, hd, hpart⟩)
  · intro hnone pre hpre hsome
    obtain ⟨d, hd, hpart⟩ := (hfound pre hpre).mp hsome
    exact hnone d hd pre hpre hpart

/-- **A check reports a list** in which no component holds a prefix, and no
other. -/
theorem mem_checkSetting (hsafe : PlainPrefixes safe) (conf : Int) (type label : String)
    (comps : List Component) (r : List Detection) (d : Detection) :
    d ∈ checkSetting safe conf type label (some (settingText comps)) r ↔
      d ∈ r ∨ (comps ≠ [] ∧ ∀ c ∈ comps, Unmarked safe c) ∧
        d = serviceDetection conf type label (settingText comps) := by
  by_cases h : comps ≠ [] ∧ ∀ c ∈ comps, Unmarked safe c
  · obtain ⟨hlen, hnull⟩ := settingText_of_ne_nil h.1
    have hcheck : checkSetting safe conf type label (some (settingText comps)) r =
        r ++ [serviceDetection conf type label (settingText comps)] :=
      if_pos ⟨hlen, hnull, (safePkg_eq_false_iff hsafe h.1).mpr h.2⟩
    rw [hcheck, List.mem_append, List.mem_singleton]
    exact or_congr_right (and_iff_right h).symm
  · have hcheck : checkSetting safe conf type label (some (settingText comps)) r = r := by
      apply if_neg
      rintro ⟨-, hnull, hnone⟩
      by_cases hne : comps = []
      · exact hnull (if_pos hne)
      · exact h ⟨hne, (safePkg_eq_false_iff hsafe hne).mp hnone⟩
    rw [hcheck]
    exact ⟨Or.inl, fun hd => hd.resolve_right fun hr => h hr.1⟩

theorem mem_detections (d : Detection) : d ∈ detections a11y listeners ↔
    ((a11y ≠ [] ∧ ∀ c ∈ a11y, Unmarked safeA11y c) ∧
      d = serviceDetection 88 "SUSPICIOUS_A11Y" "Unknown accessibility service: " (settingText a11y)) ∨
    ((listeners ≠ [] ∧ ∀ c ∈ listeners, Unmarked safeListener c) ∧
      d = serviceDetection 85 "NOTIF_LISTENER" "Unknown notification listener: "
        (settingText listeners)) := by
  rw [detections, checkOverlayKeylogger, checkListeners, mem_checkSetting plain_safeListener, checkA11y,
    mem_checkSetting plain_safeA11y]
  simp

theorem reported_a11y_iff : Reported a11y listeners "SUSPICIOUS_A11Y" ↔
    a11y ≠ [] ∧ ∀ c ∈ a11y, Unmarked safeA11y c := by
  constructor
  · rintro ⟨d, hd, htype⟩
    rcases mem_detections d |>.mp hd with ⟨h, -⟩ | ⟨-, rfl⟩
    · exact h
    · exact absurd htype (show "NOTIF_LISTENER".toList.take 63 ≠ _ by decide)
  · intro h
    exact ⟨_, mem_detections _ |>.mpr (Or.inl ⟨h, rfl⟩), show "SUSPICIOUS_A11Y".toList.take 63 = _ by decide⟩

theorem reported_listener_iff : Reported a11y listeners "NOTIF_LISTENER" ↔
    listeners ≠ [] ∧ ∀ c ∈ listeners, Unmarked safeListener c := by
  constructor
  · rintro ⟨d, hd, htype⟩
    rcases mem_detections d |>.mp hd with ⟨-, rfl⟩ | ⟨h, -⟩
    · exact absurd htype (show "SUSPICIOUS_A11Y".toList.take 63 ≠ _ by decide)
    · exact h
  · intro h
    exact ⟨_, mem_detections _ |>.mpr (Or.inr ⟨h, rfl⟩), show "NOTIF_LISTENER".toList.take 63 = _ by decide⟩

/-- A trusted package is a prefix the component holds. -/
theorem Trusted.marked {c : Component} (h : Trusted safe c) : ¬ Unmarked safe c := by
  obtain ⟨pre, hpre, hbegins⟩ := h
  exact fun hun => hun pre hpre (hbegins.trans (List.prefix_append _ _)).isInfix

/-- When "nobody holds a prefix" is the same as "somebody is not trusted". -/
theorem unmarked_iff_untrusted : ((comps ≠ [] ∧ ∀ c ∈ comps, Unmarked safe c) ↔
      ∃ c ∈ comps, ¬ Trusted safe c) ↔
    (∀ c ∈ comps, Trusted safe c) ∨ ∀ c ∈ comps, Unmarked safe c := by
  constructor
  · intro h
    by_cases hall : ∀ c ∈ comps, Trusted safe c
    · exact Or.inl hall
    · push Not at hall
      exact Or.inr (h.mpr hall).2
  · rintro (hall | hun)
    · constructor
      · rintro ⟨hne, hun⟩
        obtain ⟨c, hc⟩ := List.exists_mem_of_ne_nil comps hne
        exact absurd (hun c hc) (hall c hc).marked
      · rintro ⟨c, hc, hnot⟩
        exact absurd (hall c hc) hnot
    · constructor
      · rintro ⟨hne, -⟩
        obtain ⟨c, hc⟩ := List.exists_mem_of_ne_nil comps hne
        exact ⟨c, hc, fun ht => ht.marked (hun c hc)⟩
      · rintro ⟨c, hc, -⟩
        exact ⟨List.ne_nil_of_mem hc, hun⟩

/-- A list that is reported stays so with one more component exactly if that
holds no prefix. -/
theorem unmarked_insert {front back : List Component} (c : Component)
    (h : front ++ back ≠ [] ∧ ∀ d ∈ front ++ back, Unmarked safe d) :
    (front ++ c :: back ≠ [] ∧ ∀ d ∈ front ++ c :: back, Unmarked safe d) ↔ Unmarked safe c := by
  constructor
  · rintro ⟨-, hun⟩
    exact hun c (by simp)
  · intro hc
    refine ⟨by simp, fun d hd => ?_⟩
    rcases List.mem_append.mp hd with hd | hd
    · exact h.2 d (List.mem_append_left _ hd)
    · rcases List.mem_cons.mp hd with rfl | hd
      · exact hc
      · exact h.2 d (List.mem_append_right _ hd)

end Settings

/-- **A list is rightly reported exactly if all its components are trusted or
none holds a trusted prefix, and it stays reported with one more component
exactly if that holds none.** -/
theorem services_reported_iff (a11y listeners : List Component) :
    ((Reported a11y listeners "SUSPICIOUS_A11Y" ↔ ∃ c ∈ a11y, ¬ Trusted safeA11y c) ↔
      (∀ c ∈ a11y, Trusted safeA11y c) ∨ ∀ c ∈ a11y, Unmarked safeA11y c) ∧
    ((Reported a11y listeners "NOTIF_LISTENER" ↔ ∃ c ∈ listeners, ¬ Trusted safeListener c) ↔
      (∀ c ∈ listeners, Trusted safeListener c) ∨ ∀ c ∈ listeners, Unmarked safeListener c) ∧
    (∀ front c back,
      (Reported (front ++ back) listeners "SUSPICIOUS_A11Y" →
          Reported (front ++ c :: back) listeners "SUSPICIOUS_A11Y") ↔
        (Reported (front ++ back) listeners "SUSPICIOUS_A11Y" → Unmarked safeA11y c)) ∧
    ∀ front c back,
      (Reported a11y (front ++ back) "NOTIF_LISTENER" →
          Reported a11y (front ++ c :: back) "NOTIF_LISTENER") ↔
        (Reported a11y (front ++ back) "NOTIF_LISTENER" → Unmarked safeListener c) := by
  simp only [reported_a11y_iff, reported_listener_iff]
  refine ⟨unmarked_iff_untrusted, unmarked_iff_untrusted, ?_, ?_⟩
  · intro front c back
    exact forall_congr' fun h => unmarked_insert c h
  · intro front c back
    exact forall_congr' fun h => unmarked_insert c h

/-- What the name of a component has to be. -/
def isComponent (package cls : List Char) : Bool :=
  package ≠ [] && '/' ∉ package && (package ++ cls).all fun c => c ≠ ':' && c ≠ '\n' && c ≠ '\x00'

section Checked

variable {package cls : List Char}

theorem package_ne_of_check (h : isComponent package cls = true) : package ≠ [] := by
  simp only [isComponent, Bool.and_eq_true, decide_eq_true_eq] at h
  exact h.1.1

theorem noSlash_of_check (h : isComponent package cls = true) : '/' ∉ package := by
  simp only [isComponent, Bool.and_eq_true, decide_eq_true_eq] at h
  exact h.1.2

theorem plain_of_check (h : isComponent package cls = true) :
    ∀ c ∈ package ++ cls, c ≠ ':' ∧ c ≠ '\n' ∧ c ≠ '\x00' := by
  simp only [isComponent, Bool.and_eq_true] at h
  intro c hc
  simpa [and_assoc] using List.all_eq_true.mp h.2 c hc

end Checked

def component (package cls : List Char) (h : isComponent package cls = true) : Component :=
  ⟨package, cls, package_ne_of_check h, noSlash_of_check h, plain_of_check h⟩

/-- The screen reader of the vendor, and a keylogger. -/
def talkBack : Component :=
  component "com.google.android.marvin.talkback".toList ".TalkBackService".toList rfl
def keylogger : Component := component "com.evil.keylogger".toList ".KeyService".toList rfl

/-- The screen reader hides the keylogger. -/
theorem keylogger_hidden : ¬ (Reported [talkBack, keylogger] [] "SUSPICIOUS_A11Y" ↔
    ∃ c ∈ [talkBack, keylogger], ¬ Trusted safeA11y c) := by
  intro h
  have huntrusted : ¬ Trusted safeA11y keylogger := by
    unfold Trusted
    decide +kernel
  have hreported := reported_a11y_iff.mp (h.mpr ⟨keylogger, by simp, huntrusted⟩)
  have hmarked : "com.google.".toList <:+: talkBack.text := by decide +kernel
  exact hreported.2 talkBack (by simp) "com.google." (by simp [safeA11y]) hmarked

end MiuiserPeruser.Casey
