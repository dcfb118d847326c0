import MiuiserPeruser.Lib.Json

/-!
# leo — the export for a subject access request (`leo_detection.c`)

`leo_export_sar` prints the history of the scans and all detections as JSON.
Of the texts of a detection only the description is escaped, and of its
control characters only line breaks and tabs. The export gives back what the
database holds exactly if no other text and no other character would have
needed an escape (`export_faithful_iff`).
-/

namespace MiuiserPeruser.Leo

open Json
open CText (formatD Stops stops_cons)

/-! ## The rows -/

/-- `sqlite3_column_text`, as it is printed: a missing value counts as the empty string. -/
structure Column where
  text : List Char
  isString : '\x00' ∉ text

/-- The depths a scan can have. -/
inductive Depth where
  | surface
  | standard
  | deep

def Depth.text : Depth → String
  | .surface => "surface"
  | .standard => "standard"
  | .deep => "deep"

/-- A row of `scan_history`. -/
structure ScanRow where
  timestamp : Int64
  depth : Depth
  findings : Int32
  thermal : Int32
  battery : Int32

/-- A row of `detections`. -/
structure DetectionRow where
  timestamp : Int64
  turtle : Column
  type : Column
  description : Column
  priority : Column

/-! ## leo_export_sar -/

/-- The escape of a character of a description. -/
def descEscape (c : Char) : List Char :=
  if c = '"' then ['\\', '"']
  else if c = '\\' then ['\\', '\\']
  else if c = '\n' then ['\\', 'n']
  else if c = '\r' then ['\\', 'r']
  else if c = '\t' then ['\\', 't']
  else [c]

/-- `safe_desc` from its `j`-th character on. -/
def safeDescFrom : Nat → List Char → List Char
  | _, [] => []
  | j, c :: cs =>
      if j < 508 then descEscape c ++ safeDescFrom (j + (descEscape c).length) cs else []

def safeDesc (desc : List Char) : List Char := safeDescFrom 0 desc

/-- `"key":number`. -/
def numberField (key : String) (n : Int) : List Char :=
  '"' :: (key.toList ++ '"' :: ':' :: formatD n)

/-- `"key":"text"`. -/
def stringField (key : String) (s : List Char) : List Char :=
  '"' :: (key.toList ++ '"' :: ':' :: '"' :: (s ++ ['"']))

def ScanRow.text (row : ScanRow) : List Char :=
  "    \x7b".toList ++ numberField "timestamp" row.timestamp.toInt ++
    ',' :: stringField "depth" row.depth.text.toList ++
    ',' :: numberField "findings" row.findings.toInt ++
    ',' :: numberField "thermal" row.thermal.toInt ++
    ',' :: numberField "battery" row.battery.toInt ++ ['\x7d']

def DetectionRow.text (row : DetectionRow) : List Char :=
  "    \x7b".toList ++ numberField "timestamp" row.timestamp.toInt ++
    ',' :: stringField "turtle" row.turtle.text ++
    ',' :: stringField "type" row.type.text ++
    ',' :: stringField "description" (safeDesc row.description.text) ++
    ',' :: stringField "priority" row.priority.text ++ ['\x7d']

/-- The rows with a comma and a line break between each two. -/
def rowsText {α : Type} (text : α → List Char) : List α → List Char
  | [] => []
  | [a] => text a
  | a :: b :: as => text a ++ ",\n".toList ++ rowsText text (b :: as)

/-- A line of fixed text. -/
def line (indent key value tail : String) : List Char :=
  indent.toList ++ '"' :: (key.toList ++ '"' :: ':' :: ' ' :: '"' :: (value.toList ++ '"' :: tail.toList))

/-- The lines behind the detections. -/
def rightsText : List Char :=
  "  \"gdpr_rights\": \x7b\n".toList ++
    line "    " "right_to_access" "This document" ",\n" ++
    line "    " "right_to_erasure" "Run: superhero --purge" ",\n" ++
    line "    " "right_to_portability" "JSON format \xe2\x80\x94 machine readable" ",\n" ++
    line "    " "data_location" "On-device only \xe2\x80\x94 never transmitted" "\n" ++
    "  \x7d\n\x7d\n".toList

/-- The document of `leo_export_sar`. -/
def exportSar (now : Int64) (scans : List ScanRow) (detections : List DetectionRow) : List Char :=
  "\x7b\n".toList ++
    line "  " "sar_type" "Subject Access Request" ",\n" ++
    line "  " "tool" "MiuiserPeruser Superhero Mode" ",\n" ++
    "  \"exported_at\": ".toList ++ formatD now.toInt ++ ",\n".toList ++
    line "  " "data_controller" "Device owner" ",\n" ++
    line "  " "purpose" "Personal device security monitoring" ",\n" ++
    line "  " "legal_basis" "Legitimate interest \xe2\x80\x94 personal device security" ",\n" ++
    line "  " "retention_policy" "90 days rolling, purge on request" ",\n\n" ++
    "  \"scan_history\": [\n".toList ++ rowsText ScanRow.text scans ++ "\n  ],\n\n".toList ++
    "  \"detections\": [\n".toList ++ rowsText DetectionRow.text detections ++ "\n  ],\n\n".toList ++
    rightsText

/-! ## What the export says -/

/-- A record of the export says what a row of the database says. -/
structure Decodes (row : DetectionRow) (record : Value) : Prop where
  timestamp : record.get? "timestamp".toList = some (.number (formatD row.timestamp.toInt))
  turtle : record.get? "turtle".toList = some (.string row.turtle.text)
  type : record.get? "type".toList = some (.string row.type.text)
  description : ∃ desc, record.get? "description".toList = some (.string desc) ∧
    desc <+: row.description.text
  priority : record.get? "priority".toList = some (.string row.priority.text)

/-- The export is JSON and has one record for each detection, in their order. -/
def Faithful (doc : List Char) (detections : List DetectionRow) : Prop :=
  ∃ document records, parse doc = some document ∧
    document.get? "detections".toList = some (.array records) ∧
    List.Forall₂ Decodes detections records

/-- The part of a description that fits into `safe_desc`. -/
def exportedFrom : Nat → List Char → List Char
  | _, [] => []
  | j, c :: cs => if j < 508 then c :: exportedFrom (j + (descEscape c).length) cs else []

def exported (desc : List Char) : List Char := exportedFrom 0 desc

/-- A character that `leo_export_sar` prints rightly in a description. -/
def Printable (c : Char) : Prop := 0x20 ≤ c.toNat ∨ c = '\n' ∨ c = '\r' ∨ c = '\t'

/-- A row without a character that is not escaped where it has to be. -/
structure Clean (row : DetectionRow) : Prop where
  turtle : Plain row.turtle.text
  type : Plain row.type.text
  description : ∀ c ∈ exported row.description.text, Printable c
  priority : Plain row.priority.text

/-! ## Descriptions -/

section Description

variable {c : Char} {s r : List Char}

theorem safeDescFrom_eq (j : Nat) (s : List Char) :
    safeDescFrom j s = (exportedFrom j s).flatMap descEscape := by
  induction s generalizing j with
  | nil => rfl
  | cons c s ih =>
      rw [safeDescFrom, exportedFrom]
      by_cases hj : j < 508
      · rw [if_pos hj, if_pos hj, List.flatMap_cons, ih]
      · rw [if_neg hj, if_neg hj, List.flatMap_nil]

theorem exportedFrom_prefix (j : Nat) (s : List Char) : exportedFrom j s <+: s := by
  induction s generalizing j with
  | nil => exact List.prefix_refl _
  | cons c s ih =>
      rw [exportedFrom]
      by_cases hj : j < 508
      · rw [if_pos hj]
        exact List.cons_prefix_cons.mpr ⟨rfl, ih _⟩
      · rw [if_neg hj]
        exact List.nil_prefix

/-- The escape of a printable character is read as the character. -/
theorem scanString_descEscape (hc : Printable c) (s : List Char) :
    scanString (descEscape c ++ s) = (scanString s).map fun p => (c :: p.1, p.2) := by
  by_cases hquote : c = '"'
  · subst hquote
    exact scanString_escape (by decide) s
  by_cases hslash : c = '\\'
  · subst hslash
    exact scanString_escape (by decide) s
  by_cases hn : c = '\n'
  · subst hn
    exact scanString_escape (by decide) s
  by_cases hr : c = '\r'
  · subst hr
    exact scanString_escape (by decide) s
  by_cases ht : c = '\t'
  · subst ht
    exact scanString_escape (by decide) s
  have hlow : 0x20 ≤ c.toNat := by
    rcases hc with hc | hc | hc | hc
    · exact hc
    · exact absurd hc hn
    · exact absurd hc hr
    · exact absurd hc ht
  rw [descEscape, if_neg hquote, if_neg hslash, if_neg hn, if_neg hr, if_neg ht]
  exact scanString_char ⟨hquote, hslash, hlow⟩ s

/-- No other character is read. -/
theorem scanString_unprintable (hc : ¬ Printable c) (s : List Char) :
    scanString (descEscape c ++ s) = none := by
  obtain ⟨hlow, hn, hr, ht⟩ : ¬ 0x20 ≤ c.toNat ∧ c ≠ '\n' ∧ c ≠ '\r' ∧ c ≠ '\t' := by
    simpa [Printable] using hc
  have hquote : c ≠ '"' := by
    rintro rfl
    exact hlow (by decide)
  have hslash : c ≠ '\\' := by
    rintro rfl
    exact hlow (by decide)
  rw [descEscape, if_neg hquote, if_neg hslash, if_neg hn, if_neg hr, if_neg ht]
  exact scanString_low (Nat.not_le.mp hlow) s

/-- A description is read as its exported part, or not at all. -/
theorem scanString_description (hs : ∀ c ∈ s, Printable c) (r : List Char) :
    scanString (s.flatMap descEscape ++ '"' :: r) = some (s, r) := by
  induction s with
  | nil => exact scanString_quote r
  | cons c s ih =>
      rw [List.flatMap_cons, List.append_assoc, scanString_descEscape (hs c List.mem_cons_self),
        ih fun d hd => hs d (List.mem_cons_of_mem c hd)]
      rfl

theorem printable_of_scanString {p : List Char × List Char}
    (h : scanString (s.flatMap descEscape ++ '"' :: r) = some p) : ∀ c ∈ s, Printable c := by
  induction s generalizing p with
  | nil =>
      intro c hc
      cases hc
  | cons c s ih =>
      rw [List.flatMap_cons, List.append_assoc] at h
      by_cases hc : Printable c
      · rw [scanString_descEscape hc] at h
        obtain ⟨q, hq, -⟩ := Option.map_eq_some_iff.mp h
        exact List.forall_mem_cons.mpr ⟨hc, ih hq⟩
      · rw [scanString_unprintable hc] at h
        cases h

end Description

/-! ## Records -/

section Record

variable {row : DetectionRow} {rest t : List Char} {ms : List (List Char × Value)}

theorem members_numberField {key : String} (hkey : Plain key.toList) (n : Int) {c : Char}
    (hc : numberChar c = false) (fuel : Nat) (s : List Char) :
    members (fuel + 2) (numberField key n ++ c :: s) =
      after '\x7d' (members (fuel + 1)) (key.toList, .number (formatD n)) (c :: s) := by
  rw [numberField, List.cons_append, List.append_assoc, List.cons_append, List.cons_append]
  exact members_number hkey n (stops_cons.mpr hc) fuel

theorem stringField_append (key : String) (w s : List Char) : stringField key w ++ s =
    '"' :: (key.toList ++ '"' :: ':' :: '"' :: (w ++ '"' :: s)) := by
  simp [stringField]

/-- Five fields between braces. -/
theorem fields_append (a b c d e f rest : List Char) :
    a ++ b ++ ',' :: c ++ ',' :: d ++ ',' :: e ++ ',' :: f ++ ['\x7d'] ++ rest =
      a ++ (b ++ ',' :: (c ++ ',' :: (d ++ ',' :: (e ++ ',' :: (f ++ '\x7d' :: rest))))) := by
  simp only [List.append_assoc, List.cons_append, List.nil_append]

theorem DetectionRow.text_append (row : DetectionRow) (rest : List Char) :
    row.text ++ rest = "    \x7b".toList ++ (numberField "timestamp" row.timestamp.toInt ++
      ',' :: (stringField "turtle" row.turtle.text ++
      ',' :: (stringField "type" row.type.text ++
      ',' :: (stringField "description" (safeDesc row.description.text) ++
      ',' :: (stringField "priority" row.priority.text ++ '\x7d' :: rest))))) :=
  fields_append _ _ _ _ _ _ rest

/-- The value of a record is that of its members. -/
theorem value_record {s : List Char} (hs : expect '\x7d' s = none) (fuel : Nat) :
    value (fuel + 1) ("    \x7b".toList ++ s) =
      (members fuel s).map fun p => (.object p.1, p.2) := by
  have htext : "    \x7b".toList ++ s = "    ".toList ++ '\x7b' :: s := rfl
  rw [htext, value_spaces (by decide), value_object hs]

theorem expect_numberField (key : String) (n : Int) (s : List Char) :
    expect '\x7d' (numberField key n ++ s) = none :=
  expect_ne (by decide) (by decide)

/-- What a clean row is read as. -/
def recordOf (row : DetectionRow) : Value :=
  .object [("timestamp".toList, .number (formatD row.timestamp.toInt)),
    ("turtle".toList, .string row.turtle.text), ("type".toList, .string row.type.text),
    ("description".toList, .string (exported row.description.text)),
    ("priority".toList, .string row.priority.text)]

theorem decodes_recordOf (row : DetectionRow) : Decodes row (recordOf row) := by
  constructor
  case timestamp => exact Value.get?_cons_self _ _ _
  case turtle =>
    rw [recordOf, Value.get?_cons_ne (by decide), Value.get?_cons_self]
  case type =>
    rw [recordOf, Value.get?_cons_ne (by decide), Value.get?_cons_ne (by decide), Value.get?_cons_self]
  case description =>
    refine ⟨exported row.description.text, ?_, exportedFrom_prefix 0 _⟩
    rw [recordOf, Value.get?_cons_ne (by decide), Value.get?_cons_ne (by decide),
      Value.get?_cons_ne (by decide), Value.get?_cons_self]
  case priority =>
    rw [recordOf, Value.get?_cons_ne (by decide), Value.get?_cons_ne (by decide),
      Value.get?_cons_ne (by decide), Value.get?_cons_ne (by decide), Value.get?_cons_self]

/-- A string member with what it is read as. -/
theorem members_stringField {key : String} {w v s : List Char} (hkey : Plain key.toList)
    (hscan : scanString (w ++ '"' :: s) = some (v, s)) (fuel : Nat) :
    members (fuel + 2) (stringField key w ++ s) =
      after '\x7d' (members (fuel + 1)) (key.toList, .string v) s := by
  rw [stringField_append, members_string hkey, hscan, Option.bind_some]

/-- A clean row is read back. -/
theorem value_clean (h : Clean row) (m : Nat) (rest : List Char) :
    value (m + 7) (row.text ++ rest) = some (recordOf row, rest) := by
  have hdescription : ∀ s, scanString (safeDesc row.description.text ++ '"' :: s) =
      some (exported row.description.text, s) := by
    intro s
    rw [safeDesc, safeDescFrom_eq]
    exact scanString_description h.description s
  rw [DetectionRow.text_append, value_record (expect_numberField _ _ _),
    members_numberField (by decide) _ (by decide), after_comma,
    members_stringField (by decide) (scanString_plain h.turtle), after_comma,
    members_stringField (by decide) (scanString_plain h.type), after_comma,
    members_stringField (by decide) (hdescription _), after_comma,
    members_stringField (by decide) (scanString_plain h.priority),
    after_close (by decide) (by decide)]
  rfl

/-- A text that is read back is plain, and the next field is read behind it. -/
theorem plain_of_field {key k : String} {w v s : List Char} (hkey : Plain key.toList) {m : Nat}
    (h : members (m + 2) (stringField key w ++ ',' :: (stringField k v ++ s)) = some (ms, t))
    (hget : (Value.object ms).get? key.toList = some (.string w)) :
    Plain w ∧ ∃ ms', ms = (key.toList, .string w) :: ms' ∧
      members (m + 1) (stringField k v ++ s) = some (ms', t) := by
  rw [stringField_append] at h
  obtain ⟨hplain, hafter⟩ := plain_of_members hkey (endsPlainly_comma _) h hget
  rw [after_comma] at hafter
  obtain ⟨⟨ms', r⟩, hnext, hms⟩ := Option.map_eq_some_iff.mp hafter
  obtain ⟨rfl, rfl⟩ := Prod.mk.inj hms
  exact ⟨hplain, ms', rfl, hnext⟩

/-- A row that is read back is clean. -/
theorem clean_of_value {record : Value} (hrest : scanString ('\x7d' :: rest) = none) {m : Nat}
    (h : value (m + 7) (row.text ++ rest) = some (record, t)) (hd : Decodes row record) :
    Clean row ∧ t = rest := by
  rw [DetectionRow.text_append, value_record (expect_numberField _ _ _),
    members_numberField (by decide) _ (by decide), after_comma, Option.map_map] at h
  obtain ⟨⟨ms, r⟩, hfromTurtle, hrecord⟩ := Option.map_eq_some_iff.mp h
  obtain ⟨rfl, rfl⟩ := Prod.mk.inj hrecord
  have hgetTurtle := hd.turtle
  rw [Value.get?_cons_ne (by decide)] at hgetTurtle
  obtain ⟨hturtle, ms, rfl, hfromType⟩ := plain_of_field (by decide) hfromTurtle hgetTurtle
  have hgetType := hd.type
  rw [Value.get?_cons_ne (by decide), Value.get?_cons_ne (by decide)] at hgetType
  obtain ⟨htype, ms, rfl, hfromDescription⟩ := plain_of_field (by decide) hfromType hgetType
  -- the description is read as its exported part, if at all
  rw [stringField_append, members_string (by decide), safeDesc, safeDescFrom_eq] at hfromDescription
  obtain ⟨p, hscan, hafter⟩ := Option.bind_eq_some_iff.mp hfromDescription
  have hdescription := printable_of_scanString hscan
  rw [scanString_description hdescription] at hscan
  obtain rfl := Option.some.inj hscan
  rw [after_comma] at hafter
  obtain ⟨⟨ms', r⟩, hfromPriority, hms⟩ := Option.map_eq_some_iff.mp hafter
  obtain ⟨rfl, rfl⟩ := Prod.mk.inj hms
  have hgetPriority := hd.priority
  rw [Value.get?_cons_ne (by decide), Value.get?_cons_ne (by decide), Value.get?_cons_ne (by decide),
    Value.get?_cons_ne (by decide)] at hgetPriority
  rw [stringField_append] at hfromPriority
  obtain ⟨hpriority, hlast⟩ :=
    plain_of_members (by decide) (endsPlainly_of_none hrest) hfromPriority hgetPriority
  rw [after_close (by decide) (by decide)] at hlast
  obtain ⟨-, rfl⟩ := Prod.mk.inj (Option.some.inj hlast)
  exact ⟨⟨hturtle, htype, hdescription, hpriority⟩, rfl⟩

/-- What a scan is read as. -/
def scanOf (row : ScanRow) : Value :=
  .object [("timestamp".toList, .number (formatD row.timestamp.toInt)),
    ("depth".toList, .string row.depth.text.toList),
    ("findings".toList, .number (formatD row.findings.toInt)),
    ("thermal".toList, .number (formatD row.thermal.toInt)),
    ("battery".toList, .number (formatD row.battery.toInt))]

theorem ScanRow.text_append (row : ScanRow) (rest : List Char) :
    row.text ++ rest = "    \x7b".toList ++ (numberField "timestamp" row.timestamp.toInt ++
      ',' :: (stringField "depth" row.depth.text.toList ++
      ',' :: (numberField "findings" row.findings.toInt ++
      ',' :: (numberField "thermal" row.thermal.toInt ++
      ',' :: (numberField "battery" row.battery.toInt ++ '\x7d' :: rest))))) :=
  fields_append _ _ _ _ _ _ rest

theorem Depth.plain (depth : Depth) : Plain depth.text.toList := by
  cases depth <;> exact CText.forall_mem_of_all (by decide)

theorem value_scan (row : ScanRow) (m : Nat) (rest : List Char) :
    value (m + 7) (row.text ++ rest) = some (scanOf row, rest) := by
  rw [ScanRow.text_append, value_record (expect_numberField _ _ _),
    members_numberField (by decide) _ (by decide), after_comma,
    members_stringField (by decide) (scanString_plain row.depth.plain), after_comma,
    members_numberField (by decide) _ (by decide), after_comma,
    members_numberField (by decide) _ (by decide), after_comma,
    members_numberField (by decide) _ (by decide), after_close (by decide) (by decide)]
  rfl

end Record

/-! ## Arrays of records -/

section Rows

variable {α : Type} {text : α → List Char} {val : α → Value} {as : List α} {s : List Char}

theorem rowsText_cons_cons (a b : α) (as : List α) (s : List Char) :
    rowsText text (a :: b :: as) ++ s = text a ++ ',' :: '\n' :: (rowsText text (b :: as) ++ s) := by
  simp [rowsText]

theorem after_lastRow (rest : List Char → Option (List Value × List Char)) (v : Value)
    (s : List Char) : after ']' rest v ("\n  ]".toList ++ s) = some ([v], s) := by
  have htext : "\n  ]".toList ++ s = '\n' :: ' ' :: ' ' :: ']' :: s := rfl
  rw [htext, after_space (by decide), after_space (by decide), after_space (by decide),
    after_close (by decide) (by decide)]

/-- Rows that are read back one by one are read back in their order. -/
theorem elements_rows (h : ∀ a ∈ as, ∀ m rest, value (m + 7) (text a ++ rest) = some (val a, rest))
    (hne : as ≠ []) (m : Nat) (s : List Char) :
    elements (m + as.length + 7) (rowsText text as ++ ("\n  ]".toList ++ s)) =
      some (as.map val, s) := by
  induction as with
  | nil => exact absurd rfl hne
  | cons a as ih =>
      have ha := h a List.mem_cons_self
      cases as with
      | nil =>
          have hfuel : m + [a].length + 7 = (m + 7) + 1 := rfl
          rw [hfuel, rowsText, elements, ha]
          exact after_lastRow (elements (m + 7)) (val a) s
      | cons b as =>
          have hfuel : m + (a :: b :: as).length + 7 = (m + (b :: as).length + 7) + 1 := by
            simp only [List.length_cons]
            omega
          have hrest := ih (fun c hc => h c (List.mem_cons_of_mem a hc)) (List.cons_ne_nil b as)
          rw [hfuel, rowsText_cons_cons, elements, ha]
          simp only [Option.bind_eq_bind, Option.bind_some]
          rw [after_comma, elements_space (by decide), hrest]
          rfl

theorem expect_rows (hopen : ∀ a s, expect ']' (text a ++ s) = none) (hne : as ≠ [])
    (s : List Char) : expect ']' ('\n' :: (rowsText text as ++ s)) = none := by
  rw [expect_space (by decide)]
  cases as with
  | nil => exact absurd rfl hne
  | cons a as =>
      cases as with
      | nil => exact hopen a s
      | cons b as =>
          rw [rowsText_cons_cons]
          exact hopen a _

theorem value_rows (h : ∀ a ∈ as, ∀ m rest, value (m + 7) (text a ++ rest) = some (val a, rest))
    (hopen : ∀ a s, expect ']' (text a ++ s) = none) (m : Nat) (s : List Char) :
    value (m + as.length + 8) ('[' :: '\n' :: (rowsText text as ++ ("\n  ]".toList ++ s))) =
      some (.array (as.map val), s) := by
  by_cases hne : as = []
  · subst hne
    have hclose : expect ']' ('\n' :: "\n  ]".toList ++ s) = some s := by
      have htext : '\n' :: "\n  ]".toList ++ s = "\n\n  ".toList ++ ']' :: s := rfl
      rw [htext, expect_spaces (by decide), expect_self (by decide)]
    exact value_array_nil hclose _
  · rw [value_array (expect_rows hopen hne _), elements_space (by decide), elements_rows h hne]
    rfl

end Rows

theorem expect_record (s : List Char) : expect ']' ("    \x7b".toList ++ s) = none := by
  have htext : "    \x7b".toList ++ s = "    ".toList ++ '\x7b' :: s := rfl
  rw [htext, expect_spaces (by decide)]
  exact expect_ne (by decide) (by decide)

/-- The first of some rows that are read back is clean. -/
theorem clean_of_first {row : DetectionRow} {record : Value} {records : List Value}
    {rest t : List Char} {m : Nat} (hrest : scanString ('\x7d' :: rest) = none)
    (h : elements (m + 8) (row.text ++ rest) = some (record :: records, t))
    (hd : Decodes row record) :
    Clean row ∧ after ']' (elements (m + 7)) record rest = some (record :: records, t) := by
  rw [elements] at h
  obtain ⟨⟨v, r⟩, hv, hafter⟩ := Option.bind_eq_some_iff.mp h
  obtain ⟨vs, hvs⟩ := exists_of_after hafter
  obtain ⟨rfl, -⟩ := List.cons.inj hvs
  obtain ⟨hclean, rfl⟩ := clean_of_value hrest hv hd
  exact ⟨hclean, hafter⟩

/-- Rows that are read back are clean. -/
theorem clean_of_elements {rows : List DetectionRow} {records : List Value} {s t : List Char} {m : Nat}
    (h : elements (m + rows.length + 7) (rowsText DetectionRow.text rows ++ ("\n  ]".toList ++ s)) =
      some (records, t)) (hd : List.Forall₂ Decodes rows records) : ∀ row ∈ rows, Clean row := by
  induction hd generalizing t with
  | nil =>
      intro row hrow
      cases hrow
  | @cons row record rows records hrecord hrecords ih =>
      cases rows with
      | nil =>
          have hrest : scanString ('\x7d' :: ("\n  ]".toList ++ s)) = none :=
            scanString_plain_low (w := ['\x7d']) (by decide) (by decide)
          have hclean := (clean_of_first hrest h hrecord).1
          exact List.forall_mem_cons.mpr ⟨hclean, List.forall_mem_nil _⟩
      | cons next rows =>
          have hfuel : m + (row :: next :: rows).length + 7 = m + (next :: rows).length + 8 := by
            simp only [List.length_cons]
            omega
          rw [hfuel, rowsText_cons_cons] at h
          have hrest : ∀ u, scanString ('\x7d' :: ',' :: '\n' :: u) = none := fun _ =>
            scanString_plain_low (w := ['\x7d', ',']) (by decide) (by decide)
          obtain ⟨hclean, hafter⟩ := clean_of_first (hrest _) h hrecord
          rw [after_comma, elements_space (by decide)] at hafter
          obtain ⟨⟨records', r⟩, hnext, hrecords'⟩ := Option.map_eq_some_iff.mp hafter
          obtain ⟨hcons, rfl⟩ := Prod.mk.inj hrecords'
          obtain ⟨-, rfl⟩ := List.cons.inj hcons
          exact List.forall_mem_cons.mpr ⟨hclean, ih hnext⟩

/-! ## The document -/

section Document

variable {indent key val tail : String} {w s : List Char}

/-- A line of fixed text is read as it is. -/
theorem members_line (hindent : indent.toList.all isSpace = true) (hkey : Plain key.toList)
    (hval : Plain val.toList) (fuel : Nat) (s : List Char) :
    members (fuel + 2) (line indent key val tail ++ s) =
      after '\x7d' (members (fuel + 1)) (key.toList, .string val.toList) (tail.toList ++ s) := by
  have htext : line indent key val tail ++ s = indent.toList ++
      '"' :: (key.toList ++ '"' :: ':' :: ' ' :: '"' :: (val.toList ++ '"' :: (tail.toList ++ s))) := by
    simp [line]
  rw [htext, members_spaces hindent, members_member hkey, value_space (by decide), value_string,
    scanString_plain hval]
  rfl

/-- With a comma behind it. -/
theorem members_line_comma (hindent : indent.toList.all isSpace = true) (hkey : Plain key.toList)
    (hval : Plain val.toList) (htail : tail.toList = ',' :: w) (hw : w.all isSpace = true)
    (fuel : Nat) (s : List Char) :
    members (fuel + 2) (line indent key val tail ++ s) =
      (members (fuel + 1) s).map fun p => ((key.toList, .string val.toList) :: p.1, p.2) := by
  rw [members_line hindent hkey hval, htail, List.cons_append, after_comma, members_spaces hw]

/-- An array of rows with a comma behind it. -/
theorem members_rows {α : Type} {text : α → List Char} {record : α → Value} {as : List α}
    (h : ∀ a ∈ as, ∀ m rest, value (m + 7) (text a ++ rest) = some (record a, rest))
    (hopen : ∀ a s, expect ']' (text a ++ s) = none) (hkey : Plain key.toList) {fuel : Nat}
    (hfuel : as.length + 8 ≤ fuel) (s : List Char) :
    members (fuel + 1) ("  ".toList ++ '"' :: (key.toList ++ '"' :: ':' :: ' ' :: '[' :: '\n' ::
        (rowsText text as ++ ("\n  ],\n\n".toList ++ s)))) =
      (members fuel s).map fun p => ((key.toList, .array (as.map record)) :: p.1, p.2) := by
  have hclose : "\n  ],\n\n".toList ++ s = "\n  ]".toList ++ ',' :: '\n' :: '\n' :: s := rfl
  obtain ⟨m, rfl⟩ : ∃ m, fuel = m + as.length + 8 := ⟨fuel - (as.length + 8), by omega⟩
  rw [hclose, members_spaces (by decide), members_member hkey, value_space (by decide),
    value_rows h hopen, Option.bind_some, after_comma, members_space (by decide),
    members_space (by decide)]

/-- The document from its detections on. -/
def fromDetections (detections : List DetectionRow) : List Char :=
  "  \"detections\": [\n".toList ++
    (rowsText DetectionRow.text detections ++ ("\n  ],\n\n".toList ++ rightsText))

/-- What stands in front of the detections. -/
def headFields (now : Int64) (scans : List ScanRow) : List (List Char × Value) :=
  [("sar_type".toList, .string "Subject Access Request".toList),
    ("tool".toList, .string "MiuiserPeruser Superhero Mode".toList),
    ("exported_at".toList, .number (formatD now.toInt)),
    ("data_controller".toList, .string "Device owner".toList),
    ("purpose".toList, .string "Personal device security monitoring".toList),
    ("legal_basis".toList, .string "Legitimate interest \xe2\x80\x94 personal device security".toList),
    ("retention_policy".toList, .string "90 days rolling, purge on request".toList),
    ("scan_history".toList, .array (scans.map scanOf))]

theorem exportSar_eq (now : Int64) (scans : List ScanRow) (detections : List DetectionRow) :
    exportSar now scans detections = '\x7b' :: '\n' ::
      (line "  " "sar_type" "Subject Access Request" ",\n" ++
      (line "  " "tool" "MiuiserPeruser Superhero Mode" ",\n" ++
      ("  ".toList ++ '"' :: ("exported_at".toList ++ '"' :: ':' :: ' ' :: (formatD now.toInt ++
        ',' :: '\n' ::
      (line "  " "data_controller" "Device owner" ",\n" ++
      (line "  " "purpose" "Personal device security monitoring" ",\n" ++
      (line "  " "legal_basis" "Legitimate interest \xe2\x80\x94 personal device security" ",\n" ++
      (line "  " "retention_policy" "90 days rolling, purge on request" ",\n\n" ++
      ("  ".toList ++ '"' :: ("scan_history".toList ++ '"' :: ':' :: ' ' :: '[' :: '\n' ::
        (rowsText ScanRow.text scans ++
          ("\n  ],\n\n".toList ++ fromDetections detections))))))))))))) := by
  have hopen : "\x7b\n".toList = ['\x7b', '\n'] := by decide
  have hcomma : ",\n".toList = [',', '\n'] := by decide
  have hexported : "  \"exported_at\": ".toList =
      "  ".toList ++ '"' :: ("exported_at".toList ++ ['"', ':', ' ']) := by decide
  have hscans : "  \"scan_history\": [\n".toList =
      "  ".toList ++ '"' :: ("scan_history".toList ++ ['"', ':', ' ', '[', '\n']) := by decide
  unfold exportSar fromDetections
  simp only [hopen, hcomma, hexported, hscans, List.append_assoc, List.cons_append, List.nil_append]

/-- The head of the document is read as it is. -/
theorem value_exportSar (now : Int64) (scans : List ScanRow) (detections : List DetectionRow)
    {fuel : Nat} (hfuel : scans.length + 8 ≤ fuel) :
    value (fuel + 9) (exportSar now scans detections) =
      (members fuel (fromDetections detections)).map
        fun p => (.object (headFields now scans ++ p.1), p.2) := by
  have hopen : ∀ u, expect '\x7d' ('\n' :: (line "  " "sar_type" "Subject Access Request" ",\n" ++ u)) =
      none := by
    intro u
    have htext : line "  " "sar_type" "Subject Access Request" ",\n" ++ u = "  ".toList ++ '"' ::
        ("sar_type\": \"Subject Access Request\",\n".toList ++ u) := rfl
    rw [htext, expect_space (by decide), expect_spaces (by decide)]
    exact expect_ne (by decide) (by decide)
  rw [exportSar_eq, value_object (hopen _), members_space (by decide),
    members_line_comma (by decide) (plain_literal (by decide)) (plain_literal (by decide)) rfl
      (by decide),
    members_line_comma (by decide) (plain_literal (by decide)) (plain_literal (by decide)) rfl
      (by decide),
    members_spaces (by decide), members_member (by decide), value_space (by decide),
    value_number _ (stops_cons.mpr (by decide)), Option.bind_some, after_comma,
    members_space (by decide),
    members_line_comma (by decide) (plain_literal (by decide)) (plain_literal (by decide)) rfl
      (by decide),
    members_line_comma (by decide) (plain_literal (by decide)) (plain_literal (by decide)) rfl
      (by decide),
    members_line_comma (by decide) (plain_literal (by decide)) (plain_literal (by decide)) rfl
      (by decide),
    members_line_comma (by decide) (plain_literal (by decide)) (plain_literal (by decide)) rfl
      (by decide),
    members_rows (fun row _ => value_scan row) (fun row s => row.text_append s ▸ expect_record _)
      (by decide) hfuel]
  simp only [Option.map_map]
  rfl

/-- What stands behind them. -/
def rightsFields : List (List Char × Value) :=
  [("gdpr_rights".toList, .object
    [("right_to_access".toList, .string "This document".toList),
      ("right_to_erasure".toList, .string "Run: superhero --purge".toList),
      ("right_to_portability".toList, .string "JSON format \xe2\x80\x94 machine readable".toList),
      ("data_location".toList, .string "On-device only \xe2\x80\x94 never transmitted".toList)])]

theorem rightsText_eq :
    rightsText = "  ".toList ++ '"' :: ("gdpr_rights".toList ++ '"' :: ':' :: ' ' :: '\x7b' :: '\n' ::
      (line "    " "right_to_access" "This document" ",\n" ++
      (line "    " "right_to_erasure" "Run: superhero --purge" ",\n" ++
      (line "    " "right_to_portability" "JSON format \xe2\x80\x94 machine readable" ",\n" ++
      (line "    " "data_location" "On-device only \xe2\x80\x94 never transmitted" "\n" ++
        "  \x7d\n\x7d\n".toList))))) := by
  have hopen : "  \"gdpr_rights\": \x7b\n".toList =
      "  ".toList ++ '"' :: ("gdpr_rights".toList ++ ['"', ':', ' ', '\x7b', '\n']) := by decide
  unfold rightsText
  simp only [hopen, List.append_assoc, List.cons_append, List.nil_append]

/-- The end of the document is read as it is. -/
theorem members_rightsText {fuel : Nat} (hfuel : 6 ≤ fuel) :
    members (fuel + 1) rightsText = some (rightsFields, ['\n']) := by
  have hopen : ∀ u, expect '\x7d' ('\n' :: (line "    " "right_to_access" "This document" ",\n" ++ u)) =
      none := by
    intro u
    have htext : line "    " "right_to_access" "This document" ",\n" ++ u = "    ".toList ++ '"' ::
        ("right_to_access\": \"This document\",\n".toList ++ u) := rfl
    rw [htext, expect_space (by decide), expect_spaces (by decide)]
    exact expect_ne (by decide) (by decide)
  have hclose : "\n".toList ++ "  \x7d\n\x7d\n".toList =
      '\n' :: ' ' :: ' ' :: '\x7d' :: '\n' :: '\x7d' :: ['\n'] := by decide
  obtain ⟨m, rfl⟩ : ∃ m, fuel = m + 6 := ⟨fuel - 6, by omega⟩
  rw [rightsText_eq, members_spaces (by decide), members_member (by decide), value_space (by decide),
    value_object (hopen _), members_space (by decide),
    members_line_comma (by decide) (plain_literal (by decide)) (plain_literal (by decide)) rfl
      (by decide),
    members_line_comma (by decide) (plain_literal (by decide)) (plain_literal (by decide)) rfl
      (by decide),
    members_line_comma (by decide) (plain_literal (by decide)) (plain_literal (by decide)) rfl
      (by decide),
    members_line (by decide) (by decide) (by decide), hclose, after_space (by decide),
    after_space (by decide), after_space (by decide), after_close (by decide) (by decide)]
  simp only [Option.map_some, Option.bind_some]
  rw [after_space (by decide), after_close (by decide) (by decide)]
  rfl

theorem fromDetections_eq (detections : List DetectionRow) :
    fromDetections detections = "  ".toList ++ '"' :: ("detections".toList ++ '"' :: ':' :: ' ' ::
      '[' :: '\n' :: (rowsText DetectionRow.text detections ++
        ("\n  ],\n\n".toList ++ rightsText))) := by
  have hopen : "  \"detections\": [\n".toList =
      "  ".toList ++ '"' :: ("detections".toList ++ ['"', ':', ' ', '[', '\n']) := by decide
  unfold fromDetections
  simp only [hopen, List.append_assoc, List.cons_append, List.nil_append]

theorem members_detections {detections : List DetectionRow} (h : ∀ row ∈ detections, Clean row)
    {fuel : Nat} (hfuel : detections.length + 8 ≤ fuel) :
    members (fuel + 1) (fromDetections detections) =
      some (("detections".toList, .array (detections.map recordOf)) :: rightsFields, ['\n']) := by
  obtain ⟨m, rfl⟩ : ∃ m, fuel = m + 1 := ⟨fuel - 1, by omega⟩
  rw [fromDetections_eq, members_rows (fun row hrow => value_clean (h row hrow))
    (fun row s => row.text_append s ▸ expect_record _) (by decide) hfuel,
    members_rightsText (by omega)]
  rfl

theorem length_le_rowsText {α : Type} {text : α → List Char} (h : ∀ a, text a ≠ []) (as : List α) :
    as.length ≤ (rowsText text as).length := by
  induction as with
  | nil => exact Nat.le_refl 0
  | cons a as ih =>
      have ha := List.length_pos_iff.mpr (h a)
      cases as with
      | nil => exact ha
      | cons b as =>
          simp only [rowsText, List.length_append, List.length_cons] at ih ⊢
          omega

theorem length_exportSar (now : Int64) (scans : List ScanRow) (detections : List DetectionRow) :
    scans.length + detections.length + 17 ≤ (exportSar now scans detections).length := by
  have hscans : scans.length ≤ (rowsText ScanRow.text scans).length :=
    length_le_rowsText (fun _ => List.cons_ne_nil _ _) scans
  have hdetections : detections.length ≤ (rowsText DetectionRow.text detections).length :=
    length_le_rowsText (fun _ => List.cons_ne_nil _ _) detections
  rw [exportSar_eq, fromDetections_eq]
  simp only [List.length_cons, List.length_append]
  omega

/-- The reader has enough fuel for the head of the document and for all rows. -/
theorem parse_exportSar (now : Int64) (scans : List ScanRow) (detections : List DetectionRow) :
    ∃ fuel, detections.length + 8 ≤ fuel ∧ parse (exportSar now scans detections) =
      (members (fuel + 1) (fromDetections detections)).bind fun p =>
        if skipSpace p.2 = [] then some (.object (headFields now scans ++ p.1)) else none := by
  have hlength := length_exportSar now scans detections
  obtain ⟨fuel, hfuel⟩ : ∃ fuel, (exportSar now scans detections).length + 1 = fuel + 1 + 9 :=
    ⟨(exportSar now scans detections).length - 9, by omega⟩
  refine ⟨fuel, by omega, ?_⟩
  rw [parse, hfuel, value_exportSar now scans detections (by omega)]
  simp only [Option.bind_eq_bind, Option.bind_map]
  rfl

end Document

/-! ## When the export says what the database says -/

theorem get?_headFields (now : Int64) (scans : List ScanRow) (ms : List (List Char × Value)) :
    (Value.object (headFields now scans ++ ms)).get? "detections".toList =
      (Value.object ms).get? "detections".toList := by
  have hkeys : (headFields now scans).map Prod.fst = ["sar_type".toList, "tool".toList,
      "exported_at".toList, "data_controller".toList, "purpose".toList, "legal_basis".toList,
      "retention_policy".toList, "scan_history".toList] := rfl
  apply Value.get?_append
  rw [hkeys]
  decide

theorem faithful_of_clean (now : Int64) (scans : List ScanRow) {detections : List DetectionRow}
    (h : ∀ row ∈ detections, Clean row) : Faithful (exportSar now scans detections) detections := by
  obtain ⟨fuel, hfuel, hparse⟩ := parse_exportSar now scans detections
  have hend : skipSpace ['\n'] = [] := by decide
  rw [members_detections h hfuel, Option.bind_some, if_pos hend] at hparse
  refine ⟨_, detections.map recordOf, hparse, ?_, ?_⟩
  · rw [get?_headFields]
    exact Value.get?_cons_self _ _ _
  · rw [List.forall₂_map_right_iff, List.forall₂_same]
    exact fun row _ => decodes_recordOf row

/-- What the document has under `detections` is what stands there. -/
theorem elements_of_members {detections : List DetectionRow} {records : List Value}
    {ms : List (List Char × Value)} {r : List Char} (hne : detections ≠ []) {fuel : Nat}
    (h : members (fuel + 2) (fromDetections detections) = some (ms, r))
    (hget : (Value.object ms).get? "detections".toList = some (.array records)) :
    ∃ s t, elements fuel (rowsText DetectionRow.text detections ++ ("\n  ]".toList ++ s)) =
      some (records, t) := by
  have hclose : "\n  ],\n\n".toList ++ rightsText =
      "\n  ]".toList ++ (",\n\n".toList ++ rightsText) := rfl
  rw [fromDetections_eq, hclose, members_spaces (by decide), members_member (by decide),
    value_space (by decide), value_array
      (expect_rows (fun row s => row.text_append s ▸ expect_record _) hne _),
    elements_space (by decide)] at h
  obtain ⟨⟨v, t⟩, hv, hafter⟩ := Option.bind_eq_some_iff.mp h
  obtain ⟨⟨vs, t'⟩, helements, hvs⟩ := Option.map_eq_some_iff.mp hv
  obtain ⟨ms', rfl⟩ : ∃ ms', ms = ("detections".toList, v) :: ms' := exists_of_after hafter
  rw [Value.get?_cons_self] at hget
  obtain ⟨harray, -⟩ := Prod.mk.inj hvs
  obtain rfl : vs = records := Value.array.inj (harray.trans (Option.some.inj hget))
  exact ⟨_, t', helements⟩

theorem clean_of_faithful {now : Int64} {scans : List ScanRow} {detections : List DetectionRow}
    (h : Faithful (exportSar now scans detections) detections) : ∀ row ∈ detections, Clean row := by
  by_cases hne : detections = []
  · intro row hrow
    rw [hne] at hrow
    cases hrow
  · obtain ⟨document, records, hdocument, hget, hrecords⟩ := h
    obtain ⟨fuel, hfuel, hparse⟩ := parse_exportSar now scans detections
    obtain ⟨m, rfl⟩ : ∃ m, fuel = m + detections.length + 8 :=
      ⟨fuel - (detections.length + 8), by omega⟩
    rw [hdocument] at hparse
    obtain ⟨⟨ms, r⟩, hmembers, hend⟩ := Option.bind_eq_some_iff.mp hparse.symm
    obtain ⟨-, rfl⟩ : skipSpace r = [] ∧ Value.object (headFields now scans ++ ms) = document := by
      simpa using hend
    rw [get?_headFields] at hget
    obtain ⟨s, t, helements⟩ := elements_of_members hne hmembers hget
    exact clean_of_elements helements hrecords

/-- **The export is faithful JSON exactly if no text of a detection needs an
escape that is not made.** -/
theorem export_faithful_iff (now : Int64) (scans : List ScanRow) (detections : List DetectionRow) :
    Faithful (exportSar now scans detections) detections ↔ ∀ row ∈ detections, Clean row :=
  ⟨clean_of_faithful, faithful_of_clean now scans⟩

theorem isString_casey : '\x00' ∉ "CASEY".toList := by decide

theorem isString_a11y : '\x00' ∉ "SUSPICIOUS_A11Y".toList := by decide

theorem isString_service : '\x00' ∉ "Unknown accessibility service: \x1b\n".toList := by decide

theorem isString_high : '\x00' ∉ "HIGH".toList := by decide

/-- A finding about a service whose name holds a control character. -/
def serviceRow : DetectionRow where
  timestamp := 1700000000
  turtle := ⟨_, isString_casey⟩
  type := ⟨_, isString_a11y⟩
  description := ⟨_, isString_service⟩
  priority := ⟨_, isString_high⟩

theorem service_unfaithful : ¬ Faithful (exportSar 1700000001 [] [serviceRow]) [serviceRow] := by
  intro h
  have hclean := clean_of_faithful h serviceRow List.mem_cons_self
  have hmem : '\x1b' ∈ exported serviceRow.description.text := by decide
  have hprintable := hclean.description '\x1b' hmem
  exact absurd hprintable (by simp [Printable])

end MiuiserPeruser.Leo
