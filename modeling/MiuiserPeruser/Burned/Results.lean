import Mathlib.Data.List.Nodup
import MiuiserPeruser.Lib.Lines

/-!
# burned — the disclosures it writes (`burned.c`)

A poll reads the properties of three tables and `write_results` prints each
of them as an object of one line, with its flag at the end. All texts go
through `json_escape`, which prints the escapes of the characters that fit
into its buffer (`jsonEscape_eq`).
-/

namespace MiuiserPeruser.Burned

open CText Lines

/-! ## json_escape -/

/-- `json_escape` from the `j`-th character of its output on. -/
def jsonEscapeFrom (outSize : Nat) : Nat → List Char → List Char
  | _, [] => []
  | j, c :: cs =>
      if c ≠ '\x00' ∧ j + 1 < outSize then
        if c = '"' ∨ c = '\\' then
          if j + 2 ≥ outSize then [] else '\\' :: c :: jsonEscapeFrom outSize (j + 2) cs
        else if c = '\n' then
          if j + 2 ≥ outSize then [] else '\\' :: 'n' :: jsonEscapeFrom outSize (j + 2) cs
        else if c = '\r' then
          if j + 2 ≥ outSize then [] else '\\' :: 'r' :: jsonEscapeFrom outSize (j + 2) cs
        else if c = '\t' then
          if j + 2 ≥ outSize then [] else '\\' :: 't' :: jsonEscapeFrom outSize (j + 2) cs
        else if c.toNat < 0x20 then jsonEscapeFrom outSize j cs
        else c :: jsonEscapeFrom outSize (j + 1) cs
      else []

/-- `json_escape`. -/
def jsonEscape (outSize : Nat) (s : List Char) : List Char := jsonEscapeFrom outSize 0 s

/-- What a character is printed as. -/
def escapeChar (c : Char) : List Char :=
  if c = '"' ∨ c = '\\' then ['\\', c]
  else if c = '\n' then ['\\', 'n']
  else if c = '\r' then ['\\', 'r']
  else if c = '\t' then ['\\', 't']
  else if c.toNat < 0x20 then []
  else [c]

/-- The characters of a string whose escapes fit into the room. -/
def fitting : Nat → List Char → List Char
  | _, [] => []
  | room, c :: cs =>
      if c ≠ '\x00' ∧ 0 < room ∧ (escapeChar c).length ≤ room then
        c :: fitting (room - (escapeChar c).length) cs
      else []

section Escape

variable {outSize j : Nat} {s : List Char}

/-- One turn of the loop: the escape of a character is written whole, or
the output ends. -/
theorem jsonEscapeFrom_cons {c : Char} (hnul : c ≠ '\x00') (hroom : j + 1 < outSize) :
    jsonEscapeFrom outSize j (c :: s) =
      if (escapeChar c).length ≤ outSize - 1 - j then
        escapeChar c ++ jsonEscapeFrom outSize (j + (escapeChar c).length) s
      else [] := by
  have htwo : ∀ d, (if j + 2 ≥ outSize then [] else '\\' :: d :: jsonEscapeFrom outSize (j + 2) s) =
      if ['\\', d].length ≤ outSize - 1 - j then
        ['\\', d] ++ jsonEscapeFrom outSize (j + ['\\', d].length) s else [] := by
    intro d
    have hfits : ['\\', d].length ≤ outSize - 1 - j ↔ ¬ j + 2 ≥ outSize := by
      rw [List.length_cons, List.length_singleton]
      omega
    by_cases hfull : j + 2 ≥ outSize
    · rw [if_pos hfull, if_neg fun h => hfits.mp h hfull]
    · rw [if_neg hfull, if_pos (hfits.mpr hfull)]
      rfl
  rw [jsonEscapeFrom, if_pos ⟨hnul, hroom⟩, escapeChar]
  by_cases hc : c = '"' ∨ c = '\\'
  · simp only [if_pos hc]
    exact htwo c
  by_cases hn : c = '\n'
  · simp only [if_neg hc, if_pos hn]
    exact htwo 'n'
  by_cases hr : c = '\r'
  · simp only [if_neg hc, if_neg hn, if_pos hr]
    exact htwo 'r'
  by_cases ht : c = '\t'
  · simp only [if_neg hc, if_neg hn, if_neg hr, if_pos ht]
    exact htwo 't'
  simp only [if_neg hc, if_neg hn, if_neg hr, if_neg ht]
  by_cases hlow : c.toNat < 0x20
  · simp only [if_pos hlow]
    exact (if_pos (Nat.zero_le _)).symm
  · have hone : [c].length ≤ outSize - 1 - j := by
      rw [List.length_singleton]
      omega
    simp only [if_neg hlow]
    exact (if_pos hone).symm

theorem jsonEscapeFrom_eq (outSize j : Nat) (s : List Char) :
    jsonEscapeFrom outSize j s = (fitting (outSize - 1 - j) s).flatMap escapeChar := by
  induction s generalizing j with
  | nil => rfl
  | cons c s ih =>
      rw [fitting]
      by_cases hopen : c ≠ '\x00' ∧ j + 1 < outSize
      · obtain ⟨hnul, hroom⟩ := hopen
        have hpos : 0 < outSize - 1 - j := by omega
        rw [jsonEscapeFrom_cons hnul hroom]
        by_cases hfits : (escapeChar c).length ≤ outSize - 1 - j
        · rw [if_pos hfits, if_pos ⟨hnul, hpos, hfits⟩, List.flatMap_cons, ih, Nat.sub_sub _ j]
        · rw [if_neg hfits, if_neg fun h => hfits h.2.2, List.flatMap_nil]
      · have hno : ¬ (c ≠ '\x00' ∧ 0 < outSize - 1 - j ∧
            (escapeChar c).length ≤ outSize - 1 - j) := by
          rintro ⟨hc, hpos, -⟩
          exact hopen ⟨hc, by omega⟩
        rw [jsonEscapeFrom, if_neg hopen, if_neg hno, List.flatMap_nil]

/-- **`json_escape` prints the escapes of the characters that fit.** -/
theorem jsonEscape_eq (outSize : Nat) (s : List Char) :
    jsonEscape outSize s = (fitting (outSize - 1) s).flatMap escapeChar :=
  jsonEscapeFrom_eq outSize 0 s

/-- A character behind a backslash. -/
theorem stringText_backslash {c : Char} (hc : c ≠ '\x00') : StringText ['\\', c] := by
  constructor
  · intro x y hxy
    cases x with
    | nil => exact absurd (List.cons.inj hxy).1 (by decide)
    | cons d x =>
        obtain ⟨rfl, hx⟩ := List.cons.inj hxy
        cases x with
        | nil => rfl
        | cons e x =>
            have hnil : [] = x ++ '"' :: y := (List.cons.inj hx).2
            simp at hnil
  · simp [hc.symm]

theorem stringText_escapeChar (c : Char) : StringText (escapeChar c) := by
  unfold escapeChar
  split
  · next hc =>
      apply stringText_backslash
      rintro rfl
      exact absurd hc (by decide)
  · next hc =>
      split
      · exact stringText_backslash (by decide)
      · split
        · exact stringText_backslash (by decide)
        · split
          · exact stringText_backslash (by decide)
          · split
            · exact ⟨quotesEscaped_of_notMem List.not_mem_nil, List.not_mem_nil⟩
            · next hlow =>
                constructor
                · apply quotesEscaped_of_notMem
                  intro h
                  exact hc (.inl (List.mem_singleton.mp h).symm)
                · intro h
                  rw [← List.mem_singleton.mp h] at hlow
                  exact hlow (by decide)

/-- What is printed can stand in quotes. -/
theorem stringText_jsonEscape (outSize : Nat) (s : List Char) : StringText (jsonEscape outSize s) := by
  rw [jsonEscape_eq]
  refine ⟨quotesEscaped_flatMap (fun c => (stringText_escapeChar c).1) _, ?_⟩
  intro h
  obtain ⟨c, -, hc⟩ := List.mem_flatMap.mp h
  exact (stringText_escapeChar c).2 hc

/-- A character that is not escaped. -/
theorem escapeChar_of_plain {c : Char} (h : c ≠ '"' ∧ c ≠ '\\' ∧ 0x20 ≤ c.toNat) :
    escapeChar c = [c] := by
  obtain ⟨hquote, hslash, hlow⟩ := h
  have hne : ∀ d : Char, d.toNat < 0x20 → c ≠ d := by
    rintro d hd rfl
    omega
  rw [escapeChar, if_neg (not_or.mpr ⟨hquote, hslash⟩), if_neg (hne '\n' (by decide)),
    if_neg (hne '\r' (by decide)), if_neg (hne '\t' (by decide)), if_neg (by omega)]

theorem mem_escapeChar {c d : Char} (h : d ∈ escapeChar c) : d = c ∨ d ∈ ['\\', 'n', 'r', 't'] := by
  unfold escapeChar at h
  grind

/-- A brace is printed exactly if it fits. -/
theorem brace_mem_jsonEscape : '\x7d' ∈ jsonEscape outSize s ↔ '\x7d' ∈ fitting (outSize - 1) s := by
  rw [jsonEscape_eq, List.mem_flatMap]
  constructor
  · rintro ⟨c, hc, hmem⟩
    rcases mem_escapeChar hmem with rfl | hother
    · exact hc
    · exact absurd hother (by decide)
  · intro h
    exact ⟨_, h, by decide⟩

/-- Plain text that fits is printed as it is. -/
theorem jsonEscape_of_plain (h : ∀ c ∈ s, c ≠ '"' ∧ c ≠ '\\' ∧ 0x20 ≤ c.toNat)
    (hfits : s.length < outSize) : jsonEscape outSize s = s := by
  have hroom : ∀ room, s.length ≤ room → (fitting room s).flatMap escapeChar = s := by
    clear hfits
    induction s with
    | nil =>
        intro room _
        rfl
    | cons c s ih =>
        intro room hroom
        rw [List.length_cons] at hroom
        have hc := h c List.mem_cons_self
        have hnul : c ≠ '\x00' := by
          rintro rfl
          exact absurd hc.2.2 (by decide)
        rw [fitting, escapeChar_of_plain hc, List.length_singleton, if_pos ⟨hnul, by omega, by omega⟩,
          List.flatMap_cons, escapeChar_of_plain hc,
          ih (fun d hd => h d (List.mem_cons_of_mem c hd)) (room - 1) (by omega)]
        rfl
  rw [jsonEscape_eq, hroom _ (by omega)]

end Escape

/-! ## The properties of a poll -/

/-- The name of a property. It has no character that `json_escape` changes. -/
structure PropKey where
  name : String
  plain : ∀ c ∈ name.toList, c ≠ '"' ∧ c ≠ '\\' ∧ 0x20 ≤ c.toNat
  deriving DecidableEq

/-- What is printed of a property of burned's own tables. -/
structure PolicyEntry where
  key : PropKey
  label : List Char
  value : List Char
  fired : Bool

/-- What is printed of a property of the partners. -/
structure PartnerEntry where
  signal : List Char
  key : PropKey
  value : List Char
  priority : Int32
  fired : Bool

/-- What `write_results` prints. -/
structure ScanResults where
  timestamp : List Char
  scanNum : Int32
  region : List Char
  nInvasive : Int32
  nPrivacy : Int32
  nChange : Int32
  invList : List Char
  privList : List Char
  binary : List PolicyEntry
  privacy : List PolicyEntry
  partners : List PartnerEntry
  /-- It is `%Y-%m-%dT%H:%M:%S`. -/
  timestamp_chars : ∀ c ∈ timestamp, c.isDigit = true ∨ c ∈ ['-', 'T', ':']
  distinct : ((binary ++ privacy).map (·.key) ++ partners.map (·.key)).Nodup

/-! ## write_results -/

/-- `"key":"value"`. -/
def field (key : String) (value : List Char) : List Piece :=
  [.quoted key.toList [':'], .quoted value [',']]

/-- The flag ends an entry. -/
def firedField (fired last : Bool) : List Piece :=
  [.quoted "fired".toList (':' :: (boolText fired ++ '\x7d' :: (comma last ++ ['\n'])))]

def PropKey.escaped (key : PropKey) : List Char := jsonEscape 128 key.name.toList

/-- What stands between the key and the flag. -/
def PolicyEntry.between (p : PolicyEntry) : List Piece :=
  field "label" (jsonEscape 128 p.label) ++ field "value" (jsonEscape 512 p.value)

def PartnerEntry.between (p : PartnerEntry) : List Piece :=
  field "value" (jsonEscape 512 p.value) ++
    [.quoted "priority".toList (':' :: (formatD p.priority.toInt ++ [',']))]

def PolicyEntry.pieces (p : PolicyEntry) (last : Bool) : List Piece :=
  [.plain "    \x7b".toList] ++ field "key" p.key.escaped ++ p.between ++ firedField p.fired last

def PartnerEntry.pieces (p : PartnerEntry) (last : Bool) : List Piece :=
  [.plain "    \x7b".toList] ++ field "signal" (jsonEscape 128 p.signal) ++
    field "key" p.key.escaped ++ p.between ++ firedField p.fired last

/-- The lines in front of the first table. -/
def headLines (r : ScanResults) : List Piece :=
  [.plain "\x7b\n".toList] ++
    memberStr "  " "daemon" "burned".toList ",\n" ++
    memberStr "  " "timestamp" r.timestamp ",\n" ++
    member "  " "scan_number" (formatD r.scanNum.toInt) ",\n" ++
    memberStr "  " "region" (jsonEscape 64 r.region) ",\n" ++
    member "  " "invasive_policy_count" (formatD r.nInvasive.toInt) ",\n" ++
    member "  " "privacy_signal_count" (formatD r.nPrivacy.toInt) ",\n" ++
    member "  " "change_count" (formatD r.nChange.toInt) ",\n" ++
    memberStr "  " "invasive_list" (jsonEscape 512 r.invList) ",\n" ++
    memberStr "  " "privacy_list" (jsonEscape 512 r.privList) ",\n" ++
    member "  " "binary_props" ['['] "\n"

/-- The lines between two tables. -/
def nextTable (name : String) : List Piece :=
  [.plain "  ],\n".toList] ++ member "  " name ['['] "\n"

def ScanResults.pieces (r : ScanResults) : List Piece :=
  headLines r ++ entries PolicyEntry.pieces r.binary ++ nextTable "privacy_props" ++
    entries PolicyEntry.pieces r.privacy ++ nextTable "partner_props" ++
    entries PartnerEntry.pieces r.partners ++ [.plain "  ]\n\x7d\n".toList]

/-- `write_results`. -/
def writeResults (r : ScanResults) : List Char := render r.pieces

/-- The properties that are disclosed. -/
def ScanResults.keys (r : ScanResults) : List PropKey :=
  (r.binary ++ r.privacy).map (·.key) ++ r.partners.map (·.key)

section Keys

variable {r : ScanResults}

theorem policyKey_mem {p : PolicyEntry} (h : p ∈ r.binary ++ r.privacy) : p.key ∈ r.keys :=
  List.mem_append_left _ (List.mem_map_of_mem h)

theorem partnerKey_mem {p : PartnerEntry} (h : p ∈ r.partners) : p.key ∈ r.keys :=
  List.mem_append_right _ (List.mem_map_of_mem h)

/-- A property of the first table is not in the second. -/
theorem policyKey_ne {p q : PolicyEntry} (hp : p ∈ r.binary) (hq : q ∈ r.privacy) : p.key ≠ q.key := by
  have hboth := (List.nodup_append.mp r.distinct).1
  rw [List.map_append] at hboth
  exact (List.nodup_append.mp hboth).2.2 _ (List.mem_map_of_mem hp) _ (List.mem_map_of_mem hq)

/-- No property is disclosed twice. -/
theorem policy_eq_of_key {p q : PolicyEntry} (hp : p ∈ r.binary ++ r.privacy)
    (hq : q ∈ r.binary ++ r.privacy) (h : p.key = q.key) : p = q :=
  List.inj_on_of_nodup_map (List.nodup_append.mp r.distinct).1 hp hq h

theorem partner_eq_of_key {p q : PartnerEntry} (hp : p ∈ r.partners) (hq : q ∈ r.partners)
    (h : p.key = q.key) : p = q :=
  List.inj_on_of_nodup_map (List.nodup_append.mp r.distinct).2.1 hp hq h

theorem policyKey_ne_partnerKey {p : PolicyEntry} {q : PartnerEntry} (hp : p ∈ r.binary ++ r.privacy)
    (hq : q ∈ r.partners) : p.key ≠ q.key :=
  (List.nodup_append.mp r.distinct).2.2 _ (List.mem_map_of_mem hp) _ (List.mem_map_of_mem hq)

end Keys

end MiuiserPeruser.Burned
