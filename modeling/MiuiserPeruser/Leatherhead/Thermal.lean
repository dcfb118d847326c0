import Mathlib.Data.List.Infix
import MiuiserPeruser.Lib.JoinedText
import MiuiserPeruser.Lib.NumberRow

/-!
# leatherheadd — thermal records (`leatherheadd.c`)

`parse_thermalservice` reads two lists of records from one dump. A field is
looked for from the beginning of its record to the end of the dump, so a name
that holds the beginning of a record, a heading or a key is taken for it.
With other names the records are paired as printed (`paired_iff`).
-/

namespace MiuiserPeruser.Leatherhead

open CText

/-! ## parse_thermalservice -/

def cachedHeading : List Char := "Cached temperatures:".toList

def halHeading : List Char := "Current temperatures from HAL:".toList

def recordStart : List Char := "Temperature\x7b".toList

/-- `temp_t`. -/
structure Temp (F : Type) where
  cached : F
  hal : F
  delta : F
  type : Int
  name : List Char
  status : Int

/-- What stands behind the first key from a record on. -/
def behindKey (key rec : List Char) : Option (List Char) := (strstr key rec).map (·.drop key.length)

/-- The copy of a name, into 32 bytes. -/
def readName (rec : List Char) : List Char :=
  ((behindKey "mName=".toList rec).map fun mn =>
    (mn.takeWhile fun c => c ≠ ',' ∧ c ≠ '}').take 31).getD []

section Parse

variable {F : Type} [Zero F] [Sub F] (strtof : List Char → F)

def readValue (rec : List Char) : F := ((behindKey "mValue=".toList rec).map strtof).getD 0

/-- A record of the first pass. -/
def readTemp (rec : List Char) : Temp F where
  cached := readValue strtof rec
  hal := 0
  delta := 0
  type := ((behindKey "mType=".toList rec).map atoi).getD 0
  name := readName rec
  status := ((behindKey "mStatus=".toList rec).map atoi).getD 0

/-- Whether `p` is at `hal_start` or behind it. Both are ends of the dump. -/
def atHal (hal_start : Option (List Char)) (p : List Char) : Bool :=
  match hal_start with
  | none => false
  | some h => p.length ≤ h.length

/-- Pass 1, with room for so many records. -/
def cachedLoop (hal_start : Option (List Char)) : Nat → List Char → List (Temp F)
  | 0, _ => []
  | room + 1, p =>
      if atHal hal_start p then []
      else
        match strstr recordStart p with
        | none => []
        | some rec =>
            -- a record of the HAL section ends the pass
            if atHal hal_start rec then []
            else readTemp strtof rec :: cachedLoop hal_start room rec.tail

/-- The match against the cached entries: the first of that name. -/
def matchHal (hal_name : List Char) (hal_val : F) : List (Temp F) → List (Temp F)
  | [] => []
  | t :: temps =>
      if t.name = hal_name then { t with hal := hal_val, delta := hal_val - t.cached } :: temps
      else t :: matchHal hal_name hal_val temps

/-- Pass 2. Each round goes on behind the beginning of its record, so the
length of the text bounds the rounds. -/
def halLoop : Nat → List Char → List (Temp F) → List (Temp F)
  | 0, _, temps => temps
  | rounds + 1, p, temps =>
      match strstr recordStart p with
      | none => temps
      | some rec => halLoop rounds rec.tail (matchHal (readName rec) (readValue strtof rec) temps)

/-- `parse_thermalservice`. -/
def parseThermalservice (dump : List Char) (max_temps : Nat) : List (Temp F) :=
  let hal_start := strstr halHeading dump
  -- without the first heading the search begins with the dump
  let temps := cachedLoop strtof hal_start max_temps ((strstr cachedHeading dump).getD dump)
  match hal_start with
  | none => temps
  | some p => halLoop strtof p.length p temps

end Parse

/-! ## The dump -/

/-- A record, with its value as it is printed. -/
structure Record where
  value : List Char
  type : Int
  name : List Char
  status : Int

/-- What a float is printed with: digits, point, sign, exponent, `NaN` and `Infinity`. -/
def valueChars : List Char := "0123456789.-EINafinty".toList

structure Record.WellFormed (r : Record) : Prop where
  value : ∀ c ∈ r.value, c ∈ valueChars
  type : IsInt r.type
  name_fits : r.name.length ≤ 31
  name_free : ∀ c ∈ r.name, c ≠ ',' ∧ c ≠ '}'
  status : IsInt r.status

theorem Record.wellFormed_iff (r : Record) : (r.value.all (· ∈ valueChars) = true ∧ IsInt r.type ∧
    r.name.length ≤ 31 ∧ r.name.all (fun c => c ≠ ',' ∧ c ≠ '}') = true ∧ IsInt r.status) ↔
      r.WellFormed := by
  simp only [List.all_eq_true, decide_eq_true_eq]
  constructor
  · rintro ⟨hvalue, htype, hfits, hfree, hstatus⟩
    exact ⟨hvalue, htype, hfits, hfree, hstatus⟩
  · intro h
    exact ⟨h.value, h.type, h.name_fits, h.name_free, h.status⟩

instance (r : Record) : Decidable r.WellFormed := decidable_of_iff _ r.wellFormed_iff

/-- What is printed behind the name. -/
def Record.back (r : Record) : List Char :=
  ',' :: ' ' :: ("mStatus=".toList ++ (formatD r.status ++ ['}']))

/-- What is printed behind the first letter. -/
def Record.body (r : Record) : List Char :=
  "emperature\x7b".toList ++ ("mValue=".toList ++ (r.value ++ (", ".toList ++ ("mType=".toList ++
    (formatD r.type ++ (", ".toList ++ ("mName=".toList ++ (r.name ++ r.back))))))))

/-- `Temperature{mValue=53.4, mType=0, mName=CPU, mStatus=0}`. -/
def Record.text (r : Record) : List Char := 'T' :: r.body

/-- The lines of a section. -/
def recordLines (indent : List Char) (rs : List Record) : List Char :=
  rs.flatMap fun r => indent ++ (r.text ++ ['\n'])

def Blank (indent : List Char) : Prop := ∀ c ∈ indent, c = ' ' ∨ c = '\t'

/-- A dump with the two sections, and the other lines around them. -/
structure Dump where
  front : List Char
  indent : List Char
  cached : List Record
  between : List Char
  hals : List Record
  rest : List Char

def Dump.text (d : Dump) : List Char :=
  d.front ++ (cachedHeading ++ '\n' :: (recordLines d.indent d.cached ++
    (d.between ++ (halHeading ++ '\n' :: (recordLines d.indent d.hals ++ d.rest)))))

/-- The headings stand where the sections begin, and the records are in the sections. -/
structure Dump.WellFormed (d : Dump) : Prop where
  front_lines : d.front = [] ∨ d.front.getLast? = some '\n'
  front_cached : ¬ cachedHeading <:+: d.front
  front_hal : ¬ halHeading <:+: d.front
  indent : Blank d.indent
  between_hal : ¬ halHeading <:+: d.between
  between_records : ¬ recordStart <:+: d.between
  rest_records : ¬ recordStart <:+: d.rest
  cached : ∀ r ∈ d.cached, r.WellFormed
  hals : ∀ r ∈ d.hals, r.WellFormed
  names : (d.cached.map (·.name)).Nodup

/-! ## Reading a record -/

section Read

variable {r : Record} {k : List Char}

theorem text_append (r : Record) (k : List Char) : r.text ++ k =
    "Temperature\x7b".toList ++ ("mValue=".toList ++ (r.value ++ (", ".toList ++ ("mType=".toList ++
      (formatD r.type ++ (", ".toList ++ ("mName=".toList ++ (r.name ++ (r.back ++ k))))))))) := by
  have hstart : "Temperature\x7b".toList = 'T' :: "emperature\x7b".toList := by decide
  unfold Record.text Record.body
  rw [hstart]
  simp only [List.append_assoc, List.cons_append]

theorem behindKey_skip {key s t : List Char} (h : strstr key s = strstr key t) :
    behindKey key s = behindKey key t := by
  rw [behindKey, h, behindKey]

theorem behindKey_self (key b : List Char) : behindKey key (key ++ b) = some b := by
  rw [behindKey, strstr_of_prefix (List.prefix_append key b), Option.map_some, List.drop_left]

/-- A word is not found in a number. -/
theorem strstr_formatD {key : List Char} {c : Char} (hkey : key.head? = some c) (hsign : c ≠ '-')
    (hdigit : c.isDigit = false) (n : Int) (b : List Char) :
    strstr key (formatD n ++ b) = strstr key b :=
  strstr_append_of_head hkey (notMem_formatD hsign hdigit n)

theorem strstr_value {key : List Char} {c : Char} (hkey : key.head? = some c) (hc : c ∉ valueChars)
    (h : r.WellFormed) (b : List Char) : strstr key (r.value ++ b) = strstr key b :=
  strstr_append_of_head hkey fun hm => hc (h.value c hm)

/-- The keys in front of the name are passed over. -/
theorem behind_value (k : List Char) : behindKey "mValue=".toList (r.text ++ k) =
    some (r.value ++ (", ".toList ++ ("mType=".toList ++ (formatD r.type ++ (", ".toList ++
      ("mName=".toList ++ (r.name ++ (r.back ++ k)))))))) := by
  rw [text_append, behindKey_skip (strstr_append_of_pair (c := 'm') (d := 'V') (by decide) (by decide)
    (by decide)), behindKey_self]

theorem behind_type (h : r.WellFormed) (k : List Char) : behindKey "mType=".toList (r.text ++ k) =
    some (formatD r.type ++ (", ".toList ++ ("mName=".toList ++ (r.name ++ (r.back ++ k))))) := by
  have hpair : ∀ {a b : List Char}, ¬ ['m', 'T'] <:+: a → a.getLast? ≠ some 'm' →
      strstr "mType=".toList (a ++ b) = strstr "mType=".toList b :=
    fun ha hlast => strstr_append_of_pair (by decide) ha hlast
  rw [text_append, behindKey_skip (hpair (by decide) (by decide)),
    behindKey_skip (hpair (by decide) (by decide)), behindKey_skip (strstr_value rfl (by decide) h _),
    behindKey_skip (hpair (by decide) (by decide)), behindKey_self]

/-- What is printed of every record in front of its name. -/
def beforeName : List (List Char) :=
  ["Temperature\x7b".toList, "mValue=".toList, ", ".toList, "mType=".toList]

/-- Up to the name there is no key that goes on otherwise. -/
theorem skip_to_name {key : List Char} {d : Char} (hkey : ['m', d] <+: key)
    (hd : ∀ a ∈ beforeName, ¬ ['m', d] <:+: a) (h : r.WellFormed) (k : List Char) :
    strstr key (r.text ++ k) = strstr key ("mName=".toList ++ (r.name ++ (r.back ++ k))) := by
  have hhead : key.head? = some 'm' := by
    obtain ⟨s, rfl⟩ := hkey
    rfl
  have hskip : ∀ {a b : List Char}, a ∈ beforeName → a.getLast? ≠ some 'm' →
      strstr key (a ++ b) = strstr key b := fun ha hlast => strstr_append_of_pair hkey (hd _ ha) hlast
  rw [text_append, hskip (by simp [beforeName]) (by decide), hskip (by simp [beforeName]) (by decide),
    strstr_value hhead (by decide) h, hskip (by simp [beforeName]) (by decide),
    hskip (by simp [beforeName]) (by decide), strstr_formatD hhead (by decide) (by decide),
    hskip (by simp [beforeName]) (by decide)]

theorem behind_name (h : r.WellFormed) (k : List Char) :
    behindKey "mName=".toList (r.text ++ k) = some (r.name ++ (r.back ++ k)) := by
  rw [behindKey, skip_to_name (d := 'N') (by decide) (by decide) h, ← behindKey, behindKey_self]

theorem readName_text (h : r.WellFormed) (k : List Char) : readName (r.text ++ k) = r.name := by
  have hfree : ∀ c ∈ r.name, decide (c ≠ ',' ∧ c ≠ '}') = true := fun c hc =>
    decide_eq_true (h.name_free c hc)
  have hstop : Stops (fun c => decide (c ≠ ',' ∧ c ≠ '}')) (r.back ++ k) := stops_cons.mpr (by decide)
  rw [readName, behind_name h, Option.map_some, Option.getD_some, takeWhile_append_of_stop hfree hstop]
  exact List.take_of_length_le h.name_fits

/-- The number `mStatus=` is followed by, where the name holds it, or else the status. -/
def Record.statusRead (r : Record) : Int :=
  match strstr "mStatus=".toList r.name with
  | none => r.status
  | some found => atoi (found.drop 8)

theorem read_status (h : r.WellFormed) (k : List Char) :
    ((behindKey "mStatus=".toList (r.text ++ k)).map atoi).getD 0 = r.statusRead := by
  have hname : behindKey "mStatus=".toList (r.text ++ k) =
      behindKey "mStatus=".toList (r.name ++ (r.back ++ k)) := by
    rw [behindKey, skip_to_name (d := 'S') (by decide) (by decide) h,
      strstr_append_of_pair (c := 'm') (d := 'S') (by decide) (by decide) (by decide), ← behindKey]
  rw [hname, Record.statusRead]
  cases hfound : strstr "mStatus=".toList r.name with
  | none =>
      have hown : behindKey "mStatus=".toList (r.name ++ (r.back ++ k)) =
          some (formatD r.status ++ '}' :: k) := by
        have hback : r.back ++ k =
            ',' :: ([' '] ++ ("mStatus=".toList ++ (formatD r.status ++ '}' :: k))) := by
          simp [Record.back]
        rw [hback, behindKey_skip (strstr_append_cons (by decide) (strstr_eq_none_iff.mp hfound)),
          behindKey_skip (strstr_append_of_head (d := 'm') rfl (by decide)), behindKey_self]
      rw [hown, Option.map_some, Option.getD_some, atoi_append_stop endsNumbers_brace, atoi_formatD h.status]
  | some found =>
      -- the name holds the key: the number behind it ends with the name at the latest
      obtain ⟨w, rfl⟩ := strstr_prefix hfound
      have hread : behindKey "mStatus=".toList (r.name ++ (r.back ++ k)) =
          some (w ++ ',' :: (' ' :: ("mStatus=".toList ++ (formatD r.status ++ ['}'])) ++ k)) := by
        rw [behindKey, strstr_append_found hfound, Option.map_some, List.append_assoc, List.drop_left]
        rfl
      rw [hread, Option.map_some, Option.getD_some, atoi_append_stop endsNumbers_comma]
      rfl

end Read

section Passes

variable {F : Type} [Zero F] {strtof : List Char → F} {r : Record} {rs : List Record}
  {k indent after h p : List Char}

/-- The fields of a record as they are read. -/
def Record.entry (strtof : List Char → F) (r : Record) : Temp F :=
  ⟨strtof r.value, 0, 0, r.type, r.name, r.statusRead⟩

/-- A number ends at a comma. -/
def StopsAtComma (strtof : List Char → F) : Prop :=
  ∀ v rest : List Char, (∀ c ∈ v, c ∈ valueChars) → strtof (v ++ ',' :: rest) = strtof v

theorem readValue_text (hstrtof : StopsAtComma strtof) (hr : r.WellFormed) (k : List Char) :
    readValue strtof (r.text ++ k) = strtof r.value := by
  rw [readValue, behind_value, Option.map_some, Option.getD_some]
  exact hstrtof _ _ hr.value

theorem readTemp_text (hstrtof : StopsAtComma strtof) (hr : r.WellFormed) (k : List Char) :
    readTemp strtof (r.text ++ k) = r.entry strtof := by
  have htype : ((behindKey "mType=".toList (r.text ++ k)).map atoi).getD 0 = r.type := by
    rw [behind_type hr, Option.map_some, Option.getD_some]
    exact (atoi_append_stop endsNumbers_comma _ _).trans (atoi_formatD hr.type)
  rw [readTemp, readValue_text hstrtof hr, htype, readName_text hr, read_status hr, Record.entry]

/-! ## Searching for a record or a heading -/

theorem text_cons (r : Record) (k : List Char) : r.text ++ k = 'T' :: (r.body ++ k) := rfl

theorem recordStart_begins (r : Record) (k : List Char) : recordStart <+: r.text ++ k := by
  rw [text_append]
  exact List.prefix_append _ _

theorem recordLines_cons : recordLines indent (r :: rs) ++ k =
    indent ++ (r.text ++ '\n' :: (recordLines indent rs ++ k)) := by
  simp [recordLines]

/-- A word that begins with a letter `c` no number, no blank and nothing behind a name has. -/
structure Foreign (key : List Char) (c : Char) : Prop where
  head : key.head? = some c
  value : c ∉ valueChars
  digit : c.isDigit = false
  sign : c ≠ '-'
  space : c ≠ ' '
  tab : c ≠ '\t'
  newline : c ∉ ['\n']
  behind : c ∉ " mStatus=".toList
  brace : c ∉ ['}']
  comma : ',' ∉ key

theorem foreign_record : Foreign recordStart 'T' :=
  ⟨rfl, by decide, by decide, by decide, by decide, by decide, by decide, by decide, by decide, by decide⟩

theorem foreign_heading : Foreign halHeading 'C' :=
  ⟨rfl, by decide, by decide, by decide, by decide, by decide, by decide, by decide, by decide, by decide⟩

section Foreign

variable {key name : List Char} {c : Char}

theorem Foreign.skip_line (h : Foreign key c) (k : List Char) : strstr key ('\n' :: k) = strstr key k :=
  strstr_append_of_head (a := ['\n']) h.head h.newline

theorem Foreign.skip_indent (h : Foreign key c) (hindent : Blank indent) (k : List Char) :
    strstr key (indent ++ k) = strstr key k := by
  apply strstr_append_of_head h.head
  intro hm
  rcases hindent c hm with hc | hc
  · exact h.space hc
  · exact h.tab hc

/-- Behind a name that does not hold it the word is searched on. -/
theorem Foreign.skip_name (h : Foreign key c) (hname : ¬ key <:+: name) :
    strstr key (name ++ (r.back ++ k)) = strstr key k := by
  have hback : r.back ++ k =
      ',' :: (" mStatus=".toList ++ (formatD r.status ++ (['}'] ++ k))) := by
    simp [Record.back]
  rw [hback, strstr_append_cons h.comma hname, strstr_append_of_head h.head h.behind,
    strstr_formatD h.head h.sign h.digit, strstr_append_of_head h.head h.brace]

end Foreign

theorem skip_body (hr : r.WellFormed) (hname : ¬ recordStart <:+: r.name) (k : List Char) :
    strstr recordStart (r.body ++ k) = strstr recordStart k := by
  have hT := foreign_record
  have hskip : ∀ {a b : List Char}, ¬ ['T', 'e'] <:+: a → a.getLast? ≠ some 'T' →
      strstr recordStart (a ++ b) = strstr recordStart b :=
    fun ha hlast => strstr_append_of_pair (by decide) ha hlast
  unfold Record.body
  simp only [List.append_assoc]
  rw [hskip (by decide) (by decide), hskip (by decide) (by decide), strstr_value hT.head hT.value hr,
    hskip (by decide) (by decide), hskip (by decide) (by decide),
    strstr_formatD hT.head hT.sign hT.digit, hskip (by decide) (by decide),
    hskip (by decide) (by decide), hT.skip_name hname]

/-- The heading is not found in front of a name. -/
theorem heading_to_name (hr : r.WellFormed) (k : List Char) :
    strstr halHeading (r.text ++ k) = strstr halHeading (r.name ++ (r.back ++ k)) := by
  have hC := foreign_heading
  have hskip : ∀ {a b : List Char}, 'C' ∉ a → strstr halHeading (a ++ b) = strstr halHeading b :=
    fun ha => strstr_append_of_head hC.head ha
  rw [text_append, hskip (by decide), hskip (by decide), strstr_value hC.head hC.value hr,
    hskip (by decide), hskip (by decide), strstr_formatD hC.head hC.sign hC.digit,
    hskip (by decide), hskip (by decide)]

/-- The next record of a section. -/
theorem strstr_recordLines (hindent : Blank indent) : strstr recordStart (recordLines indent (r :: rs) ++ k) =
    some (r.text ++ '\n' :: (recordLines indent rs ++ k)) := by
  rw [recordLines_cons, foreign_record.skip_indent hindent]
  exact strstr_of_prefix (recordStart_begins r _)

/-- Behind the beginning of a record the next one is found. -/
theorem strstr_behind (hr : r.WellFormed) (hname : ¬ recordStart <:+: r.name) (k : List Char) :
    strstr recordStart (r.text ++ '\n' :: k).tail = strstr recordStart k := by
  rw [text_cons, List.tail_cons, skip_body hr hname, foreign_record.skip_line]

/-- `h` is behind the beginning of the last record. -/
def BehindLast (h : List Char) (rs : List Record) (after : List Char) : Prop :=
  ∀ l, rs.getLast? = some l → h.length < l.text.length + 1 + after.length

theorem length_recordLines_cons : (recordLines indent (r :: rs)).length =
    indent.length + (r.text.length + 1 + (recordLines indent rs).length) := by
  have hlines : recordLines indent (r :: rs) ++ [] =
      indent ++ (r.text ++ '\n' :: (recordLines indent rs ++ [])) := recordLines_cons
  have hcons := congrArg List.length hlines
  simp only [List.append_nil, List.length_append, List.length_cons] at hcons
  omega

theorem BehindLast.tail (hlast : BehindLast h (r :: rs) after) : BehindLast h rs after := by
  intro l hl
  apply hlast l
  rw [List.getLast?_cons, hl]
  rfl

/-- So it is behind the beginning of every record. -/
theorem BehindLast.lt (hlast : BehindLast h (r :: rs) after) (indent : List Char) :
    h.length < r.text.length + 1 + (recordLines indent rs).length + after.length := by
  induction rs generalizing r with
  | nil =>
      have hlt := hlast r rfl
      omega
  | cons r' rs ih =>
      have hlt := ih hlast.tail
      rw [length_recordLines_cons]
      omega

theorem cachedLoop_step {rec : List Char} (hp : strstr recordStart p = some rec)
    (hrec : h.length < rec.length) (room : Nat) : cachedLoop strtof (some h) (room + 1) p =
      readTemp strtof rec :: cachedLoop strtof (some h) room rec.tail := by
  have hle := (strstr_suffix hp).length_le
  have hhere : atHal (some h) p = false := decide_eq_false (by omega)
  have hthere : atHal (some h) rec = false := decide_eq_false (by omega)
  rw [cachedLoop, hhere, hp]
  simp only [hthere, Bool.false_eq_true, if_false]

/-- Behind the section pass 1 ends. -/
theorem cachedLoop_end (hp : ∀ rec, strstr recordStart p = some rec → rec.length ≤ h.length)
    (room : Nat) : cachedLoop strtof (some h) room p = [] := by
  cases room with
  | zero => rfl
  | succ room =>
      rw [cachedLoop]
      cases hrec : strstr recordStart p with
      | none => simp
      | some rec =>
          have hat : atHal (some h) rec = true := decide_eq_true (hp rec hrec)
          simp [hat]

/-- **Pass 1 reads the records of its section**, with room for them. Behind
the record that fills the array nothing is searched. -/
theorem cachedLoop_lines (hstrtof : StopsAtComma strtof) (hindent : Blank indent) {room : Nat}
    (hwf : ∀ r ∈ rs, r.WellFormed) (hnames : ∀ r ∈ rs.take (room - 1), ¬ recordStart <:+: r.name)
    (hlast : BehindLast h rs after)
    (hafter : ∀ rec, strstr recordStart after = some rec → rec.length ≤ h.length) (hroom : rs.length ≤ room)
    (hp : strstr recordStart p = strstr recordStart (recordLines indent rs ++ after)) :
    cachedLoop strtof (some h) room p = rs.map (Record.entry strtof) := by
  induction rs generalizing room p with
  | nil => exact cachedLoop_end (fun rec hrec => hafter rec (hp.symm.trans hrec)) room
  | cons r rs ih =>
      cases room with
      | zero => cases hroom
      | succ room =>
          have hlt := hlast.lt indent
          have hr : r.WellFormed := hwf r List.mem_cons_self
          rw [strstr_recordLines hindent] at hp
          rw [cachedLoop_step hp (by simp only [List.length_append, List.length_cons]; omega),
            readTemp_text hstrtof hr, List.map_cons]
          congr 1
          cases room with
          | zero =>
              -- the array is full: whatever the last name holds is not searched
              obtain rfl := List.eq_nil_of_length_eq_zero (Nat.le_zero.mp (Nat.le_of_succ_le_succ hroom))
              rfl
          | succ room =>
              rw [Nat.add_sub_cancel, List.take_succ_cons] at hnames
              exact ih (fun r hr => hwf r (List.mem_cons_of_mem _ hr))
                (fun r hr => hnames r (List.mem_cons_of_mem _ hr)) hlast.tail
                (Nat.le_of_succ_le_succ hroom) (strstr_behind hr (hnames r List.mem_cons_self) _)

/-- A name has no room for a heading and the beginning of a record. -/
theorem not_both {name : List Char} (hfits : name.length ≤ 31) (hheading : halHeading <:+: name) :
    ¬ recordStart <:+: name := by
  obtain ⟨x, y, rfl⟩ := hheading
  have hlength : halHeading.length = 30 := by decide
  have hnot : ¬ recordStart <:+: halHeading := by decide
  rw [List.length_append, List.length_append, hlength] at hfits
  intro hin
  -- the heading leaves room for one character, in front of it or behind it
  cases x with
  | nil =>
      cases y with
      | nil =>
          rw [List.append_nil] at hin
          exact hnot hin
      | cons c y =>
          obtain rfl : y = [] := List.eq_nil_of_length_eq_zero (by rw [List.length_cons] at hfits; omega)
          rcases List.infix_concat_iff.mp hin with hsuffix | hin
          · have hhead : some 'T' = some 's' := congrArg List.head? (List.suffix_iff_eq_drop.mp hsuffix)
            exact absurd hhead (by decide)
          · exact hnot hin
  | cons c x =>
      obtain rfl : x = [] := List.eq_nil_of_length_eq_zero (by rw [List.length_cons] at hfits; omega)
      obtain rfl : y = [] := List.eq_nil_of_length_eq_zero (by rw [List.length_singleton] at hfits; omega)
      rw [List.append_nil] at hin
      rcases List.infix_cons_iff.mp hin with hprefix | hin
      · exact absurd (List.cons_prefix_cons.mp hprefix).2 (by decide)
      · exact hnot hin

/-- What is found in a name is behind the beginning of its record, -/
theorem length_in_name {e : List Char} (he : e <:+ r.name) (after : List Char) :
    (e ++ (r.back ++ '\n' :: after)).length < r.text.length + 1 + after.length := by
  have hle := he.length_le
  have htext := congrArg List.length (text_append r [])
  have hstart : 0 < "Temperature\x7b".toList.length := by decide
  simp only [List.append_nil, List.length_append, List.length_cons] at htext ⊢
  omega

/-- and no record begins between them. -/
theorem strstr_in_name {e : List Char} (he : e <:+ r.name) (hname : ¬ recordStart <:+: r.name)
    (after : List Char) :
    strstr recordStart (e ++ (r.back ++ '\n' :: after)) = strstr recordStart after := by
  have hfree : ¬ recordStart <:+: e := fun hin => hname (hin.trans he.isInfix)
  rw [foreign_record.skip_name hfree, foreign_record.skip_line]

theorem strstr_heading_cons (hindent : Blank indent) (hr : r.WellFormed) :
    strstr halHeading (recordLines indent (r :: rs) ++ after) =
      strstr halHeading (r.name ++ (r.back ++ '\n' :: (recordLines indent rs ++ after))) := by
  rw [recordLines_cons, foreign_heading.skip_indent hindent, heading_to_name hr]

/-- Over a record whose name does not hold it the heading is searched on. -/
theorem strstr_heading_free (hindent : Blank indent) (hr : r.WellFormed) (hname : ¬ halHeading <:+: r.name) :
    strstr halHeading (recordLines indent (r :: rs) ++ after) =
      strstr halHeading (recordLines indent rs ++ after) := by
  rw [strstr_heading_cons hindent hr, foreign_heading.skip_name hname, foreign_heading.skip_line]

/-- The heading behind the section is found, or one that the last name holds. -/
theorem strstr_heading {hal : List Char} (hindent : Blank indent) (hwf : ∀ r ∈ rs, r.WellFormed)
    (hheadings : ∀ r ∈ rs.dropLast, ¬ halHeading <:+: r.name)
    (hhal : strstr halHeading after = some hal) (hnext : strstr recordStart hal = strstr recordStart after) :
    ∃ h, strstr halHeading (recordLines indent rs ++ after) = some h ∧ BehindLast h rs after ∧
      strstr recordStart h = strstr recordStart after := by
  induction rs with
  | nil =>
      refine ⟨hal, hhal, ?_, hnext⟩
      intro l hl
      cases hl
  | cons r rs ih =>
      have hr : r.WellFormed := hwf r List.mem_cons_self
      cases hfound : strstr halHeading r.name with
      | none =>
          have hname : ¬ halHeading <:+: r.name := strstr_eq_none_iff.mp hfound
          obtain ⟨h, hh, hlast, hbehind⟩ := ih (fun r hr => hwf r (List.mem_cons_of_mem _ hr))
            (fun l hl => hheadings l (by
              rw [List.dropLast_cons_of_ne_nil (List.ne_nil_of_mem (List.mem_of_mem_dropLast hl))]
              exact List.mem_cons_of_mem _ hl))
          refine ⟨h, ?_, ?_, hbehind⟩
          · exact (strstr_heading_free hindent hr hname).trans hh
          · intro l hl
            cases rs with
            | nil =>
                obtain rfl : r = l := Option.some.inj hl
                have hle := (strstr_suffix hh).length_le
                rw [List.length_append] at hle
                simp only [recordLines, List.flatMap_nil, List.length_nil] at hle
                omega
            | cons r' rs =>
                rw [List.getLast?_cons_cons] at hl
                exact hlast l hl
      | some e =>
          have hheld : halHeading <:+: r.name := by
            by_contra hno
            rw [strstr_eq_none_iff.mpr hno] at hfound
            cases hfound
          -- only the last name may hold it
          obtain rfl : rs = [] := by
            by_contra hne
            rw [List.dropLast_cons_of_ne_nil hne] at hheadings
            exact hheadings r List.mem_cons_self hheld
          refine ⟨_, (strstr_heading_cons hindent hr).trans (strstr_append_found hfound _), ?_, ?_⟩
          · intro l hl
            obtain rfl : r = l := Option.some.inj hl
            exact length_in_name (strstr_suffix hfound) after
          · exact strstr_in_name (strstr_suffix hfound) (not_both hr.name_fits hheld) after

/-! ## Names that are not as printed -/

/-- The heading that is found is behind the beginning of the first record. -/
theorem length_heading (hindent : Blank indent) (hr : r.WellFormed)
    (hh : strstr halHeading (recordLines indent (r :: rs) ++ after) = some h) :
    h.length < (r.text ++ '\n' :: (recordLines indent rs ++ after)).length := by
  rw [strstr_heading_cons hindent hr] at hh
  have hle := (strstr_suffix hh).length_le
  have hin := length_in_name List.suffix_rfl (recordLines indent rs ++ after) (r := r)
  simp only [List.length_append, List.length_cons] at hle hin ⊢
  omega

/-- A record that pass 1 comes to is read, unless the array is full before. -/
theorem name_read (hr : r.WellFormed) (hlt : h.length < (r.text ++ k).length)
    (hsuffix : r.text ++ k <:+ p) (room : Nat) : (cachedLoop strtof (some h) room p).length = room ∨
      r.name ∈ (cachedLoop strtof (some h) room p).map (·.name) := by
  induction room generalizing p with
  | zero => exact Or.inl rfl
  | succ room ih =>
      obtain ⟨x, hx⟩ := hsuffix
      obtain ⟨rec, hrec, hle⟩ := strstr_found (recordStart_begins r k) x
      rw [hx] at hrec
      rw [cachedLoop_step hrec (by omega), List.length_cons, List.map_cons]
      have hsuffix : r.text ++ k <:+ rec :=
        List.suffix_of_suffix_length_le ⟨x, hx⟩ (strstr_suffix hrec) hle
      -- what is found is the record, or a text in front of it
      by_cases hsame : r.text ++ k = rec
      · right
        rw [← hsame]
        have hname : (readTemp strtof (r.text ++ k)).name = r.name := readName_text hr k
        rw [hname]
        exact List.mem_cons_self
      · have hbehind : r.text ++ k <:+ rec.tail := by
          cases rec with
          | nil =>
              rw [List.suffix_nil] at hsuffix
              exact absurd hsuffix hsame
          | cons c rec => exact (List.suffix_cons_iff.mp hsuffix).resolve_left hsame
        rcases ih hbehind with hfull | hmem
        · exact Or.inl (by rw [hfull])
        · exact Or.inr (List.mem_cons_of_mem _ hmem)

/-- Where a name holds the beginning of a record, pass 1 stops there next. -/
theorem strstr_held (hname : recordStart <:+: r.name) (k : List Char) :
    ∃ rec, strstr recordStart (r.text ++ '\n' :: k).tail = some rec ∧ k <:+ rec.tail := by
  obtain ⟨x, y, hxy⟩ := hname
  have htail : ∃ a, (r.text ++ '\n' :: k).tail = a ++ (recordStart ++ (y ++ (r.back ++ '\n' :: k))) := by
    refine ⟨"emperature\x7b".toList ++ ("mValue=".toList ++ (r.value ++ (", ".toList ++ ("mType=".toList ++
      (formatD r.type ++ (", ".toList ++ ("mName=".toList ++ x))))))), ?_⟩
    rw [text_cons, List.tail_cons]
    unfold Record.body
    rw [← hxy]
    simp only [List.append_assoc]
  obtain ⟨a, ha⟩ := htail
  have hne : recordStart ≠ [] := by decide
  obtain ⟨rec, hrec, hbehind⟩ := strstr_found_before hne a (y ++ (r.back ++ '\n' :: k))
  have hk : k <:+ y ++ (r.back ++ '\n' :: k) := ⟨y ++ (r.back ++ ['\n']), by simp⟩
  rw [ha]
  exact ⟨rec, hrec, hk.trans hbehind⟩

/-- The heading of a name ends pass 1 behind its record. -/
theorem cachedLoop_heading (hindent : Blank indent) (hr : r.WellFormed) (hheading : halHeading <:+: r.name)
    (hh : strstr halHeading (recordLines indent (r :: rs) ++ after) = some h) (room : Nat) :
    cachedLoop strtof (some h) room (r.text ++ '\n' :: (recordLines indent rs ++ after)).tail = [] := by
  apply cachedLoop_end
  intro rec hrec
  rw [strstr_behind hr (not_both hr.name_fits hheading)] at hrec
  obtain ⟨e, he⟩ := Option.ne_none_iff_exists'.mp fun hnone => strstr_eq_none_iff.mp hnone hheading
  rw [strstr_heading_cons hindent hr, strstr_append_found he] at hh
  have hle := (strstr_suffix hrec).length_le
  have hlen := congrArg List.length (Option.some.inj hh)
  simp only [List.length_append, List.length_cons] at hle hlen
  omega

/-- Behind a name that holds the beginning of a record, the next record is read too late. -/
theorem names_ne (hindent : Blank indent) (hrs : ∀ r ∈ rs, r.WellFormed) (hnodup : (rs.map (·.name)).Nodup)
    (hname : recordStart <:+: r.name) (hh : strstr halHeading (recordLines indent rs ++ after) = some h)
    {room : Nat} (hroom : rs.length < room) :
    (cachedLoop strtof (some h) room (r.text ++ '\n' :: (recordLines indent rs ++ after)).tail).map
      (·.name) ≠ rs.map (·.name) := by
  intro hnames
  obtain ⟨rec, hrec, hsuffix⟩ := strstr_held hname (recordLines indent rs ++ after)
  obtain ⟨room, rfl⟩ : ∃ m, room = m + 1 := ⟨room - 1, by omega⟩
  have hlt : h.length < rec.length := by
    have hle := (strstr_suffix hh).length_le
    have hbehind := hsuffix.length_le
    have hbegins := strstr_prefix hrec
    have hpos : 0 < rec.length := Nat.lt_of_lt_of_le (by decide) hbegins.length_le
    rw [List.length_tail] at hbehind
    omega
  rw [cachedLoop_step hrec hlt, List.map_cons] at hnames
  cases rs with
  | nil => cases hnames
  | cons r' rs =>
      have hr' : r'.WellFormed := hrs r' List.mem_cons_self
      have hbehind := (List.cons.inj hnames).2
      rw [List.map_cons, List.nodup_cons] at hnodup
      have hlate : r'.text ++ '\n' :: (recordLines indent rs ++ after) <:+ rec.tail :=
        List.IsSuffix.trans (recordLines_cons ▸ List.suffix_append indent _) hsuffix
      have hread : (cachedLoop strtof (some h) room rec.tail).length = room ∨
          r'.name ∈ (cachedLoop strtof (some h) room rec.tail).map (·.name) :=
        name_read hr' (length_heading hindent hr' hh) hlate room
      -- the array has room for it, so its name comes a second time
      rcases hread with hfull | hmem
      · have hlen := congrArg List.length hbehind
        rw [List.length_map, List.length_map, hfull] at hlen
        rw [List.length_cons] at hroom
        omega
      · exact hnodup.1 (hbehind ▸ hmem)

/-- **Where the names come out as printed, no name is taken for a record or
for the heading**, with room for one record more. -/
theorem names_free (hindent : Blank indent) (hwf : ∀ r ∈ rs, r.WellFormed)
    (hnodup : (rs.map (·.name)).Nodup) (hh : strstr halHeading (recordLines indent rs ++ after) = some h)
    {room : Nat} (hroom : rs.length < room)
    (hp : strstr recordStart p = strstr recordStart (recordLines indent rs ++ after))
    (hnames : (cachedLoop strtof (some h) room p).map (·.name) = rs.map (·.name)) :
    (∀ r ∈ rs, ¬ recordStart <:+: r.name) ∧ ∀ r ∈ rs.dropLast, ¬ halHeading <:+: r.name := by
  induction rs generalizing room p with
  | nil => simp
  | cons r rs ih =>
      have hr : r.WellFormed := hwf r List.mem_cons_self
      have hrs : ∀ r ∈ rs, r.WellFormed := fun r hr => hwf r (List.mem_cons_of_mem _ hr)
      obtain ⟨room, rfl⟩ : ∃ m, room = m + 1 := ⟨room - 1, by omega⟩
      rw [List.length_cons] at hroom
      rw [strstr_recordLines hindent] at hp
      rw [cachedLoop_step hp (length_heading hindent hr hh), List.map_cons, List.map_cons] at hnames
      have hrest := (List.cons.inj hnames).2
      rw [List.map_cons, List.nodup_cons] at hnodup
      by_cases hheading : halHeading <:+: r.name
      · rw [cachedLoop_heading hindent hr hheading hh] at hrest
        obtain rfl : rs = [] := List.map_eq_nil_iff.mp hrest.symm
        exact ⟨List.forall_mem_cons.mpr ⟨not_both hr.name_fits hheading, by simp⟩, by simp⟩
      · rw [strstr_heading_free hindent hr hheading] at hh
        by_cases hname : recordStart <:+: r.name
        · exact absurd hrest (names_ne hindent hrs hnodup.2 hname hh (by omega))
        · have hfree := ih hrs hnodup.2 hh (by omega) (strstr_behind hr hname _) hrest
          refine ⟨List.forall_mem_cons.mpr ⟨hname, hfree.1⟩, fun l hl => ?_⟩
          cases rs with
          | nil => cases hl
          | cons r' rs =>
              rcases List.mem_cons.mp hl with rfl | hl
              · exact hheading
              · exact hfree.2 l hl

end Passes

/-! ## Matching by name -/

section Match

variable {F : Type} [Zero F] [Sub F] {strtof : List Char → F} {r : Record} {rs hs : List Record}
  {indent rest p : List Char}

/-- **Pass 2 matches one record after the other.** -/
theorem halLoop_lines (hstrtof : StopsAtComma strtof) (hindent : Blank indent) {rounds : Nat}
    {temps : List (Temp F)} (hwf : ∀ r ∈ hs, r.WellFormed)
    (hnames : ∀ r ∈ hs, ¬ recordStart <:+: r.name) (hrest : ¬ recordStart <:+: rest)
    (hrounds : hs.length ≤ rounds)
    (hp : strstr recordStart p = strstr recordStart (recordLines indent hs ++ rest)) :
    halLoop strtof rounds p temps =
      hs.foldl (fun temps r => matchHal r.name (strtof r.value) temps) temps := by
  induction hs generalizing rounds p temps with
  | nil =>
      have hnone : strstr recordStart p = none := hp.trans (strstr_eq_none_iff.mpr hrest)
      cases rounds with
      | zero => rfl
      | succ rounds => rw [halLoop, hnone, List.foldl_nil]
  | cons r hs ih =>
      cases rounds with
      | zero => cases hrounds
      | succ rounds =>
          have hr : r.WellFormed := hwf r List.mem_cons_self
          rw [strstr_recordLines hindent] at hp
          rw [halLoop, hp, List.foldl_cons]
          show halLoop strtof rounds _
            (matchHal (readName (r.text ++ _)) (readValue strtof (r.text ++ _)) temps) = _
          rw [readName_text hr, readValue_text hstrtof hr]
          exact ih (fun r hr => hwf r (List.mem_cons_of_mem _ hr))
            (fun r hr => hnames r (List.mem_cons_of_mem _ hr)) (Nat.le_of_succ_le_succ hrounds)
            (strstr_behind hr (hnames r List.mem_cons_self) _)

omit [Zero F] in
/-- With distinct names exactly the entry of the name is changed. -/
theorem matchHal_map {f : Record → Temp F} (hf : ∀ r, (f r).name = r.name)
    (hnodup : (rs.map (·.name)).Nodup) (n : List Char) (v : F) : matchHal n v (rs.map f) =
      rs.map fun r => if r.name = n then { f r with hal := v, delta := v - (f r).cached } else f r := by
  induction rs with
  | nil => rfl
  | cons r rs ih =>
      rw [List.map_cons, List.nodup_cons] at hnodup
      rw [List.map_cons, List.map_cons, matchHal]
      by_cases hn : r.name = n
      · rw [if_pos ((hf r).trans hn), if_pos hn]
        congr 1
        -- no entry behind it has the name
        apply List.map_congr_left
        intro r' hr'
        have hne : r'.name ≠ n := fun he => hnodup.1 (hn ▸ he ▸ List.mem_map_of_mem hr')
        rw [if_neg hne]
      · rw [if_neg fun he => hn ((hf r).symm.trans he), if_neg hn, ih hnodup.2]

/-- The last record of a name. -/
def lastNamed (name : List Char) (hals : List Record) : Option Record :=
  (hals.filter fun r => r.name = name).getLast?

theorem lastNamed_concat (name : List Char) (hals : List Record) (r : Record) :
    lastNamed name (hals ++ [r]) = if r.name = name then some r else lastNamed name hals := by
  rw [lastNamed, List.filter_append]
  by_cases hn : r.name = name
  · simp [hn]
  · simp [hn, lastNamed]

/-- What a cached record is to become: its own fields, and the last HAL value of its name. -/
def Record.paired (strtof : List Char → F) (hals : List Record) (r : Record) : Temp F where
  cached := strtof r.value
  hal := ((lastNamed r.name hals).map fun h => strtof h.value).getD 0
  delta := ((lastNamed r.name hals).map fun h => strtof h.value - strtof r.value).getD 0
  type := r.type
  name := r.name
  status := r.status

/-- **After the matches each entry holds the last HAL value of its name.** -/
theorem foldl_matchHal (hnodup : (rs.map (·.name)).Nodup) (hs : List Record) :
    hs.foldl (fun temps h => matchHal h.name (strtof h.value) temps) (rs.map (Record.entry strtof)) =
      rs.map fun r => { r.paired strtof hs with status := r.statusRead } := by
  -- from the back: the last record of a name is matched last
  induction hs using List.reverseRecOn with
  | nil => rfl
  | append_singleton hs h ih =>
      rw [List.foldl_append, ih, List.foldl_cons, List.foldl_nil, matchHal_map (fun r => rfl) hnodup]
      apply List.map_congr_left
      intro r _
      by_cases hn : r.name = h.name
      · simp [Record.paired, lastNamed_concat, hn]
      · simp [Record.paired, lastNamed_concat, hn, Ne.symm hn]

end Match

/-! ## The two sections -/

section Sections

variable {F : Type} [Zero F] [Sub F] {strtof : List Char → F} {d : Dump} {h : List Char}

/-- What stands behind the cached records. -/
def Dump.after (d : Dump) : List Char :=
  d.between ++ (halHeading ++ '\n' :: (recordLines d.indent d.hals ++ d.rest))

theorem strstr_cachedHeading (hwf : d.WellFormed) : strstr cachedHeading d.text =
    some (cachedHeading ++ '\n' :: (recordLines d.indent d.cached ++ d.after)) :=
  strstr_append_word (d := 'C') (t := "ached temperatures:".toList) (by decide) hwf.front_cached _

theorem strstr_halHeading (hwf : d.WellFormed) : strstr halHeading d.text =
    strstr halHeading (recordLines d.indent d.cached ++ d.after) := by
  have hnewline : '\n' ∉ halHeading := by decide
  rw [Dump.text, strstr_append_of_last hnewline hwf.front_lines hwf.front_hal,
    strstr_append_of_pair (c := 'C') (d := 'u') (by decide) (by decide) (by decide),
    foreign_heading.skip_line, Dump.after]

theorem strstr_heading_after (hwf : d.WellFormed) : strstr halHeading d.after =
    some (halHeading ++ '\n' :: (recordLines d.indent d.hals ++ d.rest)) :=
  strstr_append_word (d := 'C') (t := "urrent temperatures from HAL:".toList) (by decide)
    hwf.between_hal _

/-- No record begins in a heading. -/
theorem strstr_behind_heading {heading : List Char} (hheading : 'T' ∉ heading) (k : List Char) :
    strstr recordStart (heading ++ '\n' :: k) = strstr recordStart k := by
  rw [strstr_append_of_head foreign_record.head hheading, foreign_record.skip_line]

theorem strstr_record_after (hwf : d.WellFormed) : strstr recordStart d.after =
    strstr recordStart (recordLines d.indent d.hals ++ d.rest) := by
  have hC : 'C' ∉ recordStart := by decide
  have hskip : strstr recordStart d.after =
      strstr recordStart ("urrent temperatures from HAL:".toList ++
        '\n' :: (recordLines d.indent d.hals ++ d.rest)) :=
    strstr_append_cons hC hwf.between_records
  rw [hskip, strstr_behind_heading (by decide)]

theorem parse_eq (hwf : d.WellFormed) {max_temps : Nat}
    (hh : strstr halHeading (recordLines d.indent d.cached ++ d.after) = some h) :
    parseThermalservice strtof d.text max_temps =
      halLoop strtof h.length h (cachedLoop strtof (some h) max_temps
        (cachedHeading ++ '\n' :: (recordLines d.indent d.cached ++ d.after))) := by
  rw [parseThermalservice, strstr_halHeading hwf, hh, strstr_cachedHeading hwf, Option.getD_some]

/-- The records of a section are no more than its letters. -/
theorem length_le_of_found {indent rest : List Char} {hs : List Record}
    (hh : strstr recordStart h = strstr recordStart (recordLines indent hs ++ rest))
    (hindent : Blank indent) : hs.length ≤ h.length := by
  have hlines : ∀ rs : List Record, rs.length ≤ (recordLines indent rs).length := by
    intro rs
    induction rs with
    | nil => exact Nat.zero_le _
    | cons r rs ih =>
        rw [length_recordLines_cons, List.length_cons]
        omega
  cases hs with
  | nil => exact Nat.zero_le _
  | cons r hs =>
      rw [strstr_recordLines hindent] at hh
      have hle := (strstr_suffix hh).length_le
      have hrest := hlines hs
      simp only [List.length_append, List.length_cons] at hle ⊢
      omega

/-- No name is taken for something else: none of a record in front of the
last place of the array, and no HAL name, holds the beginning of a record;
no name but the last cached one holds the second heading; and behind
`mStatus=`, where a cached name holds it, stands the status. -/
structure Dump.Plain (d : Dump) (max_temps : Nat) : Prop where
  cached : ∀ r ∈ d.cached.take (max_temps - 1), ¬ recordStart <:+: r.name
  hals : ∀ r ∈ d.hals, ¬ recordStart <:+: r.name
  headings : ∀ r ∈ d.cached.dropLast, ¬ halHeading <:+: r.name
  statuses : ∀ r ∈ d.cached, ∀ found, strstr "mStatus=".toList r.name = some found →
    atoi (found.drop 8) = r.status

/-- Apart from the status, each record is as printed. -/
theorem parse_text (hstrtof : StopsAtComma strtof) (hwf : d.WellFormed) {max_temps : Nat}
    (hmax : d.cached.length ≤ max_temps)
    (hcached : ∀ r ∈ d.cached.take (max_temps - 1), ¬ recordStart <:+: r.name)
    (hhals : ∀ r ∈ d.hals, ¬ recordStart <:+: r.name)
    (hheadings : ∀ r ∈ d.cached.dropLast, ¬ halHeading <:+: r.name) :
    parseThermalservice strtof d.text max_temps =
      d.cached.map fun r => { r.paired strtof d.hals with status := r.statusRead } := by
  have hhal := strstr_heading_after hwf
  have hnext : strstr recordStart (halHeading ++ '\n' :: (recordLines d.indent d.hals ++ d.rest)) =
      strstr recordStart d.after := by
    rw [strstr_record_after hwf, strstr_behind_heading (by decide)]
  obtain ⟨h, hh, hlast, hbehind⟩ := strstr_heading hwf.indent hwf.cached hheadings hhal hnext
  have hafter : ∀ rec, strstr recordStart d.after = some rec → rec.length ≤ h.length :=
    fun rec hrec => (strstr_suffix (hbehind.trans hrec)).length_le
  have hp : strstr recordStart h = strstr recordStart (recordLines d.indent d.hals ++ d.rest) :=
    hbehind.trans (strstr_record_after hwf)
  rw [parse_eq hwf hh, cachedLoop_lines hstrtof hwf.indent hwf.cached hcached hlast hafter hmax
      (strstr_behind_heading (by decide) _),
    halLoop_lines hstrtof hwf.indent hwf.hals hhals hwf.rest_records
      (length_le_of_found hp hwf.indent) hp]
  exact foldl_matchHal hwf.names d.hals

omit [Zero F] in
theorem matchHal_names (n : List Char) (v : F) (temps : List (Temp F)) :
    (matchHal n v temps).map (·.name) = temps.map (·.name) := by
  induction temps with
  | nil => rfl
  | cons t temps ih =>
      rw [matchHal]
      by_cases hn : t.name = n
      · rw [if_pos hn]
        rfl
      · rw [if_neg hn, List.map_cons, ih, List.map_cons]

/-- Pass 2 changes no name. -/
theorem halLoop_names (rounds : Nat) (p : List Char) (temps : List (Temp F)) :
    (halLoop strtof rounds p temps).map (·.name) = temps.map (·.name) := by
  induction rounds generalizing p temps with
  | zero => rfl
  | succ rounds ih =>
      rw [halLoop]
      cases strstr recordStart p with
      | none => rfl
      | some rec => exact (ih _ _).trans (matchHal_names _ _ temps)

theorem statusRead_eq_iff {r : Record} : r.statusRead = r.status ↔
    ∀ found, strstr "mStatus=".toList r.name = some found → atoi (found.drop 8) = r.status := by
  rw [Record.statusRead]
  cases strstr "mStatus=".toList r.name with
  | none => simp
  | some found => simp

/-- **The records are paired as printed where no name is taken for something
else**, and, with room for one record more and HAL names that hold no
beginning of a record, only there. -/
theorem paired_iff (hstrtof : StopsAtComma strtof) (hwf : d.WellFormed) {max_temps : Nat}
    (hmax : d.cached.length ≤ max_temps) :
    (d.Plain max_temps →
      parseThermalservice strtof d.text max_temps = d.cached.map (Record.paired strtof d.hals)) ∧
    (d.cached.length < max_temps → (∀ r ∈ d.hals, ¬ recordStart <:+: r.name) →
      parseThermalservice strtof d.text max_temps = d.cached.map (Record.paired strtof d.hals) →
        d.Plain max_temps) := by
  constructor
  · intro hplain
    rw [parse_text hstrtof hwf hmax hplain.cached hplain.hals hplain.headings]
    apply List.map_congr_left
    intro r hr
    have hstatus : r.statusRead = r.status := statusRead_eq_iff.mpr (hplain.statuses r hr)
    rw [hstatus]
    rfl
  · intro hroom hhals hparse
    -- the names alone tell that no record was found inside one
    have hfree : (∀ r ∈ d.cached, ¬ recordStart <:+: r.name) ∧
        ∀ r ∈ d.cached.dropLast, ¬ halHeading <:+: r.name := by
      have hheld : halHeading <+: halHeading ++ '\n' :: (recordLines d.indent d.hals ++ d.rest) :=
        List.prefix_append _ _
      obtain ⟨h, hh, -⟩ := strstr_found hheld (recordLines d.indent d.cached ++ d.between)
      rw [List.append_assoc, ← Dump.after] at hh
      rw [parse_eq hwf hh] at hparse
      have hnames := congrArg (List.map (·.name)) hparse
      rw [halLoop_names, List.map_map] at hnames
      exact names_free hwf.indent hwf.cached hwf.names hh hroom
        (strstr_behind_heading (by decide) _) hnames
    have hcached : ∀ r ∈ d.cached.take (max_temps - 1), ¬ recordStart <:+: r.name :=
      fun r hr => hfree.1 r (List.mem_of_mem_take hr)
    rw [parse_text hstrtof hwf hmax hcached hhals hfree.2] at hparse
    refine ⟨hcached, hhals, hfree.2, fun r hr => statusRead_eq_iff.mp ?_⟩
    exact congrArg Temp.status (List.map_inj_left.mp hparse r hr)

end Sections

/-! ## Two dumps -/

theorem stopsAtComma_atoi : StopsAtComma atoi := fun v rest _ => atoi_append_stop endsNumbers_comma v rest

/-- A CPU and a skin sensor, which the HAL prints the other way round, the CPU twice. -/
def twoSensors : Dump where
  front := "Thermal Status: 0\n".toList
  indent := ['\t']
  cached := [⟨"53".toList, 0, "CPU".toList, 1⟩, ⟨"31".toList, 3, "skin".toList, 0⟩]
  between := "HAL Ready: true\n".toList
  hals := [⟨"40".toList, 0, "CPU".toList, 0⟩, ⟨"33".toList, 3, "skin".toList, 0⟩,
    ⟨"41".toList, 0, "CPU".toList, 0⟩]
  rest := []

theorem twoSensors_wellFormed : twoSensors.WellFormed where
  front_lines := Or.inr (by decide)
  front_cached := by decide
  front_hal := by decide
  indent := List.forall_mem_singleton.mpr (Or.inr rfl)
  between_hal := by decide
  between_records := by decide
  rest_records := by decide
  cached := by decide
  hals := by decide
  names := by decide

theorem twoSensors_plain : twoSensors.Plain 16 where
  cached := by decide
  hals := by decide
  headings := by decide
  statuses := by
    have hnone : ∀ r ∈ twoSensors.cached, strstr "mStatus=".toList r.name = none := by decide
    intro r hr found hfound
    rw [hnone r hr] at hfound
    cases hfound

theorem paired_iff_twoSensors : parseThermalservice atoi twoSensors.text 16 =
    twoSensors.cached.map (Record.paired atoi twoSensors.hals) :=
  (paired_iff stopsAtComma_atoi twoSensors_wellFormed (by decide)).1 twoSensors_plain

/-- One record, of status 0, whose name is that of a field. -/
def namedAsField : Dump where
  front := []
  indent := ['\t']
  cached := [⟨"53".toList, 0, "mStatus=3".toList, 0⟩]
  between := []
  hals := []
  rest := []

/-- Its status comes back as 3. -/
theorem status_of_name : namedAsField.WellFormed ∧
    parseThermalservice atoi namedAsField.text 16 ≠
      namedAsField.cached.map (Record.paired atoi namedAsField.hals) := by
  have hwf : namedAsField.WellFormed :=
    { front_lines := Or.inl rfl
      front_cached := by decide
      front_hal := by decide
      indent := List.forall_mem_singleton.mpr (Or.inr rfl)
      between_hal := by decide
      between_records := by decide
      rest_records := by decide
      cached := by decide
      hals := by decide
      names := by decide }
  have hread : (parseThermalservice atoi namedAsField.text 16).map (·.status) = [3] := by
    rw [parse_text stopsAtComma_atoi hwf (by decide) (by decide) (by decide) (by decide)]
    decide
  refine ⟨hwf, fun heq => ?_⟩
  rw [heq] at hread
  exact absurd hread (by decide)

end MiuiserPeruser.Leatherhead
