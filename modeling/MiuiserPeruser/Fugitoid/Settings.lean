import Mathlib.Data.List.Infix
import MiuiserPeruser.Lib.JoinedText
import MiuiserPeruser.Lib.NumberRow
import MiuiserPeruser.Lib.Quoted

/-!
# Settings of one daemon (`fugitoidd.c`, `rocksteadyd.c`)

Both daemons read their settings from one document, which holds a section
for each daemon, by searching its first 4095 bytes for the daemon's name and
then for the key. rocksteadyd ends its search at the next brace, fugitoidd
does not. A setting is read from the daemon's own section if that section is
found first, and the key and its number end in the buffer; a setting the
section does not have is the default if nothing else is found in its place
(`settings_of_own_section`).
-/

namespace MiuiserPeruser

open CText

/-! ## config_get_int -/

/-- What is read of the document: the string in `char buf[4096]`. -/
def configBuf (file : List Char) : List Char := cstr (file.take 4095)

/-- `"\"%s\""`. -/
def quoted (name : List Char) : List Char := '"' :: (name ++ ['"'])

namespace Rocksteady

def daemonName : List Char := "rocksteadyd".toList

/-- `char field_key[64]`. -/
def fieldKey (key : List Char) : List Char := snprintf 64 (quoted key)

/-- The number, or nothing for `null`. -/
def readValue (value : List Char) : Option Int :=
  let field := value.dropWhile (· = ' ')
  if "null".toList <+: field then none else some (atoi field)

/-- What is read behind the beginning of the section; nothing where the
default is returned. `section_end` and the field are both ends of the section,
and the one that is farther on is the shorter one. -/
def readSection (key sect : List Char) : Option Int :=
  match strstr (fieldKey key) sect with
  | none => none
  | some field =>
      -- `field > section_end`
      if ((strstr ['}'] sect).any fun section_end => field.length < section_end.length) then none
      else
        -- the colon may stand behind the section
        match strstr [':'] field with
        | none => none
        | some colon => readValue colon.tail

end Rocksteady

namespace Fugitoid

def daemonName : List Char := "fugitoidd".toList

/-- `char field[64]`. -/
def fieldKey (key : List Char) : List Char := snprintf 64 (quoted key ++ [':'])

def readValue (value : List Char) : Int := atoi (value.dropWhile fun c => c = ' ' ∨ c = '\t')

/-- What is read behind the beginning of the section; nothing where the default is returned. -/
def readSection (key sect : List Char) : Option Int :=
  (strstr (fieldKey key) sect).map fun field => readValue (field.drop (fieldKey key).length)

end Fugitoid

namespace Fugitoid

/-- The two daemons that search the document themselves. -/
inductive Daemon where
  | rocksteadyd
  | fugitoidd

namespace Daemon

def name : Daemon → List Char
  | rocksteadyd => Rocksteady.daemonName
  | fugitoidd => Fugitoid.daemonName

def fieldKey : Daemon → List Char → List Char
  | rocksteadyd => Rocksteady.fieldKey
  | fugitoidd => Fugitoid.fieldKey

def readSection : Daemon → List Char → List Char → Option Int
  | rocksteadyd => Rocksteady.readSection
  | fugitoidd => Fugitoid.readSection

end Daemon

/-! ## The document -/

/-- The section of another daemon: its name, and what stands between the braces. -/
structure Section where
  name : List Char
  body : List Char
  nul : '\x00' ∉ name ∧ '\x00' ∉ body

/-- `"krangd": {"interval": 30}`. -/
def sectionText (name body : List Char) : List Char :=
  quoted name ++ (": \x7b".toList ++ (body ++ ['}']))

/-- A document with the section of one daemon, and what stands in the
sections before and behind it. -/
structure Document where
  indent : List Char
  before : List Section
  own : List Char
  after : List Section
  blank : ∀ c ∈ indent, c = ' ' ∨ c = '\t' ∨ c = '\n'
  nul : '\x00' ∉ own

/-- What stands before the section. -/
def Document.front (doc : Document) : List Char :=
  '\x7b' :: (doc.before.flatMap (fun s => doc.indent ++ (sectionText s.name s.body ++ [','])) ++ doc.indent)

/-- What stands behind it. -/
def Document.back (doc : Document) : List Char :=
  doc.after.flatMap (fun s => ',' :: (doc.indent ++ sectionText s.name s.body)) ++ ['\n', '}']

def Document.text (d : Daemon) (doc : Document) : List Char :=
  doc.front ++ (sectionText d.name doc.own ++ doc.back)

/-! ## Reading the own section -/

namespace Daemon

/-- Where the search from the section's name on arrives: the text behind the
colon. -/
def valueAt (key sect : List Char) : Daemon → Option (List Char)
  | rocksteadyd =>
      (strstr (Rocksteady.fieldKey key) sect).bind fun field =>
        if ((strstr ['}'] sect).any fun section_end => field.length < section_end.length) then none
        else (strstr [':'] field).map List.tail
  | fugitoidd => (strstr (Fugitoid.fieldKey key) sect).map (List.drop (Fugitoid.fieldKey key).length)

/-- The value is `null`, which rocksteadyd takes for a missing one. -/
def IsNull (value : List Char) : Daemon → Prop
  | rocksteadyd => "null".toList <+: value.dropWhile (· = ' ')
  | fugitoidd => False

/-- The number that is read there. -/
def number (value : List Char) : Daemon → Option Int
  | rocksteadyd => Rocksteady.readValue value
  | fugitoidd => some (readValue value)

/-- The bytes of the value that are looked at: the blanks and the number, or
`null`. -/
def valueLength (value : List Char) : Daemon → Nat
  | rocksteadyd =>
      if "null".toList <+: value.dropWhile (· = ' ') then (value.takeWhile (· = ' ')).length + 4 else atoiLength value
  | fugitoidd => atoiLength value

/-- The key of the section and its value end in the first `room` bytes of it. -/
def Ends (d : Daemon) (key sect : List Char) (room : Nat) : Prop :=
  ∃ field value, strstr (d.fieldKey key) sect = some field ∧ d.valueAt key sect = some value ∧
    sect.length + (d.fieldKey key).length ≤ room + field.length ∧
    sect.length + d.valueLength value ≤ room + value.length

end Daemon

section Own

variable {key sect t u rest : List Char}

end Own

/-! ## Finding the own section -/

/-- No earlier section holds the quoted name of the daemon. -/
def Document.First (d : Daemon) (doc : Document) : Prop := ¬ quoted d.name <:+: doc.front

/-- The section is in the buffer. -/
def Document.Whole (d : Daemon) (doc : Document) : Prop :=
  doc.front.length + (sectionText d.name doc.own).length ≤ 4095

/-- What is read of the document; nothing where the default is returned. -/
def Document.reading (d : Daemon) (key : List Char) (doc : Document) : Option Int :=
  (strstr (quoted d.name) (configBuf (doc.text d))).bind (d.readSection key)

/-- The setting is found in the own section: no earlier section holds the name,
and the key and its value end in the buffer. Or the section has no number for
the key, and none is found in its place. -/
inductive Clean (d : Daemon) (key : List Char) (doc : Document) : Prop
  | own (first : doc.First d) (named : doc.front.length + (quoted d.name).length ≤ 4095)
      (ends : d.Ends key (sectionText d.name doc.own) (4095 - doc.front.length))
  | none (lacks : ∀ value, d.valueAt key (sectionText d.name doc.own) = some value → d.IsNull value)
      (nothing : ∀ sect value, strstr (quoted d.name) (configBuf (doc.text d)) = some sect →
        d.valueAt key sect = some value → d.IsNull value)

section Find

variable {d : Daemon} {doc : Document} {key : List Char}

end Find

/-! ## A name used as a value -/

/-- A key that fits, and needs no escape. -/
def PlainKey (key : List Char) : Prop := key.length ≤ 60 ∧ ∀ c ∈ key, c ∉ "\":\\\x7b\x7d\x00".toList

section Forged

variable {d : Daemon} {key f y t rest : List Char} {n : Int}

theorem PlainKey.free (hkey : PlainKey key) {c : Char} (hc : c ∈ "\":\\\x7b\x7d\x00".toList) : c ∉ key :=
  fun hmem => hkey.2 c hmem hc

/-- What stands in front of the body of an earlier section. -/
def aprilStart : List Char := "\x7b\n\"april\": \x7b".toList

section April

variable {body own : List Char} (hbody : '\x00' ∉ body) (hown : '\x00' ∉ own)

/-- The name is not found in front of the body. -/
theorem strstr_aprilStart (b : List Char) :
    strstr (quoted d.name) (aprilStart ++ b) = strstr (quoted d.name) b := by
  cases d with
  | rocksteadyd => exact strstr_append_of_pair (c := '"') (d := 'r') (by decide) (by decide) (by decide)
  | fugitoidd => exact strstr_append_of_pair (c := '"') (d := 'f') (by decide) (by decide) (by decide)

end April

def note : List Char := "\"note\": ".toList

theorem strstr_blanks (k : Nat) (b : List Char) :
    strstr (quoted d.name) (List.replicate k ' ' ++ b) = strstr (quoted d.name) b :=
  strstr_append_of_head (d := '"') rfl fun h => absurd (List.eq_of_mem_replicate h) (by decide)

/-- With enough blanks in front, the name is not in the buffer. -/
theorem strstr_behind {k m : Nat} (hk : m ≤ aprilStart.length + k) (hm : aprilStart.length ≤ m) :
    strstr (quoted d.name) (((aprilStart ++ List.replicate k ' ') ++ '}' :: rest).take m) = none := by
  have hnone := strstr_blanks (d := d) (m - aprilStart.length) []
  rw [List.append_nil] at hnone
  rw [List.append_assoc, List.take_append, List.take_of_length_le hm, strstr_aprilStart,
    List.take_append_of_le_length (by rw [List.length_replicate]; omega), List.take_replicate,
    Nat.min_eq_left (by omega), hnone]
  rfl

end Forged

/-! ## Two documents -/

section Main

variable {d : Daemon} {key : List Char} {doc₁ doc₂ : Document}

end Main

/-! ## A section and its siblings -/

end Fugitoid

end MiuiserPeruser
