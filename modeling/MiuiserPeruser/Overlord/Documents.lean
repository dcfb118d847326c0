import MiuiserPeruser.Lib.CInt
import MiuiserPeruser.Lib.Strstr

/-!
# overlordd — the documents it reads (`overlordd.c`)

The getters look for a key by the first occurrence of its text, so they
read the text of a document and no structure. The detectors use nothing of
a document but the getters, and are written for any type that has them:
`Text` is what `read_daemon` returns, and `Fields` is a document as a finite
map from keys to values, for statements that take away keys.
-/

namespace MiuiserPeruser.Overlord

open CText

/-- What the detectors use of a document. -/
class Document (D : Type) where
  getDouble : D → String → Option Number
  getBool : D → String → Option Bool
  getStr : D → String → Nat → Option (List Char)
  propFired : D → String → Option Bool

def intMax : ℚ := 2147483647
def intMin : ℚ := -2147483648

/-- `(int)d`. -/
def truncate (q : ℚ) : Int := q.num.tdiv q.den

/-- `json_get_int`. -/
def getInt {D : Type} [Document D] (json : D) (key : String) : Option Int :=
  match Document.getDouble json key with
  | some (.finite q) => if q > intMax ∨ q < intMin then none else some (truncate q)
  | _ => none

/-- An `int` is in range, and is not cut. -/
theorem getInt_of_isInt {D : Type} [Document D] {json : D} {key : String} {n : Int}
    (h : Document.getDouble json key = some (.finite n)) (hn : IsInt n) :
    getInt json key = some n := by
  have hmax : ¬ (n : ℚ) > intMax := by
    have : n ≤ 2147483647 := by have := hn.2; omega
    exact not_lt.mpr (by unfold intMax; exact_mod_cast this)
  have hmin : ¬ (n : ℚ) < intMin := by
    have : -2147483648 ≤ n := hn.1
    exact not_lt.mpr (by unfold intMin; exact_mod_cast this)
  have htrunc : truncate n = n := by simp [truncate]
  rw [getInt, h]
  simp only [hmax, hmin, or_self, if_false, htrunc]

/-! ## The text of a document -/

/-- What `read_daemon` returns. -/
structure Text where
  text : List Char
  deriving DecidableEq

/-- `read_daemon`; `file` is the document of that daemon, if there is one. -/
def readDaemon (file : Option (List Char)) : Option Text :=
  file.map fun content => ⟨cstr (content.take 65535)⟩

/-- The needle the getters search for. -/
def needle (key mark : String) : List Char :=
  snprintf 128 ("\"".toList ++ key.toList ++ mark.toList)

/-- What follows a key and the spaces behind it. -/
def valueOf (json : List Char) (key : String) : Option (List Char) :=
  (strstr (needle key "\":") json).map fun p =>
    (p.drop (needle key "\":").length).dropWhile (· = ' ')

/-- `strncmp` with the two words of a boolean. -/
def readBool (p : List Char) : Option Bool :=
  if "true".toList <+: p then some true
  else if "false".toList <+: p then some false
  else none

/-- `json_get_double`. -/
def jsonGetDouble (json : List Char) (key : String) : Option Number :=
  (valueOf json key).bind strtod

/-- `json_get_bool`. -/
def jsonGetBool (json : List Char) (key : String) : Option Bool :=
  (valueOf json key).bind readBool

/-- `json_get_str`; here no space may follow the colon. -/
def jsonGetStr (json : List Char) (key : String) (outlen : Nat) : Option (List Char) :=
  match strstr (needle key "\":\"") json with
  | none => none
  | some p =>
      let out := ((p.drop (needle key "\":\"").length).takeWhile (· ≠ '"')).take (outlen - 1)
      if out = [] then none else some out

/-- `burned_prop_fired`: the flag behind the property's key, if it stands in
front of the next closing brace. -/
def burnedPropFired (json : List Char) (propkey : String) : Option Bool :=
  match strstr (snprintf 128 ("\"key\":\"".toList ++ propkey.toList ++ "\"".toList)) json with
  | none => none
  | some p =>
      match strstr "\"fired\":".toList p with
      | none => none
      | some fired =>
          let objEnd := p.dropWhile (· ≠ '}')
          if objEnd ≠ [] ∧ fired.length < objEnd.length then none
          else readBool ((fired.drop "\"fired\":".toList.length).dropWhile (· = ' '))

instance : Document Text where
  getDouble json := jsonGetDouble json.text
  getBool json := jsonGetBool json.text
  getStr json := jsonGetStr json.text
  propFired json := burnedPropFired json.text

/-! ## A document as a finite map -/

/-- The values of a document. -/
inductive Field where
  | number (n : Number)
  | bool (b : Bool)
  | str (s : List Char)
  deriving DecidableEq

/-- A document as a finite map. burned's entries stand under their property. -/
structure Fields where
  fields : List (String × Field)
  deriving DecidableEq

/-- The value of a key. -/
def Fields.get (d : Fields) (key : String) : Option Field := d.fields.lookup key

def Field.double : Field → Option Number
  | .number n => some n
  | _ => none

def Field.boolean : Field → Option Bool
  | .bool b => some b
  | _ => none

/-- A text cut to the reader's buffer; an empty one counts as missing. -/
def Field.textOf (outlen : Nat) : Field → Option (List Char)
  | .str s => if s.take (outlen - 1) = [] then none else some (s.take (outlen - 1))
  | _ => none

instance : Document Fields where
  getDouble d key := (d.get key).bind Field.double
  getBool d key := (d.get key).bind Field.boolean
  getStr d key outlen := (d.get key).bind (Field.textOf outlen)
  propFired d key := (d.get key).bind Field.boolean

/-- The document without a set of keys. -/
def Fields.without (deleted : String → Bool) (d : Fields) : Fields :=
  ⟨d.fields.filter fun e => !deleted e.1⟩

theorem Fields.get_without (deleted : String → Bool) (d : Fields) (key : String) :
    (d.without deleted).get key = if deleted key then none else d.get key := by
  obtain ⟨fields⟩ := d
  show (fields.filter fun e => !deleted e.1).lookup key = if deleted key then none else fields.lookup key
  induction fields with
  | nil => simp
  | cons e fields ih =>
      obtain ⟨k, v⟩ := e
      by_cases hk : k = key
      · subst hk
        by_cases hdel : deleted k = true
        · simpa [List.filter_cons, hdel] using ih
        · simp [hdel]
      · have hne : (key == k) = false := beq_eq_false_iff_ne.mpr fun h => hk h.symm
        by_cases hdel : deleted k = true
        · simpa [List.filter_cons, hdel, List.lookup_cons, hne] using ih
        · simpa [List.filter_cons, hdel, List.lookup_cons, hne] using ih

end MiuiserPeruser.Overlord
