import MiuiserPeruser.Burned.Results

/-!
# burned — when the value of a property is a finding (`burned.c`)

burned's tables name properties and the values that count; the value `cur`
of a property is what `getprop` says. The signals a finding is sent to the
court with are left out here.
-/

namespace MiuiserPeruser.Burned

open CText

/-- `prop_is_true`. -/
def propIsTrue (v : List Char) : Bool := v = "1".toList || v.map Char.toLower = "true".toList

/-- `prop_is_false`. -/
def propIsFalse (v : List Char) : Bool := v = "0".toList || v.map Char.toLower = "false".toList

/-- What `getprop_val` gives for a property without value. -/
def unset : List Char := "(unset)".toList

/-- What it gives if `getprop` does not run. -/
def err : List Char := "(err)".toList

/-- `bprop_t`. -/
structure BProp where
  key : PropKey
  label : String
  invasiveIf1 : Int32

/-- `pprop_t`. -/
structure PProp where
  key : PropKey
  label : String
  /-- Any value fires if there is none. -/
  wanted : Option String
  negate : Bool

/-- `db_pprop_t`. -/
structure DbPProp where
  signal : List Char
  key : PropKey
  expect : List Char
  priority : Int32

/-- `pprop_fires`. -/
def ppropFires (p : PProp) (cur : List Char) : Bool :=
  if cur = err then false
  else match p.wanted with
    | none => if p.negate then cur = unset else cur ≠ unset
    | some wanted =>
        let contains := (strstr wanted.toList cur).isSome
        if p.negate then !contains else contains

/-- `db_pprop_fires`; a list is split at its commas. -/
def dbPpropFires (p : DbPProp) (cur : List Char) : Bool :=
  if p.key.name = "" ∨ p.expect = [] then false
  else if cur = unset ∨ cur = err ∨ cur = [] then false
  else if ',' ∉ p.expect then (strstr p.expect cur).isSome
  else ((p.expect.take 159).splitOn ',').any fun tok => tok ≠ [] && (strstr tok cur).isSome

/-! ## What is printed of a property -/

def BProp.entry (p : BProp) (cur : List Char) : PolicyEntry where
  key := p.key
  label := p.label.toList
  value := cur
  fired := (p.invasiveIf1 = 1 && propIsTrue cur) || (p.invasiveIf1 = -1 && propIsFalse cur)

def PProp.entry (p : PProp) (cur : List Char) : PolicyEntry where
  key := p.key
  label := p.label.toList
  value := cur
  fired := ppropFires p cur

def DbPProp.entry (p : DbPProp) (cur : List Char) : PartnerEntry where
  signal := p.signal
  key := p.key
  value := cur
  priority := p.priority
  fired := dbPpropFires p cur

end MiuiserPeruser.Burned
