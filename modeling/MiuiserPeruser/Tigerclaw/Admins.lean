import MiuiserPeruser.Lib.LineTokens
import MiuiserPeruser.Lib.Placed
import MiuiserPeruser.Tigerclaw.Baseline
import MiuiserPeruser.Tigerclaw.Probe

/-!
# tigerclawd — the device admins (`tigerclawd.c`)

`probe_admins` reads the dump of the device policy in one pass: a header sets
the section it is in, and what a line means depends on it. The owners are told
before the admins are listed, and an admin is compared with the owners known
by then. The section of a line is that of the last header before it, and the
admins found are the first 32 entries of the admin lists (`admins_exact`).
-/

namespace MiuiserPeruser.Tigerclaw

open CText Placed

def pkgNameMax : Nat := 128
def maxProfileOwners : Nat := 8

/-! ## probe_admins -/

/-- The states of the reader, but for `ST_NONE`. -/
inductive Place where
  | deviceOwner
  | profileOwner
  | adminList
  deriving DecidableEq

/-- `strstr(line, word)`, as a condition. -/
def holds (word : String) (line : List Char) : Bool := (strstr word.toList line).isSome

/-- `line[i]`, the NUL behind the line included. -/
def byteAt (line : List Char) (i : Nat) : Char := line.getD i '\x00'

/-- The section a header begins. -/
def headerOf (line : List Char) : Option Place :=
  if holds "Device Owner:" line then some .deviceOwner
  else if holds "Profile Owner" line then some .profileOwner
  else if holds "Enabled Device Admins" line then some .adminList
  else none

/-- The lines that end the section of an owner. -/
def endsOwner (line : List Char) : Bool :=
  holds ":" line && byteAt line 0 = ' ' && byteAt line 1 = ' ' && byteAt line 2 ≠ ' ' &&
    !holds "package=" line && !holds "admin=" line

/-- The package a line names. -/
def packageOf (line : List Char) : Option (List Char) :=
  (strstr "package=".toList line).map fun p =>
    ((p.drop 8).takeWhile (· ∉ [' ', '\n', '\r'])).take (pkgNameMax - 1)

/-- An admin, from its line and the owners. -/
def adminOf (deviceOwnerPkg : List Char) (profileOwnerPkgs : List (List Char)) (line : List Char) :
    Option AdminEntry :=
  let slash := line.dropWhile (· ≠ '/')
  if byteAt line 0 = ' ' ∧ byteAt line 1 = ' ' ∧ byteAt line 2 = ' ' ∧ byteAt line 3 = ' ' ∧
      byteAt line 4 ≠ ' ' ∧ slash ≠ [] ∧ ':' ∈ slash ∧ !holds "count=" line then
    let package := ((line.drop 4).takeWhile (· ≠ '/')).take (pkgNameMax - 1)
    some {
      package := package
      adminClass := ((slash.drop 1).takeWhile (· ∉ [' ', '\n', '\r', ':'])).take (pkgNameMax - 1)
      isProfileOwner := profileOwnerPkgs.any (· = package)
      isDeviceOwner := deviceOwnerPkg ≠ [] && package = deviceOwnerPkg
      isNew := true }
  else none

/-- The owners and the admins so far. -/
structure Policy where
  deviceOwnerPkg : List Char
  profileOwnerPkgs : List (List Char)
  admins : List AdminEntry

def Policy.empty : Policy := ⟨[], [], []⟩

/-- What a line says in its section. -/
def policyLine (place : Place) (s : Policy) (line : List Char) : Policy :=
  match place with
  | .deviceOwner =>
      match packageOf line with
      | some p => { s with deviceOwnerPkg := p }
      | none => s
  | .profileOwner =>
      match packageOf line with
      | some p => { s with profileOwnerPkgs := push maxProfileOwners s.profileOwnerPkgs p }
      | none => s
  | .adminList =>
      if s.admins.length < maxAdmins then
        match adminOf s.deviceOwnerPkg s.profileOwnerPkgs line with
        | some a => { s with admins := s.admins ++ [a] }
        | none => s
      else s

/-- A pass of the loop. -/
def scanLine (st : Option Place × Policy) (line : List Char) : Option Place × Policy :=
  match headerOf line with
  | some place => (some place, st.2)
  | none =>
      let state :=
        if (st.1 = some .deviceOwner ∨ st.1 = some .profileOwner) ∧ endsOwner line then none else st.1
      match state with
      | some place => (state, policyLine place st.2 line)
      | none => (state, st.2)

/-- The loop. -/
def scanPolicy (text : List Char) : Policy := ((lineTokens text).foldl scanLine (none, .empty)).2

/-- The admins in the dump of the device policy. -/
def scanAdmins (raw : Option (List Char)) : List AdminEntry := raw.elim [] fun text => (scanPolicy text).admins

/-! ## The sections of a dump -/

/-- What a section is left with. -/
def leaves (place : Place) (line : List Char) : Bool := place ≠ .adminList && endsOwner line

/-- The lines of the sections. -/
def policyLines (lines : List (List Char)) : List (Place × List Char) := placed headerOf leaves lines

/-- The packages named in the sections of one kind. -/
def packagesIn (place : Place) (ls : List (Place × List Char)) : List (List Char) :=
  (ls.filter (·.1 = place)).filterMap fun l => packageOf l.2

/-- The entry a line makes, behind others. -/
def entryAfter (earlier : List (Place × List Char)) (l : Place × List Char) : Option AdminEntry :=
  if l.1 = .adminList then
    adminOf ((packagesIn .deviceOwner earlier).getLast?.getD [])
      ((packagesIn .profileOwner earlier).take maxProfileOwners) l.2
  else none

/-- The entries of the admin lists. -/
def entriesAfter (earlier : List (Place × List Char)) : List (Place × List Char) → List AdminEntry
  | [] => []
  | l :: ls => (entryAfter earlier l).toList ++ entriesAfter (earlier ++ [l]) ls

section Dump

variable {ls : List (Place × List Char)} {l : Place × List Char}

theorem scanLine_eq : scanLine = readStep headerOf leaves policyLine := by
  funext st line
  unfold scanLine readStep placeStep
  cases headerOf line with
  | some place => rfl
  | none =>
      rcases st with ⟨_ | place, s⟩
      · rfl
      · cases place <;> cases hends : endsOwner line <;> simp [leaves, hends, Option.filter]

theorem entriesAfter_concat (earlier ls : List (Place × List Char)) (l : Place × List Char) :
    entriesAfter earlier (ls ++ [l]) = entriesAfter earlier ls ++ (entryAfter (earlier ++ ls) l).toList := by
  induction ls generalizing earlier with
  | nil => simp [entriesAfter]
  | cons x ls ih =>
      rw [List.cons_append, entriesAfter, ih, entriesAfter, List.append_assoc, List.append_assoc,
        List.singleton_append]

theorem packagesIn_same {place : Place} {line : List Char} :
    packagesIn place (ls ++ [(place, line)]) = packagesIn place ls ++ (packageOf line).toList := by
  rw [packagesIn, List.filter_append, List.filter_cons_of_pos (by simp), List.filter_nil, filterMap_concat]
  rfl

theorem packagesIn_other {place : Place} (h : l.1 ≠ place) :
    packagesIn place (ls ++ [l]) = packagesIn place ls := by
  rw [packagesIn, List.filter_append, List.filter_cons_of_neg (by simp [h]), List.filter_nil,
    List.append_nil, packagesIn]

theorem entryAfter_owner (h : l.1 ≠ .adminList) : entryAfter ls l = none := if_neg h

/-- What the reader knows of the lines so far. -/
structure Knows (ls : List (Place × List Char)) (s : Policy) : Prop where
  device : s.deviceOwnerPkg = (packagesIn .deviceOwner ls).getLast?.getD []
  profiles : s.profileOwnerPkgs = (packagesIn .profileOwner ls).take maxProfileOwners
  admins : s.admins = (entriesAfter [] ls).take maxAdmins

/-- A line in the section of the device owner. -/
theorem Knows.deviceLine {s : Policy} (h : Knows ls s) (line : List Char) :
    Knows (ls ++ [(.deviceOwner, line)]) (policyLine .deviceOwner s line) := by
  have hadmins : entriesAfter [] (ls ++ [(.deviceOwner, line)]) = entriesAfter [] ls := by
    rw [entriesAfter_concat, entryAfter_owner (by simp), Option.toList_none, List.append_nil]
  unfold policyLine
  cases hp : packageOf line with
  | none =>
      constructor
      · rw [packagesIn_same, hp, Option.toList_none, List.append_nil, h.device]
      · rw [packagesIn_other (by simp), h.profiles]
      · rw [hadmins, h.admins]
  | some p =>
      constructor
      · rw [packagesIn_same, hp, Option.toList_some, List.getLast?_concat]
        rfl
      · rw [packagesIn_other (by simp), ← h.profiles]
      · rw [hadmins, ← h.admins]

/-- A line in the section of a profile owner. -/
theorem Knows.profileLine {s : Policy} (h : Knows ls s) (line : List Char) :
    Knows (ls ++ [(.profileOwner, line)]) (policyLine .profileOwner s line) := by
  have hadmins : entriesAfter [] (ls ++ [(.profileOwner, line)]) = entriesAfter [] ls := by
    rw [entriesAfter_concat, entryAfter_owner (by simp), Option.toList_none, List.append_nil]
  unfold policyLine
  cases hp : packageOf line with
  | none =>
      constructor
      · rw [packagesIn_other (by simp), h.device]
      · rw [packagesIn_same, hp, Option.toList_none, List.append_nil, h.profiles]
      · rw [hadmins, h.admins]
  | some p =>
      constructor
      · rw [packagesIn_other (by simp), ← h.device]
      · rw [packagesIn_same, hp, Option.toList_some, ← push_take, ← h.profiles]
      · rw [hadmins, ← h.admins]

/-- A line in an admin list: the owners stay as they are. -/
theorem Knows.adminLine {s : Policy} (h : Knows ls s) (line : List Char) :
    Knows (ls ++ [(.adminList, line)]) (policyLine .adminList s line) := by
  have hentry : entryAfter ([] ++ ls) (.adminList, line) =
      adminOf s.deviceOwnerPkg s.profileOwnerPkgs line := by
    rw [h.device, h.profiles]
    rfl
  have hline : policyLine .adminList s line =
      { s with admins := (entriesAfter [] (ls ++ [(.adminList, line)])).take maxAdmins } := by
    rw [entriesAfter_concat, hentry, policyLine]
    cases adminOf s.deviceOwnerPkg s.profileOwnerPkgs line with
    | none =>
        rw [Option.toList_none, List.append_nil, ← h.admins, ite_self]
    | some a =>
        rw [Option.toList_some, ← push_take, ← h.admins, push]
        split
        all_goals rfl
  rw [hline]
  constructor
  · rw [packagesIn_other (by simp), ← h.device]
  · rw [packagesIn_other (by simp), ← h.profiles]
  · rfl

theorem Knows.step {s : Policy} (h : Knows ls s) (l : Place × List Char) :
    Knows (ls ++ [l]) (policyLine l.1 s l.2) := by
  rcases l with ⟨place, line⟩
  cases place with
  | deviceOwner => exact h.deviceLine line
  | profileOwner => exact h.profileLine line
  | adminList => exact h.adminLine line

theorem knows_foldl (ls : List (Place × List Char)) :
    Knows ls (ls.foldl (fun s l => policyLine l.1 s l.2) .empty) := by
  induction ls using List.reverseRecOn with
  | nil => exact ⟨rfl, rfl, rfl⟩
  | append_singleton ls l ih =>
      rw [List.foldl_concat]
      exact ih.step l

theorem knows_scanPolicy (text : List Char) : Knows (policyLines (lineTokens text)) (scanPolicy text) := by
  rw [scanPolicy, scanLine_eq, foldl_readStep]
  exact knows_foldl _

theorem length_scanAdmins_le (raw : Option (List Char)) : (scanAdmins raw).length ≤ maxAdmins := by
  cases raw with
  | none => exact Nat.zero_le _
  | some text =>
      show (scanPolicy text).admins.length ≤ maxAdmins
      rw [(knows_scanPolicy text).admins]
      exact List.length_take_le _ _

end Dump

/-- `probe_admins`, on the section. -/
def probeAdmins (raw : Option (List Char)) (rpt : Report) : Report :=
  { rpt with
    admins := scanAdmins raw
    admins_fit := length_scanAdmins_le raw
    delta := { rpt.delta with adminDeltaNew := 0 } }

/-- **The admins of a dump** are the first entries of its admin lists, each with the owners
that are named before it. -/
theorem admins_exact (text : List Char) (rpt : Report) :
    (probeAdmins (some text) rpt).admins =
      (entriesAfter [] (policyLines (lineTokens text))).take maxAdmins :=
  (knows_scanPolicy text).admins

end MiuiserPeruser.Tigerclaw
