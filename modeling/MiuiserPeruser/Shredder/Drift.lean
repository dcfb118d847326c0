import MiuiserPeruser.Lib.CInt
import MiuiserPeruser.Lib.Run
import MiuiserPeruser.Shredder.Probe
import MiuiserPeruser.Splinter.Copies

/-!
# shredderd — module drift (`shredderd.c`)

The baseline is a list of the modules that were loaded once. A poll counts
the modules that are loaded now and, if the count is off twice in a row,
reads their names and lists what is new and what is gone.

Count, check and baseline read the same list under different limits: the
count is of lines, the check reads 8192 bytes and 512 lines, the baseline
65536 bytes and 512 names of at least two characters.
-/

namespace MiuiserPeruser.Shredder

open CText Probe Splinter

/-- `MAX_MODULES` and `DRIFT_CONFIRM`. -/
def maxModules : Nat := 512
def driftConfirm : Int := 2

/-- `mod_baseline_t`. -/
structure ModBaseline where
  name : List Char
  hashSha256 : List Char
  size : Nat
  path : List Char
  firstSeen : Nat
  deriving DecidableEq

/-- The globals of drift detection; `baseline` is `baseline_mods` up to
`baseline_mod_count`. -/
structure DriftState where
  baseline : List ModBaseline
  established : Bool
  lastNmod : Int
  driftPolls : Int
  confirmedDrift : Bool
  deriving DecidableEq

def DriftState.initial : DriftState := ⟨[], false, 0, 0, false⟩

/-- The names `find_in_baseline` finds. -/
def DriftState.names (st : DriftState) : List (List Char) := st.baseline.map ModBaseline.name

/-- `rish_read`, on what `bexec` returned. -/
def rishRead (result : Option (List Char)) (bufsize : Nat) : List Char :=
  match result with
  | none => []
  | some text => ((cstr text).take (bufsize - 1)).rdropWhile isEol

/-! ## The baseline -/

/-- The tokens of up to `n` calls of `strtok(…, "\n")`. -/
def strtokTokens : Nat → List Char → List (List Char)
  | 0, _ => []
  | n + 1, s =>
      match strtok ['\n'] s with
      | (none, _) => []
      | (some line, rest) => line :: strtokTokens n rest

/-- The tokens of `strtok(…, "\n")`, each of which is at least a byte. -/
def strtokLines (s : List Char) : List (List Char) := strtokTokens s.length s

/-- The name `sscanf(line, "%63s", name)` reads, if it is long enough. -/
def baselineName (line : List Char) : Option (List Char) :=
  match scanf (percentS 63) line with
  | [.text name] => if 1 < name.length then some name else none
  | _ => none

/-- The entry of a name that is not measured yet. -/
def ModBaseline.unknown (name : List Char) (now : Nat) : ModBaseline :=
  { name, hashSha256 := "UNKNOWN".toList, size := 0, path := "UNKNOWN".toList, firstSeen := now }

/-- The loop of `establish_baseline`, at `count` entries. -/
def baselineLoop (now : List Char → Nat) : Nat → List (List Char) → List ModBaseline
  | _, [] => []
  | count, line :: lines =>
      if count < maxModules then
        match baselineName line with
        | some name => .unknown name (now name) :: baselineLoop now (count + 1) lines
        | none => baselineLoop now count lines
      else []

/-- `establish_baseline`, on what `bexec` returned for the module list. -/
def establishBaseline (st : DriftState) (result : Option (List Char)) (now : List Char → Nat) :
    DriftState :=
  let mods := rishRead result 65536
  if mods = [] then { st with baseline := [] }
  else { st with baseline := baselineLoop now 0 (strtokLines mods), established := true }

/-! ## A poll -/

/-- What `detect_drift` returns, and the two lists it fills. -/
structure Drift where
  delta : Int
  newJson : List Char
  removedJson : List Char
  deriving DecidableEq

def Drift.none : Drift := ⟨0, [], []⟩

/-- The names of one list that are not in another. -/
def notIn (names others : List (List Char)) : List (List Char) :=
  names.filter fun name => !others.contains name

/-- `removed_mods`: the modules of the baseline that are not there. -/
def removedMods (baseline current : List (List Char)) (now : List Char → Nat) : List Char :=
  driftJson "removed_at" 4096 ((notIn baseline current).map fun name => (name, now name))

/-- `detect_drift`. `drift_polls` takes two thousand years to overflow. -/
def detectDrift (st : DriftState) (currentNmod : Int) (result : Option (List Char))
    (now : List Char → Nat) : Drift × DriftState :=
  let delta := currentNmod - st.baseline.length
  if delta = 0 then (.none, { st with driftPolls := 0, confirmedDrift := false })
  else
    let st := { st with
      driftPolls := if delta = st.lastNmod - st.baseline.length then st.driftPolls + 1 else 1
      lastNmod := currentNmod }
    if st.driftPolls < driftConfirm then (.none, st)
    else
      let st := { st with confirmedDrift := true }
      let mods := rishRead result 8192
      if mods = [] then (.none, st)
      else
        (⟨delta, newMods st.names mods now, removedMods st.names (currentNames mods) now⟩, st)

/-- What a poll reads of the modules: the probe, what `bexec` returns for
the list of names if it is asked for it, and the time of each entry, which
is a `time_t`. -/
structure Poll where
  probe : ProbeState
  mods : Option (List Char)
  now : List Char → Nat
  now_lt : ∀ name, now name < 2 ^ 63

/-- `nmod` of `poll_integrity`. -/
def Poll.nmod (p : Poll) : Int :=
  let modcount := (probeCopy p.probe "MODCOUNT".toList 32).1
  if modcount.length > 0 then atoi modcount else 0

/-- The part of `poll_integrity` that looks for drift; a poll that cannot
read the count is given up. -/
def pollDrift (st : DriftState) (p : Poll) : Drift × DriftState :=
  if p.nmod ≤ 0 then (.none, st)
  else if st.established then detectDrift st p.nmod p.mods p.now
  else (.none, st)

/-- A poll of the running daemon. -/
def pollStep (st : DriftState) (p : Poll) : DriftState × List Drift :=
  ((pollDrift st p).2, [(pollDrift st p).1])

/-! ## What the loops read -/

theorem baselineName_word {line : List Char} (hne : line ≠ [])
    (hword : ∀ c ∈ line, isspace c = false) :
    baselineName line = if 1 < (line.take 63).length then some (line.take 63) else none := by
  have hdrop : line.dropWhile isspace = line := by
    obtain ⟨c, w, rfl⟩ := List.exists_cons_of_ne_nil hne
    exact List.dropWhile_cons_of_neg (by simp [hword c List.mem_cons_self])
  have htake : line.takeWhile (fun c => !isspace c) = line :=
    List.takeWhile_eq_self_iff.mpr fun c hc => by simp [hword c hc]
  have hscan : scanf (percentS 63) line = [.text (line.take 63)] := by
    show scanf [.chars 63 fun c => !isspace c] (line.dropWhile isspace) = _
    rw [hdrop]
    show (if (line.takeWhile fun c => !isspace c).take 63 = [] then _ else _) = _
    rw [htake, if_neg (by simpa using hne)]
    rfl
  unfold baselineName
  rw [hscan]

/-- The loop goes on for as long as there is room. -/
theorem names_baselineLoop (now : List Char → Nat) {lines : List (List Char)}
    (hlines : ∀ line ∈ lines, line ≠ [] ∧ ∀ c ∈ line, isspace c = false) (count : Nat) :
    (baselineLoop now count lines).map ModBaseline.name =
      ((lines.map (List.take 63)).filter fun name => 1 < name.length).take (maxModules - count) := by
  induction lines generalizing count with
  | nil => simp [baselineLoop]
  | cons line lines ih =>
      have hrest := fun count => ih (fun l hl => hlines l (List.mem_cons_of_mem _ hl)) count
      obtain ⟨hne, hword⟩ := hlines line List.mem_cons_self
      rw [baselineLoop, baselineName_word hne hword, List.map_cons]
      split
      · rename_i hroom
        by_cases hlong : 1 < (line.take 63).length
        · rw [if_pos hlong, List.filter_cons_of_pos (by simpa using hlong)]
          obtain ⟨k, hk⟩ : ∃ k, maxModules - count = k + 1 := ⟨maxModules - count - 1, by omega⟩
          rw [hk, List.take_succ_cons, List.map_cons, hrest]
          congr 2
          omega
        · rw [if_neg hlong, List.filter_cons_of_neg (by simpa using hlong)]
          exact hrest count
      · rename_i hfull
        rw [show maxModules - count = 0 by omega, List.take_zero]
        rfl

theorem moduleNames_eq (room : Nat) (mods : List Char) :
    moduleNames room mods = (strtokTokens room mods).map (List.take 63) := by
  induction room generalizing mods with
  | zero => rfl
  | succ room ih =>
      rw [moduleNames, strtokTokens]
      cases hnext : strtok ['\n'] mods with
      | mk line rest =>
          cases line with
          | none => rfl
          | some line => exact congrArg (line.take 63 :: ·) (ih rest)

theorem strtokTokens_take {n m : Nat} (h : n ≤ m) (s : List Char) :
    strtokTokens n s = (strtokTokens m s).take n := by
  induction n generalizing m s with
  | zero => rfl
  | succ n ih =>
      obtain ⟨m, rfl⟩ : ∃ k, m = k + 1 := ⟨m - 1, by omega⟩
      rw [strtokTokens, strtokTokens]
      cases hnext : strtok ['\n'] s with
      | mk line rest =>
          cases line with
          | none => rfl
          | some line => exact congrArg (line :: ·) (ih (Nat.le_of_succ_le_succ h) rest)

end MiuiserPeruser.Shredder
