import MiuiserPeruser.Don.Integrity
import MiuiserPeruser.Lib.History

/-!
# don — reads that fail

The hash of a file comes out of a pipeline whose last part, `sha256sum`,
always prints one. So the code notices a failed read if there is no file or no
shell, and takes the hash of what was printed so far if `cat` fails. In a run
with scans and restarts the changes are the right ones exactly if no such hash
differs from that of the latest read (`survives_failures_iff`).
-/

namespace MiuiserPeruser.Don

open CText History Machine

/-- What `sha256sum` prints of an input, without the name behind it. -/
structure Digest where
  text : List Char
  hex : ∀ c ∈ text, c ∈ "0123456789abcdef".toList
  length_eq : text.length = 64

@[ext] theorem Digest.ext {x y : Digest} (h : x.text = y.text) : x = y := by
  cases x
  cases y
  cases h
  rfl

/-- A read of a critical file: `test -f` does not find it, the shell gives no
hash, `cat` fails after a part of the content, or the content is read. -/
inductive Reading where
  | absent (answer : Option (List Char)) (no : ∀ t, answer = some t → strstr "yes".toList t = none)
  | silent (result : Option (List Char)) (short : ∀ t, result = some t → t.length < 64)
  | broken (printed : List UInt8)
  | content (bytes : List UInt8)

/-- What a successful read gives. -/
def Reading.bytes : Reading → Option (List UInt8)
  | .content bytes => some bytes
  | _ => none

section Runs

variable (sha256 : List UInt8 → Digest)

/-- What the pipeline prints for an input. -/
def sha256sum (input : List UInt8) : Option (List Char) := some ((sha256 input).text ++ "  -\n".toList)

/-- What the shell answers for a file. -/
def Reading.answers (stat : Option (List Char)) : Reading → Answers
  | .absent answer _ => ⟨answer, sha256sum sha256 [], stat⟩
  | .silent result _ => ⟨some "yes\n".toList, result, stat⟩
  | .broken printed => ⟨some "yes\n".toList, sha256sum sha256 printed, stat⟩
  | .content bytes => ⟨some "yes\n".toList, sha256sum sha256 bytes, stat⟩

/-- A scan, with the read of every file and what `stat` says of it, or a new
process. -/
inductive Step where
  | scan (world : List Char → Reading) (stat : List Char → Option (List Char))
  | restart

def step (sys : System) : Step → System × List LogLine
  | .scan world stat => donIntegrityCheck (fun path => (world path).answers sha256 (stat path)) sys
  | .restart => (⟨[], false, sys.file⟩, [])

/-- The process and the file after some steps. -/
def stateAfter (steps : List Step) : System := (run (step sha256) .initial steps).1

/-- The latest successful read of a path. -/
def lastRead (path : List Char) : List Step → Option (List UInt8)
  | [] => none
  | .scan world _ :: steps => (lastRead path steps).or (world path).bytes
  | .restart :: steps => lastRead path steps

/-- In a scan a change is logged exactly if a read succeeds and its hash is
not that of the latest successful read before it, and a read that fails leaves
the hash on record as it is. -/
def RightStep (before : List Step) : Step → Prop
  | .scan world stat => ∀ path ∈ criticalPaths,
      (changedLog path ∈ (step sha256 (stateAfter sha256 before) (.scan world stat)).2 ↔
        ∃ bytes latest, (world path).bytes = some bytes ∧ lastRead path before = some latest ∧
          sha256 latest ≠ sha256 bytes) ∧
      ((world path).bytes = none →
        hashOf (stateAfter sha256 (before ++ [.scan world stat])).records path =
          hashOf (stateAfter sha256 before).records path)
  | .restart => True

/-- Every scan of the run is like that. -/
def SurvivesFailures (steps : List Step) : Prop := Always (RightStep sha256) steps

/-- Where `cat` fails, what it printed has the hash of the latest successful read. -/
def HarmlessStep (before : List Step) : Step → Prop
  | .scan world _ => ∀ path ∈ criticalPaths, ∀ printed, world path = .broken printed →
      ∃ latest, lastRead path before = some latest ∧ sha256 latest = sha256 printed
  | .restart => True

def FailuresHarmless (steps : List Step) : Prop := Always (HarmlessStep sha256) steps

end Runs

section Reads

variable {sha256 : List UInt8 → Digest} {sys : System}

theorem Digest.isHash (d : Digest) : IsHash d.text := by
  have hword : ∀ c ∈ "0123456789abcdef".toList, isspace c = false ∧ c ≠ '\x00' :=
    forall_mem_of_all (by decide)
  exact ⟨fun c hc => hword c (d.hex c hc), d.length_eq⟩

/-- The hash the code takes from a read. -/
def Reading.taken (sha256 : List UInt8 → Digest) : Reading → Option (List Char)
  | .absent _ _ => none
  | .silent _ _ => none
  | .broken printed => some (sha256 printed).text
  | .content bytes => some (sha256 bytes).text

theorem computeSha256ViaRish_sha256sum (input : List UInt8) :
    computeSha256ViaRish (sha256sum sha256 input) = some (sha256 input).text := by
  have hlen := (sha256 input).length_eq
  have hlong : ¬ ((sha256 input).text ++ "  -\n".toList).length < 64 := by
    rw [List.length_append, hlen]
    omega
  show (if _ then none else _) = _
  rw [if_neg hlong, List.take_left' hlen]

/-- The hash of a file that is there. -/
theorem hash_yes (sha stat : Option (List Char)) :
    Answers.hash ⟨some "yes\n".toList, sha, stat⟩ = computeSha256ViaRish sha := by
  have hyes : strstr "yes".toList "yes\n".toList ≠ none := by decide
  simp only [Answers.hash, if_neg hyes]

theorem hash_answers (r : Reading) (stat : Option (List Char)) :
    (r.answers sha256 stat).hash = r.taken sha256 := by
  cases r with
  | absent answer no =>
      cases answer with
      | none => rfl
      | some t => exact if_pos (no t rfl)
  | silent result short =>
      rw [Reading.answers, hash_yes]
      cases result with
      | none => rfl
      | some t => exact if_pos (short t rfl)
  | broken printed =>
      rw [Reading.answers, hash_yes, computeSha256ViaRish_sha256sum]
      rfl
  | content bytes =>
      rw [Reading.answers, hash_yes, computeSha256ViaRish_sha256sum]
      rfl

theorem isHash_answers {r : Reading} {stat : Option (List Char)} {h : List Char}
    (hash : (r.answers sha256 stat).hash = some h) : IsHash h := by
  rw [hash_answers] at hash
  cases r with
  | absent answer no => cases hash
  | silent result short => cases hash
  | broken printed => exact Option.some.inj hash ▸ (sha256 printed).isHash
  | content bytes => exact Option.some.inj hash ▸ (sha256 bytes).isHash

/-! ## One step -/

/-- The file holds the records. -/
structure Consistent (sys : System) : Prop where
  sound : Sound sys.records
  stored : (sys.file = none ∧ sys.records = []) ∨ sys.file = some (saveCache sys.records)

theorem sound_nil : Sound [] :=
  ⟨List.nodup_nil, fun _ h => absurd h List.not_mem_nil, fun _ h => absurd h List.not_mem_nil⟩

theorem consistent_initial : Consistent .initial := ⟨sound_nil, Or.inl ⟨rfl, rfl⟩⟩

/-- **A new process goes on with the records of the old one.** -/
theorem records_restart (h : Consistent sys) : (step sha256 sys .restart).1.records = sys.records := by
  show loadCache sys.file [] = sys.records
  rcases h.stored with ⟨hfile, hrecords⟩ | hfile
  · rw [hfile, hrecords]
    rfl
  · rw [hfile, loadCache_saveCache h.sound]

section Scan

variable {world : List Char → Reading} {stat : List Char → Option (List Char)}

theorem step_scan (sys : System) : step sha256 sys (.scan world stat) =
    donIntegrityCheck (fun path => (world path).answers sha256 (stat path)) sys := rfl

theorem records_loaded (cache : List FileRecord) (file : Option (List Char)) :
    System.records ⟨cache, true, file⟩ = cache := if_pos rfl

theorem records_donIntegrityCheck (answers : List Char → Answers) (sys : System) :
    (donIntegrityCheck answers sys).1.records = (checkPaths answers criticalPaths sys.records).1 :=
  records_loaded _ _

/-- **What a scan does** to records and log. -/
theorem scan_spec (world : List Char → Reading) (stat : List Char → Option (List Char))
    (h : Consistent sys) :
    Consistent (step sha256 sys (.scan world stat)).1 ∧
      ∀ path ∈ criticalPaths,
        hashOf (step sha256 sys (.scan world stat)).1.records path =
          ((world path).taken sha256).or (hashOf sys.records path) ∧
        (changedLog path ∈ (step sha256 sys (.scan world stat)).2 ↔
          ∃ old h, hashOf sys.records path = some old ∧ (world path).taken sha256 = some h ∧ old ≠ h) := by
  obtain ⟨hsound, hrecords, hlog⟩ :=
    checkPaths_spec (fun path => (world path).answers sha256 (stat path)) criticalPaths_nodup
      (fun _ hpath => hpath) (fun _ _ hash => isHash_answers hash) h.sound
  rw [step_scan]
  refine ⟨⟨?_, Or.inr ?_⟩, fun path hpath => ⟨?_, ?_⟩⟩
  · rw [records_donIntegrityCheck]
    exact hsound
  · rw [records_donIntegrityCheck, donIntegrityCheck]
  · rw [records_donIntegrityCheck, hrecords, if_pos hpath, hash_answers]
  · rw [donIntegrityCheck, hlog, hash_answers]
    exact and_iff_right hpath

end Scan

theorem Consistent.step (h : Consistent sys) (s : Step) : Consistent (step sha256 sys s).1 := by
  cases s with
  | scan world stat => exact (scan_spec world stat h).1
  | restart =>
      have hrecords : (Don.step sha256 sys .restart).1.records = sys.records := records_restart h
      refine ⟨hrecords ▸ h.sound, ?_⟩
      rw [hrecords]
      exact h.stored

theorem consistent_stateAfter (sha256 : List UInt8 → Digest) (steps : List Step) :
    Consistent (stateAfter sha256 steps) :=
  run_invariant (P := fun sys _ => Consistent sys) consistent_initial (fun _ _ s h => h.step s) steps

/-! ## Runs -/

variable {steps : List Step} {path : List Char}

theorem stateAfter_concat (steps : List Step) (s : Step) :
    stateAfter sha256 (steps ++ [s]) = (step sha256 (stateAfter sha256 steps) s).1 :=
  run_concat System.initial steps s

theorem lastRead_concat_scan (world : List Char → Reading) (stat : List Char → Option (List Char)) :
    lastRead path (steps ++ [.scan world stat]) = (world path).bytes.or (lastRead path steps) := by
  induction steps with
  | nil => simp [lastRead]
  | cons s steps ih =>
      cases s with
      | scan w t => rw [List.cons_append, lastRead, ih, lastRead, Option.or_assoc]
      | restart => rw [List.cons_append, lastRead, ih, lastRead]

theorem lastRead_concat_restart : lastRead path (steps ++ [.restart]) = lastRead path steps := by
  induction steps with
  | nil => rfl
  | cons s steps ih =>
      cases s with
      | scan w t => rw [List.cons_append, lastRead, ih, lastRead]
      | restart => rw [List.cons_append, lastRead, ih, lastRead]

/-- The records of a run hold the hashes of the latest successful reads. -/
def Tracked (sha256 : List UInt8 → Digest) (steps : List Step) : Prop :=
  ∀ path ∈ criticalPaths, hashOf (stateAfter sha256 steps).records path =
    (lastRead path steps).map fun bytes => (sha256 bytes).text

/-- **The records follow the reads** from one step to the next if no failure
does harm. -/
theorem Tracked.concat (h : Tracked sha256 steps) {s : Step} (hs : HarmlessStep sha256 steps s) :
    Tracked sha256 (steps ++ [s]) := by
  intro path hpath
  have hconsistent := consistent_stateAfter sha256 steps
  rw [stateAfter_concat]
  cases s with
  | restart => rw [records_restart hconsistent, lastRead_concat_restart, h path hpath]
  | scan world stat =>
      rw [((scan_spec world stat hconsistent).2 path hpath).1, lastRead_concat_scan, h path hpath]
      cases hread : world path with
      | absent answer no => rfl
      | silent result short => rfl
      | content bytes => rfl
      | broken printed =>
          obtain ⟨latest, hlatest, hsame⟩ := hs path hpath printed hread
          rw [hlatest]
          show some (sha256 printed).text = some (sha256 latest).text
          rw [hsame]

/-- **A scan is right exactly if its failures do no harm**, as long as the
records are those of the reads. -/
theorem rightStep_iff (h : Tracked sha256 steps) (s : Step) :
    RightStep sha256 steps s ↔ HarmlessStep sha256 steps s := by
  cases s with
  | restart => exact Iff.rfl
  | scan world stat =>
      refine forall₂_congr fun path hpath => ?_
      obtain ⟨hrecord, hlog⟩ := (scan_spec world stat (consistent_stateAfter sha256 steps)).2 path hpath
      rw [hlog, stateAfter_concat, hrecord, h path hpath]
      cases hread : world path with
      | absent answer no => simp [Reading.taken, Reading.bytes]
      | silent result short => simp [Reading.taken, Reading.bytes]
      | content bytes =>
          cases hlast : lastRead path steps with
          | none => simp [Reading.taken, Reading.bytes]
          | some latest =>
              have hdigest : (sha256 latest).text ≠ (sha256 bytes).text ↔ sha256 latest ≠ sha256 bytes :=
                not_congr ⟨fun heq => Digest.ext heq, fun heq => heq ▸ rfl⟩
              simpa [Reading.taken, Reading.bytes] using hdigest
      | broken printed =>
          cases hlast : lastRead path steps with
          | none => simp [Reading.taken, Reading.bytes]
          | some latest =>
              have hdigest : (sha256 printed).text = (sha256 latest).text ↔ sha256 latest = sha256 printed :=
                ⟨fun heq => (Digest.ext heq).symm, fun heq => heq ▸ rfl⟩
              simp [Reading.taken, Reading.bytes, hdigest]
              exact fun heq => congrArg Digest.text heq

/-- The run is right exactly if no failure does harm, and then the records
are those of the reads. -/
theorem survives_and_tracked (steps : List Step) :
    (SurvivesFailures sha256 steps ↔ FailuresHarmless sha256 steps) ∧
      (FailuresHarmless sha256 steps → Tracked sha256 steps) := by
  induction steps using List.reverseRecOn with
  | nil => exact ⟨iff_of_true Always.nil Always.nil, fun _ path _ => rfl⟩
  | append_singleton steps s ih =>
      obtain ⟨hiff, htracked⟩ := ih
      constructor
      · constructor
        · intro h
          obtain ⟨hfront, hlast⟩ := always_concat_iff.mp h
          have hharmless := hiff.mp hfront
          exact hharmless.snoc ((rightStep_iff (htracked hharmless) s).mp hlast)
        · intro h
          obtain ⟨hfront, hlast⟩ := always_concat_iff.mp h
          exact (hiff.mpr hfront).snoc ((rightStep_iff (htracked hfront) s).mpr hlast)
      · intro h
        obtain ⟨hfront, hlast⟩ := always_concat_iff.mp h
        exact (htracked hfront).concat hlast

end Reads

/-- **Changes are the right ones exactly if every failed `cat` printed
something with the hash of the latest successful read.** -/
theorem survives_failures_iff (sha256 : List UInt8 → Digest) (steps : List Step) :
    SurvivesFailures sha256 steps ↔ FailuresHarmless sha256 steps :=
  (survives_and_tracked steps).1

theorem hex_of_all {text : List Char} (h : text.all (· ∈ "0123456789abcdef".toList) = true) :
    ∀ c ∈ text, c ∈ "0123456789abcdef".toList := by
  intro c hc
  exact of_decide_eq_true (List.all_eq_true.mp h c hc)

def digest (text : List Char) (hex : text.all (· ∈ "0123456789abcdef".toList) = true)
    (length_eq : text.length = 64) : Digest := ⟨text, hex_of_all hex, length_eq⟩

/-- SHA-256 of nothing, and of the text `1`. -/
def sha256Known (input : List UInt8) : Digest :=
  if input = [] then
    digest "e3b0c44298fc1c149afbf4c8996fb92427ae41e4649b934ca495991b7852b855".toList (by decide +kernel) (by decide +kernel)
  else
    digest "6b86b273ff34fce19d6b804eff5a3f5747ada4eaa22f1d49c01e52ddb7875b4b".toList (by decide +kernel) (by decide +kernel)

theorem no_answer (t : List Char) (h : none = some t) : strstr "yes".toList t = none := by cases h

/-- Only one file is there. -/
def onlyHosts (reading : Reading) (path : List Char) : Reading :=
  if path = "/system/etc/hosts".toList then reading else .absent none no_answer

/-- The file is read, and at the next scan `cat` fails. -/
def hostsRead : Step := .scan (onlyHosts (.content [49])) fun _ => none
def hostsBroken : Step := .scan (onlyHosts (.broken [])) fun _ => none

/-- The failure is logged as a change of the file. -/
theorem broken_cat_logged : ¬ SurvivesFailures sha256Known [hostsRead, hostsBroken] := by
  intro h
  have hfirst : HarmlessStep sha256Known [] hostsRead := by
    intro path _ printed hread
    rw [onlyHosts] at hread
    split at hread
    · cases hread
    · cases hread
  have hnil : Tracked sha256Known [] := fun _ _ => rfl
  have htracked : Tracked sha256Known [hostsRead] := hnil.concat hfirst
  have hright := h [hostsRead] hostsBroken [] rfl
  have hhosts : "/system/etc/hosts".toList ∈ criticalPaths :=
    List.mem_map.mpr ⟨"/system/etc/hosts", by simp [criticalNames], rfl⟩
  obtain ⟨latest, hlatest, hsame⟩ :=
    (rightStep_iff htracked hostsBroken).mp hright _ hhosts [] (if_pos rfl)
  have hread : lastRead "/system/etc/hosts".toList [hostsRead] = some [49] := by
    rw [hostsRead, lastRead, onlyHosts, if_pos rfl]
    rfl
  rw [hread] at hlatest
  obtain rfl := Option.some.inj hlatest
  have htext := congrArg Digest.text hsame
  revert htext
  decide +kernel

end MiuiserPeruser.Don
