import MiuiserPeruser.Lib.CInt
import MiuiserPeruser.Lib.History
import MiuiserPeruser.Lib.Run

/-!
# granitord — attestation and persistence (`granitord.c`)

Of two partitions a poll compares the hash with that of the start. A hash
that could not be taken is the text `UNAVAILABLE` and is compared like any
other, so it counts as a change if only one of the two could be taken. And the
list of the attestation, which is not empty if the device has a trusted
environment, is taken for a failure (`attestation_right_iff`).
-/

namespace MiuiserPeruser.Granitor

open CText History Machine

/-! ## Hashes -/

/-- `rish_read`, on what `bexec` returned. -/
def rishRead (result : Option (List Char)) (bufsize : Nat) : List Char :=
  match result with
  | none => []
  | some text => ((cstr text).take (bufsize - 1)).rdropWhile fun c => c = '\n' || c = '\r'

def isHexDigit (c : Char) : Bool := ('0' ≤ c && c ≤ '9') || ('a' ≤ c && c ≤ 'f')

def unavailable : List Char := "UNAVAILABLE".toList

/-- `sha256_file`, on what `bexec` returned for `sha256sum`. -/
def sha256File (result : Option (List Char)) : List Char :=
  match result with
  | none => unavailable
  | some result =>
      let text := cstr result
      if text.length < 64 then unavailable
      else if (text.take 64).all isHexDigit then text.take 64
      else unavailable

/-- What is answered while the baseline is established: the devices, and
`sha256sum` of each. -/
structure BaselineProbe where
  bootDev : Option (List Char)
  bootSha : Option (List Char)
  vbmetaDev : Option (List Char)
  vbmetaSha : Option (List Char)

/-- `baseline_boot_hash` and `baseline_vbmeta_hash`. -/
structure Baseline where
  bootHash : List Char
  vbmetaHash : List Char

/-- The hash of a partition, if the answer is the path of a device. -/
def baselineHash (dev sha : Option (List Char)) : List Char :=
  let path := rishRead dev 512
  if path.length > 0 ∧ "/dev/block".toList <+: path then sha256File sha else []

/-- `establish_baseline`. -/
def establishBaseline (p : BaselineProbe) : Baseline :=
  { bootHash := baselineHash p.bootDev p.bootSha
    vbmetaHash := baselineHash p.vbmetaDev p.vbmetaSha }

/-! ## The lists of a poll -/

/-- An entry of a list, as it is printed. -/
structure Entry where
  type : String
  text : List Char

/-- What a poll is answered, and what `poll_security` found before the two
checks: the score, SELinux, root and the text of the drift. -/
structure Poll where
  vbmetaDev : Option (List Char)
  vbmetaSha : Option (List Char)
  tee : Option (List Char)
  initRc : Option (List Char)
  postfs : Option (List Char)
  bootDev : Option (List Char)
  bootSha : Option (List Char)
  score : Int
  enforcing : Bool
  rooted : Bool
  drift : List Char

/-- `sanitize_field`. -/
def sanitizeField (s : List Char) : List Char :=
  s.map fun c => if c = '"' ∨ c = '\\' ∨ c = '|' ∨ c.toNat < 0x20 then '_' else c

/-- `"type":"…","field":"…"` with the braces and the comma. -/
def fieldEntry (size : Nat) (type field : String) (value : List Char) : Entry :=
  ⟨type, snprintf size ("\x7b\"type\":\"".toList ++ type.toList ++ "\",\"".toList ++ field.toList ++
    "\":\"".toList ++ value ++ "\"\x7d,".toList)⟩

/-- The entry of a hash that is another one: 16 characters of each. -/
def hashEntry (type : String) (baseline current : List Char) : Entry :=
  ⟨type, snprintf 512 ("\x7b\"type\":\"".toList ++ type.toList ++ "\",\"baseline\":\"".toList ++
    baseline.take 16 ++ "...\",\"current\":\"".toList ++ current.take 16 ++ "...\"\x7d,".toList)⟩

/-- A partition against its baseline. -/
def compareHash (type : String) (dev sha : Option (List Char)) (bufsize : Nat) (baseline : List Char) :
    List Entry :=
  if (rishRead dev bufsize).length > 0 ∧ baseline ≠ [] then
    let current := sha256File sha
    if current ≠ baseline then [hashEntry type baseline current] else []
  else []

/-- `check_hardware_attestation`. -/
def checkHardwareAttestation (b : Baseline) (p : Poll) : List Entry :=
  let tee := rishRead p.tee 256
  compareHash "vbmeta_hash_mismatch" p.vbmetaDev p.vbmetaSha 256 b.vbmetaHash ++
    if tee.length > 0 then [fieldEntry 256 "tee_present" "path" (sanitizeField tee)] else []

/-- The files some command of `audit_persistence` lists. -/
def fileEntries (type : String) (result : Option (List Char)) : List Entry :=
  let files := rishRead result 512
  if files.length > 0 then [fieldEntry 256 type "files" ((sanitizeField files).take 100)] else []

/-- `audit_persistence`. -/
def auditPersistence (b : Baseline) (p : Poll) : List Entry :=
  fileEntries "init_rc_modified" p.initRc ++ fileEntries "postfs_hooks" p.postfs ++
    compareHash "boot_image_modified" p.bootDev p.bootSha 512 b.bootHash

/-- A list in its buffer, entry by entry with `strncat`. -/
def jsonText (size : Nat) (entries : List Entry) : List Char :=
  entries.foldl (fun json e => json ++ e.text.take (size - 1)) []

/-! ## correlate_threats -/

/-- `last_score`, `score_drops` and `confirmed_degradation`. -/
structure Degradation where
  lastScore : Int
  scoreDrops : Int
  confirmed : Bool

/-- What `correlate_threats` returns, and the text it prints. -/
structure Threat where
  confidence : Int
  threatJson : List Char

/-- The statics after a score. -/
def degrade (st : Degradation) (score : Int) : Degradation :=
  if score < st.lastScore then
    { lastScore := score
      scoreDrops := st.scoreDrops + 1
      confirmed := if st.scoreDrops + 1 ≥ 2 then true else st.confirmed }
  else { lastScore := score, scoreDrops := 0, confirmed := false }

/-- The correlation rules: confidence and description. -/
def correlationRule (confirmed enforcing rooted : Bool) (drift attest fsEvents persist : List Char) :
    Int × String :=
  if confirmed ∧ drift.length > 0 ∧ rooted then
    (95, "Confirmed degradation + parameter drift + root = active tampering")
  else if fsEvents.length > 0 ∧ enforcing = false then
    (90, "Filesystem integrity failure + SELinux permissive = exploit aftermath")
  else if persist.length > 0 ∧ rooted then
    (85, "Persistence mechanisms + root = maintained access")
  else if attest.length > 0 ∧ rooted = false then
    (80, "Hardware attestation failure without root = possible hardware attack")
  else if confirmed ∧ drift.length > 0 then
    (75, "Confirmed degradation with parameter drift = policy change or attack")
  else (0, "")

/-- `correlate_threats`. -/
def correlateThreats (st : Degradation) (score : Int) (enforcing rooted : Bool)
    (drift attest fsEvents persist : List Char) : Degradation × Threat :=
  let st := degrade st score
  let rule := correlationRule st.confirmed enforcing rooted drift attest fsEvents persist
  (st,
    { confidence := rule.1
      threatJson :=
        if rule.1 > 0 then
          snprintf 512 ("\x7b\"type\":\"correlated\",\"confidence\":".toList ++ formatD rule.1 ++
            ",\"score\":".toList ++ formatD score ++ ",\"description\":\"".toList ++ rule.2.toList ++
            "\",\"degradation_confirmed\":".toList ++
            (if st.confirmed then "true" else "false").toList ++ "\x7d".toList)
        else [] })

/-! ## Polls -/

/-- The statics of the daemon. -/
structure State where
  baseline : Baseline
  degradation : Degradation

/-- The lists of a poll, and what it takes them for. -/
structure Report where
  attest : List Entry
  persist : List Entry
  threat : Threat

/-- This part of `poll_security`. -/
def pollSecurity (st : State) (p : Poll) : State × Report :=
  let attest := checkHardwareAttestation st.baseline p
  let persist := auditPersistence st.baseline p
  let correlated := correlateThreats st.degradation p.score p.enforcing p.rooted p.drift
    (jsonText 4096 attest) [] (jsonText 4096 persist)
  ({ st with degradation := correlated.1 }, ⟨attest, persist, correlated.2⟩)

/-- The daemon after its start. -/
def start (probe : BaselineProbe) : State := ⟨establishBaseline probe, ⟨100, 0, false⟩⟩

/-- The daemon after some polls. -/
def stateAfter (probe : BaselineProbe) (polls : List Poll) : State :=
  (run (fun st p => ((pollSecurity st p).1, [(pollSecurity st p).2])) (start probe) polls).1

/-! ## The claim -/

/-- A hash that could be taken. -/
structure RealHash (h : List Char) : Prop where
  length : h.length = 64
  hex : h.all isHexDigit = true

/-- A change is an entry only of two real hashes that differ, and a failure of
the attestation only with such an entry, whether a trusted environment is
there or not. -/
structure RightPoll (st : State) (p : Poll) : Prop where
  vbmeta : ∀ e ∈ (pollSecurity st p).2.attest, e.type = "vbmeta_hash_mismatch" →
    RealHash st.baseline.vbmetaHash ∧ RealHash (sha256File p.vbmetaSha) ∧
      sha256File p.vbmetaSha ≠ st.baseline.vbmetaHash
  boot : ∀ e ∈ (pollSecurity st p).2.persist, e.type = "boot_image_modified" →
    RealHash st.baseline.bootHash ∧ RealHash (sha256File p.bootSha) ∧
      sha256File p.bootSha ≠ st.baseline.bootHash
  failure : (pollSecurity st p).2.threat.confidence = 80 →
    ∃ e ∈ (pollSecurity st p).2.attest, e.type = "vbmeta_hash_mismatch"
  tee : (pollSecurity st p).2.threat.confidence = 80 →
    (pollSecurity st { p with tee := none }).2.threat.confidence = 80

/-- Not exactly one of the two hashes of a partition is missing when they are
compared. -/
def Comparable (dev sha : Option (List Char)) (bufsize : Nat) (baseline : List Char) : Prop :=
  rishRead dev bufsize ≠ [] → baseline ≠ [] → (baseline = unavailable ↔ sha256File sha = unavailable)

/-- Two real hashes are compared and differ. -/
def Changed (dev sha : Option (List Char)) (bufsize : Nat) (baseline : List Char) : Prop :=
  rishRead dev bufsize ≠ [] ∧ RealHash baseline ∧ RealHash (sha256File sha) ∧ sha256File sha ≠ baseline

/-- The condition on a poll: hashes are missing in pairs, and if there is a
trusted environment on a device without root, its partition has changed. -/
structure Harmless (b : Baseline) (p : Poll) : Prop where
  vbmeta : Comparable p.vbmetaDev p.vbmetaSha 256 b.vbmetaHash
  boot : Comparable p.bootDev p.bootSha 512 b.bootHash
  attest : rishRead p.tee 256 = [] ∨ p.rooted = true ∨
    Changed p.vbmetaDev p.vbmetaSha 256 b.vbmetaHash

section Hashes

variable {dev sha : Option (List Char)} {bufsize : Nat} {baseline : List Char}

theorem sha256File_cases (result : Option (List Char)) :
    sha256File result = unavailable ∨ RealHash (sha256File result) := by
  cases result with
  | none => exact Or.inl rfl
  | some result =>
      simp only [sha256File]
      by_cases hshort : (cstr result).length < 64
      · exact Or.inl (if_pos hshort)
      · rw [if_neg hshort]
        by_cases hhex : ((cstr result).take 64).all isHexDigit = true
        · rw [if_pos hhex]
          exact Or.inr ⟨by rw [List.length_take]; omega, hhex⟩
        · exact Or.inl (if_neg hhex)

theorem RealHash.ne_unavailable {h : List Char} (hreal : RealHash h) : h ≠ unavailable := by
  intro heq
  have hlen := hreal.length
  rw [heq] at hlen
  exact absurd hlen (by decide)

theorem RealHash.ne_nil {h : List Char} (hreal : RealHash h) : h ≠ [] :=
  List.ne_nil_of_length_pos (by rw [hreal.length]; decide)

/-- The hash of the start. -/
theorem baselineHash_cases (dev sha : Option (List Char)) :
    baselineHash dev sha = [] ∨ baselineHash dev sha = unavailable ∨ RealHash (baselineHash dev sha) := by
  rw [baselineHash]
  split
  · exact Or.inr (sha256File_cases sha)
  · exact Or.inl rfl

theorem mem_compareHash {type : String} {e : Entry} : e ∈ compareHash type dev sha bufsize baseline ↔
    e = hashEntry type baseline (sha256File sha) ∧
      rishRead dev bufsize ≠ [] ∧ baseline ≠ [] ∧ sha256File sha ≠ baseline := by
  rw [compareHash]
  by_cases hopen : (rishRead dev bufsize).length > 0 ∧ baseline ≠ []
  · have hdev : rishRead dev bufsize ≠ [] := List.ne_nil_of_length_pos hopen.1
    rw [if_pos hopen]
    by_cases hsame : sha256File sha = baseline
    · simp [hsame]
    · simp [hsame, hdev, hopen.2]
  · rw [if_neg hopen]
    refine iff_of_false List.not_mem_nil ?_
    rintro ⟨-, hdev, hbase, -⟩
    exact hopen ⟨List.length_pos_of_ne_nil hdev, hbase⟩

/-- **A partition is compared rightly exactly if its hashes are comparable.** -/
theorem compareHash_right_iff (type : String)
    (hbase : baseline = [] ∨ baseline = unavailable ∨ RealHash baseline) :
    (∀ e ∈ compareHash type dev sha bufsize baseline,
      RealHash baseline ∧ RealHash (sha256File sha) ∧ sha256File sha ≠ baseline) ↔
    Comparable dev sha bufsize baseline := by
  constructor
  · intro h hdev hne
    by_cases hsame : sha256File sha = baseline
    · rw [hsame]
    · obtain ⟨hreal, hcurrent, -⟩ := h _ (mem_compareHash.mpr ⟨rfl, hdev, hne, hsame⟩)
      exact iff_of_false hreal.ne_unavailable hcurrent.ne_unavailable
  · intro h e he
    obtain ⟨-, hdev, hne, hdiff⟩ := mem_compareHash.mp he
    have hboth := h hdev hne
    rcases hbase with hnil | hun | hreal
    · exact absurd hnil hne
    · exact absurd (hboth.mp hun ▸ hun.symm) hdiff
    · rcases sha256File_cases sha with hun | hcurrent
      · exact absurd (hboth.mpr hun) hreal.ne_unavailable
      · exact ⟨hreal, hcurrent, hdiff⟩

end Hashes

/-! ## The failure of the attestation -/

section Failure

variable {st : State} {p : Poll} {b : Baseline}

/-- No entry is empty. -/
theorem text_ne_nil {e : Entry} (h : e ∈ checkHardwareAttestation b p) : e.text ≠ [] := by
  rw [checkHardwareAttestation] at h
  rcases List.mem_append.mp h with h | h
  · rw [(mem_compareHash.mp h).1, hashEntry]
    simp [snprintf]
  · split at h
    · rw [List.mem_singleton.mp h, fieldEntry]
      simp [snprintf]
    · cases h

/-- A buffer is empty exactly if it holds no entries. -/
theorem jsonText_eq_nil_iff {size : Nat} (hsize : 2 ≤ size) {entries : List Entry}
    (htexts : ∀ e ∈ entries, e.text ≠ []) : jsonText size entries = [] ↔ entries = [] := by
  induction entries using List.reverseRecOn with
  | nil => exact iff_of_true rfl rfl
  | append_singleton entries e ih =>
      have hne := htexts e (by simp)
      have hlast : e.text.take (size - 1) ≠ [] := by
        rw [ne_eq, List.take_eq_nil_iff, not_or]
        exact ⟨by omega, hne⟩
      rw [jsonText, List.foldl_append]
      simp [hlast]

/-- **When the attestation is said to have failed**: its list is not empty,
and there is no root. -/
theorem confidence_eq_eighty_iff : (pollSecurity st p).2.threat.confidence = 80 ↔
    checkHardwareAttestation st.baseline p ≠ [] ∧ p.rooted = false := by
  have hlen : (jsonText 4096 (checkHardwareAttestation st.baseline p)).length > 0 ↔
      checkHardwareAttestation st.baseline p ≠ [] := by
    rw [gt_iff_lt, List.length_pos_iff, ne_eq, jsonText_eq_nil_iff (by decide) fun e => text_ne_nil]
  show (correlationRule (degrade st.degradation p.score).confirmed p.enforcing p.rooted p.drift
    (jsonText 4096 (checkHardwareAttestation st.baseline p)) []
    (jsonText 4096 (auditPersistence st.baseline p))).1 = 80 ↔ _
  rw [← hlen, correlationRule]
  cases hroot : p.rooted with
  | true =>
      simp only [List.length_nil, and_true, reduceCtorEq, and_false, if_false, gt_iff_lt, lt_self_iff_false,
        false_and]
      split_ifs <;> simp
  | false =>
      simp only [List.length_nil, and_true, reduceCtorEq, and_false, if_false, gt_iff_lt, lt_self_iff_false,
        false_and]
      split_ifs <;> simp_all

/-- The entries for a changed partition are those of the comparison, -/
theorem vbmeta_entry_iff {e : Entry} :
    (e ∈ checkHardwareAttestation b p ∧ e.type = "vbmeta_hash_mismatch") ↔
      e ∈ compareHash "vbmeta_hash_mismatch" p.vbmetaDev p.vbmetaSha 256 b.vbmetaHash := by
  rw [checkHardwareAttestation]
  constructor
  · rintro ⟨h, htype⟩
    rcases List.mem_append.mp h with h | h
    · exact h
    · split at h
      · rw [List.mem_singleton.mp h] at htype
        exact absurd htype (show "tee_present" ≠ "vbmeta_hash_mismatch" by decide)
      · cases h
  · intro h
    refine ⟨List.mem_append_left _ h, ?_⟩
    rw [(mem_compareHash.mp h).1]
    rfl

theorem type_of_fileEntries {e : Entry} {type : String} {result : Option (List Char)}
    (h : e ∈ fileEntries type result) : e.type = type := by
  rw [fileEntries] at h
  split at h
  · rw [List.mem_singleton.mp h]
    rfl
  · cases h

/-- and so are those for a changed boot image. -/
theorem boot_entry_iff {e : Entry} : (e ∈ auditPersistence b p ∧ e.type = "boot_image_modified") ↔
    e ∈ compareHash "boot_image_modified" p.bootDev p.bootSha 512 b.bootHash := by
  rw [auditPersistence]
  constructor
  · rintro ⟨h, htype⟩
    rcases List.mem_append.mp h with h | h
    · rcases List.mem_append.mp h with h | h
      · rw [type_of_fileEntries h] at htype
        exact absurd htype (by decide)
      · rw [type_of_fileEntries h] at htype
        exact absurd htype (by decide)
    · exact h
  · intro h
    refine ⟨List.mem_append_right _ h, ?_⟩
    rw [(mem_compareHash.mp h).1]
    rfl

/-- The trusted environment is an entry. -/
theorem tee_entry (h : rishRead p.tee 256 ≠ []) : checkHardwareAttestation b p ≠ [] := by
  rw [checkHardwareAttestation, if_pos (List.length_pos_of_ne_nil h)]
  simp

/-- Without it every entry is that of a change. -/
theorem entry_of_no_tee (h : rishRead p.tee 256 = []) (hne : checkHardwareAttestation b p ≠ []) :
    ∃ e ∈ checkHardwareAttestation b p, e.type = "vbmeta_hash_mismatch" := by
  obtain ⟨e, he⟩ := List.exists_mem_of_ne_nil _ hne
  refine ⟨e, he, ?_⟩
  rw [checkHardwareAttestation, h] at he
  rcases List.mem_append.mp he with he | he
  · exact (vbmeta_entry_iff.mpr he).2
  · exact absurd he List.not_mem_nil

/-- A change of the partition is an entry. -/
theorem Changed.entry (h : Changed p.vbmetaDev p.vbmetaSha 256 b.vbmetaHash) :
    ∃ e ∈ checkHardwareAttestation b p, e.type = "vbmeta_hash_mismatch" := by
  obtain ⟨hdev, hreal, -, hdiff⟩ := h
  obtain ⟨hin, htype⟩ := vbmeta_entry_iff.mpr (mem_compareHash.mpr ⟨rfl, hdev, hreal.ne_nil, hdiff⟩)
  exact ⟨_, hin, htype⟩

/-- **A poll is right exactly if it is harmless.** -/
theorem rightPoll_iff (hvbmeta : st.baseline.vbmetaHash = [] ∨ st.baseline.vbmetaHash = unavailable ∨
      RealHash st.baseline.vbmetaHash)
    (hboot : st.baseline.bootHash = [] ∨ st.baseline.bootHash = unavailable ∨
      RealHash st.baseline.bootHash) :
    RightPoll st p ↔ Harmless st.baseline p := by
  constructor
  · intro h
    refine ⟨?_, ?_, ?_⟩
    · refine (compareHash_right_iff "vbmeta_hash_mismatch" hvbmeta).mp fun e he => ?_
      obtain ⟨hin, htype⟩ := vbmeta_entry_iff.mpr he
      exact h.vbmeta e hin htype
    · refine (compareHash_right_iff "boot_image_modified" hboot).mp fun e he => ?_
      obtain ⟨hin, htype⟩ := boot_entry_iff.mpr he
      exact h.boot e hin htype
    · by_cases htee : rishRead p.tee 256 = []
      · exact Or.inl htee
      cases hroot : p.rooted with
      | true => exact Or.inr (Or.inl rfl)
      | false =>
          obtain ⟨e, hin, htype⟩ := h.failure (confidence_eq_eighty_iff.mpr ⟨tee_entry htee, hroot⟩)
          obtain ⟨hreal, hcurrent, hdiff⟩ := h.vbmeta e hin htype
          have hdev := (mem_compareHash.mp (vbmeta_entry_iff.mp ⟨hin, htype⟩)).2.1
          exact Or.inr (Or.inr ⟨hdev, hreal, hcurrent, hdiff⟩)
  · intro h
    have hfailure : (pollSecurity st p).2.threat.confidence = 80 →
        ∃ e ∈ checkHardwareAttestation st.baseline p, e.type = "vbmeta_hash_mismatch" := by
      intro hconf
      obtain ⟨hne, hroot⟩ := confidence_eq_eighty_iff.mp hconf
      rcases h.attest with htee | hrooted | hchanged
      · exact entry_of_no_tee htee hne
      · rw [hroot] at hrooted
        cases hrooted
      · exact hchanged.entry
    refine ⟨fun e hin htype => ?_, fun e hin htype => ?_, hfailure, fun hconf => ?_⟩
    · exact (compareHash_right_iff "vbmeta_hash_mismatch" hvbmeta).mpr h.vbmeta e
        (vbmeta_entry_iff.mp ⟨hin, htype⟩)
    · exact (compareHash_right_iff "boot_image_modified" hboot).mpr h.boot e (boot_entry_iff.mp ⟨hin, htype⟩)
    · -- the entry of the change is there without the environment
      obtain ⟨e, hin, htype⟩ := hfailure hconf
      have hcompare := vbmeta_entry_iff.mp ⟨hin, htype⟩
      have hsame : e ∈ checkHardwareAttestation st.baseline { p with tee := none } :=
        List.mem_append_left _ hcompare
      exact confidence_eq_eighty_iff.mpr ⟨List.ne_nil_of_mem hsame, (confidence_eq_eighty_iff.mp hconf).2⟩

/-- No poll touches the baseline. -/
theorem baseline_stateAfter (probe : BaselineProbe) (polls : List Poll) :
    (stateAfter probe polls).baseline = establishBaseline probe :=
  run_invariant (P := fun (st : State) (_ : List Report) => st.baseline = establishBaseline probe) rfl
    (fun _ _ _ h => h) polls

end Failure

/-- **The alarms of a run are right exactly if every poll of it is harmless.** -/
theorem attestation_right_iff (probe : BaselineProbe) (polls : List Poll) :
    Always (fun before p => RightPoll (stateAfter probe before) p) polls ↔
      ∀ p ∈ polls, Harmless (establishBaseline probe) p := by
  have hpoll : ∀ before p, RightPoll (stateAfter probe before) p ↔ Harmless (establishBaseline probe) p := by
    intro before p
    have hbase := baseline_stateAfter probe before
    have hvbmeta := baselineHash_cases probe.vbmetaDev probe.vbmetaSha
    have hboot := baselineHash_cases probe.bootDev probe.bootSha
    rw [← hbase]
    apply rightPoll_iff
    · rw [hbase]
      exact hvbmeta
    · rw [hbase]
      exact hboot
  constructor
  · intro h p hp
    obtain ⟨before, after, hsplit⟩ := List.append_of_mem hp
    exact (hpoll before p).mp (h before p after hsplit)
  · rintro h before p after rfl
    exact (hpoll before p).mpr (h p (by simp))

/-- A phone without root whose partitions cannot be read: the paths of the
devices, and no hashes. -/
def phoneProbe : BaselineProbe :=
  ⟨some "/dev/block/by-name/boot_a\n".toList, none, some "/dev/block/by-name/vbmeta_a\n".toList, none⟩

/-- A poll of it that finds a trusted environment. -/
def phonePoll : Poll :=
  { vbmetaDev := some "/dev/block/by-name/vbmeta_a\n".toList
    vbmetaSha := none
    tee := some "/dev/tee0\n".toList
    initRc := none
    postfs := none
    bootDev := some "/dev/block/by-name/boot_a\n".toList
    bootSha := none
    score := 100
    enforcing := true
    rooted := false
    drift := [] }

/-- The environment alone is taken for a failure. -/
theorem tee_taken_for_failure :
    ¬ Always (fun before p => RightPoll (stateAfter phoneProbe before) p) [phonePoll] := by
  intro h
  have hfailure := (h [] phonePoll [] rfl).failure
  revert hfailure
  decide +kernel

end MiuiserPeruser.Granitor
