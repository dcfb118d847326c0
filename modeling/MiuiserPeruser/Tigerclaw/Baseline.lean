import MiuiserPeruser.Lib.CInt
import MiuiserPeruser.Lib.Strstr

/-!
# tigerclawd — the baseline and its file (`tigerclawd.c`)

`save_baseline` keeps certificates and admins in memory and writes a
document of six lines with their counts only; `load_baseline` looks for the
counts in the first line of the file, which is the opening brace. So a
process that starts again starts without a baseline
(`loadBaseline_saveBaseline`), and `compute_delta` reports the same as
without the restart just for reports that have nothing to report
(`restart_forgets_baseline`).

The rows that `add_anomaly` logs and sends to the court and to splinterd are
left out here: they repeat the anomaly.
-/

namespace MiuiserPeruser.Tigerclaw

open CText

def maxAnomalies : Nat := 16
def maxCerts : Nat := 512
def maxAdmins : Nat := 32

/-! ## Reports -/

/-- `anomaly_t`. -/
structure Anomaly where
  type : List Char
  code : List Char
  detail : List Char
  deriving DecidableEq

/-- `cert_entry_t`; nothing sets its `is_removed`. -/
structure CertEntry where
  fingerprint : List Char
  subject : List Char
  isSystem : Bool
  isNew : Bool
  deriving DecidableEq

/-- `admin_entry_t`. -/
structure AdminEntry where
  package : List Char
  adminClass : List Char
  isProfileOwner : Bool
  isDeviceOwner : Bool
  isNew : Bool
  deriving DecidableEq

/-- What `compute_delta` counts and reports. -/
structure Delta where
  certDeltaNew : Nat
  certDeltaRemoved : Nat
  adminDeltaNew : Nat
  anomalies : List Anomaly

/-- The part of `tigerclaw_report_t` the baseline is about. -/
structure Report where
  svcCount : Int
  certs : List CertEntry
  admins : List AdminEntry
  delta : Delta
  certs_fit : certs.length ≤ maxCerts
  admins_fit : admins.length ≤ maxAdmins

/-- `add_anomaly`. -/
def addAnomaly (anomalies : List Anomaly) (type code : String) (detail : List Char) :
    List Anomaly :=
  if anomalies.length ≥ maxAnomalies then anomalies
  else anomalies ++ [⟨type.toList.take 15, code.toList.take 31, detail.take 255⟩]

/-! ## The baseline -/

/-- The globals of the baseline. The arrays are longer than their counts. -/
structure Baseline where
  established : Bool
  svc : Int
  propHash : Int
  certCount : Int
  certs : Nat → CertEntry
  adminCount : Int
  admins : Nat → AdminEntry

/-- The globals when a process starts. -/
def Baseline.zero : Baseline where
  established := false
  svc := 0
  propHash := 0
  certCount := 0
  certs := fun _ => ⟨[], [], false, false⟩
  adminCount := 0
  admins := fun _ => ⟨[], [], false, false, false⟩

/-- The entries of the arrays that count. -/
def Baseline.certList (g : Baseline) : List CertEntry := (List.range g.certCount.toNat).map g.certs

def Baseline.adminList (g : Baseline) : List AdminEntry :=
  (List.range g.adminCount.toNat).map g.admins

/-- What `save_baseline` meets in its surroundings: whether the directories
can be made and the file opened, the two values `get_prop_hash` returns in
it, and the time. -/
structure Surroundings where
  stateDir : Bool
  resultsDir : Bool
  opens : Bool
  printedHash : Int
  keptHash : Int
  now : Int

/-- The document `save_baseline` writes. -/
def baselineText (env : Surroundings) (rpt : Report) : List Char :=
  "\x7b\n".toList ++
    "  \"service_count\":".toList ++ formatD rpt.svcCount ++ ",\n".toList ++
    "  \"prop_hash\":".toList ++ formatD env.printedHash ++ ",\n".toList ++
    "  \"cert_count\":".toList ++ formatD rpt.certs.length ++ ",\n".toList ++
    "  \"admin_count\":".toList ++ formatD rpt.admins.length ++ ",\n".toList ++
    "  \"established_at\":".toList ++ formatD env.now ++ "\n".toList ++
    "\x7d\n".toList

/-- The first entries of an array are overwritten. -/
def overwrite {α : Type} (old : Nat → α) (new : List α) (i : Nat) : α := new.getD i (old i)

/-- `save_baseline`: the file and the globals after it. -/
def saveBaseline (env : Surroundings) (file : Option (List Char)) (g : Baseline) (rpt : Report) :
    Option (List Char) × Baseline :=
  if !env.stateDir || !env.resultsDir then (file, g)
  else if !env.opens then (file, g)
  else
    (some (baselineText env rpt),
      { established := true
        svc := rpt.svcCount
        propHash := env.keptHash
        certCount := min rpt.certs.length maxCerts
        certs := overwrite g.certs (rpt.certs.take maxCerts)
        adminCount := min rpt.admins.length maxAdmins
        admins := overwrite g.admins (rpt.admins.take maxAdmins) })

/-- One of the numbers `load_baseline` looks for. -/
def loadField (key : String) (read : List Char → Int) (buf : List Char) (old : Int) : Int :=
  match strstr key.toList buf with
  | some p => read (p.drop key.toList.length)
  | none => old

/-- `load_baseline`. -/
def loadBaseline (file : Option (List Char)) (g : Baseline) : Baseline :=
  match file with
  | none => g
  | some text =>
      match fgetsLines 1024 text with
      | [] => g
      | buf :: _ =>
          let svc := loadField "\"service_count\":" atoi buf g.svc
          { g with
            svc := svc
            propHash := loadField "\"prop_hash\":" strtoul32 buf g.propHash
            certCount := loadField "\"cert_count\":" atoi buf g.certCount
            adminCount := loadField "\"admin_count\":" atoi buf g.adminCount
            established := 0 < svc }

/-! ## compute_delta -/

/-- The comparisons of `compute_delta`. -/
def sameCert (c d : CertEntry) : Bool := c.fingerprint = d.fingerprint

def sameAdmin (a b : AdminEntry) : Bool := a.package = b.package && a.adminClass = b.adminClass

/-- The message of a certificate that came or went. -/
def certMessage (what : String) (c : CertEntry) : List Char :=
  snprintf 256 (what.toList ++ " cert: ".toList ++ c.subject ++ " (fp=".toList ++
    c.fingerprint.take 16 ++ "...)".toList)

def adminMessage (a : AdminEntry) : List Char :=
  snprintf 256 ("New device admin: ".toList ++ a.package ++ "/".toList ++ a.adminClass ++
    (if a.isDeviceOwner then " [DEVICE_OWNER]".toList else []) ++
    (if a.isProfileOwner then " [PROFILE_OWNER]".toList else []))

def Delta.newCert (d : Delta) (c : CertEntry) : Delta :=
  { d with
    certDeltaNew := d.certDeltaNew + 1
    anomalies := addAnomaly d.anomalies "WARNING" "CERT_STORE_DELTA" (certMessage "New" c) }

def Delta.removedCert (d : Delta) (c : CertEntry) : Delta :=
  { d with
    certDeltaRemoved := d.certDeltaRemoved + 1
    anomalies := addAnomaly d.anomalies "WARNING" "CERT_STORE_DELTA" (certMessage "Removed" c) }

def Delta.newAdmin (d : Delta) (a : AdminEntry) : Delta :=
  { d with
    adminDeltaNew := d.adminDeltaNew + 1
    anomalies := addAnomaly d.anomalies "URGENT" "DEVICE_ADMIN_NEW" (adminMessage a) }

/-- A loop of `compute_delta`: each entry is looked for in the other list,
and what is not found is reported. -/
def missing {α : Type} (same : α → α → Bool) (others : List α) (report : Delta → α → Delta)
    (entries : List α) (d : Delta) : Delta :=
  entries.foldl (fun d x => if others.any (same x) then d else report d x) d

/-- `compute_delta`. -/
def computeDelta (g : Baseline) (rpt : Report) : Report :=
  if !g.established then rpt
  else
    { rpt with
      certs := rpt.certs.map fun c => { c with isNew := !g.certList.any (sameCert c) }
      admins := rpt.admins.map fun a => { a with isNew := !g.adminList.any (sameAdmin a) }
      delta :=
        missing sameAdmin g.adminList Delta.newAdmin rpt.admins
          (missing sameCert rpt.certs Delta.removedCert g.certList
            (missing sameCert g.certList Delta.newCert rpt.certs rpt.delta))
      certs_fit := by simpa using rpt.certs_fit
      admins_fit := by simpa using rpt.admins_fit }

/-! ## What a run of the loops reports -/

section Delta

variable {α : Type} {same : α → α → Bool} {others entries : List α}
  {d : Delta}

/-- Nothing is reported where every entry is found. -/
theorem missing_eq_self {report : Delta → α → Delta} (h : ∀ x ∈ entries, others.any (same x) = true) :
    missing same others report entries d = d := by
  induction entries with
  | nil => rfl
  | cons x entries ih =>
      unfold missing
      rw [List.foldl_cons, if_pos (h x List.mem_cons_self)]
      exact ih fun y hy => h y (List.mem_cons_of_mem x hy)

/-- What a report adds to a counter, the loop adds for every entry that is
not found. -/
theorem count_missing (count : Delta → Nat) (report : Delta → α → Delta) (k : Nat)
    (hreport : ∀ d x, count (report d x) = count d + k) :
    count (missing same others report entries d) =
      count d + k * entries.countP fun x => !others.any (same x) := by
  induction entries generalizing d with
  | nil => simp [missing]
  | cons x entries ih =>
      have hstep : missing same others report (x :: entries) d =
          missing same others report entries (if others.any (same x) then d else report d x) := rfl
      rw [hstep, ih, List.countP_cons]
      by_cases hx : others.any (same x) = true
      · simp [hx]
      · simp only [hx, Bool.not_false, if_true, hreport, Bool.false_eq_true, if_false]
        ring

end Delta

section ComputeDelta

variable {g : Baseline} {rpt : Report}

/-- **What `compute_delta` counts.** -/
theorem computeDelta_counts (hg : g.established = true) :
    (computeDelta g rpt).delta.certDeltaNew =
        rpt.delta.certDeltaNew + rpt.certs.countP (fun c => !g.certList.any (sameCert c)) ∧
      (computeDelta g rpt).delta.certDeltaRemoved =
        rpt.delta.certDeltaRemoved + g.certList.countP (fun c => !rpt.certs.any (sameCert c)) ∧
      (computeDelta g rpt).delta.adminDeltaNew =
        rpt.delta.adminDeltaNew + rpt.admins.countP (fun a => !g.adminList.any (sameAdmin a)) := by
  simp only [computeDelta, hg, Bool.not_true, Bool.false_eq_true, if_false]
  refine ⟨?_, ?_, ?_⟩
  · rw [count_missing Delta.certDeltaNew Delta.newAdmin 0 fun _ _ => rfl,
      count_missing Delta.certDeltaNew Delta.removedCert 0 fun _ _ => rfl,
      count_missing Delta.certDeltaNew Delta.newCert 1 fun _ _ => rfl]
    ring
  · rw [count_missing Delta.certDeltaRemoved Delta.newAdmin 0 fun _ _ => rfl,
      count_missing Delta.certDeltaRemoved Delta.removedCert 1 fun _ _ => rfl,
      count_missing Delta.certDeltaRemoved Delta.newCert 0 fun _ _ => rfl]
    ring
  · rw [count_missing Delta.adminDeltaNew Delta.newAdmin 1 fun _ _ => rfl,
      count_missing Delta.adminDeltaNew Delta.removedCert 0 fun _ _ => rfl,
      count_missing Delta.adminDeltaNew Delta.newCert 0 fun _ _ => rfl]
    ring

/-- The report has the certificates and the admins of the baseline, as
`compute_delta` compares them. -/
structure SameAs (g : Baseline) (rpt : Report) : Prop where
  certs_known : ∀ c ∈ rpt.certs, g.certList.any (sameCert c) = true
  certs_kept : ∀ c ∈ g.certList, rpt.certs.any (sameCert c) = true
  admins_known : ∀ a ∈ rpt.admins, g.adminList.any (sameAdmin a) = true

/-- **Only such a report has no deltas.** -/
theorem computeDelta_delta_iff (hg : g.established = true) :
    (computeDelta g rpt).delta = rpt.delta ↔ SameAs g rpt := by
  have hzero : ∀ {α : Type} {p : α → Bool} {l : List α} {n : Nat},
      n + l.countP (fun x => !p x) = n → ∀ x ∈ l, p x = true := by
    intro α p l n h x hx
    have hcount : l.countP (fun x => !p x) = 0 := by omega
    simpa using List.countP_eq_zero.mp hcount x hx
  constructor
  · intro h
    obtain ⟨hnew, hremoved, hadmin⟩ := @computeDelta_counts g rpt hg
    rw [h] at hnew hremoved hadmin
    exact ⟨hzero hnew.symm, hzero hremoved.symm, hzero hadmin.symm⟩
  · intro h
    simp only [computeDelta, hg, Bool.not_true, Bool.false_eq_true, if_false]
    rw [missing_eq_self h.admins_known, missing_eq_self h.certs_kept, missing_eq_self h.certs_known]

end ComputeDelta

/-! ## The restart -/

/-- The entries that count are those of the report. -/
theorem map_overwrite {α : Type} (old : Nat → α) (l : List α) :
    (List.range l.length).map (overwrite old l) = l := by
  apply List.ext_getElem
  · simp
  · intro i h h'
    simp [overwrite, h']

section Restart

variable {env : Surroundings} {file : Option (List Char)} {g : Baseline} {rpt : Report}

/-- What `save_baseline` keeps is the report. -/
theorem saveBaseline_keeps (hdirs : env.stateDir = true ∧ env.resultsDir = true)
    (hopens : env.opens = true) :
    (saveBaseline env file g rpt).2.established = true ∧
      (saveBaseline env file g rpt).2.svc = rpt.svcCount ∧
      (saveBaseline env file g rpt).2.propHash = env.keptHash ∧
      (saveBaseline env file g rpt).2.certList = rpt.certs ∧
      (saveBaseline env file g rpt).2.adminList = rpt.admins := by
  have hcerts : (min (rpt.certs.length : Int) maxCerts).toNat = rpt.certs.length := by
    have := rpt.certs_fit
    omega
  have hadmins : (min (rpt.admins.length : Int) maxAdmins).toNat = rpt.admins.length := by
    have := rpt.admins_fit
    omega
  simp only [saveBaseline, hdirs, hopens, Bool.not_true, Bool.or_self, Bool.false_eq_true,
    if_false, true_and]
  constructor
  · show (List.range _).map (overwrite g.certs (rpt.certs.take maxCerts)) = rpt.certs
    rw [hcerts, List.take_of_length_le rpt.certs_fit, map_overwrite]
  · show (List.range _).map (overwrite g.admins (rpt.admins.take maxAdmins)) = rpt.admins
    rw [hadmins, List.take_of_length_le rpt.admins_fit, map_overwrite]

/-- The first line of the file is its brace. -/
theorem fgetsLines_baselineText :
    ∃ lines, fgetsLines 1024 (baselineText env rpt) = ['{', '\n'] :: lines := by
  have htext : "\x7b\n".toList <+: baselineText env rpt := by
    unfold baselineText
    simp only [List.append_assoc]
    apply List.prefix_append
  obtain ⟨rest, htext⟩ := htext
  have hbrace : "\x7b\n".toList ++ rest = ['{'] ++ '\n' :: rest := rfl
  rw [← htext, hbrace, fgetsLines_line (by decide) (by decide)]
  exact ⟨fgetsLines 1024 rest, rfl⟩

/-- A brace has no fields. -/
theorem loadField_brace {key : String} (read : List Char → Int) (old : Int)
    (hkey : strstr key.toList ['{', '\n'] = none) : loadField key read ['{', '\n'] old = old := by
  rw [loadField, hkey]

/-- **After a restart there is no baseline.** -/
theorem loadBaseline_saveBaseline (hdirs : env.stateDir = true ∧ env.resultsDir = true)
    (hopens : env.opens = true) :
    loadBaseline (saveBaseline env file g rpt).1 Baseline.zero = Baseline.zero := by
  have hfile : (saveBaseline env file g rpt).1 = some (baselineText env rpt) := by
    simp [saveBaseline, hdirs, hopens]
  obtain ⟨lines, hlines⟩ := @fgetsLines_baselineText env rpt
  rw [hfile]
  simp only [loadBaseline, hlines]
  rw [loadField_brace atoi _ (by decide +kernel), loadField_brace strtoul32 _ (by decide +kernel),
    loadField_brace atoi _ (by decide +kernel), loadField_brace atoi _ (by decide +kernel)]
  rfl

end Restart

/-- A restart after `save_baseline`: what the next process has loaded. -/
def restarted (env : Surroundings) (file : Option (List Char)) (g : Baseline) (rpt : Report) :
    Baseline :=
  loadBaseline (saveBaseline env file g rpt).1 Baseline.zero

/-- The restart keeps the baseline of `rpt`: the globals are those of the
report, and whatever is reported next has the deltas it has without the
restart, which are none if the certificates and admins are those of `rpt`. -/
structure KeepsBaseline (env : Surroundings) (file : Option (List Char)) (g : Baseline)
    (rpt : Report) : Prop where
  svc : (restarted env file g rpt).svc = rpt.svcCount
  propHash : (restarted env file g rpt).propHash = env.keptHash
  certs : ∀ c, c ∈ (restarted env file g rpt).certList ↔ c ∈ rpt.certs
  admins : ∀ a, a ∈ (restarted env file g rpt).adminList ↔ a ∈ rpt.admins
  unchanged : ∀ next : Report, (∀ c, c ∈ next.certs ↔ c ∈ rpt.certs) →
    (∀ a, a ∈ next.admins ↔ a ∈ rpt.admins) →
    (computeDelta (restarted env file g rpt) next).delta = next.delta
  deltas : ∀ next : Report, (computeDelta (restarted env file g rpt) next).delta =
    (computeDelta (saveBaseline env file g rpt).2 next).delta

/-- **No restart keeps the baseline.** Whatever was saved, the service count
is gone; and the next report has the deltas it has without the restart just
if it has none. -/
theorem restart_forgets_baseline {env : Surroundings} (file : Option (List Char)) (g : Baseline)
    {rpt : Report} (hdirs : env.stateDir = true ∧ env.resultsDir = true)
    (hopens : env.opens = true) (hsvc : 0 < rpt.svcCount) :
    ¬ KeepsBaseline env file g rpt ∧
      ∀ next : Report, (computeDelta (restarted env file g rpt) next).delta =
          (computeDelta (saveBaseline env file g rpt).2 next).delta ↔
        SameAs (saveBaseline env file g rpt).2 next := by
  have hzero : restarted env file g rpt = Baseline.zero := loadBaseline_saveBaseline hdirs hopens
  constructor
  · intro h
    have hkept := h.svc
    rw [hzero] at hkept
    have : (0 : Int) = rpt.svcCount := hkept
    omega
  · intro next
    have hnone : computeDelta (restarted env file g rpt) next = next := by
      rw [hzero]
      rfl
    rw [hnone, eq_comm]
    exact computeDelta_delta_iff (saveBaseline_keeps hdirs hopens).1

/-- Twelve services, one certificate. -/
def sampleReport : Report where
  svcCount := 12
  certs := [⟨"5a00".toList, "root".toList, true, false⟩]
  admins := []
  delta := ⟨0, 0, 0, []⟩
  certs_fit := by decide
  admins_fit := by decide

/-- A poll in which everything works. -/
def sampleSurroundings : Surroundings := ⟨true, true, true, 77, 77, 1700000000⟩

theorem restart_forgets_baseline_sample :
    ¬ KeepsBaseline sampleSurroundings none Baseline.zero sampleReport ∧
      ∀ next : Report,
        (computeDelta (restarted sampleSurroundings none Baseline.zero sampleReport) next).delta =
          (computeDelta (saveBaseline sampleSurroundings none Baseline.zero sampleReport).2
            next).delta ↔
        SameAs (saveBaseline sampleSurroundings none Baseline.zero sampleReport).2 next :=
  restart_forgets_baseline none Baseline.zero ⟨rfl, rfl⟩ rfl (by decide)

/-- A certificate that is gone after the restart is not missed: with the
baseline of `sampleReport` a report without it has one removed certificate,
after the restart it has none. -/
theorem removed_cert_unnoticed : 0 < sampleReport.svcCount ∧
    ¬ KeepsBaseline sampleSurroundings none Baseline.zero sampleReport := by
  constructor
  · decide
  · intro h
    have hdeltas := h.deltas { sampleReport with
      certs := []
      certs_fit := by decide }
    exact absurd (congrArg Delta.certDeltaRemoved hdeltas) (by decide +kernel)

end MiuiserPeruser.Tigerclaw
