import MiuiserPeruser.Don.Behavior
import MiuiserPeruser.Lib.History
import MiuiserPeruser.Lib.Run
import MiuiserPeruser.Raph.Memory

/-!
# superhero — the processes of a deep scan (`splinter_dojo.c`)

`dump_pids.sh` lists the processes with their names, and then their mappings
in a second file. The loop of `splinter_run_scan_cycle` goes through the first
65535 bytes of the list, looks every process up in the first 65535 bytes of the
mappings, and reads the rest from `/proc`. Processes come and go between the
two files, and either may be cut anywhere: what is reported of a process is true
of it all the same. In a loop the script writes both files anew, but the mappings
are loaded once: a process is looked up in those of the first cycle
(`deep_scans_true`).

The texts on the screen are left out, and the list is taken as the script's
`grep` leaves it.
-/

namespace MiuiserPeruser.Superhero

open CText April Raph Don History

/-! ## The loop -/

/-- A process that has been scanned, with `results` before they are freed. -/
structure Scanned where
  pid : UInt32
  name : List Char
  findings : List Detection

/-- `name`, from what stands behind the colon. -/
def processName (text : List Char) : List Char := (text.take 31).takeWhile (· ∉ ['\n', '\r'])

/-- One round of the loop over the list. -/
def scanToken (before : Char) (summary : List Char) (proc : UInt32 → ProcFiles) (tok : List Char) :
    Option Scanned :=
  if ':' ∉ tok then none
  else
    let pid := UInt32.ofInt (atoi (tok.takeWhile (· ≠ ':')))
    let name := processName (afterFirst ':' tok)
    if 1 < pid then
      some ⟨pid, name, behaviorAnalyze pid (proc pid) (memoryScan before summary pid [])⟩
    else none

/-- The loop, on the two files. -/
def scanTokens (before : Char) (summary : List Char) (names : Option (List Char))
    (proc : UInt32 → ProcFiles) : List Scanned :=
  (lineTokens (cstr ((names.getD []).take 65535))).filterMap (scanToken before summary proc)

/-- The deep part of a cycle. `g_maps_summary` is `none` until a process has been scanned, and
what it is then is not loaded again. -/
def deepScan (before : Char) (loaded names maps : Option (List Char)) (proc : UInt32 → ProcFiles) :
    Option (List Char) × List Scanned :=
  let summary := loaded.getD (loadMapsSummary maps)
  let scanned := scanTokens before summary names proc
  (if scanned.isEmpty then loaded else some summary, scanned)

/-! ## The list of the processes -/

/-- A row of `pid_names`. -/
structure NameRow where
  pid : UInt32
  name : List Char
  fits : pid.toNat < 2 ^ 31
  name_plain : '\n' ∉ name ∧ '\x00' ∉ name

def NameRow.line (row : NameRow) : List Char := decimal row.pid.toNat ++ ':' :: row.name

/-- The file. -/
def namesText (rows : List NameRow) : List Char := textLines (rows.map NameRow.line)

/-- The rows whose colon is in the first `n` bytes. -/
def rowsWithin : Nat → List NameRow → List NameRow
  | _, [] => []
  | n, row :: rows =>
      if (decimal row.pid.toNat).length < n then row :: rowsWithin (n - row.line.length - 1) rows
      else []

/-- What a scan reports of a process, its mappings being these. -/
def findingsOf (counts : MapsCounts) (pid : UInt32) (files : ProcFiles) : List Detection :=
  memoryFindings counts pid ++ behaviorFindings pid files

section Names

variable {row : NameRow} {rows : List NameRow} {before : Char} {summary : List Char}
  {proc : UInt32 → ProcFiles}

theorem isLine_nameRow (row : NameRow) : IsLine row.line := by
  refine ⟨by simp [NameRow.line], ?_⟩
  rw [NameRow.line, List.mem_append, List.mem_cons, not_or, not_or]
  exact ⟨notMem_decimal rfl _, by decide, row.name_plain.1⟩

theorem nul_notMem_namesText (rows : List NameRow) : '\x00' ∉ namesText rows := by
  intro h
  obtain ⟨line, hmem, hnul⟩ := List.mem_flatMap.mp h
  obtain ⟨row, -, rfl⟩ := List.mem_map.mp hmem
  rcases List.mem_append.mp hnul with hnul | hnul
  · rcases List.mem_append.mp hnul with hnul | hnul
    · exact notMem_decimal rfl _ hnul
    · rcases List.mem_cons.mp hnul with hnul | hnul
      · exact absurd hnul (by decide)
      · exact row.name_plain.2 hnul
  · exact absurd (List.mem_singleton.mp hnul) (by decide)

/-- A row gives its process, also where it is cut behind the colon. -/
theorem scanToken_line (before : Char) (summary : List Char) (proc : UInt32 → ProcFiles) {n : Nat}
    (h : (decimal row.pid.toNat).length < n) :
    (scanToken before summary proc (row.line.take n)).map (fun s => (s.pid, s.findings)) =
      if 1 < row.pid then
        some (row.pid, findingsOf (lookupPidMaps before summary row.pid) row.pid (proc row.pid))
      else none := by
  obtain ⟨k, rfl⟩ : ∃ k, n = (decimal row.pid.toNat).length + (k + 1) :=
    ⟨n - (decimal row.pid.toNat).length - 1, by omega⟩
  have hcut : row.line.take ((decimal row.pid.toNat).length + (k + 1)) =
      decimal row.pid.toNat ++ ':' :: row.name.take k := by
    rw [NameRow.line, List.take_length_add_append, List.take_succ_cons]
  have hkey : (decimal row.pid.toNat ++ ':' :: row.name.take k).takeWhile
      (fun c => decide (c ≠ ':')) = decimal row.pid.toNat := by
    refine takeWhile_append_of_stop (fun c hc => ?_) fun c r h => ?_
    · rw [decide_eq_true_eq]
      rintro rfl
      exact notMem_decimal rfl _ hc
    · simp [(List.cons.inj h).1.symm]
  have hpid : UInt32.ofInt (atoi (decimal row.pid.toNat)) = row.pid := by
    have hmod : ((row.pid.toNat : Int) % 2 ^ 32).toNat = row.pid.toNat := by
      have hlt := row.fits
      omega
    rw [atoi_decimal row.fits, UInt32.ofInt, hmod, UInt32.ofNat_toNat]
  unfold scanToken
  rw [hcut, if_neg (by simp), hkey, hpid]
  simp only
  by_cases hone : 1 < row.pid
  · have hzero : row.pid ≠ 0 := by
      rintro hzero
      rw [hzero] at hone
      exact absurd hone (by decide)
    rw [if_pos hone, if_pos hone, behaviorAnalyze_eq, memoryScan_eq hzero]
    rfl
  · rw [if_neg hone, if_neg hone]
    rfl

/-- A row that is cut before its colon gives none. -/
theorem scanToken_cut {n : Nat} (h : n ≤ (decimal row.pid.toNat).length) :
    scanToken before summary proc (row.line.take n) = none := by
  have hcut : row.line.take n = (decimal row.pid.toNat).take n := by
    rw [NameRow.line, List.take_append_of_le_length h]
  exact if_pos fun hcolon => notMem_decimal rfl _ (List.mem_of_mem_take (hcut ▸ hcolon))

/-- **The list is scanned row by row**, up to the last colon in the buffer. -/
theorem scan_cutTextLines (n : Nat) :
    ((cutTextLines n (rows.map NameRow.line)).filterMap (scanToken before summary proc)).map
        (fun s => (s.pid, s.findings)) =
      ((rowsWithin n rows).filter (fun row => 1 < row.pid)).map fun row =>
        (row.pid, findingsOf (lookupPidMaps before summary row.pid) row.pid (proc row.pid)) := by
  induction rows generalizing n with
  | nil => rfl
  | cons row rows ih =>
      have hlength : (decimal row.pid.toNat).length < row.line.length := by
        rw [NameRow.line, List.length_append, List.length_cons]
        omega
      have hstep : ∀ {lines : List (List Char)} {behind : List NameRow} {m : Nat},
          (decimal row.pid.toNat).length < m →
          (lines.filterMap (scanToken before summary proc)).map (fun s => (s.pid, s.findings)) =
            (behind.filter (fun row => 1 < row.pid)).map (fun row =>
              (row.pid, findingsOf (lookupPidMaps before summary row.pid) row.pid (proc row.pid))) →
          ((row.line.take m :: lines).filterMap (scanToken before summary proc)).map
              (fun s => (s.pid, s.findings)) =
            ((row :: behind).filter (fun row => 1 < row.pid)).map (fun row =>
              (row.pid, findingsOf (lookupPidMaps before summary row.pid) row.pid (proc row.pid))) := by
        intro lines behind m hm hrest
        have hrow := scanToken_line before summary proc hm
        by_cases hone : 1 < row.pid
        · rw [if_pos hone, Option.map_eq_some_iff] at hrow
          obtain ⟨s, hs, hvalue⟩ := hrow
          rw [List.filterMap_cons_some hs, List.filter_cons_of_pos (by simpa using hone),
            List.map_cons, List.map_cons, hvalue, hrest]
        · rw [if_neg hone, Option.map_eq_none_iff] at hrow
          rw [List.filterMap_cons_none hrow, List.filter_cons_of_neg (by simpa using hone), hrest]
      rw [List.map_cons, cutTextLines, rowsWithin]
      by_cases hwhole : row.line.length < n
      · rw [if_pos hwhole, if_pos (by omega)]
        have hself : row.line = row.line.take row.line.length := (List.take_length).symm
        rw [hself, List.length_take, min_self]
        exact hstep hlength (ih _)
      · rw [if_neg hwhole]
        by_cases hcolon : (decimal row.pid.toNat).length < n
        · have hnone : rowsWithin (n - row.line.length - 1) rows = [] := by
            have hzero : n - row.line.length - 1 = 0 := by omega
            rw [hzero]
            cases rows with
            | nil => rfl
            | cons row rows => exact if_neg (Nat.not_lt_zero _)
          rw [if_neg (by omega), if_pos hcolon, hnone]
          exact hstep hcolon rfl
        · rw [if_neg hcolon]
          split
          · rfl
          · rw [List.filterMap_cons_none (scanToken_cut (by omega))]
            rfl

theorem scanTokens_eq (before : Char) (summary : List Char) (rows : List NameRow)
    (proc : UInt32 → ProcFiles) :
    (scanTokens before summary (some (namesText rows)) proc).map (fun s => (s.pid, s.findings)) =
      ((rowsWithin 65535 rows).filter (fun row => 1 < row.pid)).map fun row =>
        (row.pid, findingsOf (lookupPidMaps before summary row.pid) row.pid (proc row.pid)) := by
  have hlines : ∀ l ∈ rows.map NameRow.line, IsLine l := by
    intro l hl
    obtain ⟨row, -, rfl⟩ := List.mem_map.mp hl
    exact isLine_nameRow row
  have hcstr : cstr ((namesText rows).take 65535) = (namesText rows).take 65535 :=
    cstr_eq_self fun h => nul_notMem_namesText rows (List.mem_of_mem_take h)
  rw [scanTokens, Option.getD_some, hcstr, namesText, lineTokens_take hlines]
  exact scan_cutTextLines 65535

theorem pids_scanTokens (before : Char) (summary : List Char) (rows : List NameRow)
    (proc : UInt32 → ProcFiles) :
    (scanTokens before summary (some (namesText rows)) proc).map Scanned.pid =
      ((rowsWithin 65535 rows).map NameRow.pid).filter (1 < ·) := by
  have hpids := congrArg (List.map Prod.fst) (scanTokens_eq before summary rows proc)
  rw [List.map_map, List.map_map] at hpids
  rw [List.filter_map]
  exact hpids

/-- A list that fits is scanned to its end. -/
theorem rowsWithin_eq_self {n : Nat} (h : (namesText rows).length ≤ n + 1) : rowsWithin n rows = rows := by
  induction rows generalizing n with
  | nil => rfl
  | cons row rows ih =>
      have htext : (namesText (row :: rows)).length = row.line.length + 1 + (namesText rows).length := by
        rw [namesText, List.map_cons, textLines_cons, List.length_append, List.length_cons]
        show _ = _ + 1 + (textLines _).length
        omega
      have hlength : (decimal row.pid.toNat).length < row.line.length := by
        rw [NameRow.line, List.length_append, List.length_cons]
        omega
      rw [rowsWithin, if_pos (by omega)]
      by_cases hlast : (namesText rows).length = 0
      · have hnil : rows = [] := by
          cases rows with
          | nil => rfl
          | cons row rows => simp [namesText, textLines] at hlast
        rw [hnil]
        rfl
      · rw [ih (by omega)]

end Names

/-! ## What is reported -/

/-- The scan has a finding of this type. -/
def Scanned.reports (s : Scanned) (type : String) : Prop :=
  type.toList ∈ s.findings.map Detection.detectionType

/-- The types, and the counts of a row they stand for. -/
def mapsTypes : List (String × (MapsRow → Nat)) :=
  [("ANON_RWX_MEM", MapsRow.rwx), ("INJECTOR_LIB", MapsRow.inj), ("EXEC_FROM_DATA", MapsRow.exd)]

/-- A type, if there is reason for it. -/
def typeIf (P : Prop) [Decidable P] (type : String) : List String := if P then [type] else []

/-- The process runs something that is not known, as far as `analyzeState` sees. -/
def seemsUnexpected (files : ProcFiles) : Bool :=
  takenForRunning files.status && (files.cmdline.any fun text => unexpected (cmdlineText text))

section Types

variable {counts : MapsCounts} {pid : UInt32} {files : ProcFiles} {type : String}

theorem mem_typeIf {P : Prop} [Decidable P] {t : String} : type ∈ typeIf P t ↔ P ∧ type = t := by
  unfold typeIf
  split
  · rename_i h
    rw [List.mem_singleton]
    exact ⟨fun ht => ⟨h, ht⟩, And.right⟩
  · rename_i h
    exact iff_of_false List.not_mem_nil fun ht => h ht.1

theorem types_memory : (memoryFindings counts pid).map Detection.detectionType =
    (typeIf (0 < counts.rwx) "ANON_RWX_MEM" ++ typeIf (0 < counts.inj) "INJECTOR_LIB" ++
      typeIf (0 < counts.exd) "EXEC_FROM_DATA").map String.toList := by
  unfold memoryFindings typeIf
  simp only [List.map_append]
  congr 1
  · congr 1
    · split
      · rfl
      · rfl
    · split
      · rfl
      · rfl
  · split
    · rfl
    · rfl

theorem types_behavior (hpid : pid ≠ 0) : (behaviorFindings pid files).map Detection.detectionType =
    (typeIf (500 < countFds files.fd) "EXCESSIVE_FDS" ++
      typeIf (seemsUnexpected files = true) "UNEXPECTED_ACTIVE_PROC").map String.toList := by
  have hstate : ∀ r, (analyzeState pid files r).map Detection.detectionType =
      r.map Detection.detectionType ++
        (typeIf (seemsUnexpected files = true) "UNEXPECTED_ACTIVE_PROC").map String.toList := by
    intro r
    unfold analyzeState seemsUnexpected typeIf
    cases takenForRunning files.status with
    | false => simp
    | true =>
        cases files.cmdline with
        | none => simp
        | some text =>
            cases hu : unexpected (cmdlineText text) with
            | false => simp [hu]
            | true =>
                simp only [hu, if_true, Option.any_some, Bool.and_self, Casey.addDet, List.map_append]
                rfl
  rw [behaviorFindings, behaviorAnalyze, if_neg hpid]
  simp only
  rw [hstate, List.map_append]
  congr 1
  unfold typeIf
  split
  · rfl
  · rfl

/-- All types a scan can report, and their reasons. -/
theorem mem_types (hpid : pid ≠ 0) :
    type.toList ∈ (findingsOf counts pid files).map Detection.detectionType ↔
      (0 < counts.rwx ∧ type = "ANON_RWX_MEM" ∨ 0 < counts.inj ∧ type = "INJECTOR_LIB" ∨
        0 < counts.exd ∧ type = "EXEC_FROM_DATA") ∨
      (500 < countFds files.fd ∧ type = "EXCESSIVE_FDS" ∨
        seemsUnexpected files = true ∧ type = "UNEXPECTED_ACTIVE_PROC") := by
  rw [findingsOf, List.map_append, types_memory, types_behavior hpid, ← List.map_append,
    List.mem_map_of_injective (fun _ _ => String.toList_inj.mp)]
  simp only [List.mem_append, mem_typeIf, or_assoc]

end Types

/-- The file of the mappings; nothing is in it if the script got no answer. -/
def mapsText (maps : Option MapsDump) : List Char := (maps.map MapsDump.text).getD []

/-- A deep scan of these files. -/
structure Scans (before : Char) (names : List NameRow) (maps : Option MapsDump)
    (proc : UInt32 → ProcFiles) (out : List Scanned) : Prop where
  order : out.map Scanned.pid = ((rowsWithin 65535 names).map NameRow.pid).filter (1 < ·)
  complete : (namesText names).length ≤ 65536 →
    out.map Scanned.pid = (names.map NameRow.pid).filter (1 < ·)
  -- a finding about the mappings is true of the process, and what the buffer holds is found
  true_of_row : ∀ s ∈ out, ∀ t ∈ mapsTypes, s.reports t.1 →
    ∃ dump, maps = some dump ∧ ∃ row ∈ dump.rows, row.pid = s.pid ∧ 0 < t.2 row
  found : ∀ s ∈ out, ∀ t ∈ mapsTypes, ∀ dump front row behind, maps = some dump →
    dump.rows = front ++ row :: behind → row.pid = s.pid →
    offset dump.init front + row.keyed.line.length ≤ 65535 → (s.reports t.1 ↔ 0 < t.2 row)
  descriptors : ∀ s ∈ out, s.reports "EXCESSIVE_FDS" ↔ 500 < countFds (proc s.pid).fd
  unread : ∀ s ∈ out, (proc s.pid).status = none → ¬ s.reports "UNEXPECTED_ACTIVE_PROC"
  -- whatever state the process is in
  running : ∀ s ∈ out, ∀ name text, (proc s.pid).status = some text → IsStatus name text →
    (s.reports "UNEXPECTED_ACTIVE_PROC" ↔ "R (running)".toList <:+: name ∧
      ∃ cmdline, (proc s.pid).cmdline = some cmdline ∧ unexpected (cmdlineText cmdline) = true)

section Scans

variable {before : Char} {summary : List Char} {names : List NameRow} {dump : MapsDump}
  {proc : UInt32 → ProcFiles} {s : Scanned}

/-- What a process of the scan has for findings. -/
theorem findings_of_mem (hs : s ∈ scanTokens before summary (some (namesText names)) proc) :
    1 < s.pid ∧ s.findings = findingsOf (lookupPidMaps before summary s.pid) s.pid (proc s.pid) := by
  have hmem := List.mem_map_of_mem (f := fun s : Scanned => (s.pid, s.findings)) hs
  rw [scanTokens_eq, List.mem_map] at hmem
  obtain ⟨row, hrow, heq⟩ := hmem
  obtain ⟨hpid, hfindings⟩ := Prod.mk.inj heq
  have hone := of_decide_eq_true (List.mem_filter.mp hrow).2
  rw [hpid] at hone
  exact ⟨hone, by rw [← hfindings, hpid]⟩

theorem pid_ne {pid : UInt32} (h : 1 < pid) : pid ≠ 0 ∧ pid ≠ 1 := by
  constructor
  · rintro rfl
    exact absurd h (by decide)
  · rintro rfl
    exact absurd h (by decide)

theorem reports_iff (hs : s ∈ scanTokens before summary (some (namesText names)) proc) (type : String) :
    s.reports type ↔
      let counts := lookupPidMaps before summary s.pid
      (0 < counts.rwx ∧ type = "ANON_RWX_MEM" ∨ 0 < counts.inj ∧ type = "INJECTOR_LIB" ∨
        0 < counts.exd ∧ type = "EXEC_FROM_DATA") ∨
      (500 < countFds (proc s.pid).fd ∧ type = "EXCESSIVE_FDS" ∨
        seemsUnexpected (proc s.pid) = true ∧ type = "UNEXPECTED_ACTIVE_PROC") := by
  obtain ⟨hone, hfindings⟩ := findings_of_mem hs
  rw [Scanned.reports, hfindings]
  exact mem_types (pid_ne hone).1

/-- Each type of the mappings is reported for its count. -/
theorem reports_maps (hs : s ∈ scanTokens before summary (some (namesText names)) proc)
    {t : String × (MapsRow → Nat)} (ht : t ∈ mapsTypes) : ∃ count : MapsCounts → Int,
      (s.reports t.1 ↔ 0 < count (lookupPidMaps before summary s.pid)) ∧
      count ⟨0, 0, 0⟩ = 0 ∧ ∀ row : MapsRow, count ⟨row.rwx, row.inj, row.exd⟩ = t.2 row ∧
        ∀ counts : MapsCounts, counts.rwx ≤ row.rwx ∧ counts.inj ≤ row.inj ∧ counts.exd ≤ row.exd →
          count counts ≤ t.2 row := by
  have hreports := reports_iff hs
  rcases List.mem_cons.mp ht with rfl | ht
  · exact ⟨MapsCounts.rwx, by simp [hreports], rfl, fun _ => ⟨rfl, fun _ h => h.1⟩⟩
  · rcases List.mem_cons.mp ht with rfl | ht
    · exact ⟨MapsCounts.inj, by simp [hreports], rfl, fun _ => ⟨rfl, fun _ h => h.2.1⟩⟩
    · rw [List.mem_singleton.mp ht]
      exact ⟨MapsCounts.exd, by simp [hreports], rfl, fun _ => ⟨rfl, fun _ h => h.2.2⟩⟩

/-- No process is reported for the mappings of another one. -/
theorem row_of_reports
    (hs : s ∈ scanTokens before (loadMapsSummary (some dump.text)) (some (namesText names)) proc)
    {t : String × (MapsRow → Nat)} (ht : t ∈ mapsTypes) (hreports : s.reports t.1) :
    ∃ row ∈ dump.rows, row.pid = s.pid ∧ 0 < t.2 row := by
  obtain ⟨count, hiff, hzero, hrow⟩ := reports_maps hs ht
  have hpos := hiff.mp hreports
  by_cases hlisted : ∃ row ∈ dump.rows, row.pid = s.pid
  · obtain ⟨row, hmem, hpid⟩ := hlisted
    obtain ⟨front, behind, hd⟩ := List.append_of_mem hmem
    have hle := (hrow row).2 _ (lookup_le before hd)
    rw [hpid] at hle
    exact ⟨row, hmem, hpid, by omega⟩
  · push Not at hlisted
    rw [lookup_unlisted before (pid_ne (findings_of_mem hs).1).2 hlisted, hzero] at hpos
    exact absurd hpos (by decide)

/-- Nothing is looked up in an empty file. -/
theorem lookupPidMaps_nil (before : Char) (pid : UInt32) : lookupPidMaps before [] pid = ⟨0, 0, 0⟩ := by
  have hsearch : strstr (rowNeedle (decimal pid.toNat)) [] = none := rfl
  have hstart : ¬ decimal pid.toNat ++ [':'] <+: [] := by simp
  rw [lookupPidMaps, rowOfPid, hsearch, if_neg hstart]
  rfl

/-- A cycle is true of the mappings that are loaded. -/
theorem scans_scanTokens (before : Char) (names : List NameRow) (maps : Option MapsDump)
    (proc : UInt32 → ProcFiles) : Scans before names maps proc
      (scanTokens before (loadMapsSummary (some (mapsText maps))) (some (namesText names)) proc) := by
  constructor
  case order => exact pids_scanTokens before _ names proc
  case complete =>
    intro hroom
    rw [pids_scanTokens, rowsWithin_eq_self hroom]
  case true_of_row =>
    intro s hs t ht hreports
    cases maps with
    | none =>
        obtain ⟨count, hiff, hzero, -⟩ := reports_maps hs ht
        have hpos := hiff.mp hreports
        have hempty : loadMapsSummary (some (mapsText none)) = [] := rfl
        rw [hempty, lookupPidMaps_nil, hzero] at hpos
        exact absurd hpos (by decide)
    | some dump => exact ⟨dump, rfl, row_of_reports hs ht hreports⟩
  case found =>
    rintro s hs t ht dump front row behind rfl hd hpid hroom
    obtain ⟨count, hiff, -, hrow⟩ := reports_maps hs ht
    have hwhole : lookupPidMaps before (loadMapsSummary (some (mapsText (some dump)))) row.pid = _ :=
      lookup_whole before hd hroom
    rw [hpid] at hwhole
    rw [hiff, hwhole, (hrow row).1]
    exact Int.natCast_pos
  case descriptors => exact fun s hs => by simp [reports_iff hs]
  case unread =>
    intro s hs hstatus
    simp [reports_iff hs, seemsUnexpected, hstatus, takenForRunning, procRead]
  case running =>
    intro s hs name text hstatus hname
    have hreports : s.reports "UNEXPECTED_ACTIVE_PROC" ↔ seemsUnexpected (proc s.pid) = true := by
      simp [reports_iff hs]
    rw [hreports, seemsUnexpected, Bool.and_eq_true, hstatus, takenForRunning_iff hname,
      Option.any_eq_true]

end Scans

/-! ## Cycle after cycle -/

/-- What a cycle finds: the files the script has written, and `/proc`. -/
structure Cycle where
  names : List NameRow
  maps : Option MapsDump
  proc : UInt32 → ProcFiles

/-- A cycle, and what it scanned. -/
def cycleStep (before : Char) (loaded : Option (List Char)) (c : Cycle) :
    Option (List Char) × List (Cycle × List Scanned) :=
  let r := deepScan before loaded (some (namesText c.names)) (some (mapsText c.maps)) c.proc
  (r.1, [(c, r.2)])

/-- The cycles of a process that runs in a loop. -/
def cyclesRun (before : Char) (cycles : List Cycle) :
    Option (List Char) × List (Cycle × List Scanned) :=
  Machine.run (cycleStep before) none cycles

/-- The mappings of the first cycle that scanned a process, or else of this one. -/
def mapsOf (earlier : List (Cycle × List Scanned)) (c : Cycle) : Option MapsDump :=
  ((earlier.find? fun e => !e.2.isEmpty).map fun e => e.1.maps).getD c.maps

/-- A cycle is true of the mappings of the first one. -/
def TrueOfFirst (before : Char) (earlier : List (Cycle × List Scanned))
    (e : Cycle × List Scanned) : Prop :=
  Scans before e.1.names (mapsOf earlier e.1) e.1.proc e.2

/-- `g_maps_summary` holds the mappings of the first cycle that scanned a process. -/
def Loaded (loaded : Option (List Char)) (tr : List (Cycle × List Scanned)) : Prop :=
  loaded = (tr.find? fun e => !e.2.isEmpty).map fun e => loadMapsSummary (some (mapsText e.1.maps))

section Cycles

variable {before : Char} {loaded : Option (List Char)} {tr : List (Cycle × List Scanned)}

/-- What a cycle looks processes up in. -/
theorem summary_of_loaded (h : Loaded loaded tr) (c : Cycle) :
    loaded.getD (loadMapsSummary (some (mapsText c.maps))) = loadMapsSummary (some (mapsText (mapsOf tr c))) := by
  rw [h, mapsOf]
  cases tr.find? fun e => !e.2.isEmpty with
  | none => rfl
  | some e => rfl

theorem trueOfFirst_step (h : Loaded loaded tr) (c : Cycle) :
    TrueOfFirst before tr (c, (deepScan before loaded (some (namesText c.names))
      (some (mapsText c.maps)) c.proc).2) := by
  show Scans before c.names (mapsOf tr c) c.proc (scanTokens before (loaded.getD _) _ _)
  rw [summary_of_loaded h]
  exact scans_scanTokens before c.names (mapsOf tr c) c.proc

theorem Loaded.step (h : Loaded loaded tr) (c : Cycle) :
    Loaded (cycleStep before loaded c).1 (tr ++ (cycleStep before loaded c).2) := by
  unfold Loaded cycleStep deepScan
  simp only
  rw [List.find?_append]
  cases hscanned : (scanTokens before (loaded.getD (loadMapsSummary (some (mapsText c.maps))))
      (some (namesText c.names)) c.proc).isEmpty with
  | true =>
      simp only [if_true, List.find?_cons, hscanned, Bool.not_true, List.find?_nil, Option.or_none]
      exact h
  | false =>
      simp only [Bool.false_eq_true, if_false, List.find?_cons, hscanned, Bool.not_false]
      rw [h]
      cases tr.find? fun e => !e.2.isEmpty with
      | none => rfl
      | some e => rfl

end Cycles

/-- **The deep scans of a process are true of the mappings of its first one**, whichever
processes came and went while the script was running, and wherever the files are cut. -/
theorem deep_scans_true (before : Char) (cycles : List Cycle) :
    (cyclesRun before cycles).2.map Prod.fst = cycles ∧
      Always (TrueOfFirst before) (cyclesRun before cycles).2 := by
  have hrun : Loaded (cyclesRun before cycles).1 (cyclesRun before cycles).2 ∧
      (cyclesRun before cycles).2.map Prod.fst = cycles ∧
      Always (TrueOfFirst before) (cyclesRun before cycles).2 := by
    unfold cyclesRun
    refine Machine.run_history (P := fun loaded tr cycles => Loaded loaded tr ∧
      tr.map Prod.fst = cycles ∧ Always (TrueOfFirst before) tr) ?_ ?_ cycles
    · exact ⟨rfl, rfl, .nil⟩
    · rintro loaded tr cycles c ⟨hloaded, hcycles, htrue⟩
      refine ⟨hloaded.step c, ?_, htrue.snoc (trueOfFirst_step hloaded c)⟩
      rw [List.map_append, hcycles]
      rfl
  exact hrun.2

end MiuiserPeruser.Superhero
