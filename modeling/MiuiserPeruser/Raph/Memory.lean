import MiuiserPeruser.Casey.Modules
import MiuiserPeruser.Lib.KeyedRows

/-!
# raph — the memory of the processes (`raph_memory.c`)

A script writes a row for every process: its number, its anonymous
mappings that are writable and executable, the lines that name an injector,
and the executable mappings of `/data`. `raph_memory_scan` looks a process up
in the first 65535 bytes of them. What is behind the cut is not reported, and
the counts of the row at the cut may be smaller; but no process gets the counts
of another one (`lookup_listed`, `lookup_unlisted`).
-/

namespace MiuiserPeruser.Raph

open CText April
open Casey (addDet)

def classHook : UInt32 := 4
def classMemory : UInt32 := 6
def priorityHigh : UInt32 := 2
def mitreT1055 : UInt32 := 1

/-! ## The scan -/

/-- `g_maps_summary` after `load_maps_summary`, with the file of the script. -/
def loadMapsSummary (file : Option (List Char)) : List Char :=
  (file.map fun text => cstr (text.take 65535)).getD []

/-- `rwx`, `inj` and `exd`. -/
structure MapsCounts where
  rwx : Int
  inj : Int
  exd : Int
  deriving DecidableEq

/-- `p` in `lookup_pid_maps`. At the start of the file it points in front of the buffer. -/
def rowOfPid (before : Char) (summary : List Char) (pid : UInt32) : Option (List Char) :=
  (strstr (rowNeedle (decimal pid.toNat)) summary).or
    (if decimal pid.toNat ++ [':'] <+: summary then some (before :: summary) else none)

/-- `lookup_pid_maps`. -/
def lookupPidMaps (before : Char) (summary : List Char) (pid : UInt32) : MapsCounts :=
  match rowOfPid before summary pid with
  | none => ⟨0, 0, 0⟩
  | some p =>
      let counts := scanf (countsFormat 3) (afterFirst ':' p)
      ⟨numAt counts 0, numAt counts 1, numAt counts 2⟩

/-- `raph_memory_scan`. -/
def memoryScan (before : Char) (summary : List Char) (pid : UInt32) (r : List Detection) :
    List Detection :=
  if pid = 0 then r
  else
    let counts := lookupPidMaps before summary pid
    let pidText := decimal pid.toNat
    let r :=
      if 0 < counts.rwx then
        addDet r classMemory priorityHigh mitreT1055 85 "ANON_RWX_MEM"
          (snprintf 512 ("Anonymous RWX memory in PID ".toList ++ pidText ++
            " — possible injector".toList))
      else r
    let r :=
      if 0 < counts.inj then
        addDet r classHook Casey.priorityCritical mitreT1055 99 "INJECTOR_LIB"
          (snprintf 512 ("Injector library in PID ".toList ++ pidText ++ " maps".toList))
      else r
    if 0 < counts.exd then
      addDet r classMemory priorityHigh mitreT1055 80 "EXEC_FROM_DATA"
        (snprintf 512 ("Suspicious exec mapping from /data in PID ".toList ++ pidText))
    else r

/-! ## What the script writes -/

/-- A row of `pid_maps_summary`. The counts are numbers of lines. -/
structure MapsRow where
  pid : UInt32
  rwx : Nat
  inj : Nat
  exd : Nat
  fits : rwx < 2 ^ 31 ∧ inj < 2 ^ 31 ∧ exd < 2 ^ 31

def MapsRow.counts (row : MapsRow) : List Nat := [row.rwx, row.inj, row.exd]

theorem mem_countsText {ns : List Nat} {c : Char} (h : c ∈ countsText ns) :
    c = ':' ∨ c.isDigit = true := by
  induction ns with
  | nil => cases h
  | cons n ns ih =>
      cases ns with
      | nil => exact .inr (isDigit_decimal h)
      | cons m ns =>
          rcases List.mem_append.mp h with h | h
          · exact .inr (isDigit_decimal h)
          · rcases List.mem_cons.mp h with h | h
            · exact .inl h
            · exact ih h

theorem notMem_decimal {c : Char} (hc : c.isDigit = false) (n : Nat) : c ∉ decimal n := by
  intro h
  rw [isDigit_decimal h] at hc
  cases hc

/-- The row, with the number of the process for a key. -/
def MapsRow.keyed (row : MapsRow) : KeyedRow where
  key := decimal row.pid.toNat
  value := countsText row.counts
  key_plain := ⟨notMem_decimal rfl _, notMem_decimal rfl _⟩
  value_plain := fun h => by
    rcases mem_countsText h with h | h
    · exact absurd h (by decide)
    · exact absurd h (by decide)

/-- The file. `ls` sorts the process 1 in front of the others. -/
structure MapsDump where
  init : MapsRow
  rows : List MapsRow
  init_pid : init.pid = 1
  distinct : ((init :: rows).map MapsRow.pid).Nodup

def MapsDump.text (d : MapsDump) : List Char :=
  textLines (d.init.keyed.line :: d.rows.map fun row => row.keyed.line)

section Lookup

variable {d : MapsDump} {pid : UInt32} {row : MapsRow} {front behind : List MapsRow}

theorem key_eq_iff (row row' : MapsRow) : row.keyed.key = row'.keyed.key ↔ row.pid = row'.pid :=
  ⟨fun h => UInt32.toNat_inj.mp (decimal_injective h), fun h => congrArg (fun p : UInt32 => decimal p.toNat) h⟩

theorem nul_notMem_text (d : MapsDump) : '\x00' ∉ d.text := by
  have hline : ∀ row : MapsRow, '\x00' ∉ row.keyed.line := by
    intro row h
    rcases List.mem_append.mp h with h | h
    · exact notMem_decimal rfl _ h
    · rcases List.mem_cons.mp h with h | h
      · exact absurd h (by decide)
      · rcases mem_countsText h with h | h
        · exact absurd h (by decide)
        · exact absurd h (by decide)
  intro h
  obtain ⟨line, hmem, hnul⟩ := List.mem_flatMap.mp h
  rcases List.mem_append.mp hnul with hnul | hnul
  · rcases List.mem_cons.mp hmem with rfl | hmem
    · exact hline _ hnul
    · obtain ⟨row, -, rfl⟩ := List.mem_map.mp hmem
      exact hline row hnul
  · exact absurd (List.mem_singleton.mp hnul) (by decide)

theorem loadMapsSummary_text (d : MapsDump) : loadMapsSummary (some d.text) = d.text.take 65535 :=
  cstr_eq_self fun h => nul_notMem_text d (List.mem_of_mem_take h)

/-- The first row is that of process 1, so no other process is looked up there. -/
theorem not_prefix_text (hpid : pid ≠ 1) (n : Nat) :
    ¬ decimal pid.toNat ++ [':'] <+: d.text.take n := by
  intro h
  have htext : d.text = d.init.keyed.line ++
      '\n' :: textLines (d.rows.map fun row => row.keyed.line) := textLines_cons _ _
  have hprefix := h.trans (List.take_prefix n d.text)
  rw [htext, key_prefix_iff (notMem_decimal rfl _)] at hprefix
  have hinit : d.init.pid = pid := UInt32.toNat_inj.mp (decimal_injective hprefix)
  exact hpid (hinit.symm.trans d.init_pid)

theorem map_keyed_line (rows : List MapsRow) :
    (rows.map fun row => row.keyed.line) = (rows.map MapsRow.keyed).map KeyedRow.line := by
  rw [List.map_map]
  rfl

/-- A process without a row has no counts. -/
theorem lookup_unlisted (before : Char) (hpid : pid ≠ 1) (h : ∀ row ∈ d.rows, row.pid ≠ pid) :
    lookupPidMaps before (loadMapsSummary (some d.text)) pid = ⟨0, 0, 0⟩ := by
  have hrows : ∀ r ∈ d.rows.map MapsRow.keyed, r.key ≠ decimal pid.toNat := by
    intro r hr
    obtain ⟨row, hrow, rfl⟩ := List.mem_map.mp hr
    exact fun hkey => h row hrow (UInt32.toNat_inj.mp (decimal_injective hkey))
  have hsearch : strstr (rowNeedle (decimal pid.toNat)) (d.text.take 65535) = none := by
    have habsent := strstr_key_absent (notMem_decimal rfl _) (isLine_line d.init.keyed).2 hrows
    rw [← map_keyed_line] at habsent
    refine strstr_eq_none_iff.mpr fun hfound => ?_
    exact strstr_eq_none_iff.mp habsent (hfound.trans (List.take_prefix _ _).isInfix)
  have hrow : rowOfPid before (d.text.take 65535) pid = none := by
    rw [rowOfPid, hsearch, if_neg (not_prefix_text hpid _), Option.none_or]
  rw [lookupPidMaps, loadMapsSummary_text, hrow]

/-- Where the row of a process begins. -/
def offset (init : MapsRow) (front : List MapsRow) : Nat :=
  (textLines ((init :: front).map fun row => row.keyed.line)).length

/-- What is read of the row of a process. -/
theorem lookup_row (before : Char) (hd : d.rows = front ++ row :: behind) :
    lookupPidMaps before (loadMapsSummary (some d.text)) row.pid =
      let room := 65535 - offset d.init front - row.keyed.key.length - 1
      let counts := scanf (countsFormat 3)
        ((countsText row.counts ++
          '\n' :: textLines (behind.map fun row => row.keyed.line)).take room)
      if offset d.init front + row.keyed.key.length + 1 ≤ 65535 then
        ⟨numAt counts 0, numAt counts 1, numAt counts 2⟩
      else ⟨0, 0, 0⟩ := by
  have hdistinct : ((d.init :: (front ++ row :: behind)).map MapsRow.pid).Nodup := hd ▸ d.distinct
  rw [List.map_cons, List.nodup_cons, List.map_append, List.map_cons] at hdistinct
  obtain ⟨hinit, hnodup⟩ := hdistinct
  have hpid : row.pid ≠ 1 := by
    intro h
    rw [d.init_pid, ← h] at hinit
    exact hinit (by simp)
  have hfront : ∀ r ∈ front.map MapsRow.keyed, r.key ≠ row.keyed.key := by
    intro r hr
    obtain ⟨row', hrow', rfl⟩ := List.mem_map.mp hr
    rw [Ne, key_eq_iff]
    have hdisjoint := (List.nodup_append.mp hnodup).2.2
    exact hdisjoint _ (List.mem_map_of_mem hrow') _ List.mem_cons_self
  have htext : d.text = textLines ((d.init.keyed.line :: (front.map MapsRow.keyed).map KeyedRow.line) ++
      row.keyed.line :: (behind.map MapsRow.keyed).map KeyedRow.line) := by
    rw [MapsDump.text, hd, map_keyed_line]
    simp
  have hsearch := strstr_key_take (isLine_line d.init.keyed).2 hfront (behind.map MapsRow.keyed) 65535
  have hoffset : (textLines (d.init.keyed.line :: (front.map MapsRow.keyed).map KeyedRow.line)).length =
      offset d.init front := by
    rw [← map_keyed_line, offset, List.map_cons]
  rw [← htext, hoffset] at hsearch
  have hfound : rowOfPid before (d.text.take 65535) row.pid =
      (strstr (rowNeedle row.keyed.key) (d.text.take 65535)).or none := by
    rw [rowOfPid, if_neg (not_prefix_text hpid _)]
    rfl
  rw [lookupPidMaps, loadMapsSummary_text, hfound, hsearch]
  by_cases hroom : offset d.init front + row.keyed.key.length + 1 ≤ 65535
  · simp only [if_pos hroom, Option.some_or]
    rw [afterFirst_line_take row.keyed _ (by omega), ← map_keyed_line]
    rfl
  · simp only [if_neg hroom, Option.none_or]

theorem lt_of_mem_counts (row : MapsRow) : ∀ n ∈ row.counts, n < 2 ^ 31 := by
  intro n hn
  rcases List.mem_cons.mp hn with rfl | hn
  · exact row.fits.1
  · rcases List.mem_cons.mp hn with rfl | hn
    · exact row.fits.2.1
    · rw [List.mem_singleton.mp hn]
      exact row.fits.2.2

/-- A row that the buffer holds is read as it is. -/
theorem lookup_whole (before : Char) (hd : d.rows = front ++ row :: behind)
    (hroom : offset d.init front + row.keyed.line.length ≤ 65535) :
    lookupPidMaps before (loadMapsSummary (some d.text)) row.pid = ⟨row.rwx, row.inj, row.exd⟩ := by
  have hline : row.keyed.line.length =
      row.keyed.key.length + ((countsText row.counts).length + 1) := by
    rw [KeyedRow.line, List.length_append, List.length_cons]
    rfl
  have hscan : ∀ k, scanf (countsFormat 3) (countsText row.counts ++
      ('\n' :: textLines (behind.map fun row => row.keyed.line)).take k) =
        row.counts.map fun n => .num n :=
    fun k => scanf_counts (lt_of_mem_counts row) ((endsCount_newline _).take k)
  rw [lookup_row before hd]
  simp only
  rw [if_pos (by omega), List.take_append,
    List.take_of_length_le (l := countsText row.counts) (by omega), hscan]
  rfl

/-- No count that is read is greater than the one in the row. -/
theorem lookup_le (before : Char) (hd : d.rows = front ++ row :: behind) :
    (lookupPidMaps before (loadMapsSummary (some d.text)) row.pid).rwx ≤ row.rwx ∧
      (lookupPidMaps before (loadMapsSummary (some d.text)) row.pid).inj ≤ row.inj ∧
      (lookupPidMaps before (loadMapsSummary (some d.text)) row.pid).exd ≤ row.exd := by
  rw [lookup_row before hd]
  simp only
  split
  · have hle := fun i => (numAt_counts_take (lt_of_mem_counts row)
      (endsCount_newline (textLines (behind.map fun row => row.keyed.line)))
      (65535 - offset d.init front - row.keyed.key.length - 1) i).2
    exact ⟨hle 0, hle 1, hle 2⟩
  · exact ⟨Int.natCast_nonneg _, Int.natCast_nonneg _, Int.natCast_nonneg _⟩

end Lookup

/-! ## What is reported -/

/-- What the scan reports of some counts. -/
def memoryFindings (counts : MapsCounts) (pid : UInt32) : List Detection :=
  (if 0 < counts.rwx then
    addDet [] classMemory priorityHigh mitreT1055 85 "ANON_RWX_MEM"
      (snprintf 512 ("Anonymous RWX memory in PID ".toList ++ decimal pid.toNat ++
        " — possible injector".toList))
  else []) ++
  (if 0 < counts.inj then
    addDet [] classHook Casey.priorityCritical mitreT1055 99 "INJECTOR_LIB"
      (snprintf 512 ("Injector library in PID ".toList ++ decimal pid.toNat ++ " maps".toList))
  else []) ++
  if 0 < counts.exd then
    addDet [] classMemory priorityHigh mitreT1055 80 "EXEC_FROM_DATA"
      (snprintf 512 ("Suspicious exec mapping from /data in PID ".toList ++ decimal pid.toNat))
  else []

/-- The detections are appended to those that are there. -/
theorem memoryScan_eq {pid : UInt32} (hpid : pid ≠ 0) (before : Char) (summary : List Char)
    (r : List Detection) :
    memoryScan before summary pid r = r ++ memoryFindings (lookupPidMaps before summary pid) pid := by
  unfold memoryScan memoryFindings
  rw [if_neg hpid]
  simp only [addDet]
  split_ifs
  all_goals simp

end MiuiserPeruser.Raph
