import MiuiserPeruser.April.EventQueue
import MiuiserPeruser.Lib.JoinedText
import MiuiserPeruser.Lib.Shell
import MiuiserPeruser.Shredder.BaselineFile

/-!
# casey — new kernel modules (`casey_kernel.c`)

The first run of `check_kernel_modules` keeps the list of the loaded modules
as it was printed, one name in a line, and every later run reports the
modules whose name is not found in that text.

The command has single quotes in it, and `rish_cmd` puts it between single
quotes. So `sh` gives rish the part in front of the blank in `{print $1}`, awk
has a program that is not closed, and no list ever comes back
(`rishCmd_modulesCommand`). If one did, a module that is named like a part of a
known one would not be reported, and after a first run without any module there
would be no list to look it up in (`found_by_name_iff`). shredderd compares
whole names.
-/

namespace MiuiserPeruser.Casey

open CText Shell April

/-- The constants of `sensei_types.h` casey's detections are made of. -/
def classKernel : UInt32 := 3
def priorityCritical : UInt32 := 3
def mitreT1014 : UInt32 := 7

/-- `add_det`, with the limits of `detection_type` and `description`. -/
def addDet (r : List Detection) (cls pri mitre : UInt32) (conf : Int) (type : String) (desc : List Char) :
    List Detection :=
  r ++ [{ pid := 0
          name := []
          detectionClass := cls
          priority := pri
          mitreId := mitre
          detectionType := type.toList.take 63
          description := desc.take 511
          confidence := conf }]

/-! ## rish_cmd -/

/-- The line of `rish_cmd`. -/
def rishLine (cmd : List Char) : List Char :=
  snprintf 2048 ("RISH_APPLICATION_ID=com.termux /data/data/com.termux/files/home/Rish/rish -c '".toList ++
    cmd ++ "' 2>/dev/null".toList)

/-- What rish has the shell of the device run: the word behind `-c`. -/
def rishScript (cmd : List Char) : Option (List Char) :=
  (readCommand (dropParameters .plain (rishLine cmd))).bind fun c => c.words[3]?

/-- What a pipeline prints, where `program` says what a program with these words
makes of its input. -/
def printed (program : List (List Char) → List Char → List Char) (script : List Char) : List Char :=
  ((pipeline script).getD []).foldl (fun input c => program c.words input) []

/-- `rish_cmd`, where `popen` and `malloc` work: the output, as `fgets` and
`strlen` take it. -/
def rishCmd (program : List (List Char) → List Char → List Char) (cmd : List Char) : Option (List Char) :=
  (rishScript cmd).map fun script => (fgetsLines 512 (printed program script)).flatMap cstr

/-- The command of `check_kernel_modules`. -/
def modulesCommand : List Char := "cat /proc/modules 2>/dev/null | awk '{print $1}' | sort".toList

/-! ## check_kernel_modules -/

/-- `modname`: what `sscanf(line, "%127s", modname)` leaves in it. -/
def modname (line : List Char) : List Char := textAt (scanf (percentS 127) line) 0

/-- One line of the list, against the baseline. -/
def checkModule (baseline : List Char) (r : List Detection) (line : List Char) : List Detection :=
  if (modname line).length > 0 ∧ (strstr (modname line) baseline).isNone then
    addDet r classKernel priorityCritical mitreT1014 93 "NEW_KMODULE"
      (snprintf 512 ("NEW kernel module since baseline: ".toList ++ modname line))
  else r

/-- `check_kernel_modules`: what `rish_cmd` returns for the list, the file of
the baseline, and the detections; the file and the detections afterwards. -/
def checkKernelModules (mods file : Option (List Char)) (r : List Detection) :
    Option (List Char) × List Detection :=
  match mods with
  | none => (file, r)
  | some mods =>
      if mods = [] then (file, r)
      else
        match file with
        | none => (some mods, r)
        | some baseline => (file, (lineTokens mods).foldl (checkModule (cstr baseline)) r)

/-! ## The claim -/

/-- The name of a module. -/
structure ModuleName where
  text : List Char
  ne_nil : text ≠ []
  word : ∀ c ∈ text, isspace c = false ∧ c ≠ '\x00'
  length_le : text.length ≤ 127

/-- What the commands print. -/
def printModules (names : List ModuleName) : List Char := textLines (names.map ModuleName.text)

/-- The file after a baseline run that is given a list, and what a later run
reports. -/
def baselineFile (baseline : List ModuleName) : Option (List Char) :=
  (checkKernelModules (some (printModules baseline)) none []).1

def reported (baseline current : List ModuleName) : List Detection :=
  (checkKernelModules (some (printModules current)) (baselineFile baseline) []).2

/-- The detection of a new module. -/
def newKmodule (name : ModuleName) : Detection :=
  { pid := 0
    name := []
    detectionClass := classKernel
    priority := priorityCritical
    mitreId := mitreT1014
    detectionType := "NEW_KMODULE".toList
    description := "NEW kernel module since baseline: ".toList ++ name.text
    confidence := 93 }

/-- The modules that are not in the baseline are reported, and no others;
shredderd misses the same names in a table of that baseline. -/
structure FoundByName (report : List Detection) (baseline current : List ModuleName) : Prop where
  exact : report = (current.filter fun c => c.text ∉ baseline.map ModuleName.text).map newKmodule
  agrees : (∀ m ∈ baseline ++ current, 2 ≤ m.text.length ∧ m.text.length ≤ 63) →
    ∀ st : Shredder.DriftState, st.names = baseline.map ModuleName.text →
      ∀ c ∈ current, newKmodule c ∈ report ↔ Shredder.findInBaseline st c.text = none

/-- What the programs of a device print, with these modules loaded. -/
abbrev Device := List ModuleName → List (List Char) → List Char → List Char

/-- awk rejects an action that is not closed, and prints nothing. -/
def AwkRejects (device : Device) : Prop :=
  ∀ loaded program input, program.head? = some '\x7b' → '\x7d' ∉ program →
    device loaded ["awk".toList, program] input = []

section System

variable (device : Device)

/-- A run, with these modules loaded. -/
def scan (loaded : List ModuleName) (file : Option (List Char)) : Option (List Char) × List Detection :=
  checkKernelModules (rishCmd (device loaded) modulesCommand) file []

/-- What a run reports after a first one. -/
def systemReport (baseline current : List ModuleName) : List Detection :=
  (scan device current (scan device baseline none).1).2

end System

section Modules

variable {baseline current : List ModuleName}

theorem ModuleName.isLine (m : ModuleName) : IsLine m.text := by
  refine ⟨m.ne_nil, fun h => ?_⟩
  exact absurd (m.word _ h).1 (by decide)

theorem lineTokens_printModules (names : List ModuleName) :
    lineTokens (printModules names) = names.map ModuleName.text := by
  apply lineTokens_textLines
  intro l hl
  obtain ⟨m, -, rfl⟩ := List.mem_map.mp hl
  exact m.isLine

theorem nul_notMem_printModules (names : List ModuleName) : '\x00' ∉ printModules names := by
  intro h
  obtain ⟨l, hl, hnul⟩ := List.mem_flatMap.mp h
  obtain ⟨m, -, rfl⟩ := List.mem_map.mp hl
  rcases List.mem_append.mp hnul with hnul | hnul
  · exact (m.word _ hnul).2 rfl
  · exact absurd (List.mem_singleton.mp hnul) (by decide)

theorem printModules_eq_nil_iff {names : List ModuleName} : printModules names = [] ↔ names = [] := by
  cases names with
  | nil => exact iff_of_true rfl rfl
  | cons m names => simp [printModules, textLines]

theorem modname_text (m : ModuleName) : modname m.text = m.text := by
  have hdrop : m.text.dropWhile isspace = m.text := by
    obtain ⟨c, w, hcw⟩ := List.exists_cons_of_ne_nil m.ne_nil
    have hc := (m.word c (by simp [hcw])).1
    rw [hcw]
    exact List.dropWhile_cons_of_neg (by simp [hc])
  have htake : m.text.takeWhile (fun c => !isspace c) = m.text :=
    List.takeWhile_eq_self_iff.mpr fun c hc => by simp [(m.word c hc).1]
  have hscan : scanf (percentS 127) m.text = [.text m.text] := by
    show scanf [.chars 127 fun c => !isspace c] (m.text.dropWhile isspace) = _
    rw [hdrop]
    show (if (m.text.takeWhile fun c => !isspace c).take 127 = [] then _ else _) = _
    rw [htake, List.take_of_length_le m.length_le, if_neg m.ne_nil]
    rfl
  rw [modname, hscan]
  rfl

/-- The report of a name that is not found. -/
theorem checkModule_text (r : List Detection) (baseline : List Char) (m : ModuleName) :
    checkModule baseline r m.text = if m.text <:+: baseline then r else r ++ [newKmodule m] := by
  have hpos : 0 < m.text.length := List.length_pos_of_ne_nil m.ne_nil
  have hlen := m.length_le
  rw [checkModule, modname_text]
  by_cases hfound : m.text <:+: baseline
  · rw [if_pos hfound, if_neg]
    rintro ⟨-, hnone⟩
    exact strstr_eq_none_iff.mp (Option.isNone_iff_eq_none.mp hnone) hfound
  · have hdesc : ("NEW kernel module since baseline: ".toList ++ m.text).length ≤ 511 := by
      rw [List.length_append]
      show 34 + _ ≤ 511
      omega
    rw [if_neg hfound, if_pos ⟨hpos, Option.isNone_iff_eq_none.mpr (strstr_eq_none_iff.mpr hfound)⟩, addDet,
      snprintf_fits (by omega), List.take_of_length_le hdesc]
    rfl

theorem foldl_checkModule (baseline : List Char) (names : List ModuleName) (r : List Detection) :
    (names.map ModuleName.text).foldl (checkModule baseline) r =
      r ++ (names.filter fun c => ¬ c.text <:+: baseline).map newKmodule := by
  induction names generalizing r with
  | nil => simp
  | cons m names ih =>
      rw [List.map_cons, List.foldl_cons, checkModule_text, ih]
      by_cases hfound : m.text <:+: baseline
      · simp [hfound]
      · simp [hfound]

theorem baselineFile_eq (baseline : List ModuleName) :
    baselineFile baseline = if baseline = [] then none else some (printModules baseline) := by
  simp only [baselineFile, checkKernelModules, printModules_eq_nil_iff]
  by_cases hnil : baseline = []
  · rw [if_pos hnil, if_pos hnil]
  · rw [if_neg hnil, if_neg hnil]

/-- **What a later run reports**: the names that are not found in the text. -/
theorem reported_eq (hbase : baseline ≠ []) (current : List ModuleName) :
    reported baseline current =
      (current.filter fun c => ¬ c.text <:+: printModules baseline).map newKmodule := by
  rw [reported, baselineFile_eq, if_neg hbase]
  by_cases hnil : current = []
  · rw [hnil]
    rfl
  · have hprint : printModules current ≠ [] := fun h => hnil (printModules_eq_nil_iff.mp h)
    simp only [checkKernelModules, if_neg hprint]
    rw [lineTokens_printModules, cstr_eq_self (nul_notMem_printModules baseline), foldl_checkModule,
      List.nil_append]

/-- A name is found exactly if it is part of a name. -/
theorem infix_printModules_iff (c : ModuleName) :
    c.text <:+: printModules baseline ↔ ∃ b ∈ baseline, c.text <:+: b.text := by
  show c.text <:+: joined '\n' (baseline.map ModuleName.text) ↔ _
  rw [infix_joined_iff c.isLine.2 c.ne_nil]
  simp

theorem newKmodule_text {m c : ModuleName} (h : newKmodule m = newKmodule c) : m.text = c.text := by
  have hdesc := congrArg Detection.description h
  exact List.append_cancel_left hdesc

/-- `find_in_baseline` finds the names of its table. -/
theorem findInBaseline_eq_none_iff {st : Shredder.DriftState} {name : List Char} :
    Shredder.findInBaseline st name = none ↔ name ∉ st.names := by
  rw [Shredder.findInBaseline, List.find?_eq_none, Shredder.DriftState.names, List.mem_map]
  constructor
  · rintro h ⟨m, hm, hname⟩
    exact h m hm (decide_eq_true hname)
  · intro h m hm hname
    exact h ⟨m, hm, of_decide_eq_true hname⟩

/-- A module that is known is found. -/
theorem notMem_of_notPart {c : ModuleName} (h : ¬ c.text <:+: printModules baseline) :
    c.text ∉ baseline.map ModuleName.text := by
  intro hmem
  obtain ⟨b, hb, hbc⟩ := List.mem_map.mp hmem
  exact h (infix_printModules_iff c |>.mpr ⟨b, hb, hbc ▸ List.infix_rfl⟩)

/-- The reports agree with shredderd if they are right. -/
theorem agrees_of_exact (h : reported baseline current =
      (current.filter fun c => c.text ∉ baseline.map ModuleName.text).map newKmodule)
    {st : Shredder.DriftState} (hst : st.names = baseline.map ModuleName.text) {c : ModuleName}
    (hc : c ∈ current) :
    newKmodule c ∈ reported baseline current ↔ Shredder.findInBaseline st c.text = none := by
  rw [h, findInBaseline_eq_none_iff, hst, List.mem_map]
  constructor
  · rintro ⟨m, hm, hmc⟩
    rw [← newKmodule_text hmc]
    exact of_decide_eq_true (List.mem_filter.mp hm).2
  · intro hnot
    exact ⟨c, List.mem_filter.mpr ⟨hc, decide_eq_true hnot⟩, rfl⟩

theorem exact_iff (hbase : baseline ≠ []) (current : List ModuleName) :
    reported baseline current =
        (current.filter fun c => c.text ∉ baseline.map ModuleName.text).map newKmodule ↔
      ∀ c ∈ current, c.text ∉ baseline.map ModuleName.text → ∀ b ∈ baseline, ¬ c.text <:+: b.text := by
  have hpart : ∀ c : ModuleName, ¬ c.text <:+: printModules baseline ↔
      ∀ b ∈ baseline, ¬ c.text <:+: b.text := by
    intro c
    rw [infix_printModules_iff]
    push Not
    exact Iff.rfl
  have hsub : (current.filter fun c => ¬ c.text <:+: printModules baseline).Sublist
      (current.filter fun c => c.text ∉ baseline.map ModuleName.text) := by
    apply List.monotone_filter_right
    intro c hc
    exact decide_eq_true (notMem_of_notPart (of_decide_eq_true hc))
  rw [reported_eq hbase]
  constructor
  · intro h c hc hnew
    have hlen := congrArg List.length h
    rw [List.length_map, List.length_map] at hlen
    have hin : c ∈ current.filter fun c => ¬ c.text <:+: printModules baseline := by
      rw [hsub.eq_of_length hlen]
      exact List.mem_filter.mpr ⟨hc, decide_eq_true hnew⟩
    exact (hpart c).mp (of_decide_eq_true (List.mem_filter.mp hin).2)
  · intro h
    congr 1
    apply List.filter_congr
    intro c hc
    rw [decide_eq_decide]
    exact ⟨notMem_of_notPart, fun hnew => (hpart c).mpr (h c hc hnew)⟩

end Modules

/-- **The list never comes back**: awk is given what is in front of the blank. -/
theorem rishCmd_modulesCommand {device : Device} (hawk : AwkRejects device) (loaded : List ModuleName) :
    rishCmd (device loaded) modulesCommand = some [] := by
  have hscript : rishScript modulesCommand =
      some "cat /proc/modules 2>/dev/null | awk \x7bprint".toList := by
    unfold modulesCommand
    rw [String.toList_ofList, String.toList_ofList]
    decide +kernel
  have hpipeline : pipeline "cat /proc/modules 2>/dev/null | awk \x7bprint".toList =
      some [⟨["cat".toList, "/proc/modules".toList], [(['2'], '>', "/dev/null".toList)]⟩,
        ⟨["awk".toList, "\x7bprint".toList], []⟩] := by
    rw [String.toList_ofList]
    decide +kernel
  have hprinted : printed (device loaded) "cat /proc/modules 2>/dev/null | awk \x7bprint".toList = [] := by
    rw [printed, hpipeline]
    exact hawk loaded "\x7bprint".toList _ rfl (by decide)
  rw [rishCmd, hscript, Option.map_some, hprinted]
  rfl

theorem systemReport_eq {device : Device} (hawk : AwkRejects device) (baseline current : List ModuleName) :
    systemReport device baseline current = [] := by
  rw [systemReport, scan, rishCmd_modulesCommand hawk]
  rfl

/-- Nothing is the right report where no module is new. -/
theorem foundByName_nil_iff (baseline current : List ModuleName) :
    FoundByName [] baseline current ↔ ∀ c ∈ current, c.text ∈ baseline.map ModuleName.text := by
  constructor
  · intro h c hc
    by_contra hnew
    have hmem : newKmodule c ∈ (current.filter fun c => c.text ∉ baseline.map ModuleName.text).map newKmodule :=
      List.mem_map_of_mem (List.mem_filter.mpr ⟨hc, decide_eq_true hnew⟩)
    rw [← h.exact] at hmem
    cases hmem
  · intro h
    constructor
    · have hnone : (current.filter fun c => c.text ∉ baseline.map ModuleName.text) = [] := by
        rw [List.filter_eq_nil_iff]
        intro c hc
        simpa using h c hc
      rw [hnone]
      rfl
    · intro _ st hst c hc
      rw [findInBaseline_eq_none_iff, hst]
      exact iff_of_false List.not_mem_nil fun hnew => hnew (h c hc)

/-- **New modules are found by name exactly where there are none.** And where a
list would come back: exactly if there is a baseline and no new name is part of
a known one. -/
theorem found_by_name_iff (device : Device) (hawk : AwkRejects device) (baseline current : List ModuleName) :
    (FoundByName (systemReport device baseline current) baseline current ↔
      ∀ c ∈ current, c.text ∈ baseline.map ModuleName.text) ∧
    (FoundByName (reported baseline current) baseline current ↔
      (baseline ≠ [] ∨ current = []) ∧
      ∀ c ∈ current, c.text ∉ baseline.map ModuleName.text → ∀ b ∈ baseline, ¬ c.text <:+: b.text) := by
  constructor
  · rw [systemReport_eq hawk]
    exact foundByName_nil_iff baseline current
  by_cases hbase : baseline = []
  · -- without a baseline the second run is the first one
    subst hbase
    have hnone : reported [] current = [] := by
      rw [reported, baselineFile_eq, if_pos rfl]
      by_cases hnil : printModules current = []
      · simp [checkKernelModules, hnil]
      · simp [checkKernelModules, hnil]
    rw [hnone, foundByName_nil_iff]
    constructor
    · intro h
      refine ⟨Or.inr ?_, fun _ _ _ b hb => by cases hb⟩
      rw [List.eq_nil_iff_forall_not_mem]
      intro c hc
      exact List.not_mem_nil (h c hc)
    · rintro ⟨hcurrent, -⟩
      obtain rfl : current = [] := hcurrent.resolve_left fun h => h rfl
      exact fun c hc => by cases hc
  · constructor
    · intro h
      exact ⟨Or.inl hbase, (exact_iff hbase current).mp h.exact⟩
    · rintro ⟨-, h⟩
      have hexact := (exact_iff hbase current).mpr h
      exact ⟨hexact, fun _ st hst c hc => agrees_of_exact hexact hst hc⟩

/-- What the name of a module has to be. -/
def isModuleName (text : List Char) : Bool :=
  text ≠ [] && text.all (fun c => !isspace c && c ≠ '\x00') && text.length ≤ 127

section Checked

variable {text : List Char}

theorem ne_nil_of_check (h : isModuleName text = true) : text ≠ [] := by
  simp only [isModuleName, Bool.and_eq_true, decide_eq_true_eq] at h
  exact h.1.1

theorem word_of_check (h : isModuleName text = true) : ∀ c ∈ text, isspace c = false ∧ c ≠ '\x00' := by
  simp only [isModuleName, Bool.and_eq_true] at h
  intro c hc
  simpa using List.all_eq_true.mp h.1.2 c hc

theorem length_of_check (h : isModuleName text = true) : text.length ≤ 127 := by
  simp only [isModuleName, Bool.and_eq_true, decide_eq_true_eq] at h
  exact h.2

end Checked

def moduleName (text : List Char) (h : isModuleName text = true) : ModuleName :=
  ⟨text, ne_nil_of_check h, word_of_check h, length_of_check h⟩

/-- The driver of the wireless chip, and a module that is named like its end. -/
def wlanDriver : ModuleName := moduleName "qca_cld3_wlan".toList rfl
def wlanModule : ModuleName := moduleName "wlan".toList rfl

/-- A device with these three programs: cat prints the rows of the modules, awk
knows the program of the source, and sort leaves a single line as it is. -/
def plainDevice : Device := fun loaded words input =>
  if words = ["cat".toList, "/proc/modules".toList] then
    textLines (loaded.map fun m => m.text ++ " 4096 0 - Live 0x0".toList)
  else if words = ["awk".toList, "\x7bprint $1\x7d".toList] then
    textLines ((lineTokens input).map (List.takeWhile (· ≠ ' ')))
  else if words = ["sort".toList] then input
  else []

theorem plainDevice_awkRejects : AwkRejects plainDevice := by
  intro loaded program input _ hopen
  have hcat : ["awk".toList, program] ≠ ["cat".toList, "/proc/modules".toList] := by
    intro h
    exact absurd (List.cons.inj h).1 (by decide)
  have hclosed : ["awk".toList, program] ≠ ["awk".toList, "\x7bprint $1\x7d".toList] := by
    intro h
    obtain rfl : program = "\x7bprint $1\x7d".toList := (List.cons.inj (List.cons.inj h).2).1
    exact hopen (by decide)
  have hsort : ["awk".toList, program] ≠ ["sort".toList] := by
    intro h
    exact absurd (List.cons.inj h).1 (by decide)
  exact ((if_neg hcat).trans (if_neg hclosed)).trans (if_neg hsort)

/-- A device whose modules stay the same. -/
theorem found_by_name_iff_same :
    AwkRejects plainDevice ∧ FoundByName (systemReport plainDevice [wlanDriver] [wlanDriver])
      [wlanDriver] [wlanDriver] := by
  refine ⟨plainDevice_awkRejects, ?_⟩
  refine (found_by_name_iff plainDevice plainDevice_awkRejects [wlanDriver] [wlanDriver]).1.mpr ?_
  intro c hc
  exact List.mem_map_of_mem hc

/-- The second module is new and not reported, and it would not be either if the
list came back. -/
theorem wlan_not_reported :
    ¬ FoundByName (systemReport plainDevice [wlanDriver] [wlanModule]) [wlanDriver] [wlanModule] ∧
      ¬ FoundByName (reported [wlanDriver] [wlanModule]) [wlanDriver] [wlanModule] := by
  constructor
  · intro h
    have hlen := congrArg List.length h.exact
    revert hlen
    decide +kernel
  · intro h
    have hlen := congrArg List.length h.exact
    revert hlen
    decide +kernel

end MiuiserPeruser.Casey
