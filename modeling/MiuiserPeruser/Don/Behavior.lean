import MiuiserPeruser.Casey.Modules

/-!
# don — the behavior of a process (`don_behavior.c`)

`don_behavior_analyze` counts the open files of a process, and reports a
process that is running if its command line names nothing known. For the
state it reads `/proc/PID/status`, but only the first line, and there stands
the name: a process is taken for a running one if that is part of its name,
and never for the state it is in (`takenForRunning_iff`).
-/

namespace MiuiserPeruser.Don

open CText April
open Casey (addDet)

def classBehavior : UInt32 := 5
def priorityLow : UInt32 := 0
def priorityMedium : UInt32 := 1
def mitreT1071 : UInt32 := 15

/-! ## The analysis -/

/-- What `/proc` shows of a process; a file that cannot be opened is `none`. -/
structure ProcFiles where
  fd : Option (List (List Char))
  status : Option (List Char)
  cmdline : Option (List Char)

def isLineEnd (c : Char) : Bool := c = '\n' ∨ c = '\r'

/-- `proc_read`. -/
def procRead (file : Option (List Char)) : Option (List Char) :=
  match file with
  | none => none
  | some text =>
      let buf := (cstr ((fgetsLines 512 text).headD [])).rdropWhile isLineEnd
      if buf = [] then none else some buf

/-- `count_fds`. -/
def countFds (fd : Option (List (List Char))) : Int :=
  match fd with
  | none => -1
  | some names => names.countP (·.head? ≠ some '.')

/-- `cmdline`, after the loop that makes spaces of the NUL bytes: those behind the text too. -/
def cmdlineText (text : List Char) : List Char :=
  cstr (((text.take 127).rightpad 128 '\x00').mapIdx fun i c =>
    if c = '\x00' ∧ 0 < i ∧ i < 127 then ' ' else c)

/-- The words that a known command line has. -/
def knownWords : List (List Char) := ["com.android".toList, "com.google".toList, "system".toList,
  "kworker".toList, "com.miui".toList]

/-- `R (running)` is found in what is read of the state. -/
def takenForRunning (status : Option (List Char)) : Bool :=
  (procRead status).any fun state => (strstr "R (running)".toList state).isSome

def unexpected (cmdline : List Char) : Bool :=
  3 < cmdline.length ∧ knownWords.all fun w => (strstr w cmdline).isNone

/-- The part of `don_behavior_analyze` about the state. -/
def analyzeState (pid : UInt32) (files : ProcFiles) (r : List Detection) : List Detection :=
  if takenForRunning files.status then
    match files.cmdline with
    | none => r
    | some text =>
        let cmdline := cmdlineText text
        if unexpected cmdline then
          addDet r classBehavior priorityLow mitreT1071 50 "UNEXPECTED_ACTIVE_PROC"
            (snprintf 512 ("PID ".toList ++ decimal pid.toNat ++ " (".toList ++ cmdline ++
              ") actively running — unexpected wakeup".toList))
        else r
  else r

/-- `don_behavior_analyze`. -/
def behaviorAnalyze (pid : UInt32) (files : ProcFiles) (r : List Detection) : List Detection :=
  if pid = 0 then r
  else
    let fds := countFds files.fd
    let r :=
      if 500 < fds then
        addDet r classBehavior priorityMedium mitreT1071 70 "EXCESSIVE_FDS"
          (snprintf 512 ("PID ".toList ++ decimal pid.toNat ++ " has ".toList ++ formatD fds ++
            " open file descriptors — possible fd leak or exfil".toList))
      else r
    analyzeState pid files r

/-! ## The status of a process -/

/-- `/proc/PID/status` as the kernel prints it: the name, and behind it the other lines, the
state among them. -/
structure IsStatus (name text : List Char) : Prop where
  text : ∃ lines, text = "Name:\t".toList ++ name ++ '\n' :: lines
  name_plain : '\n' ∉ name ∧ '\x00' ∉ name
  name_short : name.length ≤ 64

section Status

variable {w a b name text : List Char}

theorem infix_append_ends (hw : ∀ c ∈ w, isLineEnd c = false) (hne : w ≠ [])
    (hb : ∀ c ∈ b, isLineEnd c = true) : w <:+: a ++ b ↔ w <:+: a := by
  cases b with
  | nil => rw [List.append_nil]
  | cons d b =>
      obtain ⟨hd, hb⟩ := List.forall_mem_cons.mp hb
      have hnot : d ∉ w := fun h => by
        rw [hw d h] at hd
        cases hd
      rw [infix_append_cons_iff hnot]
      constructor
      · rintro (h | h)
        · exact h
        · obtain ⟨c, w, rfl⟩ := List.exists_cons_of_ne_nil hne
          have hc := hb c (h.subset List.mem_cons_self)
          rw [hw c List.mem_cons_self] at hc
          cases hc
      · exact Or.inl

/-- What is stripped is no part of a word. -/
theorem infix_rdropWhile (hw : ∀ c ∈ w, isLineEnd c = false) (hne : w ≠ []) (s : List Char) :
    w <:+: s.rdropWhile isLineEnd ↔ w <:+: s := by
  have hsplit : s.rdropWhile isLineEnd ++ s.rtakeWhile isLineEnd = s := by
    rw [List.rdropWhile, List.rtakeWhile, ← List.reverse_append, List.takeWhile_append_dropWhile,
      List.reverse_reverse]
  have hends : ∀ c ∈ s.rtakeWhile isLineEnd, isLineEnd c = true := by
    intro c hc
    rw [List.rtakeWhile, List.mem_reverse] at hc
    exact List.mem_takeWhile_imp hc
  conv_rhs => rw [← hsplit]
  exact (infix_append_ends hw hne hends).symm

/-- A word is found in what is read of a file if it is in the first line. -/
theorem any_procRead {line rest : List Char} (hline : '\n' ∉ line ∧ '\x00' ∉ line)
    (hshort : line.length + 1 < 512) (hw : ∀ c ∈ w, isLineEnd c = false) (hne : w ≠ []) :
    ((procRead (some (line ++ '\n' :: rest))).any fun s => (strstr w s).isSome) = true ↔
      w <:+: line := by
  have hcstr : cstr (line ++ ['\n']) = line ++ ['\n'] := by
    refine cstr_eq_self fun h => ?_
    rcases List.mem_append.mp h with h | h
    · exact hline.2 h
    · exact absurd (List.mem_singleton.mp h) (by decide)
  have hread : w <:+: (line ++ ['\n']).rdropWhile isLineEnd ↔ w <:+: line := by
    rw [infix_rdropWhile hw hne]
    exact infix_append_ends hw hne fun c hc => by
      rw [List.mem_singleton.mp hc]
      rfl
  have hfound : ∀ s : List Char, (strstr w s).isSome = true ↔ w <:+: s := by
    intro s
    rw [Option.isSome_iff_ne_none, ne_eq, strstr_eq_none_iff, not_not]
  unfold procRead
  simp only [fgetsLines_line hline.1 hshort, List.headD_cons, hcstr]
  split
  · rename_i hnil
    rw [hnil] at hread
    rw [← hread]
    exact iff_of_false (by simp) fun h => hne (List.infix_nil.mp h)
  · rw [Option.any_some, hfound, hread]

/-- **A process is taken for a running one for its name**, whatever state it is in. -/
theorem takenForRunning_iff (h : IsStatus name text) :
    takenForRunning (some text) = true ↔ "R (running)".toList <:+: name := by
  obtain ⟨lines, rfl⟩ := h.text
  have hline : '\n' ∉ "Name:\t".toList ++ name ∧ '\x00' ∉ "Name:\t".toList ++ name := by
    constructor
    · rw [List.mem_append, not_or]
      exact ⟨by decide, h.name_plain.1⟩
    · rw [List.mem_append, not_or]
      exact ⟨by decide, h.name_plain.2⟩
  have hlength : ("Name:\t".toList ++ name).length = 6 + name.length := by
    rw [List.length_append]
    rfl
  have hshort := h.name_short
  rw [takenForRunning, any_procRead hline (by omega) (forall_mem_of_all (by decide)) (by decide)]
  -- the tab keeps the word apart from the key
  show _ <:+: "Name:".toList ++ '\t' :: name ↔ _
  rw [infix_append_cons_iff (by decide)]
  exact or_iff_right (by decide)

end Status

/-! ## What is reported -/

/-- What the analysis reports of a process. -/
def behaviorFindings (pid : UInt32) (files : ProcFiles) : List Detection := behaviorAnalyze pid files []

/-- The detections are appended to those that are there. -/
theorem behaviorAnalyze_eq (pid : UInt32) (files : ProcFiles) (r : List Detection) :
    behaviorAnalyze pid files r = r ++ behaviorFindings pid files := by
  have hstate : ∀ r, analyzeState pid files r = r ++ analyzeState pid files [] := by
    intro r
    unfold analyzeState
    simp only [addDet]
    split
    · split
      · simp
      · split
        · simp
        · simp
    · simp
  unfold behaviorFindings behaviorAnalyze
  split
  · simp
  · simp only
    split
    · rw [hstate, hstate (addDet [] _ _ _ _ _ _)]
      simp [addDet]
    · exact hstate r

end MiuiserPeruser.Don
