import MiuiserPeruser.Lib.LineTokens
import MiuiserPeruser.Lib.NumberRow
import MiuiserPeruser.Rocksteady.Poll

/-!
# ratkingd — the CPU time of a process (`ratkingd.c`)

`read_cputime` reads /proc/<pid>/stat with one format, which takes the name
for a word. rocksteadyd's `read_proc_procs` goes through the files of all
processes line by line and searches the last parenthesis of a line, behind
which there are only numbers (`procTime_text`).

A name with a blank in it shifts ratkingd's fields. What is left of the name
stands where the numbers should, and it is too short to hold the eleven that
precede the times (`readCputime_blank`): the CPU time is then 0. A line feed
in the name, which the kernel prints as it is, ends rocksteadyd's line as
well: the entry is made of the part before it, and has no time either
(`procTime_cut`).
-/

namespace MiuiserPeruser.Ratking

open CText Rocksteady

/-! ## The reader -/

/-- The directives of
`"%*d %63s %c %d %d %d %d %d %u %llu %llu %llu %llu %llu %llu"`. The
suppressed conversion counts here. -/
def cputimeFormat : List Directive :=
  percentD ++ (percentS 63 ++ .space :: .chars 1 (fun _ => true) ::
    ((List.replicate 5 percentD).flatten ++ (percentU ++ (List.replicate 6 percentLLU).flatten)))

/-- `read_cputime`, on the file. -/
def readCputime (file : Option (List Char)) : UInt64 :=
  match file with
  | none => 0
  | some text =>
      let values := scanf cputimeFormat text
      .ofNat (numAt values 13).toNat + .ofNat (numAt values 14).toNat

/-! ## The lines of the kernel -/

/-- The name of a process: any bytes that a string can hold. -/
def IsComm (comm : List Char) : Prop := comm ≠ [] ∧ comm.length ≤ 15 ∧ '\x00' ∉ comm

instance (comm : List Char) : Decidable (IsComm comm) := inferInstanceAs (Decidable (_ ∧ _))

/-- What /proc/<pid>/stat holds; `later` is what follows the times. -/
structure StatLine where
  pid : Nat
  comm : List Char
  state : Char
  ppid : Int
  pgrp : Int
  session : Int
  ttyNr : Int
  tpgid : Int
  flags : Nat
  minflt : Nat
  cminflt : Nat
  majflt : Nat
  cmajflt : Nat
  utime : Nat
  stime : Nat
  later : List Int
  isPid : 0 < pid ∧ pid < 2 ^ 31
  isComm : IsComm comm
  isState : state.isAlpha = true
  isUlong : utime < 2 ^ 64 ∧ stime < 2 ^ 64

namespace StatLine

variable (l : StatLine)

/-- What stands before the times. -/
def counters : List Int :=
  [l.ppid, l.pgrp, l.session, l.ttyNr, l.tpgid, l.flags, l.minflt, l.cminflt, l.majflt, l.cmajflt]

/-- What stands behind the state. -/
def numbers : List Int := l.counters ++ (l.utime : Int) :: (l.stime : Int) :: l.later

def text : List Char :=
  decimal l.pid ++ ' ' :: '(' :: (l.comm ++ ')' :: ' ' :: l.state :: row l.numbers)

/-- utime + stime, as an `unsigned long long`. -/
def cpuTime : UInt64 := .ofNat l.utime + .ofNat l.stime

/-- The name is a word. -/
def OneWord : Prop := ∀ c ∈ l.comm, isspace c = false

instance : Decidable l.OneWord := inferInstanceAs (Decidable (∀ c ∈ _, _))

end StatLine

section Line

variable (l : StatLine)

theorem endsNumbers_of_isAlpha {c : Char} (h : c.isAlpha = true) : EndsNumbers c ∧ c ≠ ')' := by
  have hne : ∀ d : Char, d.isAlpha = false → c ≠ d := by
    rintro d hd rfl
    rw [h] at hd
    cases hd
  have hspace : isspace c = false := by
    have hall : ∀ d ∈ [' ', '\t', '\n', '\x0b', '\x0c', '\r'], d.isAlpha = false := forall_mem_of_all (by decide)
    exact decide_eq_false fun hmem => hne c (hall c hmem) rfl
  have hdigit : c.isDigit = false := by
    by_contra hc
    rw [Bool.not_eq_false] at hc
    have hnine : c.val ≤ 57 := of_decide_eq_true (Bool.and_eq_true_iff.mp hc).2
    rcases Bool.or_eq_true_iff.mp h with h | h
    · have hupper : 65 ≤ c.val ∧ c.val ≤ 90 := of_decide_eq_true h
      exact absurd (UInt32.le_trans hupper.1 hnine) (by decide)
    · have hlower : 97 ≤ c.val := of_decide_eq_true (Bool.and_eq_true_iff.mp h).1
      exact absurd (UInt32.le_trans hlower hnine) (by decide)
  exact ⟨⟨hspace, hdigit, hne _ (by decide), hne _ (by decide)⟩, hne _ (by decide)⟩

/-- What stands behind the name is no parenthesis and no line end. -/
theorem notMem_row {ns : List Int} {c : Char} (h : c ∉ [' ', '-']) (hdigit : c.isDigit = false) : c ∉ row ns := by
  intro hc
  rcases mem_row hc with rfl | rfl | hc
  · exact h (by simp)
  · exact h (by simp)
  · rw [hdigit] at hc
    cases hc

theorem notMem_text {c : Char} (hcomm : c ∉ l.comm) (h : c ∉ [' ', '-', '(', ')']) (hdigit : c.isDigit = false)
    (halpha : c.isAlpha = false) : c ∉ l.text := by
  have hstate : c ≠ l.state := by
    rintro rfl
    rw [l.isState] at halpha
    cases halpha
  have hrow : c ∉ row l.numbers := notMem_row (by simp_all) hdigit
  have hpid : c ∉ decimal l.pid := by
    intro hc
    rw [isDigit_decimal hc] at hdigit
    cases hdigit
  simp_all [StatLine.text]

theorem newline_notMem_text (h : '\n' ∉ l.comm) : '\n' ∉ l.text :=
  notMem_text l h (by decide) (by decide) (by decide)

theorem nul_notMem_text : '\x00' ∉ l.text := notMem_text l l.isComm.2.2 (by decide) (by decide) (by decide)

/-- What begins with the pid is read as the pid. -/
theorem atoi_pid (rest : List Char) : atoi (decimal l.pid ++ ' ' :: rest) = l.pid := by
  have hread : scanf percentD (decimal l.pid ++ ' ' :: rest) = [.num l.pid] :=
    scanf_decimal (storeSigned_fits (by decide) l.isPid.2) (stops_cons.mpr (by decide))
  rw [atoi, hread]
  rfl

/-- The row, up to the times. -/
theorem row_numbers : row l.numbers = row (l.counters ++ [(l.utime : Int), (l.stime : Int)]) ++ row l.later := by
  rw [← row_append, List.append_assoc]
  rfl

theorem stops_later (ending : List Char) (h : Stops (fun c => !isspace c) ending) :
    Stops (fun c => !isspace c) (row l.later ++ ending) := stops_row h l.later

/-! ## The last parenthesis -/

/-- The conversions of rocksteadyd's format. -/
theorem procFormat_eq : procFormat = .chars 1 (fun _ => true) :: (numbers (List.replicate 5 (storeSigned 32) ++
    (List.replicate 5 (storeUnsigned 32) ++ List.replicate 2 (storeUnsigned 64))) ++ []) := rfl

/-- **rocksteadyd reads the times** behind any name on one line. -/
theorem procTime_text (rest : List (List Char)) : procTime l.text rest = l.cpuTime := by
  have hstate := endsNumbers_of_isAlpha l.isState
  have htail : l.text.rtakeWhile (· ≠ ')') = ' ' :: l.state :: row l.numbers := by
    have hno : ')' ∉ ' ' :: l.state :: row l.numbers := by
      have hrow : ')' ∉ row l.numbers := notMem_row (by decide) (by decide)
      simp [hstate.2.symm, hrow]
    have hsplit : l.text = (decimal l.pid ++ ' ' :: '(' :: l.comm) ++ ')' :: ' ' :: l.state :: row l.numbers := by
      simp [StatLine.text]
    rw [hsplit]
    exact afterLast_append hno _
  have hfields : procFields l.text rest = l.state :: row l.numbers := by
    unfold procFields
    simp only [htail, List.cons_ne_nil, if_false, List.drop_one, List.tail_cons]
  have hread : scanf procFormat (procFields l.text rest) = .text [l.state] ::
      ((List.zipWith stored (List.replicate 5 (storeSigned 32) ++ (List.replicate 5 (storeUnsigned 32) ++
        List.replicate 2 (storeUnsigned 64))) (l.counters ++ [(l.utime : Int), (l.stime : Int)])).map Value.num ++ []) := by
    have hend : Stops (fun c => !isspace c) (row l.later) := by
      have h := stops_later l [] (stops_nil _)
      rwa [List.append_nil] at h
    rw [hfields, procFormat_eq, scanf_char, row_numbers, scanf_row _ rfl hend]
    rfl
  have hmem : ')' ∈ l.text := by simp [StatLine.text]
  unfold procTime
  simp only [hread]
  rw [if_pos ⟨hmem, rfl⟩]
  show UInt64.ofNat (stored (storeUnsigned 64) l.utime).toNat + .ofNat (stored (storeUnsigned 64) l.stime).toNat = _
  rw [stored_unsigned l.isUlong.1, stored_unsigned l.isUlong.2]
  rfl

/-! ## A name on two lines -/

/-- The text behind a line is what stands on the next ones. -/
theorem intercalate_prefix (sep : Char) (ls ms : List (List Char)) :
    [sep].intercalate ls <+: [sep].intercalate (ls ++ ms) := by
  induction ls with
  | nil => exact List.nil_prefix
  | cons a ls ih =>
      cases ls with
      | nil =>
          cases ms with
          | nil => exact List.prefix_rfl
          | cons b ms =>
              rw [List.intercalate_singleton, List.singleton_append, List.intercalate_cons_cons, List.append_assoc]
              exact List.prefix_append _ _
      | cons b ls =>
          rw [List.cons_append, List.cons_append, List.intercalate_cons_cons, List.intercalate_cons_cons]
          exact List.prefix_append_right_inj _ |>.mpr ih

/-- The rest of a name that stands before the times is too short for the
twelve numbers. -/
theorem length_scanf_rest {b : List Char} (hb : b.length ≤ 15) (rest : List Char) :
    (scanf procFormat (b ++ ')' :: ' ' :: l.state :: rest)).length ≤ 12 := by
  have hparen : EndsNumbers ')' := ⟨by decide, by decide, by decide, by decide⟩
  rw [procFormat_eq, List.append_nil]
  cases b with
  | nil =>
      have hbound := (length_scanf_numbers_le (endsNumbers_of_isAlpha l.isState).1
        (List.replicate 5 (storeSigned 32) ++ (List.replicate 5 (storeUnsigned 32) ++
          List.replicate 2 (storeUnsigned 64))) [' '] rest).1
      rw [List.singleton_append, List.length_singleton] at hbound
      rw [List.nil_append, scanf_char, List.length_cons]
      omega
  | cons c b =>
      have hbound := (length_scanf_numbers_le hparen
        (List.replicate 5 (storeSigned 32) ++ (List.replicate 5 (storeUnsigned 32) ++
          List.replicate 2 (storeUnsigned 64))) b (' ' :: l.state :: rest)).1
      rw [List.length_cons] at hb
      rw [List.cons_append, scanf_char, List.length_cons]
      omega

/-- **rocksteadyd reads no times** where the name ends the line: neither behind
a parenthesis of the name nor, if the line ends with one, on the next line. -/
theorem procTime_cut {a b : List Char} (hcomm : l.comm = a ++ '\n' :: b) (rest : List (List Char)) :
    procTime (decimal l.pid ++ ' ' :: '(' :: a)
      ((b ++ ')' :: ' ' :: l.state :: row l.numbers).splitOn '\n' ++ rest) = 0 := by
  have hlen : a.length + b.length ≤ 14 := by
    have h := l.isComm.2.1
    rw [hcomm, List.length_append, List.length_cons] at h
    omega
  unfold procTime
  refine if_neg ?_
  rintro ⟨hparen, hthirteen⟩
  have hmem : ')' ∈ a := by
    have hdec : ')' ∉ decimal l.pid := fun h => absurd (isDigit_decimal h) (by decide)
    simpa [hdec] using hparen
  obtain ⟨y, x, hsplit, hy⟩ := List.eq_append_cons_of_mem (List.mem_reverse.mpr hmem)
  have hax : a = x.reverse ++ ')' :: y.reverse := by
    have h := congrArg List.reverse hsplit
    simpa using h
  have htail : (decimal l.pid ++ ' ' :: '(' :: a).rtakeWhile (· ≠ ')') = y.reverse := by
    have hline : decimal l.pid ++ ' ' :: '(' :: a = (decimal l.pid ++ ' ' :: '(' :: x.reverse) ++ ')' :: y.reverse := by
      simp [hax]
    rw [hline]
    exact afterLast_append (by simpa using hy) _
  have hylen : y.length + 1 ≤ a.length := by
    rw [hax]
    simp
  have hfew : (scanf procFormat (procFields (decimal l.pid ++ ' ' :: '(' :: a)
      ((b ++ ')' :: ' ' :: l.state :: row l.numbers).splitOn '\n' ++ rest))).length ≤ 12 := by
    unfold procFields
    simp only [htail]
    by_cases hnone : y.reverse = []
    · -- the line ends with the parenthesis
      rw [if_pos hnone]
      obtain ⟨z, hz⟩ := intercalate_prefix '\n' ((b ++ ')' :: ' ' :: l.state :: row l.numbers).splitOn '\n') rest
      rw [← hz, List.intercalate_splitOn, List.append_assoc, List.cons_append, List.cons_append, List.cons_append]
      exact length_scanf_rest l (by omega) _
    · rw [if_neg hnone]
      refine (length_scanf_le _ _).trans ?_
      rw [List.length_drop, List.length_reverse]
      omega
  omega

/-- **The first line of the file**: it has the pid, and the times if the name
does not end it. -/
theorem firstLine_text : ∃ line more, l.text.splitOn '\n' = line :: more ∧ atoi line = l.pid ∧
    ∀ rest, procTime line (more ++ rest) = if '\n' ∈ l.comm then 0 else l.cpuTime := by
  by_cases hmem : '\n' ∈ l.comm
  · obtain ⟨a, b, hcomm, ha⟩ := List.eq_append_cons_of_mem hmem
    have hfirst : '\n' ∉ decimal l.pid ++ ' ' :: '(' :: a := by
      have hdec : '\n' ∉ decimal l.pid := fun h => absurd (isDigit_decimal h) (by decide)
      simp [hdec, ha]
    have htext : l.text = (decimal l.pid ++ ' ' :: '(' :: a) ++ '\n' :: (b ++ ')' :: ' ' :: l.state :: row l.numbers) := by
      simp [StatLine.text, hcomm]
    refine ⟨decimal l.pid ++ ' ' :: '(' :: a, (b ++ ')' :: ' ' :: l.state :: row l.numbers).splitOn '\n', ?_,
      atoi_pid l _, fun rest => ?_⟩
    · rw [htext, List.splitOn_append_cons_self_of_not_mem hfirst]
    · rw [if_pos hmem]
      exact procTime_cut l hcomm rest
  · refine ⟨l.text, [], List.splitOn_eq_singleton (newline_notMem_text l hmem), atoi_pid l _, fun rest => ?_⟩
    rw [if_neg hmem]
    exact procTime_text l rest

/-! ## The fields of ratkingd -/

/-- The conversions behind the state. -/
def cputimeStores : List (Bool → Nat → Int) :=
  List.replicate 5 (storeSigned 32) ++ storeUnsigned 32 :: List.replicate 6 (storeUnsigned 64)

theorem cputimeFormat_eq : cputimeFormat =
    percentD ++ (percentS 63 ++ .space :: .chars 1 (fun _ => true) :: CText.numbers cputimeStores) := rfl

/-- The name is read to its first blank, and what follows it is left for the
state and the numbers. -/
theorem scanf_cputime {name rest : List Char} (hname : ∀ c ∈ name, isspace c = false) (hlen : name.length ≤ 62)
    (hrest : Stops (fun c => !isspace c) rest) :
    scanf cputimeFormat (decimal l.pid ++ ' ' :: '(' :: (name ++ rest)) =
      .num l.pid :: .text ('(' :: name) ::
        scanf (.space :: .chars 1 (fun _ => true) :: CText.numbers cputimeStores) rest := by
  have hword : ∀ c ∈ '(' :: name, isspace c = false := by
    intro c hc
    rcases List.mem_cons.mp hc with rfl | hc
    · decide
    · exact hname c hc
  have hfits : ('(' :: name).length ≤ 63 := by
    rw [List.length_cons]
    omega
  calc scanf cputimeFormat (decimal l.pid ++ ' ' :: '(' :: (name ++ rest))
      = .num l.pid :: scanf (percentS 63 ++ .space :: .chars 1 (fun _ => true) :: CText.numbers cputimeStores)
          (' ' :: ('(' :: name ++ rest)) := by
        rw [cputimeFormat_eq]
        exact scanf_decimal (storeSigned_fits (by decide) l.isPid.2) (stops_cons.mpr (by decide))
    _ = .num l.pid :: scanf (percentS 63 ++ .space :: .chars 1 (fun _ => true) :: CText.numbers cputimeStores)
          ('(' :: name ++ rest) := rfl
    _ = _ := by rw [scanf_word (List.cons_ne_nil _ _) hword hfits hrest]

/-- **ratkingd reads the times** behind a name that is a word. -/
theorem readCputime_oneWord (h : l.OneWord) : readCputime (some (l.text ++ ['\n'])) = l.cpuTime := by
  have hend : Stops (fun c => !isspace c) (row l.later ++ ['\n']) := stops_later l _ (stops_cons.mpr (by decide))
  have hname : ∀ c ∈ l.comm ++ [')'], isspace c = false := by
    intro c hc
    rcases List.mem_append.mp hc with hc | hc
    · exact h c hc
    · rw [List.mem_singleton.mp hc]
      decide
  have hlen : (l.comm ++ [')']).length ≤ 62 := by
    have := l.isComm.2.1
    rw [List.length_append, List.length_singleton]
    omega
  have htext : l.text ++ ['\n'] =
      decimal l.pid ++ ' ' :: '(' :: ((l.comm ++ [')']) ++ ' ' :: l.state :: (row l.numbers ++ ['\n'])) := by
    simp [StatLine.text]
  have hstate := (endsNumbers_of_isAlpha l.isState).1.1
  have hread : scanf cputimeFormat (l.text ++ ['\n']) = .num l.pid :: .text ('(' :: (l.comm ++ [')'])) ::
      .text [l.state] :: ((List.zipWith stored cputimeStores
        (l.counters ++ [(l.utime : Int), (l.stime : Int)])).map Value.num ++ []) := by
    have hskip : (' ' :: l.state :: (row l.numbers ++ ['\n'])).dropWhile isspace =
        l.state :: (row l.numbers ++ ['\n']) := by
      rw [List.dropWhile_cons_of_pos (by decide), List.dropWhile_cons_of_neg (by simp [hstate])]
    have hrow : scanf (numbers cputimeStores ++ [])
        (row (l.counters ++ [(l.utime : Int), (l.stime : Int)]) ++ _) = _ :=
      scanf_row (l.counters ++ [(l.utime : Int), (l.stime : Int)]) (by rfl : cputimeStores.length = _) hend
    rw [List.append_nil] at hrow
    rw [htext, scanf_cputime l hname hlen (stops_cons.mpr (by decide)), scanf, hskip, scanf_char, row_numbers,
      List.append_assoc, hrow]
    rfl
  show UInt64.ofNat (numAt (scanf cputimeFormat (l.text ++ ['\n'])) 13).toNat +
    .ofNat (numAt (scanf cputimeFormat (l.text ++ ['\n'])) 14).toNat = _
  rw [hread]
  show UInt64.ofNat (stored (storeUnsigned 64) l.utime).toNat + .ofNat (stored (storeUnsigned 64) l.stime).toNat = _
  rw [stored_unsigned l.isUlong.1, stored_unsigned l.isUlong.2]
  rfl

/-- What is left of a name stands before the times, and is too short. -/
theorem length_scanf_left {b : List Char} (hb : b.length ≤ 15) (hblank : Stops (fun c => !isspace c) b)
    (hne : b ≠ []) (rest : List Char) :
    (scanf (.space :: .chars 1 (fun _ => true) :: CText.numbers cputimeStores)
      (b ++ ')' :: ' ' :: l.state :: rest)).length ≤ 8 := by
  have hparen : EndsNumbers ')' := ⟨by decide, by decide, by decide, by decide⟩
  have hskip : (b ++ ')' :: ' ' :: l.state :: rest).dropWhile isspace =
      b.dropWhile isspace ++ ')' :: ' ' :: l.state :: rest :=
    dropWhile_append_rest (stops_cons.mpr hparen.1) b
  rw [scanf, hskip]
  obtain ⟨c, b, rfl⟩ := List.exists_cons_of_ne_nil hne
  have hc : isspace c = true := by simpa using stops_cons.mp hblank
  rw [List.dropWhile_cons_of_pos hc]
  have hlen := List.length_dropWhile_le isspace b
  rw [List.length_cons] at hb
  cases hleft : b.dropWhile isspace with
  | nil =>
      -- the parenthesis is taken for the state
      have hbound := (length_scanf_numbers_le (endsNumbers_of_isAlpha l.isState).1 cputimeStores [' '] rest).1
      rw [List.nil_append, scanf_char, List.length_cons]
      have hone : 2 * (scanf (CText.numbers cputimeStores) (' ' :: l.state :: rest)).length ≤ 2 := hbound
      omega
  | cons d v =>
      have hbound := (length_scanf_numbers_le hparen cputimeStores v (' ' :: l.state :: rest)).1
      rw [hleft, List.length_cons] at hlen
      rw [List.cons_append, scanf_char, List.length_cons]
      omega

/-- **ratkingd reads no times** behind another name. -/
theorem readCputime_blank (h : ¬ l.OneWord) : readCputime (some (l.text ++ ['\n'])) = 0 := by
  have hname : ∀ c ∈ l.comm.takeWhile (fun c => !isspace c), isspace c = false := by
    intro c hc
    simpa using List.mem_takeWhile_imp hc
  have hsplit : l.comm.takeWhile (fun c => !isspace c) ++ l.comm.dropWhile (fun c => !isspace c) = l.comm :=
    List.takeWhile_append_dropWhile
  have hne : l.comm.dropWhile (fun c => !isspace c) ≠ [] := by
    intro hnil
    rw [hnil, List.append_nil] at hsplit
    refine h fun c hc => hname c ?_
    rw [hsplit]
    exact hc
  have hlen := congrArg List.length hsplit
  rw [List.length_append] at hlen
  have hcomm := l.isComm.2.1
  have hstops : Stops (fun c => !isspace c) (l.comm.dropWhile fun c => !isspace c) := by
    intro c r hcr
    have hhead := List.head?_dropWhile_not (fun c => !isspace c) l.comm
    rw [hcr] at hhead
    simpa using hhead
  have hfollow : Stops (fun c => !isspace c)
      ((l.comm.dropWhile fun c => !isspace c) ++ ')' :: ' ' :: l.state :: (row l.numbers ++ ['\n'])) := by
    obtain ⟨c, b, hb⟩ := List.exists_cons_of_ne_nil hne
    rw [hb] at hstops
    rw [hb, List.cons_append]
    exact stops_cons.mpr (stops_cons.mp hstops)
  have htext : l.text ++ ['\n'] =
      decimal l.pid ++ ' ' :: '(' :: (l.comm.takeWhile (fun c => !isspace c) ++
        (l.comm.dropWhile (fun c => !isspace c) ++ ')' :: ' ' :: l.state :: (row l.numbers ++ ['\n']))) := by
    rw [← List.append_assoc (l.comm.takeWhile _), hsplit]
    simp [StatLine.text]
  have hfew : (scanf cputimeFormat (l.text ++ ['\n'])).length ≤ 10 := by
    have hleft := length_scanf_left l (by omega) hstops hne (row l.numbers ++ ['\n'])
    rw [htext, scanf_cputime l hname (by omega) hfollow, List.length_cons, List.length_cons]
    omega
  have hnone : ∀ i, 10 ≤ i → numAt (scanf cputimeFormat (l.text ++ ['\n'])) i = 0 := by
    intro i hi
    unfold numAt
    rw [List.getElem?_eq_none (hfew.trans hi)]
  show UInt64.ofNat (numAt (scanf cputimeFormat (l.text ++ ['\n'])) 13).toNat +
    .ofNat (numAt (scanf cputimeFormat (l.text ++ ['\n'])) 14).toNat = 0
  rw [hnone 13 (by decide), hnone 14 (by decide)]
  rfl

theorem not_oneWord_of_newline (h : '\n' ∈ l.comm) : ¬ l.OneWord := fun hword => absurd (hword _ h) (by decide)

end Line

/-! ## The readers agree -/

/-- What `cat /proc/[0-9]*/stat` prints. -/
def statText (ls : List StatLine) : List Char := textLines (ls.map StatLine.text)

/-- The entries rocksteadyd makes of the files: one for each line that begins
with a pid. A name with a line feed in it can hold such lines. -/
def entries (ls : List StatLine) : Nat :=
  (ls.flatMap fun l => l.text.splitOn '\n').countP fun line => decide (0 < atoi line)

theorem splitOn_statText (ls : List StatLine) (rest : List Char) :
    (statText ls ++ rest).splitOn '\n' = (ls.flatMap fun l => l.text.splitOn '\n') ++ rest.splitOn '\n' := by
  induction ls with
  | nil => rfl
  | cons l ls ih =>
      have htext : statText (l :: ls) ++ rest = l.text ++ '\n' :: (statText ls ++ rest) := by
        simp [statText, textLines]
      rw [htext, List.splitOn_append_cons_self, ih, List.flatMap_cons, List.append_assoc]

/-- **The entry of a line**, behind those of the lines before it, if there is
room. -/
theorem readProcs_at (max : Nat) {line : List Char} (hline : 0 < atoi line) (earlier rest : List (List Char))
    (count : Nat) :
    ((readProcs max count (earlier ++ line :: rest))[earlier.countP fun line => decide (0 < atoi line)]?).map
        (fun p => (p.pid, p.cpuTime)) =
      if count + earlier.countP (fun line => decide (0 < atoi line)) < max then some (atoi line, procTime line rest)
      else none := by
  induction earlier generalizing count with
  | nil =>
      rw [List.nil_append, List.countP_nil, Nat.add_zero, readProcs]
      by_cases hfull : max ≤ count
      · rw [if_pos hfull, if_neg (by omega)]
        rfl
      · have hentry : ¬ (line = [] ∨ atoi line ≤ 0) := by
          rw [not_or]
          exact ⟨fun h => absurd hline (by rw [h]; decide), by omega⟩
        rw [if_neg hfull, if_neg hentry, if_pos (by omega)]
        rfl
  | cons first earlier ih =>
      rw [List.cons_append, readProcs]
      by_cases hfull : max ≤ count
      · rw [if_pos hfull, if_neg (by omega)]
        rfl
      · rw [if_neg hfull]
        by_cases hpid : 0 < atoi first
        · have hentry : ¬ (first = [] ∨ atoi first ≤ 0) := by
            rw [not_or]
            exact ⟨fun h => absurd hpid (by rw [h]; decide), by omega⟩
          have hcount : count + 1 + earlier.countP (fun line => decide (0 < atoi line)) =
              count + (earlier.countP (fun line => decide (0 < atoi line)) + 1) := by omega
          rw [if_neg hentry, List.countP_cons_of_pos (by simpa using hpid), List.getElem?_cons_succ, ih, hcount]
        · rw [if_pos (.inr (by omega)), List.countP_cons_of_neg (by simpa using hpid), ih]

/-- The entry of a process. -/
theorem readProcProcs_at (l : StatLine) (before after : List StatLine) (max : Nat) :
    ((readProcProcs (some (statText (before ++ l :: after))) max)[entries before]?).map
      (fun p => (p.pid, p.cpuTime)) =
        if entries before < max then some ((l.pid : Int), if '\n' ∈ l.comm then 0 else l.cpuTime) else none := by
  have hnul : '\x00' ∉ statText (before ++ l :: after) := by
    intro h
    obtain ⟨t, ht, hc⟩ := List.mem_flatMap.mp h
    obtain ⟨k, -, rfl⟩ := List.mem_map.mp ht
    have hno := nul_notMem_text k
    simp_all
  have htext : statText (before ++ l :: after) = statText before ++ (l.text ++ '\n' :: statText after) := by
    simp [statText, textLines]
  obtain ⟨line, more, hsplit, hpid, htime⟩ := firstLine_text l
  have hpos : 0 < atoi line := by
    have := l.isPid.1
    omega
  have hread := readProcs_at max hpos (before.flatMap fun l => l.text.splitOn '\n')
    (more ++ (statText after).splitOn '\n') 0
  rw [Nat.zero_add, hpid, htime] at hread
  show ((readProcs max 0 ((cstr (statText (before ++ l :: after))).splitOn '\n'))[entries before]?).map _ = _
  rw [cstr_eq_self hnul, htext, splitOn_statText, List.splitOn_append_cons_self, hsplit, List.cons_append]
  exact hread

/-- **When the readers agree.** The file stands among those of all processes,
which rocksteadyd reads, and ratkingd reads it alone: both have the time of
the file exactly if there is room for its entry and the name is a word, or
the time is 0. -/
theorem cpu_times_agree_iff (l : StatLine) (before after : List StatLine) :
    (∃ p, (readProcProcs (some (statText (before ++ l :: after))) maxProcs)[entries before]? = some p ∧
        p.pid = l.pid ∧ p.cpuTime = l.cpuTime ∧ readCputime (some (l.text ++ ['\n'])) = p.cpuTime) ↔
      entries before < maxProcs ∧ (l.OneWord ∨ l.cpuTime = 0) := by
  have hentry := readProcProcs_at l before after maxProcs
  constructor
  · rintro ⟨p, hp, -, htime, hread⟩
    rw [hp, Option.map_some] at hentry
    have hroom : entries before < maxProcs := by
      by_contra hfull
      rw [if_neg hfull] at hentry
      exact absurd hentry nofun
    refine ⟨hroom, ?_⟩
    by_cases hword : l.OneWord
    · exact .inl hword
    · rw [readCputime_blank l hword, htime] at hread
      exact .inr hread.symm
  · rintro ⟨hroom, hagree⟩
    rw [if_pos hroom] at hentry
    obtain ⟨p, hp, heq⟩ := Option.map_eq_some_iff.mp hentry
    obtain ⟨hpid, htime⟩ := Prod.mk.inj heq
    have hown : p.cpuTime = l.cpuTime := by
      rw [htime]
      split
      · rename_i hmem
        exact (hagree.resolve_left (not_oneWord_of_newline l hmem)).symm
      · rfl
    refine ⟨p, hp, hpid, hown, ?_⟩
    rw [hown]
    by_cases hword : l.OneWord
    · exact readCputime_oneWord l hword
    · rw [readCputime_blank l hword]
      exact (hagree.resolve_left hword).symm

theorem cpuMiner_fits : (0 < 4711 ∧ 4711 < 2 ^ 31) ∧ IsComm "cpu miner".toList ∧ 'R'.isAlpha = true ∧
    500 < 2 ^ 64 ∧ 100 < 2 ^ 64 := by decide

/-- A process with a blank in its name. -/
def cpuMiner : StatLine where
  pid := 4711
  comm := "cpu miner".toList
  state := 'R'
  ppid := 1
  pgrp := 4711
  session := 0
  ttyNr := 0
  tpgid := -1
  flags := 4194560
  minflt := 90
  cminflt := 0
  majflt := 3
  cmajflt := 0
  utime := 500
  stime := 100
  later := [0, 0, 20, 0, 1, 0, 12345]
  isPid := cpuMiner_fits.1
  isComm := cpuMiner_fits.2.1
  isState := cpuMiner_fits.2.2.1
  isUlong := cpuMiner_fits.2.2.2

/-- ratkingd does not see its 600 ticks, and rocksteadyd does. -/
theorem miner_hidden :
    (∃ p, (readProcProcs (some (statText [cpuMiner])) maxProcs)[0]? = some p ∧ p.cpuTime = 600) ∧
    ¬ ∃ p, (readProcProcs (some (statText [cpuMiner])) maxProcs)[0]? = some p ∧
      p.pid = (cpuMiner.pid : Int) ∧ p.cpuTime = cpuMiner.cpuTime ∧
      readCputime (some (cpuMiner.text ++ ['\n'])) = p.cpuTime := by
  have htime : cpuMiner.cpuTime = 600 := by decide
  have hread : readCputime (some (cpuMiner.text ++ ['\n'])) = 0 := by decide +kernel
  have hentry := readProcProcs_at cpuMiner [] [] maxProcs
  rw [if_pos (by decide), if_neg (by decide)] at hentry
  obtain ⟨p, hp, heq⟩ := Option.map_eq_some_iff.mp hentry
  refine ⟨⟨p, hp, (Prod.mk.inj heq).2.trans htime⟩, ?_⟩
  rintro ⟨q, -, -, hq, hagree⟩
  rw [hread, hq, htime] at hagree
  exact absurd hagree (by decide)

end MiuiserPeruser.Ratking
