import MiuiserPeruser.Shredder.BaselineFile
import MiuiserPeruser.Shredder.Probe

/-!
# shredderd — untracked modules (`shredderd.c`)

`check_module_surface` counts the rows of `lsmod` whose module is not in the
baseline. It reads the table from a copy of 16384 bytes, so that the rows
behind them are HIDDEN and one name can be cut to a FRAGMENT, and it replaces
quotes, bars, backslashes and control characters in a name before it looks
the name up, while the baseline has the names as they were.

Each of these makes the count wrong on its own, by too little (hidden rows,
and names that are replaced by the name of another module) or by too much
(fragments, and tracked names that are changed); the count is right exactly
if the two balance (`untracked_exact_iff`).
-/

namespace MiuiserPeruser.Shredder

open CText Probe

/-! ## The check -/

/-- `sanitize_field`. -/
def sanitizeField (s : List Char) : List Char :=
  s.map fun c => if c.toNat < 0x20 ∨ c = '"' ∨ c = '|' ∨ c = '\\' then '_' else c

/-- `strip_trailing_comma`. -/
def stripTrailingComma (s : List Char) : List Char :=
  if s.getLast? = some ',' then s.dropLast else s

/-- What `check_module_surface` finds. -/
structure Surface where
  untrackedCount : Nat
  untrackedBuf : List Char
  permanentCount : Nat
  sampleModuleFound : Bool
  deriving DecidableEq

def Surface.empty : Surface := ⟨0, [], 0, false⟩

/-- The name of a row. -/
def rowName (line : List Char) : List Char := sanitizeField (textAt (scanf (percentS 63) line) 0)

/-- The row of this name is counted. -/
def isUntracked (st : DriftState) (name : List Char) : Bool :=
  name ≠ [] && st.established && (findInBaseline st name).isNone

def untrackedEntry (name : List Char) : List Char := snprintf 80 ('"' :: (name ++ ['"', ',']))

/-- A pass of the loop. -/
def surfaceLine (st : DriftState) (s : Surface) (line : List Char) : Surface :=
  let name := rowName line
  let s := if name = "sample_module".toList then { s with sampleModuleFound := true } else s
  let s :=
    if isUntracked st name then
      { s with
        untrackedCount := s.untrackedCount + 1
        untrackedBuf :=
          if s.untrackedBuf.length + (untrackedEntry name).length < 1024 - 1 then
            s.untrackedBuf ++ untrackedEntry name
          else s.untrackedBuf }
    else s
  if (strstr "[permanent]".toList line).isSome then { s with permanentCount := s.permanentCount + 1 } else s

/-- `check_module_surface`: the first line is skipped. -/
def checkModuleSurface (st : DriftState) (p : ProbeState) : Surface :=
  let lines := (lineTokens (probeCopy p "LSMOD".toList 16384).1).drop 1
  let s := lines.foldl (surfaceLine st) .empty
  { s with untrackedBuf := stripTrailingComma s.untrackedBuf }

/-- The text it prints. -/
def Surface.json (s : Surface) (nmod : Int) (size : Nat) : List Char :=
  snprintf size ("\x7b\"sys_module_readable\":false,\"proc_modules_count\":".toList ++ formatD nmod ++
    ",\"permanent_module_count\":".toList ++ decimal s.permanentCount ++
    ",\"sample_module_present\":".toList ++ (if s.sampleModuleFound then "true" else "false").toList ++
    ",\"untracked_modules\":[".toList ++ s.untrackedBuf ++ "]\x7d".toList)

/-- What `poll_integrity` makes of the score. -/
def untrackedScore (score : Int) (s : Surface) : Int := if 0 < s.untrackedCount then score - 10 else score

/-! ## Tables -/

/-- A row of `lsmod`: the name, and what follows it behind a blank. -/
structure LsmodRow where
  name : List Char
  rest : List Char
  field : IsField 64 name
  blank : Stops (fun c => !isspace c) rest
  line : '\n' ∉ rest ∧ '\r' ∉ rest ∧ '\x00' ∉ rest

def LsmodRow.text (r : LsmodRow) : List Char := r.name ++ r.rest

/-- What `lsmod` prints. -/
structure LsmodTable where
  header : List Char
  header_line : IsLine header ∧ '\r' ∉ header
  rows : List LsmodRow

def LsmodTable.text (t : LsmodTable) : List Char := textLines (t.header :: t.rows.map LsmodRow.text)

/-- The bytes of the copy that are left for the rows. -/
def LsmodTable.room (t : LsmodTable) : Nat := 16383 - t.header.length - 1

/-- The rows whose names are in the first `room` bytes. -/
def completeRows : Nat → List LsmodRow → List LsmodRow
  | _, [] => []
  | room, r :: rows =>
      if r.text.length < room then r :: completeRows (room - r.text.length - 1) rows
      else if r.name.length ≤ room then [r]
      else []

/-- The rows whose names are not. -/
def hiddenRows : Nat → List LsmodRow → List LsmodRow
  | _, [] => []
  | room, r :: rows =>
      if r.text.length < room then hiddenRows (room - r.text.length - 1) rows
      else if r.name.length ≤ room then rows
      else r :: rows

/-- What is in them of the first of these names. -/
def fragment : Nat → List LsmodRow → List Char
  | _, [] => []
  | room, r :: rows =>
      if r.text.length < room then fragment (room - r.text.length - 1) rows
      else if r.name.length ≤ room then []
      else r.name.take room

/-- The module of this name is not in the baseline. -/
def notInBaseline (st : DriftState) (name : List Char) : Bool := (findInBaseline st name).isNone

section Table

variable {st : DriftState}

theorem completeRows_append_hiddenRows (room : Nat) (rows : List LsmodRow) :
    completeRows room rows ++ hiddenRows room rows = rows := by
  induction rows generalizing room with
  | nil => rfl
  | cons r rows ih =>
      rw [completeRows, hiddenRows]
      split
      · exact congrArg (r :: ·) (ih _)
      · split
        · rfl
        · rfl

/-! ## The names that are read -/

theorem scanf_name {w rest : List Char} (hne : w ≠ []) (hw : ∀ c ∈ w, isspace c = false) (hlen : w.length ≤ 63)
    (hrest : Stops (fun c => !isspace c) rest) : textAt (scanf (percentS 63) (w ++ rest)) 0 = w := by
  have h : scanf (percentS 63 ++ []) (w ++ rest) = .text w :: scanf [] rest := scanf_word hne hw hlen hrest
  rw [List.append_nil] at h
  rw [h]
  rfl

theorem rowName_text (r : LsmodRow) : rowName r.text = sanitizeField r.name := by
  have hlen := r.field.short
  rw [rowName, LsmodRow.text,
    scanf_name r.field.ne_nil (fun c hc => (r.field.word c hc).1) (by omega) r.blank]

/-- A row that is cut loses the end of its name, or what follows it. -/
theorem rowName_take (r : LsmodRow) {room : Nat} (hroom : 0 < room) :
    rowName (r.text.take room) = sanitizeField (r.name.take room) := by
  have hlen := r.field.short
  have htake : r.text.take room = r.name.take room ++ r.rest.take (room - r.name.length) := List.take_append
  have hne : r.name.take room ≠ [] := by
    rw [Ne, List.take_eq_nil_iff, not_or]
    exact ⟨by omega, r.field.ne_nil⟩
  have hstop : Stops (fun c => !isspace c) (r.rest.take (room - r.name.length)) := by
    intro c s h
    cases hrest : r.rest with
    | nil =>
        rw [hrest, List.take_nil] at h
        exact absurd h nofun
    | cons d t =>
        rw [hrest] at h
        have hd := r.blank d t hrest
        cases hk : room - r.name.length with
        | zero =>
            rw [hk] at h
            exact absurd h nofun
        | succ k =>
            rw [hk, List.take_succ_cons] at h
            rwa [← (List.cons.inj h).1]
  rw [rowName, htake, scanf_name hne (fun c hc => (r.field.word c (List.mem_of_mem_take hc)).1)
    (by rw [List.length_take]; omega) hstop]

theorem map_rowName_cut (room : Nat) (rows : List LsmodRow) :
    (cutTextLines room (rows.map LsmodRow.text)).map rowName =
      ((completeRows room rows).map LsmodRow.name ++
        if fragment room rows = [] then [] else [fragment room rows]).map sanitizeField := by
  induction rows generalizing room with
  | nil => rfl
  | cons r rows ih =>
      rw [List.map_cons, cutTextLines, completeRows, fragment]
      by_cases hlt : r.text.length < room
      · simp only [if_pos hlt, List.map_cons, List.cons_append, rowName_text, ih]
      · simp only [if_neg hlt]
        by_cases hzero : room = 0
        · have hpos : 0 < r.name.length := List.length_pos_iff.mpr r.field.ne_nil
          simp only [hzero, if_neg (Nat.not_le.mpr hpos), List.take_zero, if_true]
          rfl
        · simp only [if_neg hzero, List.map_cons, rowName_take r (Nat.pos_of_ne_zero hzero)]
          by_cases hname : r.name.length ≤ room
          · simp only [if_pos hname, List.take_of_length_le hname, if_true]
            rfl
          · have hne : r.name.take room ≠ [] := by
              rw [Ne, List.take_eq_nil_iff, not_or]
              exact ⟨hzero, r.field.ne_nil⟩
            simp only [if_neg hname, if_neg hne]
            rfl

/-! ## What is counted -/

theorem surfaceLine_count (s : Surface) (line : List Char) : (surfaceLine st s line).untrackedCount =
    s.untrackedCount + if isUntracked st (rowName line) then 1 else 0 := by
  unfold surfaceLine
  by_cases hu : isUntracked st (rowName line) = true
  · simp only [if_pos hu]
    split
    · split
      · rfl
      · rfl
    · split
      · rfl
      · rfl
  · simp only [if_neg hu]
    split
    · split
      · rfl
      · rfl
    · split
      · rfl
      · rfl

theorem foldl_surfaceLine_count (lines : List (List Char)) (s : Surface) :
    (lines.foldl (surfaceLine st) s).untrackedCount =
      s.untrackedCount + (lines.map rowName).countP (isUntracked st) := by
  induction lines generalizing s with
  | nil => rfl
  | cons line lines ih =>
      rw [List.foldl_cons, ih, surfaceLine_count, List.map_cons, List.countP_cons]
      omega

/-- The name is not found once it is sanitised. -/
def isMissed (st : DriftState) (name : List Char) : Bool := notInBaseline st (sanitizeField name)

theorem isUntracked_sanitizeField {name : List Char} (hne : name ≠ []) :
    isUntracked st (sanitizeField name) = (st.established && isMissed st name) := by
  have hmap : sanitizeField name ≠ [] := by simpa [sanitizeField] using hne
  simp [isUntracked, isMissed, notInBaseline, hmap]

/-- The tokens behind the header. -/
theorem lsmod_tokens {t : LsmodTable} {p : ProbeState} (h : Delivers p "LSMOD" t.text) :
    (lineTokens (probeCopy p "LSMOD".toList 16384).1).drop 1 =
      cutTextLines t.room (t.rows.map LsmodRow.text) := by
  have hlines : ∀ l ∈ t.header :: t.rows.map LsmodRow.text, IsLine l ∧ '\r' ∉ l := by
    intro l hl
    rcases List.mem_cons.mp hl with rfl | hl
    · exact t.header_line
    · obtain ⟨r, -, rfl⟩ := List.mem_map.mp hl
      have hno : ∀ c, isspace c = true → c ∉ r.name := by
        intro c hc hmem
        rw [(r.field.word c hmem).1] at hc
        exact absurd hc nofun
      refine ⟨⟨List.append_ne_nil_of_left_ne_nil r.field.ne_nil _, ?_⟩, ?_⟩
      · simp [LsmodRow.text, hno '\n' (by decide), r.line.1]
      · simp [LsmodRow.text, hno '\r' (by decide), r.line.2.1]
  rw [lineTokens_probeCopy hlines h (by decide), cutTextLines, LsmodTable.room]
  by_cases hlt : t.header.length < 16384 - 1
  · rw [if_pos hlt]
    rfl
  · rw [if_neg hlt, if_neg (by decide)]
    have hnone : 16383 - t.header.length - 1 = 0 := by omega
    rw [hnone]
    cases t.rows with
    | nil => rfl
    | cons r rows => rfl

/-- The fragment, if it is counted. -/
def fragmentCount (st : DriftState) (room : Nat) (rows : List LsmodRow) : Nat :=
  if fragment room rows ≠ [] ∧ isMissed st (fragment room rows) then 1 else 0

/-- **What the check counts**, with a baseline. -/
theorem checkModuleSurface_count {t : LsmodTable} {p : ProbeState} (h : Delivers p "LSMOD" t.text)
    (hest : st.established = true) : (checkModuleSurface st p).untrackedCount =
      (completeRows t.room t.rows).countP (fun r => isMissed st r.name) + fragmentCount st t.room t.rows := by
  have hcount : (checkModuleSurface st p).untrackedCount =
      0 + ((cutTextLines t.room (t.rows.map LsmodRow.text)).map rowName).countP (isUntracked st) := by
    rw [← lsmod_tokens h]
    exact foldl_surfaceLine_count _ _
  have hnames : ∀ r : LsmodRow, isUntracked st (sanitizeField r.name) = isMissed st r.name := by
    intro r
    rw [isUntracked_sanitizeField r.field.ne_nil, hest, Bool.true_and]
  rw [hcount, Nat.zero_add, map_rowName_cut, List.map_append, List.countP_append, List.map_map, List.countP_map]
  congr 1
  · exact List.countP_congr fun r _ => by simp [Function.comp, hnames r]
  · unfold fragmentCount
    by_cases hnil : fragment t.room t.rows = []
    · rw [if_pos hnil, if_neg (fun hne => hne.1 hnil)]
      rfl
    · rw [if_neg hnil, List.map_cons, List.map_nil, List.countP_cons, List.countP_nil,
        isUntracked_sanitizeField hnil, hest, Bool.true_and, Nat.zero_add]
      simp only [ne_eq, hnil, not_false_eq_true, true_and]

/-- Without a baseline nothing is counted. -/
theorem checkModuleSurface_unestablished (p : ProbeState) (hest : st.established = false) :
    (checkModuleSurface st p).untrackedCount = 0 := by
  have hcount : (checkModuleSurface st p).untrackedCount =
      0 + (((lineTokens (probeCopy p "LSMOD".toList 16384).1).drop 1).map rowName).countP (isUntracked st) :=
    foldl_surfaceLine_count _ _
  rw [hcount, Nat.zero_add, List.countP_eq_zero]
  intro name _
  simp [isUntracked, hest]

end Table

/-! ## When the count is right -/

/-- The rows whose module is not in the baseline. -/
def untrackedRows (st : DriftState) (t : LsmodTable) : Nat := t.rows.countP fun r => notInBaseline st r.name

/-- The count is that of the rows, and nothing is deducted if there are none. -/
structure UntrackedExact (st : DriftState) (t : LsmodTable) (p : ProbeState) : Prop where
  count : (checkModuleSurface st p).untrackedCount = untrackedRows st t
  clean : (∀ r ∈ t.rows, (findInBaseline st r.name).isSome) →
    (checkModuleSurface st p).untrackedCount = 0 ∧ ∀ score, untrackedScore score (checkModuleSurface st p) = score

/-- With a baseline: the untracked rows that are hidden, and those whose names
are replaced by names of the baseline, are as many as the tracked rows whose
names are not in the baseline once they are sanitised, and the fragment of a
name. Without one: no row is untracked. -/
def CountBalances (st : DriftState) (t : LsmodTable) : Prop :=
  if st.established then
    (hiddenRows t.room t.rows).countP (fun r => notInBaseline st r.name) +
        (completeRows t.room t.rows).countP (fun r => notInBaseline st r.name && !isMissed st r.name) =
      (completeRows t.room t.rows).countP (fun r => isMissed st r.name && !notInBaseline st r.name) +
        fragmentCount st t.room t.rows
  else untrackedRows st t = 0

instance (st : DriftState) (t : LsmodTable) : Decidable (CountBalances st t) := by
  unfold CountBalances
  infer_instance

/-- Two ways to count differ by what only one of them counts. -/
theorem countP_balance {α : Type} (p q : α → Bool) (l : List α) :
    l.countP p + l.countP (fun a => q a && !p a) = l.countP q + l.countP (fun a => p a && !q a) := by
  induction l with
  | nil => rfl
  | cons a l ih =>
      simp only [List.countP_cons]
      cases p a
      · cases q a
        · simpa using ih
        · simp
          omega
      · cases q a
        · simp
          omega
        · simp
          omega

/-- **Untracked modules are counted exactly** if and only if the errors of
the copy and of the sanitised names balance. -/
theorem untracked_exact_iff (st : DriftState) (t : LsmodTable) (p : ProbeState)
    (h : Delivers p "LSMOD" t.text) : UntrackedExact st t p ↔ CountBalances st t := by
  have hclean : (∀ r ∈ t.rows, (findInBaseline st r.name).isSome) → untrackedRows st t = 0 := by
    intro hall
    rw [untrackedRows, List.countP_eq_zero]
    intro r hr
    have hsome := hall r hr
    rw [Option.isSome_iff_ne_none] at hsome
    simpa [notInBaseline] using hsome
  have hcount : UntrackedExact st t p ↔ (checkModuleSurface st p).untrackedCount = untrackedRows st t := by
    constructor
    · exact fun h => h.count
    · intro heq
      refine ⟨heq, fun hall => ?_⟩
      have hzero := heq.trans (hclean hall)
      refine ⟨hzero, fun score => ?_⟩
      rw [untrackedScore, hzero, if_neg (Nat.lt_irrefl 0)]
  rw [hcount, CountBalances]
  cases hest : st.established with
  | false =>
      rw [checkModuleSurface_unestablished p hest, if_neg Bool.false_ne_true]
      exact eq_comm
  | true =>
      have hrows : untrackedRows st t = (completeRows t.room t.rows).countP (fun r => notInBaseline st r.name) +
          (hiddenRows t.room t.rows).countP (fun r => notInBaseline st r.name) := by
        rw [untrackedRows, ← List.countP_append, completeRows_append_hiddenRows]
      have hbalance := countP_balance (fun r : LsmodRow => isMissed st r.name)
        (fun r => notInBaseline st r.name) (completeRows t.room t.rows)
      rw [checkModuleSurface_count h hest, hrows, if_pos rfl]
      omega

/-! ## Two tables -/

theorem lsmod_word : ∀ c ∈ "LSMOD".toList, c ≠ '=' ∧ c ≠ '\r' ∧ c ≠ '\n' := forall_mem_of_all (by decide)

theorem lsmod_short : "LSMOD".toList.length ≤ 59 := by decide

def lsmodTag : Tag := ⟨"LSMOD".toList, lsmod_word, lsmod_short⟩

/-- A probe with this table in it. -/
def lsmodProbe (t : LsmodTable) : ProbeState := ⟨"==LSMOD==\n".toList ++ t.text, true, []⟩

theorem lsmodProbe_delivers {t : LsmodTable} (hplain : '=' ∉ t.text) : Delivers (lsmodProbe t) "LSMOD" t.text := by
  have htext : t.text = t.header ++ '\n' :: textLines (t.rows.map LsmodRow.text) := by
    simp [LsmodTable.text, textLines]
  have hended : t.text.getLast? = some '\n' := getLast?_textLines (List.cons_ne_nil _ _)
  obtain ⟨c, rest, hheader⟩ := List.exists_cons_of_ne_nil t.header_line.1.1
  have hc : isEol c = false := by
    have hmem : c ∈ t.header := by
      rw [hheader]
      exact List.mem_cons_self
    have hnl : c ≠ '\n' := fun h => t.header_line.1.2 (h ▸ hmem)
    have hcr : c ≠ '\r' := fun h => t.header_line.2 (h ▸ hmem)
    simp [isEol, hnl, hcr]
  have hbuf : (lsmodProbe t).buf =
      sectionsText ([] ++ Section.plain lsmodTag false t.text (.inr hended) hplain :: []) := by
    simp only [sectionsText, List.nil_append, List.flatMap_cons, List.flatMap_nil, List.append_nil]
    rfl
  exact delivers_of_sections rfl hbuf (fun s' h => absurd h List.not_mem_nil) rfl
    (by rw [← List.cons_append, ← hheader]; exact htext) hc

theorem isField_core : IsField 64 "core".toList := ⟨by decide, forall_mem_of_all (by decide), by decide⟩

theorem isField_evil : IsField 64 "evil".toList := ⟨by decide, forall_mem_of_all (by decide), by decide⟩

theorem mem_users {n : Nat} {c : Char} (h : c ∈ ' ' :: List.replicate n 'x') : c = ' ' ∨ c = 'x' := by
  rcases List.mem_cons.mp h with h | h
  · exact .inl h
  · exact .inr (List.eq_of_mem_replicate h)

theorem users_line (n : Nat) : '\n' ∉ ' ' :: List.replicate n 'x' ∧ '\r' ∉ ' ' :: List.replicate n 'x' ∧
    '\x00' ∉ ' ' :: List.replicate n 'x' :=
  ⟨fun h => absurd (mem_users h) (by decide), fun h => absurd (mem_users h) (by decide),
    fun h => absurd (mem_users h) (by decide)⟩

theorem users_blank (n : Nat) : Stops (fun c => !isspace c) (' ' :: List.replicate n 'x') :=
  stops_cons.mpr (by decide)

/-- A module with a list of `n` bytes of those that use it. -/
def coreRow (n : Nat) : LsmodRow := ⟨"core".toList, ' ' :: List.replicate n 'x', isField_core, users_blank n, users_line n⟩

def evilRow : LsmodRow := ⟨"evil".toList, ' ' :: List.replicate 1 'x', isField_evil, users_blank 1, users_line 1⟩

theorem lsmodHeader_line : IsLine "Module Size Used by".toList ∧ '\r' ∉ "Module Size Used by".toList :=
  ⟨⟨by decide, by decide⟩, by decide⟩

/-- The baseline has the first of two modules. -/
def coreTable (n : Nat) : LsmodTable := ⟨"Module Size Used by".toList, lsmodHeader_line, [coreRow n, evilRow]⟩

def coreBaseline : DriftState :=
  { DriftState.initial with baseline := [.unknown "core".toList 0], established := true }

theorem coreRow_plain (n : Nat) : '=' ∉ (coreRow n).text := by
  intro h
  rcases List.mem_append.mp h with h | h
  · exact absurd h (by decide : '=' ∉ "core".toList)
  · exact absurd (mem_users h) (by decide)

theorem coreTable_plain (n : Nat) : '=' ∉ (coreTable n).text := by
  intro h
  obtain ⟨l, hl, hmem⟩ := List.mem_flatMap.mp h
  rcases List.mem_append.mp hmem with hmem | hmem
  · rcases List.mem_cons.mp hl with rfl | hl
    · exact absurd hmem (by decide : '=' ∉ "Module Size Used by".toList)
    · rcases List.mem_cons.mp hl with rfl | hl
      · exact coreRow_plain n hmem
      · rw [List.mem_singleton.mp hl] at hmem
        exact absurd hmem (by decide : '=' ∉ evilRow.text)
  · exact absurd hmem (by decide)

theorem length_coreRow (n : Nat) : (coreRow n).text.length = n + 5 := by
  simp [coreRow, LsmodRow.text]

theorem untracked_exact_iff_two :
    UntrackedExact coreBaseline (coreTable 3) (lsmodProbe (coreTable 3)) ∧
      (checkModuleSurface coreBaseline (lsmodProbe (coreTable 3))).untrackedCount = 1 :=
  ⟨(untracked_exact_iff coreBaseline (coreTable 3) _ (lsmodProbe_delivers (coreTable_plain 3))).mpr
    (by decide +kernel), by decide +kernel⟩

/-- The row of a module with many users fills the copy. -/
theorem long_row_hides_module : Delivers (lsmodProbe (coreTable 16400)) "LSMOD" (coreTable 16400).text ∧
    (checkModuleSurface coreBaseline (lsmodProbe (coreTable 16400))).untrackedCount = 0 ∧
    ¬ UntrackedExact coreBaseline (coreTable 16400) (lsmodProbe (coreTable 16400)) := by
  have hdelivers := lsmodProbe_delivers (coreTable_plain 16400)
  have hlong : ¬ (coreRow 16400).text.length < 16363 := by
    rw [length_coreRow]
    decide
  have hname : (coreRow 16400).name.length ≤ 16363 := by
    show "core".toList.length ≤ 16363
    decide
  have hroom : (coreTable 16400).room = 16363 := by
    show 16383 - "Module Size Used by".toList.length - 1 = 16363
    decide
  have hcount : (checkModuleSurface coreBaseline (lsmodProbe (coreTable 16400))).untrackedCount = 0 := by
    have hcomplete : completeRows 16363 (coreTable 16400).rows = [coreRow 16400] := by
      show completeRows 16363 [coreRow 16400, evilRow] = _
      rw [completeRows, if_neg hlong, if_pos hname]
    have hfragment : fragment 16363 (coreTable 16400).rows = [] := by
      show fragment 16363 [coreRow 16400, evilRow] = _
      rw [fragment, if_neg hlong, if_pos hname]
    have hcore : isMissed coreBaseline (coreRow 16400).name = false := by
      show isMissed coreBaseline "core".toList = false
      decide +kernel
    rw [checkModuleSurface_count hdelivers rfl, hroom, hcomplete, fragmentCount, hfragment]
    simp [hcore]
  refine ⟨hdelivers, hcount, fun h => ?_⟩
  have hrows : untrackedRows coreBaseline (coreTable 16400) = 1 := by
    have hcore : notInBaseline coreBaseline (coreRow 16400).name = false := by
      show notInBaseline coreBaseline "core".toList = false
      decide +kernel
    have hevil : notInBaseline coreBaseline evilRow.name = true := by decide +kernel
    show [coreRow 16400, evilRow].countP (fun r => notInBaseline coreBaseline r.name) = 1
    simp [hcore, hevil]
  rw [h.count, hrows] at hcount
  exact absurd hcount (by decide)

end MiuiserPeruser.Shredder
