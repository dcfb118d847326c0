import MiuiserPeruser.Bexec.Pty
import MiuiserPeruser.Bexec.Wrap
import MiuiserPeruser.Shredder.BaselineFile

/-!
# shredderd — the list of modules

`establish_baseline` and `detect_drift` read the names with awk, whose program
is `{print $1}`. Only the DIRECT backend of `bexec` runs this program: where
the command is wrapped in double quotes, `sh` takes the `$1` out of it
(`expands_listCommand`), and awk prints the whole rows of `/proc/modules`.
rish has a terminal behind it, which ends them with CR LF.

Of what is printed a buffer keeps the first bytes, and `rish_read` strips the
line ends behind them. `cutLines` are the lines that are left
(`strtokTokens_shown`).
-/

namespace MiuiserPeruser.Shredder

open CText Shell Bexec Probe Splinter

/-! ## /proc/modules -/

/-- The name of a module: a word, and no quote in it. -/
structure ModuleName where
  text : List Char
  ne_nil : text ≠ []
  word : ∀ c ∈ text, isspace c = false ∧ c ≠ '\x00' ∧ c ≠ '"'
  deriving DecidableEq

@[ext] theorem ModuleName.ext {x y : ModuleName} (h : x.text = y.text) : x = y := by
  cases x
  cases y
  cases h
  rfl

theorem ModuleName.text_injective : Function.Injective ModuleName.text := fun _ _ => ModuleName.ext

/-- A row of `/proc/modules`: the name and, behind a blank, the size and what
else there is. -/
structure ModuleRow where
  name : ModuleName
  rest : List Char
  blank : rest.head? = some ' '
  chars : ∀ c ∈ rest, c ≠ '\n' ∧ c ≠ '\r' ∧ c ≠ '\x00' ∧ c ≠ '"'

def ModuleRow.text (r : ModuleRow) : List Char := r.name.text ++ r.rest

/-- The programs awk is run with: the one in the source, and what is left of it
without the parameter. -/
inductive AwkProgram where
  | firstField | wholeRow

def AwkProgram.text : AwkProgram → List Char
  | .firstField => "{print $1}".toList
  | .wholeRow => "{print }".toList

/-- What the program prints of a row. -/
def AwkProgram.prints : AwkProgram → ModuleRow → List Char
  | .firstField, r => r.name.text
  | .wholeRow, r => r.text

/-- The command of `establish_baseline`. -/
def baselineCommand (p : AwkProgram) : List Char :=
  "cat /proc/modules | awk '".toList ++ (p.text ++ "'".toList)

/-- The command of `detect_drift`. -/
def listCommand (p : AwkProgram) : List Char :=
  "cat /proc/modules 2>/dev/null | awk '".toList ++ (p.text ++ "'".toList)

/-- The program a backend runs. -/
def awkProgram : BackendType → AwkProgram
  | .direct => .firstField
  | _ => .wholeRow

/-- What a backend delivers of a row, without the line feed. -/
def printedLine (b : BackendType) (r : ModuleRow) : List Char :=
  (awkProgram b).prints r ++ if b = .rish then ['\r'] else []

def output (b : BackendType) (rows : List ModuleRow) : List Char :=
  textLines (rows.map (printedLine b))

/-- What `bexec` returns for these rows: through the pipe, or from the terminal,
where a read is of at most 4096 bytes. -/
inductive Reads (rows : List ModuleRow) : BackendType → Option (List Char) → Prop
  | pipe {b : BackendType} (hb : b ≠ .rish) :
      Reads rows b (some (popenText 65537 (output b rows)))
  | terminal {rounds : List Round} {text : List Char} (hrun : runViaPty 65537 rounds = some text)
      (hall : (delivered rounds).flatten = output .rish rows)
      (hread : ∀ bytes ∈ delivered rounds, bytes.length ≤ 4096) : Reads rows .rish (some text)

/-! ## What is left of the program -/

section Program

theorem awkProgram_wrapped {b : BackendType} (hb : b ≠ .direct) : awkProgram b = .wholeRow := by
  cases b with
  | direct => exact absurd rfl hb
  | rish => rfl
  | adb => rfl
  | adbCli => rfl

variable (t : Transport)

/-- **The program a backend runs** is the one of the source only without a
wrapping. `g_rish_path` has 256 bytes. -/
theorem expands_commands (hpath : t.rishPath.length < 256) (b : BackendType) :
    Expands t (listCommand .firstField) (listCommand (awkProgram b)) b ∧
      Expands t (baselineCommand .firstField) (baselineCommand (awkProgram b)) b := by
  have hlist : (rishFormat t (listCommand .firstField)).length < 1600 := by
    have hcmd : (listCommand .firstField).length ≤ 100 := by decide
    rw [length_rishFormat]
    omega
  have hbaseline : (rishFormat t (baselineCommand .firstField)).length < 1600 := by
    have hcmd : (baselineCommand .firstField).length ≤ 100 := by decide
    rw [length_rishFormat]
    omega
  have hdropList : dropParameters .double (listCommand .firstField) = listCommand .wholeRow := by
    decide +kernel
  have hdropBaseline :
      dropParameters .double (baselineCommand .firstField) = baselineCommand .wholeRow := by
    decide +kernel
  by_cases hb : b = .direct
  · subst hb
    exact ⟨expands_direct (by decide +kernel), expands_direct (by decide +kernel)⟩
  · rw [awkProgram_wrapped hb, ← hdropList, ← hdropBaseline]
    constructor
    · refine expands_wrapped (by decide) (by decide) ?_ hlist hb
      rw [hdropList]
      exact forall_mem_of_all (by decide)
    · refine expands_wrapped (by decide) (by decide) ?_ hbaseline hb
      rw [hdropBaseline]
      exact forall_mem_of_all (by decide)

end Program

/-! ## What a limit of bytes leaves -/

/-- A line with a character that is not stripped in front. -/
structure Printed (l : List Char) : Prop where
  line : '\n' ∉ l
  start : ∃ c w, l = c :: w ∧ isEol c = false

/-- The lines in the first `room` bytes of a text, without the line ends
behind the last of them. -/
def cutLines : Nat → List (List Char) → List (List Char)
  | _, [] => []
  | room, l :: lines =>
      if room = 0 then []
      else if cutLines (room - l.length - 1) lines = [] then [(l.take room).rdropWhile isEol]
      else l :: cutLines (room - l.length - 1) lines

/-- The text `rish_read` leaves of some lines. -/
def shown (lines : List (List Char)) (room : Nat) : List Char :=
  ((textLines lines).take room).rdropWhile isEol

section Limits

variable {l u w : List Char} {lines : List (List Char)} {room : Nat}

theorem rdropWhile_of_not {p : Char → Bool} (hw : ∀ c ∈ w, p c = false) : w.rdropWhile p = w := by
  rw [List.rdropWhile_eq_self_iff]
  intro hne
  rw [hw _ (List.getLast_mem hne)]
  simp

/-- The end of a text is stripped on its own, unless nothing is left of it. -/
theorem rdropWhile_append_of_ne {p : Char → Bool} (h : w.rdropWhile p ≠ []) :
    (u ++ w).rdropWhile p = u ++ w.rdropWhile p := by
  induction w using List.reverseRecOn with
  | nil => exact absurd rfl h
  | append_singleton w c ih =>
      rw [← List.append_assoc]
      by_cases hc : p c = true
      · rw [List.rdropWhile_concat_pos _ _ _ hc] at h
        rw [List.rdropWhile_concat_pos _ _ _ hc, List.rdropWhile_concat_pos _ _ _ hc]
        exact ih h
      · rw [List.rdropWhile_concat_neg _ _ _ hc, List.rdropWhile_concat_neg _ _ _ hc,
          List.append_assoc]

theorem rdropWhile_append_of_all {p : Char → Bool} (h : ∀ c ∈ w, p c = true) :
    (u ++ w).rdropWhile p = u.rdropWhile p := by
  rw [List.rdropWhile, List.reverse_append,
    List.dropWhile_append_of_pos fun c hc => h c (List.mem_reverse.mp hc), ← List.rdropWhile]

theorem Printed.ne_nil (h : Printed l) : l ≠ [] := by
  obtain ⟨c, w, rfl, -⟩ := h.start
  exact List.cons_ne_nil c w

/-- Something of a line is left. -/
theorem Printed.strip_ne_nil (h : Printed l) (hroom : room ≠ 0) :
    (l.take room).rdropWhile isEol ≠ [] := by
  obtain ⟨c, w, rfl, hc⟩ := h.start
  obtain ⟨k, rfl⟩ := Nat.exists_eq_succ_of_ne_zero hroom
  intro hnil
  rw [List.rdropWhile_eq_nil_iff] at hnil
  have hend := hnil c List.mem_cons_self
  rw [hc] at hend
  cases hend

theorem shown_nil (room : Nat) : shown [] room = [] := by
  simp [shown, textLines]

theorem shown_zero (lines : List (List Char)) : shown lines 0 = [] := by
  simp [shown]

/-- What a line adds in front of what is left of the rest. -/
theorem shown_cons (l : List Char) (lines : List (List Char)) (room : Nat) :
    shown (l :: lines) room =
      if shown lines (room - l.length - 1) = [] then (l.take room).rdropWhile isEol
      else l ++ '\n' :: shown lines (room - l.length - 1) := by
  by_cases hlen : l.length < room
  · have htake : (textLines (l :: lines)).take room =
        l ++ '\n' :: (textLines lines).take (room - l.length - 1) := by
      obtain ⟨k, rfl⟩ : ∃ k, room = l.length + (k + 1) := ⟨room - l.length - 1, by omega⟩
      rw [textLines_cons, List.take_length_add_append, List.take_succ_cons]
      congr 3
      omega
    show ((textLines (l :: lines)).take room).rdropWhile isEol = _
    rw [htake]
    split
    · -- only line ends are left, and they are stripped
      rename_i hnone
      have hends : ∀ c ∈ '\n' :: (textLines lines).take (room - l.length - 1), isEol c = true := by
        intro c hc
        rcases List.mem_cons.mp hc with rfl | hc
        · decide
        · exact List.rdropWhile_eq_nil_iff.mp hnone c hc
      rw [rdropWhile_append_of_all hends, List.take_of_length_le hlen.le]
    · rename_i hsome
      have hcons : '\n' :: (textLines lines).take (room - l.length - 1) =
          ['\n'] ++ (textLines lines).take (room - l.length - 1) := rfl
      rw [hcons, ← List.append_assoc, rdropWhile_append_of_ne hsome, List.append_assoc]
      rfl
  · rw [show room - l.length - 1 = 0 by omega, shown_zero, if_pos rfl]
    show ((textLines (l :: lines)).take room).rdropWhile isEol = _
    rw [textLines_cons, List.take_append_of_le_length (Nat.not_lt.mp hlen)]

/-- Nothing is left only of nothing. -/
theorem shown_eq_nil_iff (h : ∀ l ∈ lines, Printed l) : shown lines room = [] ↔ lines = [] ∨ room = 0 := by
  constructor
  · intro hnil
    cases lines with
    | nil => exact .inl rfl
    | cons l lines =>
        apply Or.inr
        by_contra hroom
        rw [shown_cons] at hnil
        split at hnil
        · exact (h l List.mem_cons_self).strip_ne_nil hroom hnil
        · exact absurd hnil (by simp)
  · rintro (rfl | rfl)
    · exact shown_nil room
    · exact shown_zero lines

theorem cutLines_eq_nil_iff : cutLines room lines = [] ↔ lines = [] ∨ room = 0 := by
  cases lines with
  | nil => simp [cutLines]
  | cons l lines =>
      rw [cutLines]
      split
      · rename_i hroom
        simp [hroom]
      · rename_i hroom
        split <;> simp [hroom]

theorem notMem_newline (h : '\n' ∉ l) : ∀ c ∈ l, c ∉ ['\n'] := by
  intro c hc hnl
  rw [List.mem_singleton.mp hnl] at hc
  exact h hc

/-- **The lines of a reading.** -/
theorem strtokTokens_shown (h : ∀ l ∈ lines, Printed l) {n : Nat} (hn : (shown lines room).length ≤ n) :
    strtokTokens n (shown lines room) = cutLines room lines := by
  have hlast : ∀ {l : List Char} {n : Nat}, l ≠ [] → '\n' ∉ l → l.length ≤ n →
      strtokTokens n l = [l] := by
    intro l n hne hline hn
    obtain ⟨m, rfl⟩ : ∃ m, n = m + 1 := by
      have hpos := List.length_pos_of_ne_nil hne
      exact ⟨n - 1, by omega⟩
    rw [strtokTokens, strtok_token_end hne (notMem_newline hline)]
    cases m <;> rfl
  induction lines generalizing n room with
  | nil =>
      rw [shown_nil]
      cases n <;> rfl
  | cons l lines ih =>
      have hl := h l List.mem_cons_self
      have hrest : ∀ l ∈ lines, Printed l := fun l hl => h l (List.mem_cons_of_mem _ hl)
      rw [cutLines]
      by_cases hroom : room = 0
      · rw [if_pos hroom, hroom, shown_zero]
        cases n <;> rfl
      · rw [if_neg hroom]
        have hnone : shown lines (room - l.length - 1) = [] ↔ cutLines (room - l.length - 1) lines = [] := by
          rw [shown_eq_nil_iff hrest, cutLines_eq_nil_iff]
        rw [shown_cons] at hn ⊢
        by_cases hend : cutLines (room - l.length - 1) lines = []
        · rw [if_pos (hnone.mpr hend)] at hn ⊢
          rw [if_pos hend]
          refine hlast (hl.strip_ne_nil hroom) (fun hnl => hl.line ?_) hn
          exact List.mem_of_mem_take ((List.rdropWhile_prefix _ _).subset hnl)
        · rw [if_neg (mt hnone.mp hend)] at hn ⊢
          rw [if_neg hend]
          rw [List.length_append, List.length_cons] at hn
          obtain ⟨m, rfl⟩ : ∃ m, n = m + 1 := ⟨n - 1, by omega⟩
          have htoken : strtok ['\n'] (l ++ '\n' :: shown lines (room - l.length - 1)) =
              (some l, shown lines (room - l.length - 1)) := by
            refine strtok_token hl.ne_nil (notMem_newline hl.line) fun c r heq => ?_
            rw [← (List.cons.inj heq).1]
            exact List.mem_singleton_self _
          rw [strtokTokens, htoken]
          simp only
          rw [ih hrest (by omega)]

/-- A reading with room for all but the last line end is of all lines. -/
theorem cutLines_all (h : ∀ l ∈ lines, l ≠ [] ∧ ∀ c ∈ l, isEol c = false)
    (hroom : (textLines lines).length ≤ room + 1) : cutLines room lines = lines := by
  induction lines generalizing room with
  | nil => rfl
  | cons l lines ih =>
      obtain ⟨hne, hl⟩ := h l List.mem_cons_self
      have hrest : ∀ l ∈ lines, l ≠ [] ∧ ∀ c ∈ l, isEol c = false := fun l hl => h l (List.mem_cons_of_mem _ hl)
      have hpos := List.length_pos_of_ne_nil hne
      have hsplit : (textLines (l :: lines)).length = l.length + 1 + (textLines lines).length := by
        rw [textLines_cons, List.length_append, List.length_cons]
        omega
      rw [cutLines, if_neg (by omega)]
      by_cases hend : cutLines (room - l.length - 1) lines = []
      · -- the last line, and all of it is read
        have hlast : lines = [] := by
          rcases cutLines_eq_nil_iff.mp hend with hnil | hzero
          · exact hnil
          · cases lines with
            | nil => rfl
            | cons l' lines =>
                have hpos' := List.length_pos_of_ne_nil (hrest l' List.mem_cons_self).1
                have hmore : (textLines (l' :: lines)).length = l'.length + 1 + (textLines lines).length := by
                  rw [textLines_cons, List.length_append, List.length_cons]
                  omega
                omega
        rw [if_pos hend, hlast, List.take_of_length_le (by omega), rdropWhile_of_not hl]
      · rw [if_neg hend, ih hrest (by omega)]

/-- A line of a reading is the start of a printed one. -/
theorem mem_cutLines (h : ∀ l ∈ lines, Printed l) {line : List Char} (hline : line ∈ cutLines room lines) :
    line ≠ [] ∧ ∃ l ∈ lines, line <+: l := by
  induction lines generalizing room with
  | nil => cases hline
  | cons l lines ih =>
      have hl := h l List.mem_cons_self
      rw [cutLines] at hline
      split at hline
      · cases hline
      · rename_i hroom
        split at hline
        · obtain rfl := List.mem_singleton.mp hline
          refine ⟨hl.strip_ne_nil hroom, l, List.mem_cons_self, ?_⟩
          exact (List.rdropWhile_prefix _ _).trans (List.take_prefix _ _)
        · rcases List.mem_cons.mp hline with rfl | hline
          · exact ⟨hl.ne_nil, line, List.mem_cons_self, List.prefix_refl line⟩
          · obtain ⟨hne, l', hl', hpre⟩ := ih (fun l hl => h l (List.mem_cons_of_mem _ hl)) hline
            exact ⟨hne, l', List.mem_cons_of_mem _ hl', hpre⟩

end Limits

/-! ## The two readings -/

section Readings

variable {b : BackendType} {rows : List ModuleRow} {result : Option (List Char)}

theorem ModuleName.not_eol (x : ModuleName) : ∀ c ∈ x.text, isEol c = false := by
  intro c hc
  have hspace := (x.word c hc).1
  cases h : isEol c with
  | false => rfl
  | true =>
      have heol : c = '\r' ∨ c = '\n' := by simpa [isEol] using h
      rcases heol with rfl | rfl <;> exact absurd hspace (by decide)

/-- No row has an end of its own, a NUL or a quote in it. -/
theorem ModuleRow.chars_prints (p : AwkProgram) (r : ModuleRow) :
    ∀ c ∈ p.prints r, isEol c = false ∧ c ≠ '\x00' ∧ c ≠ '"' := by
  have hname : ∀ c ∈ r.name.text, isEol c = false ∧ c ≠ '\x00' ∧ c ≠ '"' :=
    fun c hc => ⟨r.name.not_eol c hc, (r.name.word c hc).2⟩
  intro c hc
  cases p with
  | firstField => exact hname c hc
  | wholeRow =>
      rcases List.mem_append.mp hc with hc | hc
      · exact hname c hc
      · obtain ⟨hnl, hcr, hrest⟩ := r.chars c hc
        exact ⟨by simp [isEol, hnl, hcr], hrest⟩

theorem printed_printedLine (b : BackendType) (r : ModuleRow) : Printed (printedLine b r) where
  line := by
    intro hmem
    rcases List.mem_append.mp hmem with hmem | hmem
    · exact absurd (r.chars_prints _ _ hmem).1 (by decide)
    · split at hmem
      · exact absurd hmem (by decide)
      · cases hmem
  start := by
    obtain ⟨c, w, hname⟩ := List.exists_cons_of_ne_nil r.name.ne_nil
    have hc : isEol c = false := r.name.not_eol c (hname ▸ List.mem_cons_self)
    cases hp : awkProgram b with
    | firstField => exact ⟨c, _, by rw [printedLine, hp, AwkProgram.prints, hname]; rfl, hc⟩
    | wholeRow => exact ⟨c, _, by rw [printedLine, hp, AwkProgram.prints, ModuleRow.text, hname]; rfl, hc⟩

theorem printed_lines (b : BackendType) (rows : List ModuleRow) :
    ∀ l ∈ rows.map (printedLine b), Printed l := by
  intro l hl
  obtain ⟨r, -, rfl⟩ := List.mem_map.mp hl
  exact printed_printedLine b r

theorem chars_printedLine (b : BackendType) (r : ModuleRow) :
    ∀ c ∈ printedLine b r, c ≠ '\x00' ∧ c ≠ '"' := by
  intro c hc
  rcases List.mem_append.mp hc with hc | hc
  · exact (r.chars_prints _ c hc).2
  · split at hc
    · rw [List.mem_singleton.mp hc]
      decide
    · cases hc

theorem chars_output (b : BackendType) (rows : List ModuleRow) :
    ∀ c ∈ output b rows, c ≠ '\x00' ∧ c ≠ '"' := by
  intro c hc
  obtain ⟨l, hl, hc⟩ := List.mem_flatMap.mp hc
  obtain ⟨r, -, rfl⟩ := List.mem_map.mp hl
  rcases List.mem_append.mp hc with hc | hc
  · exact chars_printedLine b r c hc
  · rw [List.mem_singleton.mp hc]
    decide

theorem nul_notMem_output (b : BackendType) (rows : List ModuleRow) : '\x00' ∉ output b rows :=
  fun h => (chars_output b rows _ h).1 rfl

/-- What is returned is of the output, and begins as it does. -/
theorem Reads.text (h : Reads rows b result) :
    ∃ text, result = some text ∧ text ⊆ output b rows ∧ text.take 8191 = (output b rows).take 8191 := by
  cases h with
  | pipe hb =>
      refine ⟨_, rfl, ?_, ?_⟩
      · rw [popenText_eq (nul_notMem_output b rows)]
        exact List.take_subset _ _
      · rw [popenText_eq (nul_notMem_output b rows), List.take_take]
        rfl
  | terminal hrun hall hread =>
      refine ⟨_, rfl, ?_, ?_⟩
      · rw [ptyLoop_eq hrun]
        intro c hc
        rcases mem_keepChunks hc with hc | hc
        · cases hc
        · exact hall ▸ hc
      · rw [ptyLoop_eq hrun, keepChunks_take (show 8191 + 4096 < 65537 by decide) hread, hall]
        rfl

/-- **What `detect_drift` has of the list.** -/
theorem Reads.rishRead_check (h : Reads rows b result) :
    rishRead result 8192 = shown (rows.map (printedLine b)) 8191 := by
  obtain ⟨text, rfl, hsub, htake⟩ := h.text
  have hnul : '\x00' ∉ text := fun hmem => nul_notMem_output b rows (hsub hmem)
  show ((cstr text).take 8191).rdropWhile isEol = _
  rw [cstr_eq_self hnul, htake]
  rfl

/-- `establish_baseline` has nothing only of an empty list. -/
theorem Reads.rishRead_baseline (h : Reads rows b result) : rishRead result 65536 = [] ↔ rows = [] := by
  obtain ⟨text, rfl, hsub, htake⟩ := h.text
  have hnul : '\x00' ∉ text := fun hmem => nul_notMem_output b rows (hsub hmem)
  have hread : rishRead (some text) 65536 = (text.take 65535).rdropWhile isEol := by
    show ((cstr text).take 65535).rdropWhile isEol = _
    rw [cstr_eq_self hnul]
  rw [hread]
  cases rows with
  | nil =>
      have hnil : text = [] := by
        have hempty : text.take 8191 = [] := htake
        simpa using hempty
      simp [hnil]
  | cons r rows =>
      obtain ⟨c, w, hline, hc⟩ := (printed_printedLine b r).start
      have hout : output b (r :: rows) = c :: (w ++ '\n' :: output b rows) := by
        rw [output, List.map_cons, textLines_cons, hline]
        rfl
      obtain ⟨v, htext⟩ : ∃ v, text = c :: v := by
        rw [hout] at htake
        cases text with
        | nil => cases htake
        | cons d v => exact ⟨v, by rw [(List.cons.inj htake).1]⟩
      rw [iff_false_right (List.cons_ne_nil r rows), List.rdropWhile_eq_nil_iff]
      intro hnone
      have hend := hnone c (by rw [htext]; exact List.mem_cons_self)
      rw [hc] at hend
      cases hend

/-- The names `detect_drift` sees. -/
def seen (b : BackendType) (rows : List ModuleRow) : List (List Char) :=
  ((cutLines 8191 (rows.map (printedLine b))).take maxModules).map (List.take 63)

theorem Reads.currentNames (h : Reads rows b result) :
    currentNames (rishRead result 8192) = seen b rows := by
  have hall : strtokTokens _ (shown (rows.map (printedLine b)) 8191) = _ :=
    strtokTokens_shown (printed_lines b rows) (le_max_right 512 _)
  rw [Splinter.currentNames, moduleNames_eq, h.rishRead_check, strtokTokens_take (le_max_left _ _), hall]
  rfl

theorem mem_seen {name : List Char} (h : name ∈ seen b rows) : name.length ≤ 63 ∧ '"' ∉ name := by
  obtain ⟨line, hline, rfl⟩ := List.mem_map.mp h
  obtain ⟨-, l, hl, hpre⟩ := mem_cutLines (printed_lines b rows) (List.mem_of_mem_take hline)
  obtain ⟨r, -, rfl⟩ := List.mem_map.mp hl
  refine ⟨List.length_take_le 63 line, fun hquote => ?_⟩
  exact (chars_printedLine b r _ (hpre.subset (List.mem_of_mem_take hquote))).2 rfl

/-- An entry of the baseline is a name that one of its lines begins with. -/
theorem mem_baselineLoop {now : List Char → Nat} {lines : List (List Char)} {count : Nat} {m : ModBaseline}
    (h : m ∈ baselineLoop now count lines) : ∃ line ∈ lines, baselineName line = some m.name := by
  induction lines generalizing count with
  | nil => cases h
  | cons line lines ih =>
      rw [baselineLoop] at h
      split at h
      · split at h
        · rename_i name hname
          rcases List.mem_cons.mp h with rfl | h
          · exact ⟨line, List.mem_cons_self, hname⟩
          · obtain ⟨l, hl, hm⟩ := ih h
            exact ⟨l, List.mem_cons_of_mem _ hl, hm⟩
        · obtain ⟨l, hl, hm⟩ := ih h
          exact ⟨l, List.mem_cons_of_mem _ hl, hm⟩
      · cases h

theorem baselineName_subset {line name : List Char} (h : baselineName line = some name) : name ⊆ line := by
  unfold baselineName at h
  split at h
  · rename_i text hscan
    split at h
    · obtain rfl := Option.some.inj h
      obtain ⟨blanks, rest, rfl, -, hscan⟩ := scanf_space_inv hscan
      obtain ⟨t, tail, rfl, -, -, -, htext, -⟩ := scanf_chars_inv hscan
      obtain rfl : text = t := Value.text.inj htext
      exact List.Subset.trans (List.subset_append_left _ _) (List.subset_append_right _ _)
    · cases h
  · cases h

/-- **A name of the baseline** is a word of at most 63 bytes. -/
theorem Reads.mem_names {now : List Char → Nat} (h : Reads rows b result) {name : List Char}
    (hname : name ∈ (establishBaseline .initial result now).names) : IsField 64 name ∧ '"' ∉ name := by
  rw [establishBaseline_initial] at hname
  split at hname
  · cases hname
  · obtain ⟨m, hm, rfl⟩ := List.mem_map.mp hname
    obtain ⟨line, hline, hm⟩ := mem_baselineLoop hm
    have hsub : line ⊆ rishRead result 65536 := strtokTokens_subset hline
    refine ⟨isField_baselineName (fun hnul => nul_notMem_rishRead result 65536 (hsub hnul)) hm,
      fun hquote => ?_⟩
    have hmem := hsub (baselineName_subset hm hquote)
    obtain ⟨text, rfl, htext, -⟩ := h.text
    have hread := List.mem_of_mem_take ((List.rdropWhile_prefix _ _).subset hmem)
    exact (chars_output b rows _ (htext ((List.takeWhile_prefix _).subset hread))).2 rfl

/-- There is a baseline once a module was loaded. -/
theorem Reads.established (h : Reads rows b result) (now : List Char → Nat) :
    ((establishBaseline .initial result now).established = true ↔ rows ≠ []) ∧
      (establishBaseline .initial result now).driftPolls = 0 := by
  rw [establishBaseline_initial, Ne, ← h.rishRead_baseline]
  split
  · rename_i hnone
    exact ⟨by simp [DriftState.initial, hnone], rfl⟩
  · rename_i hsome
    exact ⟨by simp [hsome], rfl⟩

/-- The names `establish_baseline` keeps of the first fields. -/
def kept (rows : List ModuleRow) : List (List Char) :=
  (((cutLines 65535 (rows.map (printedLine .direct))).map (List.take 63)).filter fun name =>
    1 < name.length).take maxModules

theorem printedLine_direct (r : ModuleRow) : printedLine .direct r = r.name.text :=
  List.append_nil r.name.text

theorem Reads.names_direct (h : Reads rows .direct result) (now : List Char → Nat) :
    (establishBaseline .initial result now).names = kept rows := by
  have hread : rishRead result 65536 = shown (rows.map (printedLine .direct)) 65535 := by
    cases h with
    | pipe hb =>
        have hnul : '\x00' ∉ (output .direct rows).take 65536 :=
          fun hmem => nul_notMem_output .direct rows (List.mem_of_mem_take hmem)
        show ((cstr (popenText 65537 (output .direct rows))).take 65535).rdropWhile isEol = _
        rw [popenText_eq (nul_notMem_output .direct rows), cstr_eq_self hnul, List.take_take]
        rfl
  have hwords : ∀ line ∈ cutLines 65535 (rows.map (printedLine .direct)),
      line ≠ [] ∧ ∀ c ∈ line, isspace c = false := by
    intro line hline
    obtain ⟨hne, l, hl, hpre⟩ := mem_cutLines (printed_lines .direct rows) hline
    obtain ⟨r, -, rfl⟩ := List.mem_map.mp hl
    rw [printedLine_direct] at hpre
    exact ⟨hne, fun c hc => (r.name.word c (hpre.subset hc)).1⟩
  rw [establishBaseline_initial, hread]
  split
  · rename_i hnone
    have hrows := (shown_eq_nil_iff (printed_lines .direct rows)).mp hnone
    have hnil : rows = [] := by simpa using hrows
    rw [hnil]
    rfl
  · show (baselineLoop now 0 (strtokLines _)).map ModBaseline.name = _
    rw [strtokLines, strtokTokens_shown (printed_lines .direct rows) le_rfl, names_baselineLoop now hwords]
    rfl

/-- **The first line of whole rows** has a blank in it. -/
theorem seen_wholeRow (hb : b ≠ .direct) {r : ModuleRow} (hname : r.name.text.length < 63) :
    ∃ line more, seen b (r :: rows) = line :: more ∧ ' ' ∈ line := by
  obtain ⟨tail, htail⟩ : ∃ tail, printedLine b r = (r.name.text ++ [' ']) ++ tail := by
    have hrest : r.rest = ' ' :: r.rest.tail := List.eq_cons_of_mem_head? r.blank
    refine ⟨r.rest.tail ++ if b = .rish then ['\r'] else [], ?_⟩
    rw [printedLine, awkProgram_wrapped hb, AwkProgram.prints, ModuleRow.text, hrest]
    simp
  have hlong : (r.name.text ++ [' ']).length ≤ 63 := by
    rw [List.length_append, List.length_singleton]
    exact hname
  have hcut : (r.name.text ++ [' ']) <+: ((printedLine b r).take 8191).rdropWhile isEol := by
    rw [htail, List.take_append, List.take_of_length_le (by omega)]
    by_cases hnil : (tail.take (8191 - (r.name.text ++ [' ']).length)).rdropWhile isEol = []
    · refine ⟨[], ?_⟩
      rw [List.append_nil, rdropWhile_append_of_all (List.rdropWhile_eq_nil_iff.mp hnil),
        List.rdropWhile_concat_neg _ _ _ (by decide)]
    · rw [rdropWhile_append_of_ne hnil]
      exact List.prefix_append _ _
  obtain ⟨line, more, hlines, hpre⟩ : ∃ line more,
      cutLines 8191 ((r :: rows).map (printedLine b)) = line :: more ∧ (r.name.text ++ [' ']) <+: line := by
    rw [List.map_cons, cutLines, if_neg (by decide)]
    split
    · exact ⟨_, [], rfl, hcut⟩
    · exact ⟨_, _, rfl, htail ▸ List.prefix_append _ _⟩
  obtain ⟨rest, rfl⟩ := hpre
  refine ⟨((r.name.text ++ [' ']) ++ rest).take 63, (more.take 511).map (List.take 63), ?_, ?_⟩
  · rw [seen, hlines]
    rfl
  · rw [List.take_append, List.take_of_length_le hlong]
    simp

end Readings

end MiuiserPeruser.Shredder
