import MiuiserPeruser.Lib.LineTokens
import MiuiserPeruser.Shredder.Drift

/-!
# shredderd — the file of the baseline (`shredderd.c`)

`save_baseline` prints a line of five fields for every entry and
`load_baseline` reads it back with `sscanf`, whose widths are the sizes of
the fields of `mod_baseline_t`. Whatever a field can hold is a word within
its width (`IsEntry`), and the longest line has 427 bytes, less than the
buffer of `fgets`. So a file is read back as it was written
(`loadBaseline_saveBaseline`), and what `establish_baseline` leaves always
is of that kind (`isEntry_baselineLoop`).
-/

namespace MiuiserPeruser.Shredder

open CText Probe

/-! ## Writing and reading -/

/-- `fprintf(f, "%s %s %zu %s %ld\n", …)`. -/
def baselineLine (m : ModBaseline) : List Char :=
  m.name ++ ' ' :: (m.hashSha256 ++ ' ' :: (decimal m.size ++ ' ' :: (m.path ++ ' ' :: decimal m.firstSeen)))

/-- `save_baseline`: the file, once it is open. -/
def saveBaseline (st : DriftState) : List Char := textLines (st.baseline.map baselineLine)

/-- The directives of `"%63s %64s %zu %255s %ld"`. -/
def entryFormat : List Directive :=
  percentS 63 ++ (percentS 64 ++ (percentLLU ++ (percentS 255 ++ percentLD)))

/-- The entry of a line with five fields. -/
def readEntry (line : List Char) : Option ModBaseline :=
  let values := scanf entryFormat (cstr line)
  if values.length = 5 then
    some
      { name := textAt values 0
        hashSha256 := textAt values 1
        size := (numAt values 2).toNat
        path := textAt values 3
        firstSeen := (numAt values 4).toNat }
  else none

/-- The loop of `load_baseline`, at `count` entries. -/
def loadEntries : Nat → List (List Char) → List ModBaseline
  | _, [] => []
  | count, line :: lines =>
      if count < maxModules then
        match readEntry line with
        | some m => m :: loadEntries (count + 1) lines
        | none => loadEntries count lines
      else []

/-- `load_baseline`; without a file nothing is touched. -/
def loadBaseline (file : Option (List Char)) (st : DriftState) : DriftState :=
  match file with
  | none => st
  | some text =>
      let entries := loadEntries 0 (fgetsLines 512 text)
      { st with baseline := entries, established := 0 < entries.length }

/-- `find_in_baseline`. -/
def findInBaseline (st : DriftState) (name : List Char) : Option ModBaseline :=
  st.baseline.find? (·.name = name)

/-- The start of `main`: the file, and what `bexec` returns if the baseline
has to be established. -/
def startUp (file : Option (List Char)) (result : Option (List Char)) (now : List Char → Nat) :
    DriftState × Option (List Char) :=
  let st := loadBaseline file .initial
  if st.established then (st, file)
  else
    let st := establishBaseline st result now
    (st, if rishRead result 65536 = [] then file else some (saveBaseline st))

/-! ## Entries that fit their fields -/

/-- A string without blanks that fits an array of `size` bytes. -/
structure IsField (size : Nat) (s : List Char) : Prop where
  ne_nil : s ≠ []
  word : ∀ c ∈ s, isspace c = false ∧ c ≠ '\x00'
  short : s.length < size

/-- What the fields of a `mod_baseline_t` can hold. -/
structure IsEntry (m : ModBaseline) : Prop where
  name : IsField 64 m.name
  hash : IsField 65 m.hashSha256
  size : m.size < 2 ^ 64
  path : IsField 256 m.path
  firstSeen : m.firstSeen < 2 ^ 63

section Entry

variable {m : ModBaseline}

theorem IsField.noNewline {n : Nat} {s : List Char} (h : IsField n s) : '\n' ∉ s ∧ '\x00' ∉ s := by
  constructor
  · intro hmem
    exact absurd (h.word _ hmem).1 (by decide)
  · intro hmem
    exact (h.word _ hmem).2 rfl

theorem stops_blank (s : List Char) : Stops (fun c => !isspace c) (' ' :: s) := stops_cons.mpr (by decide)

/-- **An entry is read back.** -/
theorem scanf_baselineLine (h : IsEntry m) : scanf entryFormat (baselineLine m ++ ['\n']) =
    [.text m.name, .text m.hashSha256, .num m.size, .text m.path, .num m.firstSeen] := by
  have hend : Stops (fun c => !isspace c) ['\n'] := stops_cons.mpr (by decide)
  have htext : baselineLine m ++ ['\n'] = m.name ++ ' ' :: (m.hashSha256 ++ ' ' :: (decimal m.size ++ ' ' ::
      (m.path ++ ' ' :: (decimal m.firstSeen ++ ['\n'])))) := by
    simp only [baselineLine, List.append_assoc, List.cons_append]
  have hname := h.name.short
  have hhash := h.hash.short
  have hpath := h.path.short
  have hword : ∀ {size : Nat} {w : List Char}, IsField size w → ∀ c ∈ w, isspace c = false :=
    fun hw c hc => (hw.word c hc).1
  -- the blank in front of a field is skipped by the field
  calc scanf entryFormat (baselineLine m ++ ['\n'])
      = .text m.name :: scanf (percentS 64 ++ (percentLLU ++ (percentS 255 ++ percentLD)))
          (m.hashSha256 ++ ' ' :: (decimal m.size ++ ' ' :: (m.path ++ ' ' :: (decimal m.firstSeen ++ ['\n'])))) := by
        rw [htext, entryFormat, scanf_word h.name.ne_nil (hword h.name) (by omega) (stops_blank _)]
        rfl
    _ = .text m.name :: .text m.hashSha256 :: scanf (percentLLU ++ (percentS 255 ++ percentLD))
          (decimal m.size ++ ' ' :: (m.path ++ ' ' :: (decimal m.firstSeen ++ ['\n']))) := by
        rw [scanf_word h.hash.ne_nil (hword h.hash) (by omega) (stops_blank _)]
        rfl
    _ = .text m.name :: .text m.hashSha256 :: .num m.size :: scanf (percentS 255 ++ percentLD)
          (m.path ++ ' ' :: (decimal m.firstSeen ++ ['\n'])) := by
        rw [percentLLU, List.cons_append, List.cons_append, List.nil_append,
          scanf_decimal (storeUnsigned_fits le_rfl h.size) (stops_blank _)]
        rfl
    _ = .text m.name :: .text m.hashSha256 :: .num m.size :: .text m.path ::
          scanf percentLD (decimal m.firstSeen ++ ['\n']) := by
        rw [scanf_word h.path.ne_nil (hword h.path) (by omega) (stops_blank _)]
        rfl
    _ = [.text m.name, .text m.hashSha256, .num m.size, .text m.path, .num m.firstSeen] := by
        rw [percentLD, scanf_decimal (storeSigned_fits le_rfl h.firstSeen) hend]
        rfl

theorem noNewline_decimal (n : Nat) : '\n' ∉ decimal n ∧ '\x00' ∉ decimal n := by
  constructor
  · exact fun h => absurd (isDigit_decimal h) (by decide)
  · exact fun h => absurd (isDigit_decimal h) (by decide)

theorem baselineLine_isLine (h : IsEntry m) : IsLine (baselineLine m) ∧ '\x00' ∉ baselineLine m := by
  have hne : baselineLine m ≠ [] := List.append_ne_nil_of_left_ne_nil h.name.ne_nil _
  have hname := h.name.noNewline
  have hhash := h.hash.noNewline
  have hpath := h.path.noNewline
  have hsize := noNewline_decimal m.size
  have hseen := noNewline_decimal m.firstSeen
  constructor
  · refine ⟨hne, ?_⟩
    simp [baselineLine, hname.1, hhash.1, hsize.1, hpath.1, hseen.1]
  · simp [baselineLine, hname.2, hhash.2, hsize.2, hpath.2, hseen.2]

theorem length_decimal_word {n : Nat} (h : n < 2 ^ 64) : (decimal n).length ≤ 20 :=
  (Nat.length_toDigits_le_iff (by decide) (by decide)).mpr (by omega)

/-- No line fills the buffer of `fgets`. -/
theorem length_baselineLine (h : IsEntry m) : (baselineLine m).length + 1 < 512 := by
  have hname := h.name.short
  have hhash := h.hash.short
  have hpath := h.path.short
  have hsize := length_decimal_word h.size
  have hseen := length_decimal_word (n := m.firstSeen) (by have := h.firstSeen; omega)
  simp only [baselineLine, List.length_append, List.length_cons]
  omega

theorem readEntry_baselineLine (h : IsEntry m) : readEntry (baselineLine m ++ ['\n']) = some m := by
  have hnul : '\x00' ∉ baselineLine m ++ ['\n'] := by
    rw [List.mem_append, not_or]
    exact ⟨(baselineLine_isLine h).2, by decide⟩
  rw [readEntry, cstr_eq_self hnul, scanf_baselineLine h]
  rfl

end Entry

/-! ## Files -/

section File

variable {entries : List ModBaseline}

theorem fgetsLines_entries (h : ∀ m ∈ entries, IsEntry m) :
    fgetsLines 512 (textLines (entries.map baselineLine)) = entries.map fun m => baselineLine m ++ ['\n'] := by
  induction entries with
  | nil => rfl
  | cons m entries ih =>
      have hm := h m List.mem_cons_self
      rw [List.map_cons, textLines_cons, fgetsLines_line (baselineLine_isLine hm).1.2 (length_baselineLine hm),
        ih fun m hm => h m (List.mem_cons_of_mem _ hm), List.map_cons]

theorem loadEntries_lines (h : ∀ m ∈ entries, IsEntry m) {count : Nat}
    (hroom : count + entries.length ≤ maxModules) :
    loadEntries count (entries.map fun m => baselineLine m ++ ['\n']) = entries := by
  induction entries generalizing count with
  | nil => rfl
  | cons m entries ih =>
      rw [List.length_cons] at hroom
      rw [List.map_cons, loadEntries, if_pos (by omega), readEntry_baselineLine (h m List.mem_cons_self)]
      exact congrArg (m :: ·) (ih (fun m hm => h m (List.mem_cons_of_mem _ hm)) (by omega))

/-- **A file is read back**, whatever baseline is in it. -/
theorem loadBaseline_saveBaseline {st : DriftState} (h : ∀ m ∈ st.baseline, IsEntry m)
    (hroom : st.baseline.length ≤ maxModules) (fresh : DriftState) :
    loadBaseline (some (saveBaseline st)) fresh =
      { fresh with baseline := st.baseline, established := 0 < st.baseline.length } := by
  have hload : loadEntries 0 (st.baseline.map fun m => baselineLine m ++ ['\n']) = st.baseline :=
    loadEntries_lines h (by omega)
  unfold loadBaseline saveBaseline
  simp only [fgetsLines_entries h, hload]

end File

/-! ## The baseline that is established -/

section Established

variable {now : List Char → Nat}

/-- A token is a part of the text. -/
theorem strtok_subset {delims s line : List Char} (h : (strtok delims s).1 = some line) :
    line ⊆ s ∧ (strtok delims s).2 ⊆ s := by
  unfold strtok at h ⊢
  have hdrop : s.dropWhile (· ∈ delims) ⊆ s := List.dropWhile_subset _
  cases ht : s.dropWhile (· ∈ delims) with
  | nil =>
      rw [ht] at h
      exact absurd h nofun
  | cons c t =>
      rw [ht] at h hdrop
      rw [← Option.some.inj h]
      have htail : ((c :: t).dropWhile (· ∉ delims)).tail ⊆ c :: t :=
        ((List.tail_suffix _).trans (List.dropWhile_suffix _)).subset
      exact ⟨List.Subset.trans (List.takeWhile_subset _) hdrop, List.Subset.trans htail hdrop⟩

theorem strtokTokens_subset {n : Nat} {s line : List Char} (h : line ∈ strtokTokens n s) : line ⊆ s := by
  induction n generalizing s with
  | zero => exact absurd h List.not_mem_nil
  | succ n ih =>
      rw [strtokTokens] at h
      cases hnext : strtok ['\n'] s with
      | mk token rest =>
          rw [hnext] at h
          cases token with
          | none => exact absurd h List.not_mem_nil
          | some token =>
              have hfound : (strtok ['\n'] s).1 = some token := by rw [hnext]
              obtain ⟨htoken, hrest⟩ := strtok_subset hfound
              rw [hnext] at hrest
              rcases List.mem_cons.mp h with rfl | h
              · exact htoken
              · exact List.Subset.trans (ih h) hrest

/-- A name that is accepted fits its field. -/
theorem isField_baselineName {line name : List Char} (hline : '\x00' ∉ line)
    (h : baselineName line = some name) : IsField 64 name := by
  unfold baselineName at h
  split at h
  · rename_i text hscan
    split at h
    · obtain rfl := Option.some.inj h
      obtain ⟨blanks, rest, rfl, -, hscan⟩ := scanf_space_inv hscan
      obtain ⟨t, tail, rfl, hne, hset, hlen, htext, -⟩ := scanf_chars_inv hscan
      obtain rfl : text = t := Value.text.inj htext
      refine ⟨hne, fun c hc => ⟨by simpa using hset c hc, ?_⟩, by omega⟩
      rintro rfl
      exact hline (by simp [hc])
    · exact absurd h nofun
  · exact absurd h nofun

theorem isField_unknown : IsField 65 "UNKNOWN".toList ∧ IsField 256 "UNKNOWN".toList := by
  have hword : ∀ c ∈ "UNKNOWN".toList, isspace c = false ∧ c ≠ '\x00' := forall_mem_of_all (by decide)
  exact ⟨⟨by decide, hword, by decide⟩, ⟨by decide, hword, by decide⟩⟩

theorem isEntry_unknown {name : List Char} (h : IsField 64 name) (hnow : now name < 2 ^ 63) :
    IsEntry (.unknown name (now name)) where
  name := h
  hash := isField_unknown.1
  size := Nat.two_pow_pos 64
  path := isField_unknown.2
  firstSeen := hnow

/-- What one pass of the loop adds is an entry, and there is room for it. -/
theorem isEntry_baselineLoop (hnow : ∀ name, now name < 2 ^ 63) {lines : List (List Char)}
    (hlines : ∀ line ∈ lines, '\x00' ∉ line) (count : Nat) :
    (∀ m ∈ baselineLoop now count lines, IsEntry m) ∧
      (baselineLoop now count lines).length ≤ maxModules - count := by
  induction lines generalizing count with
  | nil => exact ⟨fun m hm => absurd hm List.not_mem_nil, Nat.zero_le _⟩
  | cons line lines ih =>
      have hrest := fun count => ih (fun l hl => hlines l (List.mem_cons_of_mem _ hl)) count
      rw [baselineLoop]
      split
      · rename_i hroom
        cases hname : baselineName line with
        | none => exact hrest count
        | some name =>
            have hfield := isField_baselineName (hlines line List.mem_cons_self) hname
            obtain ⟨hentries, hlen⟩ := hrest (count + 1)
            constructor
            · intro m hm
              rcases List.mem_cons.mp hm with rfl | hm
              · exact isEntry_unknown hfield (hnow name)
              · exact hentries m hm
            · simp only [List.length_cons]
              omega
      · exact ⟨fun m hm => absurd hm List.not_mem_nil, Nat.zero_le _⟩

theorem nul_notMem_rishRead (result : Option (List Char)) (bufsize : Nat) :
    '\x00' ∉ rishRead result bufsize := by
  intro h
  unfold rishRead at h
  split at h
  · exact List.not_mem_nil h
  · have hmem := List.mem_of_mem_take ((List.rdropWhile_prefix _ _).subset h)
    have hnot := List.mem_takeWhile_imp hmem
    exact absurd hnot (by decide)

/-- `establish_baseline` in a process that has just started. -/
theorem establishBaseline_initial (result : Option (List Char)) (now : List Char → Nat) :
    establishBaseline .initial result now =
      if rishRead result 65536 = [] then .initial
      else { DriftState.initial with
        baseline := baselineLoop now 0 (strtokLines (rishRead result 65536)), established := true } := by
  unfold establishBaseline
  split
  · rename_i h
    simp only [if_pos h]
    rfl
  · rename_i h
    simp only [if_neg h]

end Established

/-- Two processes with the same baseline. -/
structure SameBaseline (before after : DriftState) : Prop where
  count : after.baseline.length = before.baseline.length
  entries : after.baseline = before.baseline
  established : after.established = before.established
  find : ∀ name, findInBaseline after name = findInBaseline before name
  detect : ∀ nmod result now, detectDrift after nmod result now = detectDrift before nmod result now

/-- A process that is started again has the state of the one before. -/
theorem loadBaseline_establishBaseline (result : Option (List Char)) (now : List Char → Nat)
    (hnow : ∀ name, now name < 2 ^ 63) (hsome : (establishBaseline .initial result now).baseline ≠ []) :
    (establishBaseline .initial result now).established = true ∧
      loadBaseline (some (saveBaseline (establishBaseline .initial result now))) .initial =
        establishBaseline .initial result now := by
  have hlines : ∀ line ∈ strtokLines (rishRead result 65536), '\x00' ∉ line :=
    fun line hline hnul => nul_notMem_rishRead result 65536 (strtokTokens_subset hline hnul)
  obtain ⟨hentries, hlen⟩ := isEntry_baselineLoop hnow hlines 0
  rw [establishBaseline_initial] at hsome ⊢
  by_cases hread : rishRead result 65536 = []
  · rw [if_pos hread] at hsome
    exact absurd rfl hsome
  · rw [if_neg hread] at hsome ⊢
    refine ⟨rfl, ?_⟩
    rw [loadBaseline_saveBaseline hentries hlen]
    have hpos : 0 < (baselineLoop now 0 (strtokLines (rishRead result 65536))).length :=
      List.length_pos_iff.mpr hsome
    simp only [decide_eq_true hpos]

/-- **The baseline survives a restart**, and so every later start of the
daemon finds it, whatever the module list is by then. -/
theorem baseline_survives_restart (result : Option (List Char)) (now : List Char → Nat)
    (hnow : ∀ name, now name < 2 ^ 63) (hsome : (establishBaseline .initial result now).baseline ≠ []) :
    SameBaseline (establishBaseline .initial result now)
        (loadBaseline (some (saveBaseline (establishBaseline .initial result now))) .initial) ∧
      ∀ result' now', startUp (startUp none result now).2 result' now' = startUp none result now := by
  obtain ⟨hestablished, hload⟩ := loadBaseline_establishBaseline result now hnow hsome
  constructor
  · rw [hload]
    exact ⟨rfl, rfl, rfl, fun _ => rfl, fun _ _ _ => rfl⟩
  · intro result' now'
    have hread : rishRead result 65536 ≠ [] := by
      intro hnil
      rw [establishBaseline_initial, if_pos hnil] at hsome
      exact hsome rfl
    have hfirst : startUp none result now = (establishBaseline .initial result now,
        some (saveBaseline (establishBaseline .initial result now))) := by
      show (establishBaseline .initial result now, if rishRead result 65536 = [] then none else _) = _
      rw [if_neg hread]
      rfl
    rw [hfirst]
    show (if (loadBaseline (some (saveBaseline _)) .initial).established = true then _ else _) = _
    rw [hload, if_pos hestablished]

/-- Two modules. -/
theorem baseline_survives_restart_two :
    SameBaseline (establishBaseline .initial (some "wlan\ngps\n".toList) fun _ => 1700000000)
        (loadBaseline (some (saveBaseline
          (establishBaseline .initial (some "wlan\ngps\n".toList) fun _ => 1700000000))) .initial) ∧
      ∀ result' now', startUp (startUp none (some "wlan\ngps\n".toList) fun _ => 1700000000).2 result' now' =
        startUp none (some "wlan\ngps\n".toList) fun _ => 1700000000 :=
  baseline_survives_restart (some "wlan\ngps\n".toList) (fun _ => 1700000000) (fun _ => by decide)
    (by decide +kernel)

end MiuiserPeruser.Shredder
