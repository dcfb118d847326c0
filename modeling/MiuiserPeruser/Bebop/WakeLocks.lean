import Mathlib.Data.List.Infix
import MiuiserPeruser.Lib.CInt
import MiuiserPeruser.Lib.LineTokens
import MiuiserPeruser.Lib.Strstr

/-!
# bebopd — the wake locks (`bebopd.c`)

`parse_wakelocks` reads the section of the wake locks line by line. Lines
without a keyword are passed over first, and only then a line is tried for the
end of the section, so the line that ends it is passed over as well, and what
later sections say of wake locks is read too (`section_read_iff`).
-/

namespace MiuiserPeruser.Bebop

open CText

/-- `wakelock_t`. -/
structure Wakelock where
  tag : List Char
  uid : Int
  type : List Char
  isSystem : Bool
  isFull : Bool
deriving DecidableEq

def systemUidMax : Int := 9999

/-- `strstr(s, word) != NULL`. -/
def contains (word : String) (s : List Char) : Bool := decide (word.toList <:+: s)

/-- The number behind the first `uid=`. -/
def inlineUid (s : List Char) : Option Int := (strstr "uid=".toList s).map fun s => atoi (s.drop 4)

def blanks : List Char := [' ', '\t']

/-- What stands behind the token and the byte that ends it. If that is the end
of the line, it is what the buffer holds `behind` the line. -/
def afterToken (behind lbuf : List Char) : List Char :=
  match (lbuf.dropWhile (· ∈ blanks)).dropWhile (· ∉ blanks) with
  | [] => behind
  | _ :: s => s

/-- The first text in single quotes, cut to `tag`; it may be open at its end. -/
def firstTag (s : List Char) : List Char :=
  match s.dropWhile (· ≠ '\'') with
  | [] => []
  | _ :: t => (t.takeWhile (· ≠ '\'')).take 79

/-- The `uid` of an entry: from its own line, or from the next. -/
def uidOf (lbuf : List Char) (next : Option (List Char)) : Int :=
  match inlineUid lbuf with
  | some n => n
  | none =>
      match next with
      | none => 0
      | some acq => (inlineUid (acq.take 255)).getD 0

/-- The record of the line in `lbuf`, whose first token is `tok`. -/
def wakelockOf (behind lbuf tok : List Char) (next : Option (List Char)) : Wakelock :=
  let type := tok.take 15
  let uid := uidOf lbuf next
  { tag := firstTag (afterToken behind lbuf)
    uid
    type
    isSystem := uid ≤ systemUidMax
    isFull := contains "FULL" type || contains "PARTIAL" type }

/-- A line with a keyword; others are skipped. -/
def isKeyLine (lbuf : List Char) : Bool := contains "WAKE_LOCK" lbuf || contains "ACQ=" lbuf

/-- The next section. -/
def endsSection (lbuf : List Char) : Bool := contains "Suspend Blockers:" lbuf || contains "Battery saving" lbuf

/-- The loop of `parse_wakelocks` over the lines, with room for some records.
`behind` is what the buffer holds behind a line, by how many lines follow it. -/
def readWakelocks (behind : Nat → List Char) : Nat → List (List Char) → List Wakelock
  | _, [] => []
  | 0, _ => []
  | room + 1, line :: lines =>
      let lbuf := line.take 511
      if !isKeyLine lbuf then readWakelocks behind (room + 1) lines
      else if endsSection lbuf then []
      else if !contains "WAKE_LOCK" lbuf then readWakelocks behind (room + 1) lines
      else
        match (strtok blanks lbuf).1 with
        | none => readWakelocks behind (room + 1) lines
        | some tok =>
            wakelockOf (behind lines.length) lbuf tok lines.head? :: readWakelocks behind room lines

/-- The lines of a text that have an end. -/
def completeLines (s : List Char) : List (List Char) := (s.splitOn '\n').dropLast

/-- `parse_wakelocks`. -/
def parseWakelocks (behind : Nat → List Char) (dump : Option (List Char)) (maxWls : Nat) : List Wakelock :=
  match dump with
  | none => []
  | some dump =>
      match strstr "Wake Locks:".toList dump with
      | none => []
      | some found => readWakelocks behind maxWls (completeLines found)

/-! ## The section -/

/-- The parts of an entry's line. -/
structure EntryText where
  indent : List Char
  type : List Char
  gap : List Char
  tag : List Char
  mid : List Char
  uid : Nat
  rest : List Char

namespace EntryText

/-- The line up to the end of its tag. -/
def front (e : EntryText) : List Char := e.indent ++ (e.type ++ (e.gap ++ '\'' :: (e.tag ++ ['\''])))

/-- What follows the tag. -/
def back (e : EntryText) : List Char := e.mid ++ ("uid=".toList ++ (decimal e.uid ++ e.rest))

/-- `type 'tag' … uid=N …`. -/
def line (e : EntryText) : List Char := e.front ++ e.back

end EntryText

/-- One line of less than 512 bytes, whose type, tag and number fit the record.
The type is one word, and the number is that of the first `uid=` after the
tag. -/
structure IsEntry (e : EntryText) : Prop where
  indent : ∀ c ∈ e.indent, c ∈ blanks
  keyword : contains "WAKE_LOCK" e.type = true
  word : ∀ c ∈ e.type, c ∉ blanks
  type_length : e.type.length ≤ 15
  gap_blank : ∃ c g, e.gap = c :: g ∧ c ∈ blanks
  gap_quote : '\'' ∉ e.gap
  tag_quote : '\'' ∉ e.tag
  tag_length : e.tag.length ≤ 79
  mid : ¬ "uid=".toList <:+: e.mid
  uid : e.uid < 2 ^ 31
  rest : Stops Char.isDigit e.rest
  oneLine : '\n' ∉ e.line
  length : e.line.length < 512

/-- An entry of the section. -/
structure Entry where
  text : EntryText
  isEntry : IsEntry text

/-- What the header says behind `Wake Locks:`. -/
structure Header where
  text : List Char
  oneLine : '\n' ∉ text
  noKeyword : isKeyLine ("Wake Locks:".toList ++ text) = false

/-- The text with the section in it; `after` is what follows on `Suspend
Blockers:`. -/
def dumpText (header : Header) (entries : List Entry) (after : List Char) : List Char :=
  textLines (("Wake Locks:".toList ++ header.text) :: entries.map fun e => e.text.line) ++
    ("Suspend Blockers:".toList ++ after)

/-- What of a record is told by the entry. -/
structure Identity where
  type : List Char
  tag : List Char
  uid : Int

def Wakelock.identity (wl : Wakelock) : Identity := ⟨wl.type, wl.tag, wl.uid⟩

def Entry.identity (e : Entry) : Identity := ⟨e.text.type, e.text.tag, e.text.uid⟩

/-- The condition on an entry: its line does not name the end of the section,
and if there is a `uid=` before the end of its tag, the number behind the first
is its own. -/
structure Entry.Plain (e : Entry) : Prop where
  inside : endsSection e.text.line = false
  uid : ∀ found, strstr "uid=".toList e.text.front = some found →
    atoi ((found ++ e.text.back).drop 4) = e.text.uid

/-- The condition on the lines behind the section: no wake lock before a line
with a keyword that names the end of the section. -/
def Silent (lines : List (List Char)) : Prop :=
  ∀ l ∈ lines.takeWhile (fun l => !(isKeyLine (l.take 511) && endsSection (l.take 511))),
    contains "WAKE_LOCK" (l.take 511) = false

/-! ## One line -/

section Line

theorem contains_iff {word : String} {s : List Char} : contains word s = true ↔ word.toList <:+: s :=
  decide_eq_true_iff

/-- The buffer behind a token that a blank ends. -/
theorem afterToken_word {behind indent w s : List Char} {c : Char} (hindent : ∀ d ∈ indent, d ∈ blanks)
    (hne : w ≠ []) (hw : ∀ d ∈ w, d ∉ blanks) (hc : c ∈ blanks) :
    afterToken behind (indent ++ (w ++ c :: s)) = s := by
  have hskip : (indent ++ (w ++ c :: s)).dropWhile (· ∈ blanks) = w ++ c :: s := by
    obtain ⟨x, w, rfl⟩ := List.exists_cons_of_ne_nil hne
    apply dropWhile_append_of_stop (fun d hd => by simpa using hindent d hd)
    exact stops_cons.mpr (by simpa using hw x List.mem_cons_self)
  have htoken : (w ++ c :: s).dropWhile (· ∉ blanks) = c :: s := by
    apply dropWhile_append_of_stop (fun d hd => by simpa using hw d hd)
    exact stops_cons.mpr (by simpa using hc)
  simp only [afterToken, hskip, htoken]

theorem firstTag_quoted {gap tag s : List Char} (hgap : '\'' ∉ gap) (htag : '\'' ∉ tag)
    (hlen : tag.length ≤ 79) : firstTag (gap ++ '\'' :: (tag ++ '\'' :: s)) = tag := by
  have hne : ∀ {t : List Char}, '\'' ∉ t → ∀ d ∈ t, decide (d ≠ '\'') = true := by
    intro t ht d hd
    rw [decide_eq_true_eq]
    rintro rfl
    exact ht hd
  have hstop : ∀ t, Stops (fun d => decide (d ≠ '\'')) ('\'' :: t) := fun t => stops_cons.mpr rfl
  have hopen : (gap ++ '\'' :: (tag ++ '\'' :: s)).dropWhile (· ≠ '\'') = '\'' :: (tag ++ '\'' :: s) :=
    dropWhile_append_of_stop (hne hgap) (hstop _)
  have hclose : (tag ++ '\'' :: s).takeWhile (· ≠ '\'') = tag :=
    takeWhile_append_of_stop (hne htag) (hstop _)
  simp only [firstTag, hopen, hclose, List.take_of_length_le hlen]

variable {e : EntryText}

theorem type_ne_nil (h : IsEntry e) : e.type ≠ [] := by
  intro hnil
  have hkey := h.keyword
  rw [hnil] at hkey
  exact absurd hkey (by decide)

/-- The first token of the line is the type. -/
theorem strtok_line (h : IsEntry e) : (strtok blanks e.line).1 = some e.type := by
  obtain ⟨c, g, hgap, hblank⟩ := h.gap_blank
  have hline : e.line = e.indent ++ (e.type ++ (c :: g ++ '\'' :: (e.tag ++ ['\'']) ++ e.back)) := by
    rw [EntryText.line, EntryText.front, hgap]
    simp
  rw [hline, strtok_skip h.indent, strtok_token (type_ne_nil h) h.word]
  intro d r hr
  rw [← (List.cons.inj hr).1]
  exact hblank

/-- The first text in quotes behind it is the tag. -/
theorem firstTag_line (h : IsEntry e) (behind : List Char) : firstTag (afterToken behind e.line) = e.tag := by
  obtain ⟨c, g, hgap, hblank⟩ := h.gap_blank
  have hquote : '\'' ∉ g := by
    have hno := h.gap_quote
    rw [hgap, List.mem_cons, not_or] at hno
    exact hno.2
  have hline : e.line = e.indent ++ (e.type ++ c :: (g ++ '\'' :: (e.tag ++ '\'' :: e.back))) := by
    rw [EntryText.line, EntryText.front, hgap]
    simp
  rw [hline, afterToken_word h.indent (type_ne_nil h) h.word hblank]
  exact firstTag_quoted hquote h.tag_quote h.tag_length

/-- Where no `uid=` stands before the end of the tag, the entry's own is found. -/
theorem inlineUid_own (h : IsEntry e) (hfront : strstr "uid=".toList e.front = none) :
    inlineUid e.line = some (e.uid : Int) := by
  have hlast : e.front.getLast? = some '\'' := by
    have hsplit : e.front = e.indent ++ (e.type ++ (e.gap ++ '\'' :: e.tag)) ++ ['\''] := by
      simp [EntryText.front]
    rw [hsplit, List.getLast?_concat]
  have hback : strstr "uid=".toList e.line = strstr "uid=".toList e.back :=
    strstr_append_of_last (by decide) (Or.inr hlast) (strstr_eq_none_iff.mp hfront)
  have hown : strstr "uid=".toList e.back = some ("uid=".toList ++ (decimal e.uid ++ e.rest)) :=
    strstr_append_word (t := ['i', 'd', '=']) (by decide) h.mid _
  rw [inlineUid, hback, hown]
  exact congrArg some (atoi_decimal_append h.uid h.rest)

/-- The condition on the number, of the text before the end of the tag. -/
theorem uidOf_line_iff (h : IsEntry e) (next : Option (List Char)) : uidOf e.line next = e.uid ↔
    ∀ found, strstr "uid=".toList e.front = some found → atoi ((found ++ e.back).drop 4) = e.uid := by
  cases hfront : strstr "uid=".toList e.front with
  | none =>
      simp [uidOf, inlineUid_own h hfront]
  | some found =>
      have hline : inlineUid e.line = some (atoi ((found ++ e.back).drop 4)) := by
        rw [inlineUid, EntryText.line, strstr_append_found hfront]
        rfl
      simp [uidOf, hline]

theorem keyword_line (h : IsEntry e) : contains "WAKE_LOCK" e.line = true := by
  have hin := contains_iff.mp h.keyword
  rw [contains_iff, EntryText.line, EntryText.front]
  obtain ⟨a, b, hab⟩ := hin
  exact ⟨e.indent ++ a, b ++ (e.gap ++ '\'' :: (e.tag ++ ['\''])) ++ e.back, by simp [← hab]⟩

/-- One line of the section: its record, unless it names the end. -/
theorem readWakelocks_line (h : IsEntry e) (behind : Nat → List Char) (room : Nat) (lines : List (List Char)) :
    readWakelocks behind (room + 1) (e.line :: lines) =
      if endsSection e.line then []
      else wakelockOf (behind lines.length) e.line e.type lines.head? :: readWakelocks behind room lines := by
  have hlen := h.length
  have hcut : e.line.take 511 = e.line := List.take_of_length_le (by omega)
  have hkey : isKeyLine e.line = true := by rw [isKeyLine, keyword_line h, Bool.true_or]
  simp only [readWakelocks, hcut, hkey, keyword_line h, strtok_line h, Bool.not_true, Bool.false_eq_true,
    if_false]

/-- The record of a line is the entry's exactly if its number is. -/
theorem identity_wakelockOf_iff (h : IsEntry e) (behind : List Char) (next : Option (List Char)) :
    (wakelockOf behind e.line e.type next).identity = ⟨e.type, e.tag, e.uid⟩ ↔
      ∀ found, strstr "uid=".toList e.front = some found → atoi ((found ++ e.back).drop 4) = e.uid := by
  rw [← uidOf_line_iff h next]
  have htype : e.type.take 15 = e.type := List.take_of_length_le h.type_length
  simp only [Wakelock.identity, wakelockOf, htype, firstTag_line h, Identity.mk.injEq, true_and]

end Line

/-! ## The section and what follows it -/

section Section

variable {behind : Nat → List Char}

/-- **The entries**: the records are theirs exactly if they are plain and the
lines behind them give none. -/
theorem entries_read_iff (entries : List Entry) (room : Nat) (lines : List (List Char)) :
    (readWakelocks behind room (entries.map (fun e => e.text.line) ++ lines)).map Wakelock.identity =
        (entries.take room).map Entry.identity ↔
      (∀ e ∈ entries.take room, e.Plain) ∧
        (room ≤ entries.length ∨ readWakelocks behind (room - entries.length) lines = []) := by
  induction entries generalizing room with
  | nil =>
      cases room with
      | zero => cases lines <;> simp [readWakelocks]
      | succ room => simp
  | cons e entries ih =>
      cases room with
      | zero => simp [readWakelocks]
      | succ room =>
          have hplain : e.Plain ↔ endsSection e.text.line = false ∧
              ∀ found, strstr "uid=".toList e.text.front = some found →
                atoi ((found ++ e.text.back).drop 4) = e.text.uid :=
            ⟨fun h => ⟨h.inside, h.uid⟩, fun h => ⟨h.1, h.2⟩⟩
          rw [List.map_cons, List.cons_append, readWakelocks_line e.isEntry]
          cases hend : endsSection e.text.line with
          | true =>
              -- the loop ends on the entry itself
              have hnot : ¬ e.Plain := fun h => by
                rw [h.inside] at hend
                cases hend
              simp [hnot]
          | false =>
              have hown := identity_wakelockOf_iff e.isEntry
                (behind (entries.map (fun e => e.text.line) ++ lines).length)
                (entries.map (fun e => e.text.line) ++ lines).head?
              rw [if_neg Bool.false_ne_true, List.map_cons, List.take_succ_cons, List.map_cons,
                List.cons.injEq, ih]
              show (_ = (⟨e.text.type, e.text.tag, e.text.uid⟩ : Identity) ∧ _) ↔ _
              rw [hown, List.forall_mem_cons, hplain, List.length_cons, Nat.add_le_add_iff_right,
                Nat.add_sub_add_right]
              simp [hend, and_assoc]

/-- The keyword is in a token. -/
theorem strtok_keyword {lbuf : List Char} (h : contains "WAKE_LOCK" lbuf = true) :
    ∃ tok, (strtok blanks lbuf).1 = some tok := by
  have hmem : 'W' ∈ lbuf := (contains_iff.mp h).subset (by decide)
  have hne : lbuf.dropWhile (· ∈ blanks) ≠ [] := by
    intro hnil
    have hblank := List.dropWhile_eq_nil_iff.mp hnil 'W' hmem
    exact absurd hblank (by decide)
  obtain ⟨c, s, hs⟩ := List.exists_cons_of_ne_nil hne
  refine ⟨(c :: s).takeWhile (· ∉ blanks), ?_⟩
  simp only [strtok, hs]

theorem silent_cons_iff {line : List Char} {lines : List (List Char)} : Silent (line :: lines) ↔
    (isKeyLine (line.take 511) && endsSection (line.take 511)) = true ∨
      contains "WAKE_LOCK" (line.take 511) = false ∧ Silent lines := by
  rw [Silent]
  cases hend : isKeyLine (line.take 511) && endsSection (line.take 511) with
  | true =>
      rw [List.takeWhile_cons_of_neg (by rw [hend]; decide)]
      simp
  | false =>
      rw [List.takeWhile_cons_of_pos (by rw [hend]; rfl), List.forall_mem_cons]
      simp [Silent]

/-- **Behind the section** no record is read exactly if the lines are silent. -/
theorem readWakelocks_eq_nil_iff (room : Nat) (lines : List (List Char)) :
    readWakelocks behind (room + 1) lines = [] ↔ Silent lines := by
  induction lines with
  | nil => simp [readWakelocks, Silent]
  | cons line lines ih =>
      rw [silent_cons_iff, ← ih]
      cases hkey : isKeyLine (line.take 511) with
      | false =>
          have hlock : contains "WAKE_LOCK" (line.take 511) = false := (Bool.or_eq_false_iff.mp hkey).1
          simp [readWakelocks, hkey, hlock]
      | true =>
          cases hend : endsSection (line.take 511) with
          | true => simp [readWakelocks, hkey, hend]
          | false =>
              cases hlock : contains "WAKE_LOCK" (line.take 511) with
              | false => simp [readWakelocks, hkey, hend, hlock]
              | true =>
                  obtain ⟨tok, htok⟩ := strtok_keyword hlock
                  simp [readWakelocks, hkey, hend, hlock, htok]

/-- The lines of the section, and those of what follows it. -/
theorem completeLines_append {ls : List (List Char)} (h : ∀ l ∈ ls, '\n' ∉ l) (after : List Char) :
    completeLines (textLines ls ++ after) = ls ++ completeLines after := by
  induction ls with
  | nil => rfl
  | cons l ls ih =>
      have hne : (textLines ls ++ after).splitOn '\n' ≠ [] := List.splitOn_ne_nil _ _
      rw [textLines_cons, List.append_assoc, List.cons_append, completeLines, List.splitOn_append_cons_self,
        List.splitOn_eq_singleton (h l List.mem_cons_self), List.singleton_append, List.dropLast_cons_of_ne_nil hne]
      exact congrArg (l :: ·) (ih fun l' hl' => h l' (List.mem_cons_of_mem _ hl'))

/-- A cut line has no more keywords. -/
theorem isKeyLine_take {lbuf : List Char} (h : isKeyLine lbuf = false) (n : Nat) :
    isKeyLine (lbuf.take n) = false := by
  have hcut : ∀ word, contains word lbuf = false → contains word (lbuf.take n) = false := by
    intro word hno
    rw [Bool.eq_false_iff, ne_eq, contains_iff] at hno ⊢
    exact fun hin => hno (hin.trans (List.take_prefix n lbuf).isInfix)
  rw [isKeyLine, Bool.or_eq_false_iff] at h ⊢
  exact ⟨hcut _ h.1, hcut _ h.2⟩

/-- From the header on the lines are those of the entries. -/
theorem parseWakelocks_dumpText (header : Header) (entries : List Entry) (after : List Char) (maxWls : Nat) :
    parseWakelocks behind (some (dumpText header entries after)) maxWls =
      readWakelocks behind maxWls
        (entries.map (fun e => e.text.line) ++ completeLines ("Suspend Blockers:".toList ++ after)) := by
  have hlines : ∀ l ∈ ("Wake Locks:".toList ++ header.text) :: entries.map fun e => e.text.line, '\n' ∉ l := by
    rw [List.forall_mem_cons]
    refine ⟨fun h => ?_, fun l hl => ?_⟩
    · rcases List.mem_append.mp h with h | h
      · exact absurd h (by decide)
      · exact header.oneLine h
    · obtain ⟨e, -, rfl⟩ := List.mem_map.mp hl
      exact e.isEntry.oneLine
  have hfound : strstr "Wake Locks:".toList (dumpText header entries after) =
      some (dumpText header entries after) := by
    apply strstr_of_prefix
    show _ <+: ("Wake Locks:".toList ++ header.text ++ ['\n'] ++ _) ++ _
    simp only [List.append_assoc]
    exact List.prefix_append _ _
  simp only [parseWakelocks, hfound]
  rw [dumpText, completeLines_append hlines]
  cases maxWls with
  | zero =>
      have hzero : ∀ lines, readWakelocks behind 0 lines = [] := by
        intro lines
        cases lines <;> rfl
      rw [hzero, hzero]
  | succ room =>
      rw [List.cons_append, readWakelocks]
      simp only [isKeyLine_take header.noKeyword, Bool.not_false, if_true]

end Section

/-- **The records are those of the section exactly if the entries are plain
and, where there is room for more, the lines behind it are silent.** -/
theorem section_read_iff (behind : Nat → List Char) (header : Header) (entries : List Entry) (after : List Char)
    (maxWls : Nat) :
    (parseWakelocks behind (some (dumpText header entries after)) maxWls).map Wakelock.identity =
        (entries.take maxWls).map Entry.identity ↔
      (∀ e ∈ entries.take maxWls, e.Plain) ∧
        (maxWls ≤ entries.length ∨ Silent (completeLines ("Suspend Blockers:".toList ++ after))) := by
  rw [parseWakelocks_dumpText, entries_read_iff]
  by_cases hroom : maxWls ≤ entries.length
  · simp [hroom]
  · obtain ⟨room, hroom'⟩ := Nat.exists_eq_add_of_lt (Nat.lt_of_not_le hroom)
    have hmore : maxWls - entries.length = room + 1 := by omega
    rw [hmore, readWakelocks_eq_nil_iff]

theorem size_header : '\n' ∉ " size=1".toList ∧
    isKeyLine ("Wake Locks:".toList ++ " size=1".toList) = false := by
  decide +kernel

def sizeHeader : Header := ⟨" size=1".toList, size_header.1, size_header.2⟩

/-- `FULL_WAKE_LOCK 'Camera' uid=10088`. -/
def cameraText : EntryText :=
  ⟨"  ".toList, "FULL_WAKE_LOCK".toList, " ".toList, "Camera".toList, " ".toList, 10088, []⟩

theorem isEntry_camera : IsEntry cameraText where
  indent := forall_mem_of_all (by decide)
  keyword := by decide +kernel
  word := forall_mem_of_all (by decide)
  type_length := by decide
  gap_blank := ⟨' ', [], rfl, by decide⟩
  gap_quote := by decide
  tag_quote := by decide
  tag_length := by decide
  mid := by decide
  uid := by decide
  rest := stops_nil _
  oneLine := by decide +kernel
  length := by decide +kernel

def camera : Entry := ⟨cameraText, isEntry_camera⟩

/-- A later section that names a wake lock of the past. -/
def history : List Char := " size=0\nHistory:\n  DRAW_WAKE_LOCK 'Old' uid=10200\n".toList

/-- It is read as a second one. -/
theorem history_read : ¬
    (parseWakelocks (fun _ => []) (some (dumpText sizeHeader [camera] history)) 32).map Wakelock.identity =
      [camera.identity] := by
  intro h
  have hlen := congrArg List.length h
  revert hlen
  decide +kernel

end MiuiserPeruser.Bebop
