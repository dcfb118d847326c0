import MiuiserPeruser.Krang.RoundTrip

/-!
# krangd — a row that is cut off

What `krang_parse_tcp6_line` makes of the first bytes of a row: nothing
while the slot number has not begun, an error until the inode begins, and
from then on a record that differs from the row's at most in its inode.
-/

namespace MiuiserPeruser.Krang

open CText Inet

section Prefix

variable {ds : List Directive} {gap w rest p : List Char}

theorem IsColumns.of_prefix (h : IsColumns rest) (hp : p <+: rest) : IsColumns p := by
  intro c r hcons
  obtain ⟨t, rfl⟩ := hp
  exact h c (r ++ t) (by rw [hcons]; rfl)

theorem isBlank_of_start (h : IsBlank gap) (hp : p <+: gap) : IsBlank p :=
  fun c hc => h c (hp.subset hc)

/-- No field is read from white space alone. -/
theorem scanf_word_blank (h : IsBlank p) {width : Nat} {set : Char → Bool} :
    scanf (.space :: .space :: .chars width set :: ds) p = [] := by
  have hdrop : p.dropWhile isspace = [] := List.dropWhile_eq_nil_iff.mpr h
  rw [scanf_space_space]
  simp [scanf, hdrop]

theorem scanf_digits_blank (h : IsBlank p) {base : Nat} {store : Bool → Nat → Int} :
    scanf (.space :: .number base store :: ds) p = [] := by
  have hdrop : p.dropWhile isspace = [] := List.dropWhile_eq_nil_iff.mpr h
  simp [scanf, hdrop, scanNumber, optionalSign, hexMarker, startsWithWord]

/-- At most `n` fields are read of what a text begins with. -/
def ReadsAtMost (ds : List Directive) (n : Nat) (text : List Char) : Prop :=
  ∀ p, p <+: text → (scanf ds p).length ≤ n

/-- A word counts as one field, whether it is cut or not. -/
theorem readsAtMost_word {n : Nat} (hgap : IsBlank gap) (hw : IsWord w) (hrest : IsColumns rest)
    (h : ReadsAtMost ds n rest) :
    ReadsAtMost (.space :: .space :: .chars 63 (fun c => !isspace c) :: ds) (n + 1)
      (gap ++ (w ++ rest)) := by
  intro p hp
  rcases prefix_append_cases hp with hp | ⟨q, hq, rfl⟩
  · rw [scanf_word_blank (isBlank_of_start hgap hp)]
    exact Nat.zero_le _
  · rcases prefix_append_cases hq with hcut | ⟨q, hcut, rfl⟩
    · by_cases hnil : q = []
      · rw [hnil, List.append_nil, scanf_word_blank hgap]
        exact Nat.zero_le _
      · have hword : IsWord q :=
          ⟨hnil, fun c hc => hw.2.1 c (hcut.subset hc), hcut.length_le.trans hw.2.2⟩
        have hread : scanf (.space :: .space :: .chars 63 (fun c => !isspace c) :: ds)
            (gap ++ (q ++ [])) = .text q :: scanf ds [] := scanf_word hgap hword (stops_nil _)
        rw [List.append_nil] at hread
        rw [hread, List.length_cons]
        exact Nat.succ_le_succ (h [] List.nil_prefix)
    · rw [scanf_word hgap hw (hrest.of_prefix hcut), List.length_cons]
      exact Nat.succ_le_succ (h q hcut)

/-- So does a number. -/
theorem readsAtMost_digits {n base : Nat} {store : Bool → Nat → Int} (hgap : IsBlank gap)
    (hw : IsDigits base w) (hrest : ∀ q, q <+: rest → Stops (isDigitOf base) q ∧
      Stops (fun c => c.toLower = 'x') q) (h : ReadsAtMost ds n rest) :
    ReadsAtMost (.space :: .number base store :: ds) (n + 1) (gap ++ (w ++ rest)) := by
  intro p hp
  rcases prefix_append_cases hp with hp | ⟨q, hq, rfl⟩
  · rw [scanf_digits_blank (isBlank_of_start hgap hp)]
    exact Nat.zero_le _
  · rcases prefix_append_cases hq with hcut | ⟨q, hcut, rfl⟩
    · by_cases hnil : q = []
      · rw [hnil, List.append_nil, scanf_digits_blank hgap]
        exact Nat.zero_le _
      · have hdigits : IsDigits base q := ⟨hnil, fun c hc => hw.2 c (hcut.subset hc)⟩
        have hread : scanf (.space :: .number base store :: ds) (gap ++ (q ++ [])) =
            .num (store false (digitsValue base q)) :: scanf ds [] :=
          scanf_digits hgap hdigits (stops_nil _) (stops_nil _)
        rw [List.append_nil] at hread
        rw [hread, List.length_cons]
        exact Nat.succ_le_succ (h [] List.nil_prefix)
    · rw [scanf_digits hgap hw (hrest q hcut).1 (hrest q hcut).2, List.length_cons]
      exact Nat.succ_le_succ (h q hcut)

theorem readsAtMost_digits_columns {n base : Nat} {store : Bool → Nat → Int} (hgap : IsBlank gap)
    (hw : IsDigits base w) (hrest : IsColumns rest) (h : ReadsAtMost ds n rest) :
    ReadsAtMost (.space :: .space :: .number base store :: ds) (n + 1) (gap ++ (w ++ rest)) := by
  intro p hp
  rw [scanf_space_space]
  exact readsAtMost_digits hgap hw
    (fun q hq => ⟨stops_digit_of_blank (hrest.of_prefix hq), stops_marker_of_blank (hrest.of_prefix hq)⟩) h p hp

theorem readsAtMost_colon {n : Nat} (h : ReadsAtMost ds n rest) :
    ReadsAtMost (.lit ':' :: ds) n (':' :: rest) := by
  intro p hp
  cases p with
  | nil => exact Nat.zero_le _
  | cons c p =>
      obtain ⟨rfl, hrest⟩ := List.cons_prefix_cons.mp hp
      rw [scanf_lit]
      exact h p hrest

end Prefix

/-! ## The row without its inode -/

/-- The row up to its inode. -/
def RowText.front (r : RowText) : List Char :=
  r.gap 0 ++ (r.slot ++ ':' :: (r.gap 1 ++ ((r.local_address ++ ':' :: r.local_port) ++
    (r.gap 2 ++ ((r.remote_address ++ ':' :: r.remote_port) ++ (r.gap 3 ++ (r.state ++
    (r.gap 4 ++ (r.tx_queue ++ (r.gap 5 ++ (r.timer ++ (r.gap 6 ++ (r.retransmit ++
    (r.gap 7 ++ (r.uid ++ (r.gap 8 ++ (r.timeout ++ r.gap 9)))))))))))))))))

section Row

variable {r : RowText}

theorem RowText.text_eq (r : RowText) : r.text = r.front ++ r.inode := by
  simp only [RowText.text, RowText.front, List.append_assoc, List.cons_append]

/-- Before the inode begins there are at most nine fields to read. -/
theorem readsAtMost_front (h : r.WellFormed) : ReadsAtMost lineFormat 9 r.front := by
  have hgap : ∀ {i rest}, 2 ≤ i → IsColumns (r.gap i ++ rest) := fun hi =>
    isColumns_gap (h.blank _) (h.apart _ hi)
  have hlast : IsColumns (r.gap 9) := by
    have hend : IsColumns (r.gap 9 ++ []) := hgap (by decide)
    rwa [List.append_nil] at hend
  have hcolon : ∀ {rest : List Char} q, q <+: ':' :: rest → Stops (isDigitOf 10) q ∧
      Stops (fun c => c.toLower = 'x') q := by
    intro rest q hq
    cases q with
    | nil => exact ⟨stops_nil _, stops_nil _⟩
    | cons c q =>
        obtain ⟨rfl, -⟩ := List.cons_prefix_cons.mp hq
        exact ⟨stops_cons.mpr (by decide), stops_cons.mpr (by decide)⟩
  have hinode : ReadsAtMost (.space :: .space :: .number 10 (storeUnsigned 64) :: []) 0 (r.gap 9) := by
    intro p hp
    rw [scanf_space_space, scanf_digits_blank (isBlank_of_start (h.blank 9) hp)]
    exact Nat.zero_le _
  exact readsAtMost_digits (h.blank 0) h.slot hcolon <| readsAtMost_colon <|
    readsAtMost_word (h.blank 1) (isWord_endpoint h.localEnd) (hgap (by decide)) <|
    readsAtMost_word (h.blank 2) (isWord_endpoint h.remoteEnd) (hgap (by decide)) <|
    readsAtMost_digits_columns (h.blank 3) h.state (hgap (by decide)) <|
    readsAtMost_word (h.blank 4) h.tx_queue (hgap (by decide)) <|
    readsAtMost_word (h.blank 5) h.timer (hgap (by decide)) <|
    readsAtMost_digits_columns (h.blank 6) h.retransmit (hgap (by decide)) <|
    readsAtMost_digits_columns (h.blank 7) h.uid (hgap (by decide)) <|
    readsAtMost_digits_columns (h.blank 8) h.timeout hlast hinode

/-- The white space in front of a row, cut or not, is no row. -/
theorem parse_cut_blank (h : r.WellFormed) {p : List Char} (hp : p <+: r.gap 0) :
    krangParseTcp6Line p = .notFound := by
  have hdrop : p.dropWhile isspace = [] :=
    List.dropWhile_eq_nil_iff.mpr (isBlank_of_start (h.blank 0) hp)
  unfold krangParseTcp6Line
  simp [hdrop, isBlankOrHeader]

/-- **A row that is cut between its slot and its inode is an error.** -/
theorem parse_cut_error (h : r.WellFormed) {p : List Char} (hp : p <+: r.front)
    (hlen : (r.gap 0).length < p.length) : krangParseTcp6Line p = .error := by
  -- the first character of the slot is there
  obtain ⟨c, q, hslot⟩ : ∃ c q, p = r.gap 0 ++ c :: q ∧ isDigitOf 10 c = true := by
    rcases prefix_append_cases hp with hgap | ⟨q, hq, rfl⟩
    · exact absurd hgap.length_le (by omega)
    · cases q with
      | nil => simp at hlen
      | cons c q =>
          obtain ⟨d, slot, hd⟩ := List.exists_cons_of_ne_nil h.slot.1
          rw [hd] at hq
          obtain ⟨rfl, -⟩ := List.cons_prefix_cons.mp hq
          exact ⟨c, q, rfl, h.slot.2 c (hd ▸ List.mem_cons_self)⟩
  have hstart : StartsDigit p := by
    refine ⟨c, q, ?_, hslot.2⟩
    rw [hslot.1]
    exact dropWhile_append_of_stop (h.blank 0) (stops_cons.mpr (isspace_of_isDigitOf hslot.2))
  have hfields := readsAtMost_front h p hp
  unfold krangParseTcp6Line
  simp only [hstart.isRecord, Bool.false_eq_true, if_false, scanf_dropWhile]
  rw [if_pos (by omega)]

/-- **A row that is cut behind the first digit of its inode is a row**,
with what is left of the inode. -/
theorem parse_cut_found (h : r.WellFormed) {columns p : List Char} (hcolumns : IsColumns columns)
    (hp : p <+: r.inode ++ columns) (hne : p ≠ []) {out : Connection}
    (hrow : krangParseTcp6Line (r.text ++ columns) = .found out) :
    ∃ inode, krangParseTcp6Line (r.front ++ p) = .found { out with inode := inode } := by
  obtain ⟨_, hlocal⟩ := decodeProcAddress_isSome h.localEnd.address_length h.localEnd.address_digits
  obtain ⟨_, hremote⟩ :=
    decodeProcAddress_isSome h.remoteEnd.address_length h.remoteEnd.address_digits
  rw [parse_row h hcolumns hlocal hremote] at hrow
  obtain rfl := Parsed.found.inj hrow
  obtain ⟨inode, rest, hinode, hrest, rfl⟩ : ∃ inode rest, IsDigits 10 inode ∧ IsColumns rest ∧
      p = inode ++ rest := by
    rcases prefix_append_cases hp with hp | ⟨q, hq, rfl⟩
    · exact ⟨p, [], ⟨hne, fun c hc => h.inode.2 c (hp.subset hc)⟩, stops_nil _,
        (List.append_nil p).symm⟩
    · exact ⟨r.inode, q, h.inode, hcolumns.of_prefix hq, rfl⟩
  have hcut : ({ r with inode := inode } : RowText).WellFormed := { h with inode := hinode }
  have htext : r.front ++ (inode ++ rest) = ({ r with inode := inode } : RowText).text ++ rest := by
    rw [RowText.text_eq, List.append_assoc]
    rfl
  rw [htext, parse_row hcut hrest hlocal hremote]
  exact ⟨_, rfl⟩

end Row

end MiuiserPeruser.Krang
