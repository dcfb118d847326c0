import MiuiserPeruser.Krang.RoundTrip

/-!
# krangd — what the status of a table means

`PARSE_ERROR` for a text with a line that is too long, or that is no row
at all, and for no text of rows (`krangParseTcp6_status`). A row may be
followed by further columns: the kernel prints some.

Between the two lies what `sscanf` also takes for a row: numbers with a
sign or a marker, fields that run into each other, and text behind the
port of an endpoint (`RowText.Loose`).
-/

namespace MiuiserPeruser.Krang

open CText Inet

/-- The header line, which starts with `sl `. -/
def IsHeaderLine (line : List Char) : Prop := (line.dropWhile isspace).take 3 = "sl ".toList

/-- The line is a row, and perhaps further columns. -/
def IsRowLine (line : List Char) : Prop :=
  ∃ (r : RowText) (columns : List Char), r.WellFormed ∧ IsColumns columns ∧
    line = r.text ++ columns

/-- Thirty-two digits, a colon and four digits, and perhaps more. -/
structure BeginsEndpoint (address port : List Char) : Prop where
  address_length : address.length = 32
  address_digits : ∀ c ∈ address, isxdigit c = true
  port_length : 4 ≤ port.length
  port_digits : ∀ c ∈ port.take 4, isxdigit c = true

/-- A row as `sscanf` takes it: white space may be missing, numbers may
have a sign or a marker, and a port may be followed by other text. -/
structure RowText.Loose (r : RowText) : Prop where
  blank : ∀ i, IsBlank (r.gap i)
  slot : IsNumber 10 r.slot
  localEnd : BeginsEndpoint r.local_address r.local_port
  remoteEnd : BeginsEndpoint r.remote_address r.remote_port
  state : IsNumber 16 r.state
  tx_queue : IsWord r.tx_queue
  timer : IsWord r.timer
  retransmit : IsNumber 16 r.retransmit
  uid : IsNumber 10 r.uid
  timeout : IsNumber 10 r.timeout
  inode : IsNumber 10 r.inode

/-- The line begins like a row. -/
def BeginsLikeRow (line : List Char) : Prop :=
  ∃ (r : RowText) (rest : List Char), r.Loose ∧ line = r.text ++ rest

section Line

variable {line : List Char}

theorem isBlankOrHeader_iff :
    isBlankOrHeader (line.dropWhile isspace) = true ↔ IsBlank line ∨ IsHeaderLine line := by
  simp only [isBlankOrHeader, Bool.or_eq_true, decide_eq_true_eq, IsHeaderLine, IsBlank,
    List.dropWhile_eq_nil_iff]

theorem parse_notFound_iff :
    krangParseTcp6Line line = .notFound ↔ IsBlank line ∨ IsHeaderLine line := by
  rw [← isBlankOrHeader_iff]
  unfold krangParseTcp6Line
  simp only
  split
  · rename_i h
    simp [h]
  · rename_i h
    constructor
    · intro hparse
      split at hparse
      · cases hparse
      · split at hparse <;> cases hparse
    · exact fun h' => absurd h' h

theorem decodeEndpoint_begins {encoded : List Char} {size : Nat} {out : List Char × Nat}
    (h : decodeEndpoint encoded size = some out) :
    ∃ address port, encoded = address ++ ':' :: port ∧ BeginsEndpoint address port := by
  unfold decodeEndpoint at h
  generalize hfields : scanf endpointFormat encoded = fields at h
  simp only at h
  split at h
  · cases h
  · rename_i hsizes
    simp only [ne_eq, not_or, not_not] at hsizes
    obtain ⟨hlen, haddress, hport⟩ := hsizes
    match fields, hlen with
    | [u, v], _ =>
        obtain ⟨address, rest, rfl, -, haddr, -, rfl, hscan⟩ := scanf_chars_inv hfields
        obtain ⟨rest, rfl, hscan⟩ := scanf_lit_inv hscan
        obtain ⟨port, rest, rfl, -, hdigits, -, rfl, -⟩ := scanf_chars_inv hscan
        have haddress : address.length = 32 := haddress
        have hport : port.length = 4 := hport
        refine ⟨address, port ++ rest, rfl, haddress, haddr, ?_, ?_⟩
        · rw [List.length_append]
          omega
        · rwa [← hport, List.take_left]

/-- A word that was read, with the white space before it. -/
theorem scanf_word_inv {ds : List Directive} {s : List Char} {v : Value} {vs : List Value}
    (h : scanf (.space :: .space :: .chars 63 (fun c => !isspace c) :: ds) s = v :: vs) :
    ∃ gap w rest, s = gap ++ (w ++ rest) ∧ IsBlank gap ∧ IsWord w ∧ v = .text w ∧
      scanf ds rest = vs := by
  rw [scanf_space_space] at h
  obtain ⟨gap, s, rfl, hgap, hword⟩ := scanf_space_inv h
  obtain ⟨w, rest, rfl, hne, hw, hlen, rfl, hrest⟩ := scanf_chars_inv hword
  exact ⟨gap, w, rest, rfl, hgap, ⟨hne, hw, hlen⟩, rfl, hrest⟩

/-- A number that was read, with the white space before it. -/
theorem scanf_digits_inv {ds : List Directive} {s : List Char} {v : Value} {vs : List Value}
    {base : Nat} {store : Bool → Nat → Int}
    (h : scanf (.space :: .space :: .number base store :: ds) s = v :: vs) :
    ∃ gap w rest, s = gap ++ (w ++ rest) ∧ IsBlank gap ∧ IsNumber base w ∧ scanf ds rest = vs := by
  rw [scanf_space_space] at h
  obtain ⟨gap, s, rfl, hgap, hnumber⟩ := scanf_space_inv h
  obtain ⟨w, rest, rfl, hw, -, hrest⟩ := scanf_number_inv hnumber
  exact ⟨gap, w, rest, rfl, hgap, hw, hrest⟩

theorem ten_fields {fields : List Value} (h : fields.length = 10) :
    ∃ v0 v1 v2 v3 v4 v5 v6 v7 v8 v9, fields = [v0, v1, v2, v3, v4, v5, v6, v7, v8, v9] := by
  have uncons : ∀ {n : Nat} {l : List Value}, l.length = n + 1 → ∃ v t, t.length = n ∧ l = v :: t := by
    intro n l hl
    obtain ⟨v, t, rfl⟩ := List.exists_cons_of_length_eq_add_one hl
    exact ⟨v, t, Nat.succ.inj hl, rfl⟩
  obtain ⟨v0, t0, h0, rfl⟩ := uncons h
  obtain ⟨v1, t1, h1, rfl⟩ := uncons h0
  obtain ⟨v2, t2, h2, rfl⟩ := uncons h1
  obtain ⟨v3, t3, h3, rfl⟩ := uncons h2
  obtain ⟨v4, t4, h4, rfl⟩ := uncons h3
  obtain ⟨v5, t5, h5, rfl⟩ := uncons h4
  obtain ⟨v6, t6, h6, rfl⟩ := uncons h5
  obtain ⟨v7, t7, h7, rfl⟩ := uncons h6
  obtain ⟨v8, t8, h8, rfl⟩ := uncons h7
  obtain ⟨v9, t9, h9, rfl⟩ := uncons h8
  obtain rfl := List.length_eq_zero_iff.mp h9
  exact ⟨v0, v1, v2, v3, v4, v5, v6, v7, v8, v9, rfl⟩

/-- A line `sscanf` reads ten fields of, with both endpoints accepted. -/
theorem begins_of_scanf {fields : List Value} (hfields : scanf lineFormat line = fields)
    (hlen : fields.length = 10) {size : Nat} {lo re : List Char × Nat}
    (hlocal : decodeEndpoint (textAt fields 1) size = some lo)
    (hremote : decodeEndpoint (textAt fields 2) size = some re) : BeginsLikeRow line := by
  obtain ⟨v0, v1, v2, v3, v4, v5, v6, v7, v8, v9, rfl⟩ := ten_fields hlen
  simp only [lineFormat, percentU, percentS, percentX, percentD, percentLLU,
    List.cons_append, List.nil_append] at hfields
  obtain ⟨gap0, s, h0, hgap0, hf0⟩ := scanf_space_inv hfields
  obtain ⟨slot, s, rfl, hslot, -, hf1⟩ := scanf_number_inv hf0
  obtain ⟨s, rfl, hf2⟩ := scanf_lit_inv hf1
  obtain ⟨gap1, loc, s1, rfl, hgap1, -, rfl, hf3⟩ := scanf_word_inv hf2
  obtain ⟨gap2, remote, s2, rfl, hgap2, -, rfl, hf4⟩ := scanf_word_inv hf3
  obtain ⟨gap3, state, s3, rfl, hgap3, hstate, hf5⟩ := scanf_digits_inv hf4
  obtain ⟨gap4, tx, s4, rfl, hgap4, htx, rfl, hf6⟩ := scanf_word_inv hf5
  obtain ⟨gap5, timer, s5, rfl, hgap5, htimer, rfl, hf7⟩ := scanf_word_inv hf6
  obtain ⟨gap6, retransmit, s6, rfl, hgap6, hretransmit, hf8⟩ := scanf_digits_inv hf7
  obtain ⟨gap7, uid, s7, rfl, hgap7, huid, hf9⟩ := scanf_digits_inv hf8
  obtain ⟨gap8, timeout, s8, rfl, hgap8, htimeout, hf10⟩ := scanf_digits_inv hf9
  obtain ⟨gap9, inode, rest, rfl, hgap9, hinode, -⟩ := scanf_digits_inv hf10
  obtain ⟨la, lp, hloc, hla⟩ := decodeEndpoint_begins hlocal
  obtain ⟨ra, rp, hrem, hra⟩ := decodeEndpoint_begins hremote
  obtain rfl : loc = la ++ ':' :: lp := hloc
  obtain rfl : remote = ra ++ ':' :: rp := hrem
  let gap : Nat → List Char := fun i =>
    [gap0, gap1, gap2, gap3, gap4, gap5, gap6, gap7, gap8, gap9].getD i []
  have hgap : ∀ i, IsBlank (gap i) := by
    intro i
    have hall : ∀ g ∈ [gap0, gap1, gap2, gap3, gap4, gap5, gap6, gap7, gap8, gap9],
        IsBlank g := by
      simp only [List.forall_mem_cons, List.not_mem_nil, false_implies, implies_true, and_true]
      exact ⟨hgap0, hgap1, hgap2, hgap3, hgap4, hgap5, hgap6, hgap7, hgap8, hgap9⟩
    show IsBlank (List.getD _ i [])
    rw [List.getD_eq_getElem?_getD]
    cases hg : [gap0, gap1, gap2, gap3, gap4, gap5, gap6, gap7, gap8, gap9][i]? with
    | none =>
        intro c hc
        cases hc
    | some g => exact hall g (List.mem_of_getElem? hg)
  refine ⟨⟨gap, slot, la, lp, ra, rp, state, tx, timer, retransmit, uid, timeout, inode⟩, rest,
    ⟨hgap, hslot, hla, hra, hstate, htx, htimer, hretransmit, huid, htimeout, hinode⟩, ?_⟩
  rw [h0]
  simp only [RowText.text, gap, List.append_assoc, List.cons_append, List.getD_cons_zero,
    List.getD_cons_succ]

/-- A line that is accepted as a record begins like a row. -/
theorem begins_of_found {out : Connection} (h : krangParseTcp6Line line = .found out) :
    BeginsLikeRow line := by
  unfold krangParseTcp6Line at h
  simp only [scanf_dropWhile] at h
  split at h
  · cases h
  · split at h
    · cases h
    · rename_i hlen
      split at h
      · rename_i hlocal hremote
        exact begins_of_scanf rfl (not_not.mp hlen) hlocal hremote
      · cases h

theorem parse_error_of_not_begins (h : ¬ (IsBlank line ∨ IsHeaderLine line ∨ BeginsLikeRow line)) :
    krangParseTcp6Line line = .error := by
  cases hparse : krangParseTcp6Line line with
  | error => rfl
  | notFound => exact absurd ((parse_notFound_iff.mp hparse).imp_right .inl) h
  | found out => exact absurd (.inr (.inr (begins_of_found hparse))) h

theorem not_parse_error (h : IsBlank line ∨ IsHeaderLine line ∨ IsRowLine line) :
    krangParseTcp6Line line ≠ .error := by
  rcases h with h | h | ⟨r, columns, hr, hcolumns, rfl⟩
  · simp [parse_notFound_iff.mpr (.inl h)]
  · simp [parse_notFound_iff.mpr (.inr h)]
  · obtain ⟨out, hout⟩ := parse_row_found hr hcolumns
    simp [hout]

end Line

/-! ## The status of a table -/

section Table

variable {text : List Char} {capacity : Nat}

theorem sawError_iff {lines : List (List Char)} :
    sawError lines = true ↔ ∃ line ∈ lines, krangParseTcp6Line line = .error := by
  simp [sawError]

theorem records_eq_nil_iff {lines : List (List Char)} :
    records lines = [] ↔ ∀ line ∈ lines, ∀ out, krangParseTcp6Line line ≠ .found out := by
  rw [records, List.filterMap_eq_nil_iff]
  refine forall₂_congr fun line _ => ?_
  cases krangParseTcp6Line line with
  | found out => simp [Parsed.record]
  | error => simp [Parsed.record]
  | notFound => simp [Parsed.record]

/-- The status of a text, by its lines. -/
theorem status_error_iff (text : List Char) (capacity : Nat) :
    (krangParseTcp6 text capacity).status = .error ↔
      ∃ line ∈ textLines text, lineMax ≤ line.length ∨ krangParseTcp6Line line = .error := by
  by_cases hlong : ∃ line ∈ textLines text, lineMax ≤ line.length
  · have herror : (krangParseTcp6 text capacity).status = .error := (parseLines_long hlong 0 [] false).1
    obtain ⟨line, hline, hlen⟩ := hlong
    exact ⟨fun _ => ⟨line, hline, .inl hlen⟩, fun _ => herror⟩
  · push Not at hlong
    rw [krangParseTcp6_eq hlong]
    have hstatus : ∀ n, statusOf (sawError (textLines text)) n = .error ↔
        sawError (textLines text) = true := by
      intro n
      unfold statusOf
      split
      · rename_i h
        simp [h]
      · rename_i h
        split <;> simp [h]
    rw [hstatus, sawError_iff]
    constructor
    · exact fun ⟨line, hline, h⟩ => ⟨line, hline, .inr h⟩
    · rintro ⟨line, hline, h | h⟩
      · exact absurd h (by have := hlong line hline; omega)
      · exact ⟨line, hline, h⟩

theorem status_notFound_iff (hcapacity : 1 ≤ capacity) (text : List Char) :
    (krangParseTcp6 text capacity).status = .notFound ↔
      ∀ line ∈ textLines text, line.length < lineMax ∧ krangParseTcp6Line line = .notFound := by
  by_cases herror : (krangParseTcp6 text capacity).status = .error
  · obtain ⟨line, hline, hbad⟩ := (status_error_iff text capacity).mp herror
    rw [herror]
    constructor
    · intro h
      cases h
    · intro h
      obtain ⟨hlen, hparse⟩ := h line hline
      rcases hbad with hbad | hbad
      · omega
      · rw [hparse] at hbad
        cases hbad
  · have hgood := mt (status_error_iff text capacity).mpr herror
    push Not at hgood
    have hfit : ∀ line ∈ textLines text, line.length < lineMax := fun line hline =>
      (hgood line hline).1
    have hsaw : sawError (textLines text) = false := by
      cases hsaw : sawError (textLines text) with
      | false => rfl
      | true =>
          obtain ⟨line, hline, hparse⟩ := sawError_iff.mp hsaw
          exact absurd hparse (hgood line hline).2
    have hstatus : (krangParseTcp6 text capacity).status = .notFound ↔
        records (textLines text) = [] := by
      rw [krangParseTcp6_eq hfit, hsaw, ← List.length_eq_zero_iff]
      simp only [statusOf, Bool.false_eq_true, if_false]
      split
      · simp only [reduceCtorEq, false_iff]
        omega
      · simp only [true_iff]
        omega
    rw [hstatus, records_eq_nil_iff]
    refine forall₂_congr fun line hline => ?_
    constructor
    · intro h
      refine ⟨hfit line hline, ?_⟩
      cases hparse : krangParseTcp6Line line with
      | notFound => rfl
      | error => exact absurd hparse (hgood line hline).2
      | found out => exact absurd hparse (h out)
    · rintro ⟨-, h⟩ out hfound
      rw [h] at hfound
      cases hfound

theorem parsed_count_le (text : List Char) (capacity : Nat) :
    (krangParseTcp6 text capacity).out.length ≤ capacity ∧
      (krangParseTcp6 text capacity).parsed_count ≤ capacity := by
  constructor
  · exact length_parseLines (textLines text) 0 [] false (Nat.zero_le _) (by simp)
  · by_cases hlong : ∃ line ∈ textLines text, lineMax ≤ line.length
    · have hzero : (krangParseTcp6 text capacity).parsed_count = 0 := (parseLines_long hlong 0 [] false).2
      rw [hzero]
      exact Nat.zero_le _
    · push Not at hlong
      rw [krangParseTcp6_eq hlong]
      exact min_le_right _ _

/-- **The status of every text.** It is an error if a line is too long, or
is neither blank nor the header nor begins like a row, and only if a line
is too long, or is neither blank nor the header nor a row with its
columns; it says that there is no row exactly when all lines are short
and blank or the header; and what is written stays inside the array. -/
theorem krangParseTcp6_status (hcapacity : 1 ≤ capacity) (text : List Char) :
    ((∃ line ∈ textLines text, lineMax ≤ line.length ∨
        ¬ (IsBlank line ∨ IsHeaderLine line ∨ BeginsLikeRow line)) →
      (krangParseTcp6 text capacity).status = .error) ∧
    ((krangParseTcp6 text capacity).status = .error →
      ∃ line ∈ textLines text, lineMax ≤ line.length ∨
        ¬ (IsBlank line ∨ IsHeaderLine line ∨ IsRowLine line)) ∧
    ((krangParseTcp6 text capacity).status = .notFound ↔
      ∀ line ∈ textLines text, line.length < lineMax ∧ (IsBlank line ∨ IsHeaderLine line)) ∧
    ((krangParseTcp6 text capacity).status = .found ↔
      (krangParseTcp6 text capacity).status ≠ .error ∧
        ∃ line ∈ textLines text, ¬ (IsBlank line ∨ IsHeaderLine line)) ∧
    (krangParseTcp6 text capacity).out.length ≤ capacity ∧
    (krangParseTcp6 text capacity).parsed_count ≤ capacity := by
  have hnone : (krangParseTcp6 text capacity).status = .notFound ↔
      ∀ line ∈ textLines text, line.length < lineMax ∧ (IsBlank line ∨ IsHeaderLine line) := by
    rw [status_notFound_iff hcapacity]
    simp only [parse_notFound_iff]
  refine ⟨?_, ?_, hnone, ?_, parsed_count_le text capacity⟩
  · rintro ⟨line, hline, h⟩
    exact (status_error_iff text capacity).mpr
      ⟨line, hline, h.imp_right parse_error_of_not_begins⟩
  · intro h
    obtain ⟨line, hline, h⟩ := (status_error_iff text capacity).mp h
    exact ⟨line, hline, h.imp_right fun hparse hrow => not_parse_error hrow hparse⟩
  · constructor
    · intro hfound
      have hne : ¬ ∀ line ∈ textLines text,
          line.length < lineMax ∧ (IsBlank line ∨ IsHeaderLine line) := by
        rw [← hnone, hfound]
        exact fun h => nomatch h
      have herror : (krangParseTcp6 text capacity).status ≠ .error := by
        rw [hfound]
        exact fun h => nomatch h
      push Not at hne
      obtain ⟨line, hline, h⟩ := hne
      have hshort := mt (fun h => (status_error_iff text capacity).mpr ⟨line, hline, .inl h⟩) herror
      exact ⟨herror, line, hline, not_or.mpr (h (by omega))⟩
    · rintro ⟨herror, line, hline, h⟩
      cases hstatus : (krangParseTcp6 text capacity).status with
      | found => rfl
      | error => exact absurd hstatus herror
      | notFound => exact absurd (hnone.mp hstatus line hline).2 h

/-- A table without rows. -/
theorem krangParseTcp6_status_header :
    (krangParseTcp6 "  sl  local\n\n".toList 1).status = .notFound := by
  apply (krangParseTcp6_status (le_refl 1) "  sl  local\n\n".toList).2.2.1.mpr
  have hlines : textLines "  sl  local\n\n".toList = ["  sl  local".toList, []] := by decide +kernel
  rw [hlines]
  intro line hline
  rcases List.mem_cons.mp hline with rfl | hline
  · exact ⟨by decide +kernel, .inr (by unfold IsHeaderLine; decide +kernel)⟩
  · rw [List.mem_singleton.mp hline]
    exact ⟨by decide, .inl fun c hc => nomatch hc⟩

/-- The status as a row without further columns would have it. -/
structure ExactStatus (text : List Char) (capacity : Nat) : Prop where
  error : (krangParseTcp6 text capacity).status = .error ↔
    ∃ line ∈ textLines text, lineMax ≤ line.length ∨
      ¬ (IsBlank line ∨ IsHeaderLine line ∨ ∃ r : RowText, r.WellFormed ∧ line = r.text)
  notFound : (krangParseTcp6 text capacity).status = .notFound ↔
    ∀ line ∈ textLines text, IsBlank line ∨ IsHeaderLine line
  written : (krangParseTcp6 text capacity).out.length ≤ capacity ∧
    (krangParseTcp6 text capacity).parsed_count ≤ capacity

theorem last_of_row {r : RowText} (h : r.WellFormed) :
    ∃ c, r.text.getLast? = some c ∧ isDigitOf 10 c = true := by
  obtain ⟨hne, hdigits⟩ := h.inode
  refine ⟨r.inode.getLast hne, ?_, hdigits _ (List.getLast_mem hne)⟩
  simp only [RowText.text, List.getLast?_append, List.getLast?_cons,
    List.getLast?_eq_some_getLast hne, Option.some_or, Option.getD_some]

/-- A connection that waits for its end, with the two columns the kernel
prints for it. -/
def timewaitRow : TcpRow :=
  { fixtureRow with
    state := 6
    columns := " 3 00000000c0ffeeab".toList
    columns_apart := stops_cons.mpr (by decide)
    columns_line := by decide +kernel }

/-- The parser takes a row with the kernel's columns after the inode. -/
theorem columns_not_exact :
    (krangParseTcp6 (unlines [kernelHeader, timewaitRow.line]) 1).status = .found ∧
      ¬ ExactStatus (unlines [kernelHeader, timewaitRow.line]) 1 := by
  have hfound : (krangParseTcp6 (unlines [kernelHeader, timewaitRow.line]) 1).status = .found := by
    unfold kernelHeader
    rw [String.toList_append, String.toList_ofList, String.toList_ofList]
    decide +kernel
  refine ⟨hfound, fun h => ?_⟩
  have hlines : textLines (unlines [kernelHeader, timewaitRow.line]) =
      [kernelHeader, timewaitRow.line] := by
    refine textLines_unlines (List.forall_mem_cons.mpr ⟨isHeader_kernelHeader.line, ?_⟩)
    exact List.forall_mem_singleton.mpr timewaitRow.newline_notMem
  have herror := h.error.mpr ⟨timewaitRow.line, by rw [hlines]; simp, .inr ?_⟩
  · rw [hfound] at herror
    cases herror
  · rintro (hblank | hheader | ⟨r, hr, hline⟩)
    · exact absurd (hblank '0' (by decide +kernel)) (by decide)
    · exact absurd hheader (by unfold IsHeaderLine; decide +kernel)
    · obtain ⟨c, hlast, hc⟩ := last_of_row hr
      have hb : timewaitRow.line.getLast? = some 'b' := by decide +kernel
      rw [← hline, hb] at hlast
      obtain rfl := Option.some.inj hlast
      exact absurd hc (by decide)

end Table

end MiuiserPeruser.Krang
