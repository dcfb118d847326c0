import MiuiserPeruser.Krang.CutRow
import MiuiserPeruser.Krang.Status

/-!
# krangd — a poll (`krangd.c`, `krangd_uid.c`)

One poll reads the table through `bexec`, which returns at most its first
65536 bytes, parses it into an array of 256 records, and reports the
established connections of apps to other than the usual ports. When the
text is cut inside a row the whole poll is discarded, and rows behind the
256th are not looked at (`poll_complete_iff`).
-/

namespace MiuiserPeruser.Krang

open CText Inet

/-! ## The package of a user (`krangd_uid.c`) -/

/-- `parse_status_t` with the name that was parsed. -/
inductive Package where
  | found (name : List Char)
  | error
  | notFound
  deriving DecidableEq

/-- `package_character_ok`. -/
def packageCharacterOk (c : Char) : Bool := c.isAlphanum || c ∈ ['.', '_', '-']

/-- The loop of `krang_parse_package_output` over the lines. -/
def packageOfLines (package_size : Nat) : List (List Char) → Package
  | [] => .notFound
  | line :: lines =>
      let cursor := line.dropWhile (· ∈ [' ', '\t', '\r'])
      if cursor.take 8 = "package:".toList then
        let name := ((cursor.drop 8).dropWhile (· ∈ [' ', '\t'])).takeWhile fun c => !isspace c
        if name.length = 0 ∨ name.length ≥ package_size then .error
        else if name.all packageCharacterOk then .found name
        else .error
      else packageOfLines package_size lines

/-- `krang_parse_package_output`. -/
def krangParsePackageOutput (output : List Char) (package_size : Nat) : Package :=
  if package_size < 2 then .error else packageOfLines package_size (textLines output)

/-- The command `krang_resolve_uid_package` runs. -/
def listCommand (uid : Int) : List Char :=
  "cmd package list packages --uid ".toList ++ uid.repr.toList ++ " 2>/dev/null".toList

/-- `krang_resolve_uid_package`, where `bexec` is what the backend returns
for a command. -/
def krangResolveUidPackage (bexec : List Char → Option (List Char)) (uid : Int)
    (package_size : Nat) : Package :=
  if uid < 0 ∨ package_size < 2 then .error
  else if (listCommand uid).length ≥ 96 then .error
  else
    match bexec (snprintf 96 (listCommand uid)) with
    | none => .error
    | some output => krangParsePackageOutput output package_size

/-! ## The poll -/

/-- `MAX_CONNECTIONS`. -/
def maxConnections : Nat := 256

/-- What the text of a command is cut to (`bexec`). -/
def bexecMax : Nat := 65536

/-- `krang_is_nonstandard_app_connection`. -/
def isNonstandardAppConnection (c : Connection) : Bool :=
  if c.uid < 10000 then false
  else c.remote_port != 53 && c.remote_port != 80 && c.remote_port != 443

/-- The connections that are reported. -/
def reportable (c : Connection) : Bool := c.state = 1 && isNonstandardAppConnection c

/-- An event handed to `splinterd_emit`. -/
structure Event where
  type : List Char
  payload : List Char
  deriving DecidableEq

/-- The event of a connection. -/
def eventOf (bexec : List Char → Option (List Char)) (c : Connection) : Event :=
  let package := match krangResolveUidPackage bexec c.uid 128 with
    | .found name => name
    | _ => snprintf 128 ("uid-".toList ++ c.uid.repr.toList)
  { type := "TCP6_ANOMALY".toList
    payload := snprintf 384 ("package=".toList ++ package ++ " uid=".toList ++ c.uid.repr.toList ++
      " remote=".toList ++ c.remote_address ++ ':' :: decimal c.remote_port ++
      " state=".toList ++ hexPadded 2 c.state.toNat) }

/-- The loop of `poll_connections` over the records. The backend answers
the `i`-th command of the poll by `bexec i`. -/
def reportLoop (bexec : Nat → List Char → Option (List Char)) : Nat → List Connection → List Event
  | _, [] => []
  | i, c :: cs =>
      if reportable c then eventOf (bexec i) c :: reportLoop bexec (i + 1) cs
      else reportLoop bexec i cs

/-- `poll_connections`, on what `bexec` returned for the table. -/
def pollConnections (bexec : Nat → List Char → Option (List Char)) (raw : Option (List Char)) :
    List Event :=
  match raw with
  | none => []
  | some text =>
      let table := krangParseTcp6 text maxConnections
      if table.status = .error then []
      else reportLoop bexec 0 (table.out.take table.parsed_count)

/-! ## The first bytes of a table -/

/-- How many lines of these lengths lie inside the first `room` bytes, with
one byte for the newline after each. -/
def linesInside : Nat → List Nat → Nat
  | _, [] => 0
  | room, len :: lens => if len ≤ room then linesInside (room - (len + 1)) lens + 1 else 0

/-- How many bytes of the next line lie inside. -/
def bytesInside : Nat → List Nat → Nat
  | _, [] => 0
  | room, len :: lens => if len ≤ room then bytesInside (room - (len + 1)) lens else room

section Cut

variable {lines : List (List Char)}

/-- The piece of the next line that lies inside. -/
def cutPiece (room : Nat) (lines : List (List Char)) : List Char :=
  ((lines.drop (linesInside room (lines.map List.length))).headD []).take
    (bytesInside room (lines.map List.length))

theorem unlines_cons (line : List Char) (lines : List (List Char)) :
    unlines (line :: lines) = line ++ '\n' :: unlines lines := by
  simp [unlines]

/-- The lines of the first bytes of a text. -/
theorem textLines_take (hlines : ∀ line ∈ lines, '\n' ∉ line ∧ line ≠ []) (room : Nat) :
    textLines ((unlines lines).take room) =
      lines.take (linesInside room (lines.map List.length)) ++
        (if cutPiece room lines = [] then [] else [cutPiece room lines]) := by
  induction lines generalizing room with
  | nil => simp [unlines, textLines, cutPiece]
  | cons line lines ih =>
      obtain ⟨hfree, hne⟩ := hlines line List.mem_cons_self
      have ih := ih fun l hl => hlines l (List.mem_cons_of_mem _ hl)
      rw [unlines_cons]
      by_cases hfit : line.length ≤ room
      · have hpiece : cutPiece room (line :: lines) = cutPiece (room - (line.length + 1)) lines := by
          simp [cutPiece, linesInside, bytesInside, hfit]
        have hcount : linesInside room ((line :: lines).map List.length) =
            linesInside (room - (line.length + 1)) (lines.map List.length) + 1 := by
          simp [linesInside, hfit]
        rw [hpiece, hcount, List.take_succ_cons, List.cons_append, ← ih, List.take_append,
          List.take_of_length_le hfit]
        by_cases hroom : line.length = room
        · -- the newline of the line is cut off
          have hzero : room - line.length = 0 := by omega
          have hzero' : room - (line.length + 1) = 0 := by omega
          rw [hzero, hzero', List.take_zero, List.take_zero, List.append_nil,
            textLines_line hfree hne]
          rfl
        · obtain ⟨k, hk⟩ : ∃ k, room - line.length = k + 1 := ⟨room - line.length - 1, by omega⟩
          have hk' : room - (line.length + 1) = k := by omega
          rw [hk, hk', List.take_succ_cons, textLines_append hfree]
      · have hpiece : cutPiece room (line :: lines) = line.take room := by
          simp [cutPiece, linesInside, bytesInside, hfit]
        have hcount : linesInside room ((line :: lines).map List.length) = 0 := by
          simp [linesInside, hfit]
        have hfree' : '\n' ∉ line.take room := fun h => hfree (List.mem_of_mem_take h)
        rw [hpiece, hcount, List.take_zero, List.nil_append,
          List.take_append_of_le_length (by omega)]
        split
        · rename_i h
          rw [h]
          rfl
        · rename_i h
          exact textLines_line hfree' h

/-- The next line does not lie inside as a whole. -/
theorem bytesInside_lt {room : Nat} {lens : List Nat} {len : Nat}
    (h : (lens.drop (linesInside room lens)).head? = some len) : bytesInside room lens < len := by
  induction lens generalizing room with
  | nil => simp at h
  | cons first lens ih =>
      by_cases hfit : first ≤ room
      · simp only [linesInside, bytesInside, if_pos hfit, List.drop_succ_cons] at h ⊢
        exact ih h
      · simp only [linesInside, bytesInside, if_neg hfit, List.drop_zero, List.head?_cons,
          Option.some.injEq] at h ⊢
        omega

end Cut

/-! ## What a poll reports -/

section Reports

variable {bexec : Nat → List Char → Option (List Char)}

theorem reportLoop_append (i : Nat) (front back : List Connection) :
    reportLoop bexec i (front ++ back) =
      reportLoop bexec i front ++ reportLoop bexec (i + front.countP reportable) back := by
  induction front generalizing i with
  | nil => rfl
  | cons c front ih =>
      simp only [List.cons_append, reportLoop, List.countP_cons]
      split
      · rw [ih, List.cons_append, Nat.add_assoc, Nat.add_comm 1]
      · rw [ih, Nat.add_zero]

theorem length_reportLoop (i : Nat) (cs : List Connection) :
    (reportLoop bexec i cs).length = cs.countP reportable := by
  induction cs generalizing i with
  | nil => rfl
  | cons c cs ih =>
      simp only [reportLoop, List.countP_cons]
      split
      · rw [List.length_cons, ih]
      · rw [ih, Nat.add_zero]

/-- The event does not show the inode. -/
theorem eventOf_inode (c : Connection) (inode : Int) (answer : List Char → Option (List Char)) :
    eventOf answer { c with inode := inode } = eventOf answer c := rfl

end Reports

/-- The text `bexec` returns for the table of these rows. -/
def polledText (header : List Char) (rows : List TcpRow) : List Char :=
  (unlines (header :: rows.map TcpRow.line)).take bexecMax

/-- What of the text is left behind the header. -/
def roomFor (header : List Char) : Nat := bexecMax - (header.length + 1)

/-- How many rows lie entirely inside. -/
def rowsInside (header : List Char) (rows : List TcpRow) : Nat :=
  linesInside (roomFor header) (rows.map fun r => r.line.length)

/-- How many bytes of the next row lie inside. -/
def cutAt (header : List Char) (rows : List TcpRow) : Nat :=
  bytesInside (roomFor header) (rows.map fun r => r.line.length)

/-- The poll reports every row inside that is to be reported, with one
event each, and besides at most the row that is cut. -/
def ReportsInside (bexec : Nat → List Char → Option (List Char)) (header : List Char)
    (rows : List TcpRow) (events : List Event) : Prop :=
  ∃ extra, events = reportLoop bexec 0 ((rows.take (rowsInside header rows)).map TcpRow.connection) ++
      extra ∧
    (extra = [] ∨ ∃ i r, (rows.drop (rowsInside header rows)).head? = some r ∧
      extra = [eventOf (bexec i) r.connection])

/-- The poll is not discarded: no line is too long, and the cut is not in a
row between its slot and the first digit of its inode. -/
structure Accepted (header : List Char) (rows : List TcpRow) : Prop where
  short : ∀ r ∈ rows.take (rowsInside header rows), r.line.length < lineMax
  cut : ∀ r, (rows.drop (rowsInside header rows)).head? = some r →
    cutAt header rows < lineMax ∧
      (cutAt header rows ≤ (r.rowText.gap 0).length ∨ r.rowText.front.length < cutAt header rows)

section Poll

variable {header : List Char} {rows : List TcpRow}

/-- The lines the parser sees in a poll: the header, the rows inside, and
the beginning of the next one. -/
theorem textLines_polledText (hheader : IsHeader header) :
    textLines (polledText header rows) =
      header :: (rows.take (rowsInside header rows)).map TcpRow.line ++
        (match (rows.drop (rowsInside header rows)).head? with
          | none => []
          | some r => if cutAt header rows = 0 then [] else [r.line.take (cutAt header rows)]) := by
  have hlines : ∀ line ∈ header :: rows.map TcpRow.line, '\n' ∉ line ∧ line ≠ [] := by
    intro line hline
    rcases List.mem_cons.mp hline with rfl | hline
    · exact ⟨hheader.line, hheader.ne_nil⟩
    · obtain ⟨r, -, rfl⟩ := List.mem_map.mp hline
      exact ⟨r.newline_notMem, r.line_ne_nil⟩
  have hfit : header.length ≤ bexecMax := hheader.fits.le.trans (by decide)
  have hcount : linesInside bexecMax ((header :: rows.map TcpRow.line).map List.length) =
      rowsInside header rows + 1 := by
    simp [linesInside, hfit, rowsInside, roomFor, Function.comp_def]
  have hbytes : bytesInside bexecMax ((header :: rows.map TcpRow.line).map List.length) =
      cutAt header rows := by
    simp [bytesInside, hfit, cutAt, roomFor, Function.comp_def]
  rw [polledText, textLines_take hlines, cutPiece, hcount, hbytes, List.take_succ_cons,
    List.drop_succ_cons, ← List.map_take, ← List.map_drop]
  congr 1
  cases hdrop : rows.drop (rowsInside header rows) with
  | nil => simp
  | cons r rest =>
      have hempty : r.line.take (cutAt header rows) = [] ↔ cutAt header rows = 0 := by
        simp [r.line_ne_nil]
      simp only [List.map_cons, List.headD_cons, List.head?_cons, hempty]

theorem cutAt_lt {r : TcpRow} (hnext : (rows.drop (rowsInside header rows)).head? = some r) :
    cutAt header rows < r.line.length := by
  apply bytesInside_lt
  show ((rows.map fun r => r.line.length).drop (rowsInside header rows)).head? = _
  rw [← List.map_drop, List.head?_map, hnext]
  rfl

/-- What becomes of the row that is cut. -/
theorem parse_cut {r : TcpRow} (hnext : (rows.drop (rowsInside header rows)).head? = some r) :
    krangParseTcp6Line (r.line.take (cutAt header rows)) = .notFound ∧
        cutAt header rows ≤ (r.rowText.gap 0).length ∨
      krangParseTcp6Line (r.line.take (cutAt header rows)) = .error ∧
        (r.rowText.gap 0).length < cutAt header rows ∧
        cutAt header rows ≤ r.rowText.front.length ∨
      (∃ inode, krangParseTcp6Line (r.line.take (cutAt header rows)) =
        .found { r.connection with inode := inode }) ∧ r.rowText.front.length < cutAt header rows := by
  have hlt := cutAt_lt hnext
  have hline : r.line = r.rowText.front ++ (r.rowText.inode ++ r.columns) := by
    rw [r.line_eq, RowText.text_eq, List.append_assoc]
  by_cases hblank : cutAt header rows ≤ (r.rowText.gap 0).length
  · refine .inl ⟨parse_cut_blank r.wellFormed ?_, hblank⟩
    have hgap : r.line = r.rowText.gap 0 ++ (r.line.drop (r.rowText.gap 0).length) := by
      rw [r.line_eq, RowText.text, List.append_assoc, List.drop_left]
    rw [hgap, List.take_append_of_le_length hblank]
    exact List.take_prefix _ _
  · by_cases hfront : cutAt header rows ≤ r.rowText.front.length
    · refine .inr (.inl ⟨parse_cut_error r.wellFormed ?_ ?_, by omega, hfront⟩)
      · rw [hline, List.take_append_of_le_length hfront]
        exact List.take_prefix _ _
      · rw [List.length_take]
        omega
    · refine .inr (.inr ⟨?_, by omega⟩)
      have hrow := r.parse_line
      rw [r.line_eq] at hrow
      obtain ⟨k, hk⟩ : ∃ k, cutAt header rows = r.rowText.front.length + (k + 1) :=
        ⟨cutAt header rows - r.rowText.front.length - 1, by omega⟩
      have htake : r.line.take (cutAt header rows) =
          r.rowText.front ++ (r.rowText.inode ++ r.columns).take (k + 1) := by
        rw [hline, hk, List.take_length_add_append]
      rw [htake]
      exact parse_cut_found r.wellFormed r.columns_apart (List.take_prefix _ _)
        (by simp [r.wellFormed.inode.1]) hrow

/-- The line of the row that is cut. -/
def cutLine (header : List Char) (rows : List TcpRow) : List (List Char) :=
  match (rows.drop (rowsInside header rows)).head? with
  | none => []
  | some r => if cutAt header rows = 0 then [] else [r.line.take (cutAt header rows)]

theorem records_polled (hheader : IsHeader header) :
    records (textLines (polledText header rows)) =
      (rows.take (rowsInside header rows)).map TcpRow.connection ++
        records (cutLine header rows) := by
  have hinside : ∀ rows : List TcpRow, records (rows.map TcpRow.line) = rows.map TcpRow.connection := by
    intro rows
    rw [records, List.filterMap_map]
    have hrecord : ((fun line => (krangParseTcp6Line line).record) ∘ TcpRow.line) =
        fun r => some r.connection := funext fun r => by
      simp only [Function.comp_apply, r.parse_line, Parsed.record]
    rw [hrecord]
    simp
  rw [textLines_polledText hheader, ← hinside]
  simp only [records, List.cons_append, List.filterMap_cons, hheader.parse, Parsed.record,
    List.filterMap_append]
  rfl

/-- A line of a poll that is no good is the line of the row that is cut,
or too long. -/
theorem bad_line (hheader : IsHeader header) {line : List Char}
    (hline : line ∈ textLines (polledText header rows))
    (hbad : lineMax ≤ line.length ∨ krangParseTcp6Line line = .error) :
    (∃ r ∈ rows.take (rowsInside header rows), line = r.line ∧ lineMax ≤ r.line.length) ∨
      line ∈ cutLine header rows := by
  rw [textLines_polledText hheader] at hline
  rcases List.mem_append.mp hline with hline | hline
  · rcases List.mem_cons.mp hline with rfl | hline
    · have := hheader.fits
      rcases hbad with hbad | hbad
      · omega
      · rw [hheader.parse] at hbad
        cases hbad
    · obtain ⟨r, hr, rfl⟩ := List.mem_map.mp hline
      rcases hbad with hbad | hbad
      · exact .inl ⟨r, hr, rfl, hbad⟩
      · rw [r.parse_line] at hbad
        cases hbad
  · exact .inr hline

/-- **When a poll is discarded.** -/
theorem polled_error_iff (hheader : IsHeader header) :
    (krangParseTcp6 (polledText header rows) maxConnections).status = .error ↔
      ¬ Accepted header rows := by
  rw [status_error_iff]
  constructor
  · rintro ⟨line, hline, hbad⟩ haccepted
    rcases bad_line hheader hline hbad with ⟨r, hr, -, hlong⟩ | hcut
    · have := haccepted.short r hr
      omega
    · unfold cutLine at hcut
      split at hcut
      · cases hcut
      · rename_i r hnext
        split at hcut
        · cases hcut
        · obtain rfl := List.mem_singleton.mp hcut
          obtain ⟨hshort, hplace⟩ := haccepted.cut r hnext
          rcases hbad with hbad | hbad
          · rw [List.length_take] at hbad
            omega
          · rcases parse_cut hnext with ⟨hparse, -⟩ | ⟨-, hlow, hhigh⟩ | ⟨⟨inode, hparse⟩, -⟩
            · rw [hparse] at hbad
              cases hbad
            · omega
            · rw [hparse] at hbad
              cases hbad
  · intro hnot
    by_contra hgood
    push Not at hgood
    refine hnot ⟨fun r hr => ?_, fun r hnext => ?_⟩
    · refine (hgood r.line ?_).1
      rw [textLines_polledText hheader]
      exact List.mem_append_left _ (List.mem_cons_of_mem _ (List.mem_map_of_mem hr))
    · by_cases hzero : cutAt header rows = 0
      · exact ⟨by rw [hzero]; decide, .inl (by omega)⟩
      · have hmem : r.line.take (cutAt header rows) ∈ textLines (polledText header rows) := by
          rw [textLines_polledText hheader, hnext]
          simp [hzero]
        obtain ⟨hlen, hparse⟩ := hgood _ hmem
        have hlt := cutAt_lt hnext
        rw [List.length_take, min_eq_left hlt.le] at hlen
        refine ⟨hlen, ?_⟩
        rcases parse_cut hnext with ⟨-, hplace⟩ | ⟨herror, -⟩ | ⟨-, hplace⟩
        · exact .inl hplace
        · exact absurd herror hparse
        · exact .inr hplace

/-- The record made of the row that is cut. -/
theorem records_cutLine :
    records (cutLine header rows) = [] ∨
      ∃ r inode, (rows.drop (rowsInside header rows)).head? = some r ∧
        records (cutLine header rows) = [{ r.connection with inode := inode }] := by
  unfold cutLine
  split
  · exact .inl rfl
  · rename_i r hnext
    split
    · exact .inl rfl
    · rcases parse_cut hnext with ⟨hparse, -⟩ | ⟨hparse, -⟩ | ⟨⟨inode, hparse⟩, -⟩
      · exact .inl (by simp [records, hparse, Parsed.record])
      · exact .inl (by simp [records, hparse, Parsed.record])
      · exact .inr ⟨r, inode, hnext, by simp [records, hparse, Parsed.record]⟩

/-- What a poll reports that is not discarded. -/
theorem poll_accepted (bexec : Nat → List Char → Option (List Char)) (hheader : IsHeader header)
    (h : Accepted header rows) :
    pollConnections bexec (some (polledText header rows)) =
      reportLoop bexec 0
        (((rows.take (rowsInside header rows)).map TcpRow.connection ++
          records (cutLine header rows)).take maxConnections) := by
  have hstatus : (krangParseTcp6 (polledText header rows) maxConnections).status ≠ .error := fun he =>
    (polled_error_iff hheader).mp he h
  have hshort : ∀ line ∈ textLines (polledText header rows), line.length < lineMax := by
    intro line hline
    by_contra hlong
    exact hstatus ((status_error_iff _ _).mpr ⟨line, hline, .inl (by omega)⟩)
  rw [pollConnections]
  simp only [if_neg hstatus]
  rw [krangParseTcp6_eq hshort, ← records_polled hheader]
  exact congrArg (reportLoop bexec 0)
    (List.take_of_length_le (by rw [List.length_take, min_comm]))

theorem poll_discarded (bexec : Nat → List Char → Option (List Char)) (hheader : IsHeader header)
    (h : ¬ Accepted header rows) : pollConnections bexec (some (polledText header rows)) = [] :=
  if_pos ((polled_error_iff hheader).mpr h)

theorem reportLoop_eq_nil_iff {bexec : Nat → List Char → Option (List Char)} {i : Nat}
    {rows : List TcpRow} :
    reportLoop bexec i (rows.map TcpRow.connection) = [] ↔
      ∀ r ∈ rows, reportable r.connection = false := by
  rw [← List.length_eq_zero_iff, length_reportLoop, List.countP_eq_zero]
  simp

/-- The row that is cut adds at most its own event. -/
theorem report_cutLine (bexec : Nat → List Char → Option (List Char)) (i m : Nat) :
    reportLoop bexec i ((records (cutLine header rows)).take m) = [] ∨
      ∃ j r, (rows.drop (rowsInside header rows)).head? = some r ∧
        reportLoop bexec i ((records (cutLine header rows)).take m) =
          [eventOf (bexec j) r.connection] := by
  rcases records_cutLine with hnone | ⟨r, inode, hnext, hsome⟩
  · rw [hnone, List.take_nil]
    exact .inl rfl
  · rw [hsome]
    cases m with
    | zero => exact .inl rfl
    | succ m =>
        rw [List.take_succ_cons, List.take_nil]
        by_cases hreport : reportable { r.connection with inode := inode } = true
        · refine .inr ⟨i, r, hnext, ?_⟩
          rw [reportLoop, if_pos hreport, eventOf_inode]
          rfl
        · refine .inl ?_
          rw [reportLoop, if_neg hreport]
          rfl

/-- What an accepted table reports: the rows inside as far as there is room,
and perhaps what is left of the row that is cut. -/
theorem poll_inside (hheader : IsHeader header) (bexec : Nat → List Char → Option (List Char)) {rows inside : List TcpRow}
    (hrows : rows.take (rowsInside header rows) = inside) (h : Accepted header rows) :
    pollConnections bexec (some (polledText header rows)) =
      reportLoop bexec 0 ((inside.take maxConnections).map TcpRow.connection) ++
        reportLoop bexec (0 + ((inside.take maxConnections).map TcpRow.connection).countP reportable)
          ((records (cutLine header rows)).take (maxConnections - inside.length)) := by
  rw [poll_accepted bexec hheader h, hrows, List.take_append, List.length_map, ← List.map_take,
    reportLoop_append]

/-- The rows for which there is no room come last. -/
theorem reportLoop_inside (bexec : Nat → List Char → Option (List Char)) (inside : List TcpRow) :
    reportLoop bexec 0 (inside.map TcpRow.connection) =
      reportLoop bexec 0 ((inside.take maxConnections).map TcpRow.connection) ++
        reportLoop bexec (0 + ((inside.take maxConnections).map TcpRow.connection).countP reportable)
          ((inside.drop maxConnections).map TcpRow.connection) := by
  rw [← reportLoop_append, ← List.map_append, List.take_append_drop]

/-- **When a poll is complete.** Every row inside that is to be reported is
reported exactly if there is none, or the poll is not discarded and they
are among the first 256 rows. -/
theorem poll_complete_iff (bexec : Nat → List Char → Option (List Char)) (hheader : IsHeader header)
    (rows : List TcpRow) :
    ReportsInside bexec header rows (pollConnections bexec (some (polledText header rows))) ↔
      (∀ r ∈ rows.take (rowsInside header rows), reportable r.connection = false) ∨
        (Accepted header rows ∧ ∀ r ∈ (rows.take (rowsInside header rows)).drop maxConnections,
          reportable r.connection = false) := by
  generalize hrows : rows.take (rowsInside header rows) = inside
  rw [ReportsInside, hrows]
  constructor
  · rintro ⟨extra, hevents, hextra⟩
    by_cases hnone : ∀ r ∈ inside, reportable r.connection = false
    · exact .inl hnone
    · right
      have hacc : Accepted header rows := by
        by_contra hnot
        rw [poll_discarded bexec hheader hnot] at hevents
        exact hnone (reportLoop_eq_nil_iff.mp (List.append_eq_nil_iff.mp hevents.symm).1)
      refine ⟨hacc, ?_⟩
      by_cases hlen : inside.length ≤ maxConnections
      · rw [List.drop_of_length_le hlen]
        exact fun _ h => nomatch h
      · -- no room is left, so nothing but the rows without room is missing
        rw [poll_inside hheader bexec hrows hacc, reportLoop_inside bexec inside] at hevents
        have hzero : maxConnections - inside.length = 0 := by omega
        have hlengths := congrArg List.length hevents
        simp only [hzero, List.take_zero, reportLoop, List.length_append, List.length_nil] at hlengths
        have hback : reportLoop bexec
            (0 + ((inside.take maxConnections).map TcpRow.connection).countP reportable)
            ((inside.drop maxConnections).map TcpRow.connection) = [] :=
          List.length_eq_zero_iff.mp (by omega)
        exact reportLoop_eq_nil_iff.mp hback
  · intro h
    by_cases hacc : Accepted header rows
    · have hback : ∀ r ∈ inside.drop maxConnections, reportable r.connection = false := by
        rcases h with h | h
        · exact fun r hr => h r (List.mem_of_mem_drop hr)
        · exact h.2
      refine ⟨reportLoop bexec
        (0 + ((inside.take maxConnections).map TcpRow.connection).countP reportable)
        ((records (cutLine header rows)).take (maxConnections - inside.length)), ?_,
        report_cutLine bexec _ _⟩
      rw [poll_inside hheader bexec hrows hacc, reportLoop_inside bexec inside,
        reportLoop_eq_nil_iff.mpr hback, List.append_nil]
    · have hnone : ∀ r ∈ inside, reportable r.connection = false := by
        rcases h with h | h
        · exact h
        · exact absurd h.1 hacc
      exact ⟨[], by rw [poll_discarded bexec hheader hacc, reportLoop_eq_nil_iff.mpr hnone]; rfl,
        .inl rfl⟩

/-- A connection of an app to port 5222. -/
def appRow : TcpRow := { fixtureRow with destp := 5222 }

theorem reportable_appRow : reportable appRow.connection = true := by decide +kernel

theorem roomFor_kernelHeader : roomFor kernelHeader = 65391 := by
  unfold kernelHeader
  rw [String.toList_append, String.toList_ofList, String.toList_ofList]
  decide +kernel

theorem length_appRow : appRow.line.length = 177 := by decide +kernel

/-- A short table is reported. -/
theorem poll_complete_iff_short :
    ReportsInside (fun _ _ => none) kernelHeader [appRow]
      (pollConnections (fun _ _ => none) (some (polledText kernelHeader [appRow]))) := by
  apply (poll_complete_iff (fun _ _ => none) isHeader_kernelHeader [appRow]).mpr
  have hinside : rowsInside kernelHeader [appRow] = 1 := by
    rw [rowsInside, roomFor_kernelHeader, List.map_singleton, length_appRow]
    decide +kernel
  have hshort : appRow.line.length < lineMax := by
    rw [length_appRow]
    decide
  refine .inr ⟨⟨fun r hr => ?_, fun r hr => ?_⟩, fun r hr => ?_⟩
  · rw [hinside] at hr
    rw [List.mem_singleton.mp hr]
    exact hshort
  · rw [hinside] at hr
    cases hr
  · rw [hinside] at hr
    cases hr

/-- A table of 400 connections is cut in its 368th row, and none of the 367
before it is reported. -/
theorem long_table_discarded :
    rowsInside kernelHeader (List.replicate 400 appRow) = 367 ∧
      pollConnections (fun _ _ => none)
        (some (polledText kernelHeader (List.replicate 400 appRow))) = [] ∧
      ¬ ReportsInside (fun _ _ => none) kernelHeader (List.replicate 400 appRow)
        (pollConnections (fun _ _ => none)
          (some (polledText kernelHeader (List.replicate 400 appRow)))) := by
  have hlens : (List.replicate 400 appRow).map (fun r => r.line.length) =
      List.replicate 400 177 := by
    rw [List.map_replicate, length_appRow]
  have hinside : rowsInside kernelHeader (List.replicate 400 appRow) = 367 := by
    rw [rowsInside, hlens, roomFor_kernelHeader]
    decide +kernel
  have hcut : cutAt kernelHeader (List.replicate 400 appRow) = 65 := by
    rw [cutAt, hlens, roomFor_kernelHeader]
    decide +kernel
  have hnot : ¬ Accepted kernelHeader (List.replicate 400 appRow) := by
    intro h
    have hnext : ((List.replicate 400 appRow).drop
        (rowsInside kernelHeader (List.replicate 400 appRow))).head? = some appRow := by
      rw [hinside, List.drop_replicate]
      rfl
    have hplace := (h.cut appRow hnext).2
    have hslot : (appRow.rowText.gap 0).length = 3 := by decide +kernel
    have hinode : appRow.rowText.front.length = 139 := by decide +kernel
    rw [hcut, hslot, hinode] at hplace
    omega
  have hnone := poll_discarded (fun _ _ => none) isHeader_kernelHeader hnot
  refine ⟨hinside, hnone, fun h => ?_⟩
  obtain ⟨extra, hevents, -⟩ := h
  rw [hnone] at hevents
  have hall := reportLoop_eq_nil_iff.mp (List.append_eq_nil_iff.mp hevents.symm).1
  have hmem : appRow ∈ (List.replicate 400 appRow).take
      (rowsInside kernelHeader (List.replicate 400 appRow)) := by
    rw [hinside, List.take_replicate]
    exact List.mem_replicate.mpr ⟨by decide, rfl⟩
  have hreport := hall appRow hmem
  rw [reportable_appRow] at hreport
  cases hreport

end Poll

end MiuiserPeruser.Krang
