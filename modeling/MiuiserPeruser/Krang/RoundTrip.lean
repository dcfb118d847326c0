import MiuiserPeruser.Krang.Row

/-!
# krangd — the kernel's table read back

What the kernel prints for a connection (`TcpRow.line`), and that
`krang_parse_tcp6` reads a whole table of it back, with its digits in
either case, with or without the last newline, and with more rows than it
has room for.
-/

namespace MiuiserPeruser.Krang

open CText Inet

/-! ## What the kernel prints -/

/-- A socket, as far as its row shows it. -/
structure TcpRow where
  sl : Nat
  src : In6Addr
  srcp : UInt16
  dest : In6Addr
  destp : UInt16
  state : UInt8
  tx_queue : UInt32
  rx_queue : UInt32
  timer_active : UInt8
  timer_expires : UInt64
  retransmits : UInt32
  uid : Nat
  uid_lt : uid < 2 ^ 31
  probes_out : UInt8
  inode : UInt64
  /-- The columns after the inode. -/
  columns : List Char
  columns_apart : IsColumns columns
  columns_line : '\n' ∉ columns

/-- `s6_addr32[k]` on a little-endian machine. -/
def s6_addr32 (addr : In6Addr) (k : Nat) : Nat :=
  let byte i := (addr.s6_addr.getD (4 * k + i) 0).toNat
  byte 0 + 256 * byte 1 + 65536 * byte 2 + 16777216 * byte 3

/-- `%08X%08X%08X%08X`. -/
def printAddress (addr : In6Addr) : List Char :=
  hexPadded 8 (s6_addr32 addr 0) ++ hexPadded 8 (s6_addr32 addr 1) ++
    hexPadded 8 (s6_addr32 addr 2) ++ hexPadded 8 (s6_addr32 addr 3)

/-- The row of a socket, without its newline:
`%4d: %08X%08X%08X%08X:%04X %08X%08X%08X%08X:%04X %02X %08X:%08X %02X:%08lX %08X %5u %8d %lu`
and the columns after the inode. -/
def TcpRow.line (r : TcpRow) : List Char :=
  decimalPadded 4 r.sl ++ ": ".toList ++
    printAddress r.src ++ ':' :: hexPadded 4 r.srcp.toNat ++ ' ' ::
    printAddress r.dest ++ ':' :: hexPadded 4 r.destp.toNat ++ ' ' ::
    hexPadded 2 r.state.toNat ++ ' ' ::
    hexPadded 8 r.tx_queue.toNat ++ ':' :: hexPadded 8 r.rx_queue.toNat ++ ' ' ::
    hexPadded 2 r.timer_active.toNat ++ ':' :: hexPadded 8 r.timer_expires.toNat ++ ' ' ::
    hexPadded 8 r.retransmits.toNat ++ ' ' ::
    decimalPadded 5 r.uid ++ ' ' ::
    decimalPadded 8 r.probes_out.toNat ++ ' ' ::
    decimal r.inode.toNat ++ r.columns

/-- The record of a socket. -/
def TcpRow.connection (r : TcpRow) : Connection where
  local_address := addressText r.src.s6_addr
  local_port := r.srcp.toNat
  remote_address := addressText r.dest.s6_addr
  remote_port := r.destp.toNat
  state := r.state.toNat
  uid := r.uid
  inode := r.inode.toNat

/-! ## An address read back -/

section Address

theorem hexPadded_eight {n : Nat} (h : n < 2 ^ 32) :
    hexPadded 8 n = [hexChar (n / 16 ^ 7), hexChar (n / 16 ^ 6 % 16), hexChar (n / 16 ^ 5 % 16),
      hexChar (n / 16 ^ 4 % 16), hexChar (n / 16 ^ 3 % 16), hexChar (n / 16 ^ 2 % 16),
      hexChar (n / 16 % 16), hexChar (n % 16)] := by
  rw [hexPadded_succ, hexPadded_succ, hexPadded_succ, hexPadded_succ, hexPadded_succ,
    hexPadded_succ, hexPadded_succ, hexPadded_one (by omega)]
  simp only [Nat.div_div_eq_div_mul]
  rfl

theorem hexValue_hexChar {n : Nat} (h : n < 16) : hexValue (hexChar n) = some n := by
  have hall : ∀ i : Fin 16, hexValue (hexChar i) = some i.val := by decide
  exact hall ⟨n, h⟩

/-- The two digits of a byte. -/
def hexByte (b : UInt8) : List Char := [hexChar (b.toNat / 16), hexChar (b.toNat % 16)]

/-- A word is printed byte by byte, the last one first. -/
theorem hexPadded_word (a b c d : UInt8) :
    hexPadded 8 (a.toNat + 256 * b.toNat + 65536 * c.toNat + 16777216 * d.toNat) =
      hexByte d ++ hexByte c ++ hexByte b ++ hexByte a := by
  have ha := a.toNat_lt
  have hb := b.toNat_lt
  have hc := c.toNat_lt
  have hd := d.toNat_lt
  rw [hexPadded_eight (by omega)]
  simp only [hexByte, List.cons_append, List.nil_append, List.cons.injEq, and_true]
  norm_num only
  refine ⟨?_, ?_, ?_, ?_, ?_, ?_, ?_, ?_⟩ <;>
  · congr 1
    omega

theorem decodeBytes_hexByte {encoded : List Char} {i : Nat} (b : UInt8) (rest : List Nat)
    (h : [encoded.getD i '\x00', encoded.getD (i + 1) '\x00'] = hexByte b) :
    decodeBytes encoded (i :: rest) = (decodeBytes encoded rest).map (b :: ·) := by
  obtain ⟨hhigh, hlow⟩ : encoded.getD i '\x00' = hexChar (b.toNat / 16) ∧
      encoded.getD (i + 1) '\x00' = hexChar (b.toNat % 16) := by
    simpa [hexByte] using h
  have hb := b.toNat_lt
  have hbyte : UInt8.ofNat ((b.toNat / 16) <<< 4 ||| b.toNat % 16) = b := by
    rw [← Nat.shiftLeft_add_eq_or_of_lt (by omega), Nat.shiftLeft_eq]
    have hsum : b.toNat / 16 * 2 ^ 4 + b.toNat % 16 = b.toNat := by omega
    rw [hsum, UInt8.ofNat_toNat]
  rw [decodeBytes, hhigh, hlow, hexValue_hexChar (by omega), hexValue_hexChar (by omega)]
  simp only [hbyte]

/-- **Every address is read back.** -/
theorem decodeBytes_printAddress (addr : In6Addr) :
    decodeBytes (printAddress addr) sources = some addr.s6_addr := by
  obtain ⟨bytes, hlen⟩ := addr
  match bytes, hlen with
  | [b0, b1, b2, b3, b4, b5, b6, b7, b8, b9, b10, b11, b12, b13, b14, b15], hlen =>
      have hsources : sources = [6, 4, 2, 0, 14, 12, 10, 8, 22, 20, 18, 16, 30, 28, 26, 24] := by
        decide
      have htext : printAddress ⟨[b0, b1, b2, b3, b4, b5, b6, b7, b8, b9, b10, b11, b12, b13, b14,
          b15], hlen⟩ =
          hexByte b3 ++ hexByte b2 ++ hexByte b1 ++ hexByte b0 ++
            (hexByte b7 ++ hexByte b6 ++ hexByte b5 ++ hexByte b4) ++
            (hexByte b11 ++ hexByte b10 ++ hexByte b9 ++ hexByte b8) ++
            (hexByte b15 ++ hexByte b14 ++ hexByte b13 ++ hexByte b12) := by
        rw [← hexPadded_word b0, ← hexPadded_word b4, ← hexPadded_word b8, ← hexPadded_word b12]
        rfl
      rw [hsources, htext, decodeBytes_hexByte b0 _ rfl, decodeBytes_hexByte b1 _ rfl,
        decodeBytes_hexByte b2 _ rfl, decodeBytes_hexByte b3 _ rfl, decodeBytes_hexByte b4 _ rfl,
        decodeBytes_hexByte b5 _ rfl, decodeBytes_hexByte b6 _ rfl, decodeBytes_hexByte b7 _ rfl,
        decodeBytes_hexByte b8 _ rfl, decodeBytes_hexByte b9 _ rfl, decodeBytes_hexByte b10 _ rfl,
        decodeBytes_hexByte b11 _ rfl, decodeBytes_hexByte b12 _ rfl, decodeBytes_hexByte b13 _ rfl,
        decodeBytes_hexByte b14 _ rfl, decodeBytes_hexByte b15 _ rfl]
      rfl

theorem isxdigit_printAddress (addr : In6Addr) : ∀ c ∈ printAddress addr, isxdigit c = true := by
  intro c hc
  simp only [printAddress, List.mem_append] at hc
  rcases hc with ((hc | hc) | hc) | hc <;> exact isxdigit_hexPadded c hc

theorem s6_addr32_lt (addr : In6Addr) (k : Nat) : s6_addr32 addr k < 16 ^ 8 := by
  have hbyte : ∀ i, (addr.s6_addr.getD i 0).toNat < 256 := fun i => UInt8.toNat_lt _
  have h0 := hbyte (4 * k + 0)
  have h1 := hbyte (4 * k + 1)
  have h2 := hbyte (4 * k + 2)
  have h3 := hbyte (4 * k + 3)
  simp only [s6_addr32]
  omega

theorem length_printAddress (addr : In6Addr) : (printAddress addr).length = 32 := by
  simp only [printAddress, List.length_append, length_hexPadded (by decide : 0 < 8) (s6_addr32_lt addr _)]

theorem decodeProcAddress_printAddress (addr : In6Addr) :
    decodeProcAddress (printAddress addr) addrStrLen = some (addressText addr.s6_addr) :=
  decodeProcAddress_eq (length_printAddress addr) (decodeBytes_printAddress addr) addr.length_eq

end Address

/-! ## A row read back -/

/-- The fields of the row of a socket. -/
def TcpRow.rowText (r : TcpRow) : RowText where
  gap
    | 0 => List.replicate (4 - (decimal r.sl).length) ' '
    | 7 => ' ' :: List.replicate (5 - (decimal r.uid).length) ' '
    | 8 => ' ' :: List.replicate (8 - (decimal r.probes_out.toNat).length) ' '
    | _ => [' ']
  slot := decimal r.sl
  local_address := printAddress r.src
  local_port := hexPadded 4 r.srcp.toNat
  remote_address := printAddress r.dest
  remote_port := hexPadded 4 r.destp.toNat
  state := hexPadded 2 r.state.toNat
  tx_queue := hexPadded 8 r.tx_queue.toNat ++ ':' :: hexPadded 8 r.rx_queue.toNat
  timer := hexPadded 2 r.timer_active.toNat ++ ':' :: hexPadded 8 r.timer_expires.toNat
  retransmit := hexPadded 8 r.retransmits.toNat
  uid := decimal r.uid
  timeout := decimal r.probes_out.toNat
  inode := decimal r.inode.toNat

section Row

variable (r : TcpRow)

theorem TcpRow.line_eq : r.line = r.rowText.text ++ r.columns := by
  simp only [TcpRow.line, RowText.text, TcpRow.rowText, decimalPadded, List.leftpad,
    List.append_assoc, List.cons_append, List.nil_append]
  rfl

theorem isEndpoint_print (addr : In6Addr) (port : UInt16) :
    IsEndpoint (printAddress addr) (hexPadded 4 port.toNat) where
  address_length := length_printAddress addr
  address_digits := isxdigit_printAddress addr
  port_length := length_hexPadded (by decide) port.toNat_lt
  port_digits := isxdigit_hexPadded

theorem isDigits_decimal (n : Nat) : IsDigits 10 (decimal n) :=
  ⟨Nat.toDigits_ne_nil, isDigitOf_decimal⟩

theorem isDigits_hexPadded (width n : Nat) : IsDigits 16 (hexPadded width n) :=
  ⟨hexPadded_ne_nil, fun c hc => by simpa [isDigitOf] using isxdigit_hexPadded c hc⟩

/-- Two numbers with a colon between them are a word. -/
theorem isWord_pair {v w m n : Nat} (h : (hexPadded v m).length + (hexPadded w n).length ≤ 62) :
    IsWord (hexPadded v m ++ ':' :: hexPadded w n) := by
  have hdigit : ∀ {v m}, ∀ c ∈ hexPadded v m, (!isspace c) = true := fun c hc => by
    simpa using isspace_of_isDigitOf ((isDigits_hexPadded _ _).2 c hc)
  refine ⟨by simp, fun c hc => ?_, ?_⟩
  · rcases List.mem_append.mp hc with hc | hc
    · exact hdigit c hc
    · rcases List.mem_cons.mp hc with rfl | hc
      · decide
      · exact hdigit c hc
  · rw [List.length_append, List.length_cons]
    omega

theorem length_hexPadded_le {width n bound : Nat} (hbound : 0 < bound) (hwidth : width ≤ bound)
    (h : n < 16 ^ bound) : (hexPadded width n).length ≤ bound := by
  have hlen := (Nat.length_toDigits_le_iff (n := n) (b := 16) (by decide) hbound).mpr h
  rw [hexPadded, List.length_leftpad, hexadecimal, List.length_map]
  omega

theorem TcpRow.wellFormed : r.rowText.WellFormed where
  blank := by
    have hspaces : ∀ k, IsBlank (List.replicate k ' ') := fun k c hc => by
      rw [(List.mem_replicate.mp hc).2]
      decide
    have hspace : ∀ k, IsBlank (' ' :: List.replicate k ' ') := fun k => hspaces (k + 1)
    intro i
    unfold TcpRow.rowText
    simp only
    split
    · exact hspaces _
    · exact hspace _
    · exact hspace _
    · exact hspace 0
  apart := by
    intro i hi
    unfold TcpRow.rowText
    simp only
    split
    · omega
    all_goals exact List.cons_ne_nil _ _
  slot := isDigits_decimal _
  localEnd := isEndpoint_print _ _
  remoteEnd := isEndpoint_print _ _
  state := isDigits_hexPadded _ _
  tx_queue := by
    have htx : (hexPadded 8 r.tx_queue.toNat).length ≤ 8 :=
      length_hexPadded_le (by decide) le_rfl r.tx_queue.toNat_lt
    have hrx : (hexPadded 8 r.rx_queue.toNat).length ≤ 8 :=
      length_hexPadded_le (by decide) le_rfl r.rx_queue.toNat_lt
    exact isWord_pair (by omega)
  timer := by
    have hactive : (hexPadded 2 r.timer_active.toNat).length ≤ 2 :=
      length_hexPadded_le (by decide) le_rfl r.timer_active.toNat_lt
    have hexpires : (hexPadded 8 r.timer_expires.toNat).length ≤ 16 :=
      length_hexPadded_le (by decide) (by decide) r.timer_expires.toNat_lt
    exact isWord_pair (by omega)
  retransmit := isDigits_hexPadded _ _
  uid := isDigits_decimal _
  timeout := isDigits_decimal _
  inode := isDigits_decimal _

/-- **The row of a socket is read back.** -/
theorem TcpRow.parse_line : krangParseTcp6Line r.line = .found r.connection := by
  rw [r.line_eq, parse_row r.wellFormed r.columns_apart (decodeProcAddress_printAddress r.src)
    (decodeProcAddress_printAddress r.dest)]
  have hstate : r.state.toNat < 2 ^ 32 := r.state.toNat_lt.trans (by decide)
  simp only [TcpRow.rowText, digitsValue_hexPadded, digitsValue_decimal, TcpRow.connection,
    storeUnsigned_fits (by decide : 32 ≤ 64) hstate, storeSigned_fits (by decide : 31 ≤ 63) r.uid_lt,
    storeUnsigned_fits (by decide : 64 ≤ 64) r.inode.toNat_lt]

/-- Its digits may be in either case. -/
theorem TcpRow.parse_sameCase {line : List Char}
    (h : line.map Char.toUpper = r.line.map Char.toUpper) :
    krangParseTcp6Line line = .found r.connection := by
  have hstart : StartsDigit r.line := by
    rw [r.line_eq]
    exact startsDigit_row r.wellFormed r.columns
  have hline : StartsDigit line := by
    obtain ⟨c, t, hdrop, hc⟩ := hstart
    have hup : (line.dropWhile isspace).map Char.toUpper = (c :: t).map Char.toUpper := by
      rw [← dropWhile_toUpper caseBlind_isspace, h, dropWhile_toUpper caseBlind_isspace, hdrop]
    obtain ⟨c', t', hline, hc', -⟩ := List.map_eq_cons_iff.mp hup
    refine ⟨c', t', hline, ?_⟩
    rw [← caseBlind_isDigitOf, hc', caseBlind_isDigitOf, hc]
  rw [← krangParseTcp6Line_toUpper hline, h, krangParseTcp6Line_toUpper hstart, r.parse_line]

end Row

/-! ## A table read back -/

/-- The first line of the table. -/
structure IsHeader (header : List Char) : Prop where
  start : (header.dropWhile isspace).take 3 = "sl ".toList
  line : '\n' ∉ header
  fits : header.length < lineMax

/-- The text is the table of these lines, perhaps without the last newline. -/
def IsTable (header : List Char) (lines : List (List Char)) (text : List Char) : Prop :=
  text = unlines (header :: lines) ∨ text ++ ['\n'] = unlines (header :: lines)

section Table

variable {header text : List Char} {lines : List (List Char)} {rows : List TcpRow}

theorem IsHeader.parse (h : IsHeader header) : krangParseTcp6Line header = .notFound := by
  have hheader : isBlankOrHeader (header.dropWhile isspace) = true := by
    rw [isBlankOrHeader, h.start]
    simp
  unfold krangParseTcp6Line
  simp only [hheader, if_true]

theorem IsHeader.ne_nil (h : IsHeader header) : header ≠ [] := by
  rintro rfl
  exact absurd h.start (by decide)

theorem TcpRow.newline_notMem (r : TcpRow) : '\n' ∉ r.line := by
  have hdecimal : ∀ n, '\n' ∉ decimal n := fun n h => absurd (isDigitOf_decimal _ h) (by decide)
  have hhex : ∀ width n, '\n' ∉ hexPadded width n := fun width n h =>
    absurd (isxdigit_hexPadded _ h) (by decide)
  have haddress : ∀ addr, '\n' ∉ printAddress addr := fun addr h =>
    absurd (isxdigit_printAddress addr _ h) (by decide)
  have hpadded : ∀ width n, '\n' ∉ decimalPadded width n := by
    intro width n h
    rcases List.mem_append.mp h with h | h
    · exact absurd (List.mem_replicate.mp h).2 (by decide)
    · exact hdecimal n h
  simp [TcpRow.line, hdecimal, hhex, haddress, hpadded, r.columns_line]

theorem TcpRow.line_ne_nil (r : TcpRow) : r.line ≠ [] := by
  rw [r.line_eq, RowText.text]
  simp

/-- Line by line, the rows of the kernel in either case. -/
theorem parse_rows (hcase : lines.map (List.map Char.toUpper) =
    rows.map fun r => r.line.map Char.toUpper) :
    lines.map krangParseTcp6Line = rows.map (fun r => Parsed.found r.connection) ∧
      ∀ line ∈ lines, '\n' ∉ line ∧ line ≠ [] := by
  induction rows generalizing lines with
  | nil =>
      obtain rfl : lines = [] := List.map_eq_nil_iff.mp hcase
      exact ⟨rfl, fun _ h => nomatch h⟩
  | cons r rows ih =>
      obtain ⟨line, lines, rfl, hline, hlines⟩ := List.map_eq_cons_iff.mp hcase
      have hline : line.map Char.toUpper = r.line.map Char.toUpper := hline
      obtain ⟨hparse, hfree⟩ := ih hlines
      refine ⟨by rw [List.map_cons, List.map_cons, hparse, r.parse_sameCase hline], ?_⟩
      intro l hl
      rcases List.mem_cons.mp hl with rfl | hl
      · constructor
        · intro hmem
          have hup : '\n' ∈ r.line.map Char.toUpper := by
            rw [← hline]
            exact List.mem_map.mpr ⟨'\n', hmem, by decide⟩
          obtain ⟨c, hc, hcup⟩ := List.mem_map.mp hup
          obtain rfl : c = '\n' := (toUpper_eq_iff (by decide) c).mp hcup
          exact r.newline_notMem hc
        · rintro rfl
          exact r.line_ne_nil (List.map_eq_nil_iff.mp hline.symm)
      · exact hfree l hl

/-- The lines the parser sees of a table. -/
theorem IsTable.textLines (h : IsTable header lines text) (hheader : IsHeader header)
    (hlines : ∀ line ∈ lines, '\n' ∉ line ∧ line ≠ []) : textLines text = header :: lines := by
  have hfree : ∀ line ∈ header :: lines, '\n' ∉ line := by
    intro line hline
    rcases List.mem_cons.mp hline with rfl | hline
    · exact hheader.line
    · exact (hlines line hline).1
  have hne : ∀ line ∈ header :: lines, line ≠ [] := by
    intro line hline
    rcases List.mem_cons.mp hline with rfl | hline
    · exact hheader.ne_nil
    · exact (hlines line hline).2
  rcases h with rfl | h
  · exact textLines_unlines hfree
  · exact textLines_last hfree hne h

/-- **The table of the kernel is read back**: every connection the records
have room for, in order and field by field. -/
theorem krangParseTcp6_roundTrip {rows : List TcpRow} {capacity : Nat} (hcapacity : 1 ≤ capacity)
    {header : List Char} (hheader : IsHeader header) {lines : List (List Char)}
    (hcase : lines.map (List.map Char.toUpper) = rows.map fun r => r.line.map Char.toUpper)
    (hfit : ∀ line ∈ lines, line.length < lineMax) {text : List Char}
    (htext : IsTable header lines text) :
    krangParseTcp6 text capacity =
      { status := if rows = [] then .notFound else .found
        parsed_count := min rows.length capacity
        out := (rows.take capacity).map TcpRow.connection } := by
  obtain ⟨hparse, hfree⟩ := parse_rows hcase
  have hlines := htext.textLines hheader hfree
  have hrecords : records (textLines text) = rows.map TcpRow.connection := by
    have hmap : records (header :: lines) =
        (lines.map krangParseTcp6Line).filterMap Parsed.record := by
      simp [records, hheader.parse, Parsed.record, List.filterMap_map, Function.comp_def]
    rw [hlines, hmap, hparse, List.filterMap_map]
    simp [Function.comp_def, Parsed.record]
  have herror : sawError (textLines text) = false := by
    have hany : sawError (header :: lines) = (lines.map krangParseTcp6Line).any (· = .error) := by
      simp [sawError, hheader.parse, List.any_map, Function.comp_def]
    rw [hlines, hany, hparse, List.any_map]
    simp
  have hall : ∀ line ∈ textLines text, line.length < lineMax := by
    rw [hlines]
    intro line hline
    rcases List.mem_cons.mp hline with rfl | hline
    · exact hheader.fits
    · exact hfit line hline
  rw [krangParseTcp6_eq hall, hrecords, herror, List.length_map, List.map_take]
  congr 1
  cases rows with
  | nil => rfl
  | cons r rows =>
      have hpos : 0 < min (r :: rows).length capacity := by
        rw [List.length_cons]
        omega
      simp only [statusOf, Bool.false_eq_true, if_false, if_pos hpos, reduceCtorEq]

/-- The first line of the table, as the kernel writes it. -/
def kernelHeader : List Char :=
  ("  sl  local_address                         remote_address                        " ++
    "st tx_queue rx_queue tr tm->when retrnsmt   uid  timeout inode").toList

theorem isHeader_kernelHeader : IsHeader kernelHeader := by
  -- spelled out, so that the kernel does not decode the literals
  unfold kernelHeader
  rw [String.toList_append, String.toList_ofList, String.toList_ofList]
  exact ⟨by decide +kernel, by decide +kernel, by decide +kernel⟩

/-- `::ffff:127.0.0.1` on port 49153, connected to `::ffff:8.8.8.8` on port 443. -/
def fixtureRow : TcpRow where
  sl := 0
  src := ⟨[0, 0, 0, 0, 0, 0, 0, 0, 0, 0, 255, 255, 127, 0, 0, 1], rfl⟩
  srcp := 0xC001
  dest := ⟨[0, 0, 0, 0, 0, 0, 0, 0, 0, 0, 255, 255, 8, 8, 8, 8], rfl⟩
  destp := 443
  state := 1
  tx_queue := 0
  rx_queue := 0
  timer_active := 0
  timer_expires := 0
  retransmits := 0
  uid := 10001
  uid_lt := by decide
  probes_out := 0
  inode := 123456
  columns := " 1 0000000000000000 100 0 0 10 0".toList
  columns_apart := stops_cons.mpr (by decide)
  columns_line := by decide +kernel

example : fixtureRow.line =
    ("   0: 0000000000000000FFFF00000100007F:C001 0000000000000000FFFF000008080808:01BB 01 " ++
      "00000000:00000000 00:00000000 00000000 10001        0 123456 " ++
      "1 0000000000000000 100 0 0 10 0").toList := by
  rw [String.toList_append, String.toList_append, String.toList_ofList, String.toList_ofList,
    String.toList_ofList]
  decide +kernel

/-- One row with its digits in small letters, and no newline at its end. -/
theorem krangParseTcp6_roundTrip_fixture :
    krangParseTcp6 (kernelHeader ++ '\n' :: fixtureRow.line.map Char.toLower) 1 =
        ⟨.found, 1, [fixtureRow.connection]⟩ ∧
      fixtureRow.connection.remote_address = "8.8.8.8".toList := by
  refine ⟨?_, by decide +kernel⟩
  have hcase : [fixtureRow.line.map Char.toLower].map (List.map Char.toUpper) =
      [fixtureRow].map fun r => r.line.map Char.toUpper := by decide +kernel
  have hfit : ∀ line ∈ [fixtureRow.line.map Char.toLower], line.length < lineMax := by
    intro line hline
    rw [List.mem_singleton.mp hline]
    decide +kernel
  have htable : IsTable kernelHeader [fixtureRow.line.map Char.toLower]
      (kernelHeader ++ '\n' :: fixtureRow.line.map Char.toLower) := by
    refine .inr ?_
    simp [unlines]
  exact krangParseTcp6_roundTrip (by decide) isHeader_kernelHeader hcase hfit htable

end Table

end MiuiserPeruser.Krang
