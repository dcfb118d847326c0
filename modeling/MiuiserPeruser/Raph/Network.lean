import MiuiserPeruser.Krang.RoundTrip

/-!
# raph — who owns a connection (`raph_network.c`)

`raph_network_scan` reads the rows of `/proc/net/tcp6` with a format of its
own. It skips five columns behind the state where three stand before the
uid, and so takes the inode for the uid. Ports and state are krangd's; the
uid is krangd's exactly if the inode happens to be the same `int`
(`readers_agree_iff`).
-/

namespace MiuiserPeruser.Raph

open CText Krang

/-! ## The scan of a row -/

/-- `(int)strtol(s, NULL, 16)`. -/
def strtolInt (s : List Char) : Int :=
  match scanNumber 16 (s.dropWhile isspace) with
  | none => 0
  | some (negative, n, _) => storeSigned 32 negative n

/-- `" %*d: %63s %63s %7s %*s %*s %*s %*s %*s %d"`. A suppressed conversion
reads as the others do; `%*s` has no width of its own, and is given one that
no word of the line exceeds. -/
def rowFormat (width : Nat) : List Directive :=
  .space :: percentD ++ .lit ':' :: .space :: percentS 63 ++ .space :: percentS 63 ++
    .space :: percentS 7 ++ .space :: percentS width ++ .space :: percentS width ++
    .space :: percentS width ++ .space :: percentS width ++ .space :: percentS width ++
    .space :: percentD

/-- What a row gives `raph_network_scan`. -/
structure RowScan where
  lport : Int
  rport : Int
  state : List Char
  uid : Int

/-- The port of an endpoint: what stands behind its last colon. -/
def endpointPort (endpoint : List Char) : Int :=
  if ':' ∈ endpoint then strtolInt (afterLast ':' endpoint) else 0

/-- The part of `raph_network_scan` that reads a row. Suppressed conversions
count here: the slot is the value 0, and the five columns are 4 to 8. -/
def rowScan (line : List Char) : RowScan :=
  let fields := scanf (rowFormat line.length) line
  { lport := endpointPort (textAt fields 1)
    rport := endpointPort (textAt fields 2)
    state := textAt fields 3
    uid := numAt fields 9 }

/-! ## Rows of the kernel -/

/-- A row whose state has the two digits of `%02X`. -/
structure IsKernelRow (r : RowText) : Prop extends r.WellFormed where
  state_length : r.state.length = 2

/-- What `raph_network_scan` relies on, whatever the length of the addresses. -/
structure IsScannedRow (r : RowText) : Prop where
  blank : ∀ i, IsBlank (r.gap i)
  apart : ∀ i, 2 ≤ i → r.gap i ≠ []
  slot : IsDigits 10 r.slot
  localWord : IsWord (r.local_address ++ ':' :: r.local_port)
  remoteWord : IsWord (r.remote_address ++ ':' :: r.remote_port)
  state : IsDigits 16 r.state
  state_length : r.state.length = 2
  tx_queue : IsWord r.tx_queue
  timer : IsWord r.timer
  retransmit : IsDigits 16 r.retransmit
  uid : IsDigits 10 r.uid
  timeout : IsDigits 10 r.timeout
  inode : IsDigits 10 r.inode

theorem IsKernelRow.scanned {r : RowText} (h : IsKernelRow r) : IsScannedRow r :=
  { h with
    localWord := isWord_endpoint h.localEnd
    remoteWord := isWord_endpoint h.remoteEnd }

/-- A decimal column as an `int`. -/
def asInt (column : List Char) : Int := storeSigned 32 false (digitsValue 10 column)

section Columns

variable {gap w rest : List Char} {ds : List Directive}

/-- A column behind white space. -/
theorem scanf_column {width : Nat} (hgap : IsBlank gap) (hne : w ≠ [])
    (hw : ∀ c ∈ w, isspace c = false) (hlen : w.length ≤ width) (hrest : IsColumns rest) :
    scanf (.space :: .space :: .chars width (fun c => !isspace c) :: ds) (gap ++ (w ++ rest)) =
      .text w :: scanf ds rest := by
  rw [scanf_space_space, scanf_blanks hgap (stops_isspace_append hne hw),
    scanf_chars hne (fun c hc => by simp [hw c hc]) hlen hrest]

theorem IsWord.not_isspace (h : IsWord w) : ∀ c ∈ w, isspace c = false := by
  intro c hc
  simpa using h.2.1 c hc

theorem IsDigits.not_isspace {base : Nat} (h : IsDigits base w) : ∀ c ∈ w, isspace c = false :=
  fun c hc => isspace_of_isDigitOf (h.2 c hc)

end Columns

/-- A row, and the columns after its inode, piece by piece. -/
theorem text_append (r : RowText) (columns : List Char) :
    r.text ++ columns = r.gap 0 ++ (r.slot ++ (':' :: (r.gap 1 ++
      ((r.local_address ++ ':' :: r.local_port) ++ (r.gap 2 ++
      ((r.remote_address ++ ':' :: r.remote_port) ++ (r.gap 3 ++ (r.state ++ (r.gap 4 ++
      (r.tx_queue ++ (r.gap 5 ++ (r.timer ++ (r.gap 6 ++ (r.retransmit ++ (r.gap 7 ++ (r.uid ++
      (r.gap 8 ++ (r.timeout ++ (r.gap 9 ++ (r.inode ++ columns)))))))))))))))))))) := by
  simp only [RowText.text, List.append_assoc, List.cons_append]

/-- **The five columns skipped are queue, timer, retransmit, uid and timeout.** -/
theorem scanf_rowFormat {r : RowText} (h : IsScannedRow r) {columns : List Char}
    (hcolumns : IsColumns columns) :
    scanf (rowFormat (r.text ++ columns).length) (r.text ++ columns) =
      [.num (asInt r.slot),
        .text (r.local_address ++ ':' :: r.local_port),
        .text (r.remote_address ++ ':' :: r.remote_port),
        .text r.state, .text r.tx_queue, .text r.timer, .text r.retransmit, .text r.uid,
        .text r.timeout, .num (asInt r.inode)] := by
  have hgap : ∀ {i rest}, 2 ≤ i → IsColumns (r.gap i ++ rest) := fun hi =>
    isColumns_gap (h.blank _) (h.apart _ hi)
  have hlocal := h.localWord
  have hremote := h.remoteWord
  have hwidth : ∀ w ∈ [r.tx_queue, r.timer, r.retransmit, r.uid, r.timeout],
      w.length ≤ (r.text ++ columns).length := by
    intro w hw
    rw [text_append]
    simp only [List.mem_cons, List.not_mem_nil, or_false] at hw
    simp only [List.length_append, List.length_cons]
    rcases hw with rfl | rfl | rfl | rfl | rfl <;> omega
  have hstate : r.state.length ≤ 7 := by
    rw [h.state_length]
    decide
  have hcolon : ∀ {rest}, Stops (isDigitOf 10) (':' :: rest) := stops_cons.mpr (by decide)
  have hx : ∀ {rest : List Char}, Stops (fun c => c.toLower = 'x') (':' :: rest) :=
    stops_cons.mpr (by decide)
  generalize (r.text ++ columns).length = width at hwidth
  rw [text_append]
  simp only [rowFormat, percentD, percentS, List.cons_append, List.nil_append]
  rw [scanf_space_space, scanf_digits (h.blank 0) h.slot hcolon hx, scanf_lit,
    scanf_column (h.blank 1) hlocal.1 (IsWord.not_isspace hlocal) hlocal.2.2 (hgap (by decide)),
    scanf_column (h.blank 2) hremote.1 (IsWord.not_isspace hremote) hremote.2.2 (hgap (by decide)),
    scanf_column (h.blank 3) h.state.1 (IsDigits.not_isspace h.state) hstate (hgap (by decide)),
    scanf_column (h.blank 4) h.tx_queue.1 (IsWord.not_isspace h.tx_queue) (hwidth _ (by simp))
      (hgap (by decide)),
    scanf_column (h.blank 5) h.timer.1 (IsWord.not_isspace h.timer) (hwidth _ (by simp))
      (hgap (by decide)),
    scanf_column (h.blank 6) h.retransmit.1 (IsDigits.not_isspace h.retransmit)
      (hwidth _ (by simp)) (hgap (by decide)),
    scanf_column (h.blank 7) h.uid.1 (IsDigits.not_isspace h.uid) (hwidth _ (by simp))
      (hgap (by decide)),
    scanf_column (h.blank 8) h.timeout.1 (IsDigits.not_isspace h.timeout) (hwidth _ (by simp))
      (hgap (by decide)),
    scanf_digits_columns (h.blank 9) h.inode hcolumns]
  rfl

/-- A number of `w.length` hexadecimal digits. -/
theorem digitsValue_lt {w : List Char} (h : ∀ c ∈ w, isxdigit c = true) :
    digitsValue 16 w < 16 ^ w.length := by
  induction w using List.reverseRecOn with
  | nil => decide
  | append_singleton w c ih =>
      have hw := ih fun c hc => h c (List.mem_append_left _ hc)
      obtain ⟨-, hc⟩ := hexValue_xdigit (h c (by simp))
      rw [digitsValue_append, List.length_append, List.length_singleton, pow_succ]
      omega

/-- The port behind the colon of an endpoint. -/
theorem endpointPort_eq {port : List Char} (hlength : port.length = 4)
    (hdigits : ∀ c ∈ port, isxdigit c = true) (address : List Char) :
    endpointPort (address ++ ':' :: port) = digitsValue 16 port := by
  have hne : port ≠ [] := List.length_pos_iff.mp (by rw [hlength]; decide)
  have hcolon : ':' ∉ port := fun hc => absurd (hdigits _ hc) (by decide)
  have hlast : afterLast ':' (address ++ ':' :: port) = port := afterLast_append hcolon address
  have hspace : port.dropWhile isspace = port := by
    have hstop : Stops isspace (port ++ []) :=
      stops_isspace_append hne fun c hc => isspace_of_isxdigit (hdigits c hc)
    rw [List.append_nil] at hstop
    exact dropWhile_append_of_stop (w := []) (by simp) hstop
  have hscan : scanNumber 16 port = some (false, digitsValue 16 port, []) := by
    have hdigit : scanNumber 16 (port ++ []) = some (false, digitsValue 16 port, []) :=
      scanNumber_digits hne hdigits (stops_nil _) (stops_nil _)
    rwa [List.append_nil] at hdigit
  have hlt : digitsValue 16 port < 2 ^ 31 := by
    have hport := digitsValue_lt hdigits
    rw [hlength] at hport
    omega
  rw [endpointPort, if_pos (by simp), strtolInt, hlast, hspace, hscan]
  exact storeSigned_fits (by decide) hlt

/-- What `raph_network_scan` reads from a row. -/
theorem rowScan_row {r : RowText} (h : IsKernelRow r) {columns : List Char}
    (hcolumns : IsColumns columns) :
    rowScan (r.text ++ columns) =
      ⟨digitsValue 16 r.local_port, digitsValue 16 r.remote_port, r.state, asInt r.inode⟩ := by
  unfold rowScan
  rw [scanf_rowFormat h.scanned hcolumns]
  simp only [textAt, numAt, List.getElem?_cons_succ, List.getElem?_cons_zero,
    endpointPort_eq h.localEnd.port_length h.localEnd.port_digits,
    endpointPort_eq h.remoteEnd.port_length h.remoteEnd.port_digits]

/-! ## The two readers -/

/-- The two readers agree on a line: krangd finds a record, and the scan
reads its ports, its state and its owner. -/
def ReadersAgree (line : List Char) : Prop :=
  ∃ out, krangParseTcp6Line line = .found out ∧
    (rowScan line).lport = out.local_port ∧ (rowScan line).rport = out.remote_port ∧
    digitsValue 16 (rowScan line).state = out.state ∧ (rowScan line).uid = out.uid

/-- **The readers agree on who owns a connection exactly if its inode is its
uid**, both as an `int`. -/
theorem readers_agree_iff {r : RowText} (h : IsKernelRow r) {columns : List Char}
    (hcolumns : IsColumns columns) :
    ReadersAgree (r.text ++ columns) ↔ asInt r.inode = asInt r.uid := by
  obtain ⟨local_text, hlocal⟩ :=
    decodeProcAddress_isSome h.localEnd.address_length h.localEnd.address_digits
  obtain ⟨remote_text, hremote⟩ :=
    decodeProcAddress_isSome h.remoteEnd.address_length h.remoteEnd.address_digits
  have hparse := parse_row h.toWellFormed hcolumns hlocal hremote
  have hstate : storeUnsigned 32 false (digitsValue 16 r.state) = digitsValue 16 r.state := by
    have hlt := digitsValue_lt h.state.2
    rw [h.state_length] at hlt
    exact storeUnsigned_fits (by decide) (hlt.trans (by decide))
  constructor
  · rintro ⟨out, hfound, -, -, -, huid⟩
    rw [hparse] at hfound
    cases hfound
    rwa [rowScan_row h hcolumns] at huid
  · intro hinode
    refine ⟨_, hparse, ?_⟩
    rw [rowScan_row h hcolumns]
    exact ⟨rfl, rfl, hstate.symm, hinode⟩

/-- What the kernel prints for a socket is such a row. -/
theorem isKernelRow_rowText (r : TcpRow) : IsKernelRow r.rowText where
  toWellFormed := r.wellFormed
  state_length := length_hexPadded (by decide) r.state.toNat_lt

theorem readers_agree_iff_fixture :
    ReadersAgree (fixtureRow.rowText.text ++ fixtureRow.columns) ↔
      asInt fixtureRow.rowText.inode = asInt fixtureRow.rowText.uid :=
  readers_agree_iff (isKernelRow_rowText fixtureRow) fixtureRow.columns_apart

/-- The socket of user 10001 is given to user 123456, which is its inode. -/
theorem fixture_owner_is_inode :
    ¬ ReadersAgree fixtureRow.line ∧ (rowScan fixtureRow.line).uid = 123456 ∧
      fixtureRow.connection.uid = 10001 := by
  have huid : (rowScan fixtureRow.line).uid = 123456 := by decide +kernel
  refine ⟨?_, huid, rfl⟩
  rintro ⟨out, hfound, -, -, -, howner⟩
  rw [fixtureRow.parse_line] at hfound
  cases hfound
  rw [huid] at howner
  exact absurd howner (by decide)

end MiuiserPeruser.Raph
