import MiuiserPeruser.Lib.CInt
import MiuiserPeruser.Raph.Loopback
import MiuiserPeruser.Rahzer.State

/-!
# rahzerd — the port layer (`rahzerd.c`)

`rz_probe_ports` reads both tables of the kernel, row by row, into counters.
What it starts from is the number of lines of the tables as another process
counted them, and `listen_count` starts from the sum: it is a number of
sockets of any state, to which the listening ones are added once more. Where
that passes the room for the ports it becomes -1, and the alarm that asks for
more than twenty stays silent (`ports_exact`).

`backend` and `confidence` are constants and left out. No counter overflows:
a table has fewer rows than an `int` counts.
-/

namespace MiuiserPeruser.Rahzer

open CText

/-! ## The counters -/

/-- `RZ_MAX_OPEN_PORTS`. -/
def maxOpenPorts : Int := 64

/-- `RZ_MAX_OVERFLOW_FLAG`. -/
def maxOverflowFlag : Int := -1

/-- `rz_ports_t`: `mail` are the flags `smtp_25` to `pop3_995` by their ports. -/
structure Ports where
  mail : Int → Bool
  listen_ports : Int → Int
  listen_count : Int
  established_tcp4 : Int
  established_tcp6 : Int
  suspicious_listeners : Int

/-- All bytes zero. -/
def Ports.zero : Ports := ⟨fun _ => false, fun _ => 0, 0, 0, 0, 0⟩

/-- The ports that have a flag. -/
def mailPorts : List Int := [25, 465, 587, 143, 993, 110, 995]

def suspiciousListener (lport : Int) : Bool := 1024 < lport ∧ lport ≠ 8080 ∧ lport ≠ 8443

/-- A row in state `0x0A`. -/
def Ports.listening (p : Ports) (lport : Int) : Ports :=
  let p :=
    if 0 ≤ p.listen_count ∧ p.listen_count < maxOpenPorts then
      { p with
        listen_ports := Function.update p.listen_ports p.listen_count lport
        listen_count := p.listen_count + 1 }
    else if p.listen_count = maxOpenPorts then { p with listen_count := maxOverflowFlag }
    else p
  if suspiciousListener lport then { p with suspicious_listeners := p.suspicious_listeners + 1 } else p

/-- A row in state `0x01`. -/
def Ports.established (p : Ports) (is_v6 : Bool) (rport : Int) : Ports :=
  let p :=
    if is_v6 then { p with established_tcp6 := p.established_tcp6 + 1 }
    else { p with established_tcp4 := p.established_tcp4 + 1 }
  if rport ∈ mailPorts then { p with mail := Function.update p.mail rport true } else p

/-- A row that has been read. -/
def Ports.row (p : Ports) (is_v6 : Bool) (state lport rport : Int) : Ports :=
  if state = 0x0A then p.listening lport
  else if state = 0x01 then p.established is_v6 rport
  else p

/-! ## The tables -/

/-- `port_from_hex`. -/
def portFromHex (hex : List Char) : Int := wrap32 (numAt (scanf percentX hex) 0)

/-- `" %*d: %71s %71s %3s"`, with the suppressed number as a value. -/
def portsFormat : List Directive :=
  .space :: percentD ++ .lit ':' :: .space :: percentS 71 ++ .space :: percentS 71 ++
    .space :: percentS 3

/-- The body of the loop of `probe_tcp_file`. -/
def portsLine (is_v6 : Bool) (p : Ports) (line : List Char) : Ports :=
  let fields := scanf portsFormat line
  if fields.length ≠ 4 then p
  else
    let state := numAt (scanf percentX (textAt fields 3)) 0
    if ':' ∉ textAt fields 1 ∨ ':' ∉ textAt fields 2 then p
    else
      p.row is_v6 state (portFromHex (afterLast ':' (textAt fields 1)))
        (portFromHex (afterLast ':' (textAt fields 2)))

/-- `probe_tcp_file`, on the file. -/
def probeTcpFile (file : Option (List Char)) (is_v6 : Bool) (p : Ports) : Ports :=
  match file with
  | none => p
  | some text => ((fgetsLines 512 text).drop 1).foldl (portsLine is_v6) p

/-- A count of lines without the header. -/
def prebaked (n : Int) : Int := if 1 < n then n - 1 else 0

/-- What the section `PORTS` makes of the counters. -/
def Ports.ofSection (portsRaw : Option (List Char)) : Ports :=
  match portsRaw with
  | none => .zero
  | some raw =>
      let tcp4 := prebaked (atoi raw)
      let tcp6 := if '\n' ∈ raw then prebaked (atoi (raw.dropWhile (· ≠ '\n')).tail) else 0
      { Ports.zero with
        established_tcp4 := tcp4, established_tcp6 := tcp6, listen_count := tcp4 + tcp6 }

/-- `rz_probe_ports`, on the section and the two files. -/
def probePorts (portsRaw tcp tcp6 : Option (List Char)) : Ports :=
  probeTcpFile tcp6 true (probeTcpFile tcp false (.ofSection portsRaw))

/-- `rz_emit_netstate` sends `EXCESSIVE_CONNECTIONS`. -/
def excessiveConnections (p : Ports) : Bool := 20 < p.listen_count

/-- The row of a socket, with the columns behind it, as a line of the table. -/
structure IsTableLine (k : Raph.Socket) (line : List Char) : Prop where
  row : ∃ r columns, Raph.IsSocketRow k r ∧ Krang.IsColumns columns ∧ line = r.text ++ columns
  one : '\n' ∉ line
  short : line.length + 1 < 512

/-- A table as the kernel prints it. -/
structure Table where
  sockets : List Raph.Socket
  header : List Char
  lines : List (List Char)
  header_one : '\n' ∉ header ∧ header.length + 1 < 512
  printed : List.Forall₂ IsTableLine sockets lines

def Table.text (t : Table) : List Char := textLines (t.header :: t.lines)

section Rows

variable {k : Raph.Socket} {r : Krang.RowText} {columns line : List Char}

/-- What `%X` reads of the digits of `%04X`. -/
theorem numAt_percentX (width : Nat) {n : Nat} (hn : n < 2 ^ 32) :
    numAt (scanf percentX (hexPadded width n)) 0 = n := by
  have hdigits : ∀ c ∈ hexPadded width n, isDigitOf 16 c = true := isxdigit_hexPadded
  have hspace : Stops isspace (hexPadded width n ++ []) :=
    stops_isspace_append hexPadded_ne_nil fun c hc => isspace_of_isDigitOf (hdigits c hc)
  have hscan : scanf percentX ([] ++ (hexPadded width n ++ [])) = [.num n] := by
    rw [percentX, scanf_blanks (by simp) hspace,
      scanf_number hexPadded_ne_nil hdigits (stops_nil _) (stops_nil _), digitsValue_hexPadded,
      storeUnsigned_fits (by decide) hn]
    rfl
  rw [List.nil_append, List.append_nil] at hscan
  rw [hscan]
  rfl

theorem portFromHex_hexPadded {n : Nat} (hn : n < 2 ^ 31) : portFromHex (hexPadded 4 n) = n := by
  rw [portFromHex, numAt_percentX 4 (by omega)]
  exact wrap32_of_isInt ⟨by omega, by omega⟩

/-- The four fields of a row. -/
theorem scanf_portsFormat (h : Raph.IsScannedRow r) (columns : List Char) :
    scanf portsFormat (r.text ++ columns) =
      [.num (Raph.asInt r.slot), .text (r.local_address ++ ':' :: r.local_port),
        .text (r.remote_address ++ ':' :: r.remote_port), .text r.state] := by
  have hgap : ∀ {i rest}, 2 ≤ i → Krang.IsColumns (r.gap i ++ rest) := fun hi =>
    Krang.isColumns_gap (h.blank _) (h.apart _ hi)
  have hlocal := h.localWord
  have hremote := h.remoteWord
  have hcolon : ∀ {rest}, Stops (isDigitOf 10) (':' :: rest) := stops_cons.mpr (by decide)
  have hx : ∀ {rest : List Char}, Stops (fun c => c.toLower = 'x') (':' :: rest) :=
    stops_cons.mpr (by decide)
  rw [Raph.text_append]
  simp only [portsFormat, percentD, percentS, List.cons_append, List.nil_append]
  rw [Krang.scanf_space_space, Krang.scanf_digits (h.blank 0) h.slot hcolon hx, scanf_lit,
    Raph.scanf_column (h.blank 1) hlocal.1 (Raph.IsWord.not_isspace hlocal)
      (hlocal.2.2.trans (by decide)) (hgap (by decide)),
    Raph.scanf_column (h.blank 2) hremote.1 (Raph.IsWord.not_isspace hremote)
      (hremote.2.2.trans (by decide)) (hgap (by decide)),
    Raph.scanf_column (h.blank 3) h.state.1 (Raph.IsDigits.not_isspace h.state)
      (by rw [h.state_length]; decide) (hgap (by decide))]
  rfl

/-- **A row is counted as the socket it is of.** -/
theorem portsLine_row (h : Raph.IsSocketRow k r) (columns : List Char) (is_v6 : Bool) (p : Ports) :
    portsLine is_v6 p (r.text ++ columns) =
      p.row is_v6 k.state.toNat k.srcp.toNat k.destp.toNat := by
  have hcolon : ∀ n, ':' ∉ hexPadded 4 n := fun n hc => absurd (isxdigit_hexPadded _ hc) (by decide)
  have hport : ∀ (address : List Char) (port : UInt16),
      portFromHex (afterLast ':' (address ++ ':' :: hexPadded 4 port.toNat)) = port.toNat := by
    intro address port
    rw [afterLast_append (hcolon _)]
    exact portFromHex_hexPadded (port.toNat_lt.trans (by decide))
  have hstate : numAt (scanf percentX (hexPadded 2 k.state.toNat)) 0 = k.state.toNat :=
    numAt_percentX 2 (k.state.toNat_lt.trans (by decide))
  unfold portsLine
  rw [scanf_portsFormat h.scanned, h.local_port, h.remote_port, h.state]
  simp only [textAt, List.length_cons, List.length_nil, List.getElem?_cons_succ,
    List.getElem?_cons_zero, List.mem_append, List.mem_cons, true_or, or_true, not_true_eq_false,
    or_self, if_false, ne_eq, hstate, hport]

end Rows

/-- A socket of a table. -/
def Ports.socket (is_v6 : Bool) (p : Ports) (k : Raph.Socket) : Ports :=
  p.row is_v6 k.state.toNat k.srcp.toNat k.destp.toNat

/-- A loop of `fgets` over a table. -/
theorem fgetsLines_textLines {size : Nat} {lines : List (List Char)}
    (h : ∀ l ∈ lines, '\n' ∉ l ∧ l.length + 1 < size) :
    fgetsLines size (textLines lines) = lines.map (· ++ ['\n']) := by
  induction lines with
  | nil => rfl
  | cons l lines ih =>
      obtain ⟨hone, hshort⟩ := h l List.mem_cons_self
      have htext : textLines (l :: lines) = l ++ '\n' :: textLines lines := by
        simp [textLines]
      rw [htext, fgetsLines_line hone hshort, ih fun l hl => h l (List.mem_cons_of_mem _ hl)]
      rfl

/-- **A table is counted socket by socket.** -/
theorem probeTcpFile_table (t : Table) (is_v6 : Bool) (p : Ports) :
    probeTcpFile (some t.text) is_v6 p = t.sockets.foldl (Ports.socket is_v6) p := by
  have hlines : ∀ l ∈ t.header :: t.lines, '\n' ∉ l ∧ l.length + 1 < 512 := by
    have hmem : ∀ {ks : List Raph.Socket} {lines : List (List Char)},
        List.Forall₂ IsTableLine ks lines → ∀ l ∈ lines, '\n' ∉ l ∧ l.length + 1 < 512 := by
      intro ks lines hprinted
      induction hprinted with
      | nil => exact fun l hl => (nomatch hl)
      | cons hline _ ih => exact List.forall_mem_cons.mpr ⟨⟨hline.one, hline.short⟩, ih⟩
    exact List.forall_mem_cons.mpr ⟨t.header_one, hmem t.printed⟩
  have hrows : ∀ {ks : List Raph.Socket} {lines : List (List Char)} (p : Ports),
      List.Forall₂ IsTableLine ks lines →
      (lines.map (· ++ ['\n'])).foldl (portsLine is_v6) p = ks.foldl (Ports.socket is_v6) p := by
    intro ks lines p hprinted
    induction hprinted generalizing p with
    | nil => rfl
    | cons hline _ ih =>
        obtain ⟨r, columns, hrow, -, rfl⟩ := hline.row
        rw [List.map_cons, List.foldl_cons, List.foldl_cons, List.append_assoc,
          portsLine_row hrow]
        exact ih _
  rw [probeTcpFile, Table.text, fgetsLines_textLines hlines, List.map_cons, List.drop_one,
    List.tail_cons]
  exact hrows p t.printed

/-! ## What the counters count -/

def isListening (k : Raph.Socket) : Bool := k.state.toNat = 0x0A

def isEstablished (k : Raph.Socket) : Bool := k.state.toNat = 0x01

def isSuspicious (k : Raph.Socket) : Bool := isListening k && suspiciousListener k.srcp.toNat

/-- `listen_count` from `n` on, after so many listening sockets. -/
def listenCount (n : Int) (listening : Nat) : Int :=
  if n < 0 ∨ maxOpenPorts < n then n
  else if n + listening ≤ maxOpenPorts then n + listening
  else maxOverflowFlag

section Count

variable {p : Ports} {k : Raph.Socket} {is_v6 : Bool} {ks : List Raph.Socket}

theorem isListening_iff : isListening k = true ↔ (k.state.toNat : Int) = 0x0A := by
  rw [isListening, decide_eq_true_iff]
  exact_mod_cast Iff.rfl

theorem isEstablished_iff : isEstablished k = true ↔ (k.state.toNat : Int) = 0x01 := by
  rw [isEstablished, decide_eq_true_iff]
  exact_mod_cast Iff.rfl

/-- A socket that is not listening leaves the ports alone. -/
theorem socket_not_listening (h : isListening k = false) :
    (p.socket is_v6 k).listen_count = p.listen_count ∧
      (p.socket is_v6 k).listen_ports = p.listen_ports ∧
      (p.socket is_v6 k).suspicious_listeners = p.suspicious_listeners := by
  have hstate : ¬ (k.state.toNat : Int) = 0x0A := fun hs => by
    rw [isListening_iff.mpr hs] at h
    cases h
  unfold Ports.socket Ports.row
  rw [if_neg hstate]
  unfold Ports.established
  split_ifs
  all_goals exact ⟨rfl, rfl, rfl⟩

/-- A listening socket. -/
theorem socket_listening (h : isListening k = true) : p.socket is_v6 k = p.listening k.srcp.toNat :=
  if_pos (isListening_iff.mp h)

theorem listen_count_listening (lport : Int) :
    (p.listening lport).listen_count =
      if 0 ≤ p.listen_count ∧ p.listen_count < maxOpenPorts then p.listen_count + 1
      else if p.listen_count = maxOpenPorts then maxOverflowFlag else p.listen_count := by
  unfold Ports.listening
  split_ifs
  all_goals rfl

theorem listenCount_succ (n : Int) (l : Nat) :
    listenCount
      (if 0 ≤ n ∧ n < maxOpenPorts then n + 1
        else if n = maxOpenPorts then maxOverflowFlag else n) l = listenCount n (l + 1) := by
  unfold listenCount maxOpenPorts maxOverflowFlag
  split_ifs
  all_goals omega

/-- The number of the listening sockets, or the flag. -/
theorem listen_count_foldl : (ks.foldl (Ports.socket is_v6) p).listen_count =
    listenCount p.listen_count (ks.countP isListening) := by
  induction ks generalizing p with
  | nil =>
      rw [List.foldl_nil, List.countP_nil, listenCount]
      split_ifs with hout hfits
      · rfl
      · simp
      · omega
  | cons k ks ih =>
      rw [List.foldl_cons, ih]
      cases hk : isListening k with
      | false => rw [(socket_not_listening hk).1, List.countP_cons_of_neg (by simp [hk])]
      | true =>
          rw [socket_listening hk, listen_count_listening, listenCount_succ,
            List.countP_cons_of_pos hk]

theorem suspicious_listening (lport : Int) : (p.listening lport).suspicious_listeners =
    p.suspicious_listeners + if suspiciousListener lport then 1 else 0 := by
  unfold Ports.listening
  split_ifs
  all_goals simp

theorem suspicious_foldl : (ks.foldl (Ports.socket is_v6) p).suspicious_listeners =
    p.suspicious_listeners + ks.countP isSuspicious := by
  induction ks generalizing p with
  | nil => simp
  | cons k ks ih =>
      rw [List.foldl_cons, ih]
      cases hk : isListening k with
      | false =>
          rw [(socket_not_listening hk).2.2, List.countP_cons_of_neg (by simp [isSuspicious, hk])]
      | true =>
          rw [socket_listening hk, suspicious_listening]
          cases hs : suspiciousListener k.srcp.toNat with
          | false => simp [isSuspicious, hk, hs]
          | true =>
              rw [List.countP_cons_of_pos (by simp [isSuspicious, hk, hs])]
              push_cast
              simp only [if_true]
              ring

/-- A socket that is not established, -/
theorem socket_not_established (h : isEstablished k = false) :
    (p.socket is_v6 k).established_tcp4 = p.established_tcp4 ∧
      (p.socket is_v6 k).established_tcp6 = p.established_tcp6 ∧
      (p.socket is_v6 k).mail = p.mail := by
  have hstate : ¬ (k.state.toNat : Int) = 0x01 := fun hs => by
    rw [isEstablished_iff.mpr hs] at h
    cases h
  unfold Ports.socket Ports.row
  rw [if_neg hstate]
  unfold Ports.listening
  split_ifs
  all_goals exact ⟨rfl, rfl, rfl⟩

/-- and one that is. -/
theorem socket_established (h : isEstablished k = true) :
    p.socket is_v6 k = p.established is_v6 k.destp.toNat := by
  have hstate := isEstablished_iff.mp h
  unfold Ports.socket Ports.row
  rw [if_neg (by rw [hstate]; decide), if_pos hstate]

theorem established_fields (rport : Int) :
    (p.established is_v6 rport).established_tcp4 =
        p.established_tcp4 + (if is_v6 then 0 else 1) ∧
      (p.established is_v6 rport).established_tcp6 =
        p.established_tcp6 + (if is_v6 then 1 else 0) ∧
      (p.established is_v6 rport).mail =
        if rport ∈ mailPorts then Function.update p.mail rport true else p.mail := by
  unfold Ports.established
  cases is_v6 with
  | true => by_cases h : rport ∈ mailPorts <;> simp [h]
  | false => by_cases h : rport ∈ mailPorts <;> simp [h]

theorem established_foldl : (ks.foldl (Ports.socket is_v6) p).established_tcp4 =
      p.established_tcp4 + (if is_v6 then 0 else ks.countP isEstablished) ∧
    (ks.foldl (Ports.socket is_v6) p).established_tcp6 =
      p.established_tcp6 + (if is_v6 then ks.countP isEstablished else 0) := by
  induction ks generalizing p with
  | nil => cases is_v6 <;> simp
  | cons k ks ih =>
      rw [List.foldl_cons, ih.1, ih.2]
      cases hk : isEstablished k with
      | false =>
          rw [(socket_not_established hk).1, (socket_not_established hk).2.1,
            List.countP_cons_of_neg (by simp [hk])]
          exact ⟨rfl, rfl⟩
      | true =>
          obtain ⟨h4, h6, -⟩ := established_fields (p := p) k.destp.toNat
          rw [socket_established hk, List.countP_cons_of_pos hk, h4, h6]
          cases is_v6 with
          | true =>
              simp only [if_true]
              push_cast
              exact ⟨by ring, by ring⟩
          | false =>
              simp only [Bool.false_eq_true, if_false]
              push_cast
              exact ⟨by ring, by ring⟩

/-- The flag of a port is set by an established socket to it. -/
theorem mail_foldl {port : Int} (hport : port ∈ mailPorts) :
    (ks.foldl (Ports.socket is_v6) p).mail port = true ↔
      p.mail port = true ∨ ∃ k ∈ ks, isEstablished k = true ∧ (k.destp.toNat : Int) = port := by
  induction ks generalizing p with
  | nil => simp
  | cons k ks ih =>
      rw [List.foldl_cons, ih]
      cases hk : isEstablished k with
      | false =>
          rw [(socket_not_established hk).2.2]
          simp [hk]
      | true =>
          have hmail : (p.socket is_v6 k).mail port = true ↔
              p.mail port = true ∨ (k.destp.toNat : Int) = port := by
            rw [socket_established hk, (established_fields _).2.2]
            by_cases heq : (k.destp.toNat : Int) = port
            · rw [heq, if_pos hport, Function.update_self]
              simp
            · split
              · rw [Function.update_of_ne (Ne.symm heq)]
                simp [heq]
              · simp [heq]
          rw [hmail]
          simp [hk, or_assoc]

/-- A port is written behind the others, inside the array. -/
theorem listen_ports_listening (lport j : Int) : (p.listening lport).listen_ports j =
    if 0 ≤ p.listen_count ∧ p.listen_count < maxOpenPorts ∧ j = p.listen_count then lport
    else p.listen_ports j := by
  have hports : (p.listening lport).listen_ports =
      if 0 ≤ p.listen_count ∧ p.listen_count < maxOpenPorts then
        Function.update p.listen_ports p.listen_count lport
      else p.listen_ports := by
    unfold Ports.listening
    split_ifs
    all_goals rfl
  rw [hports]
  by_cases hfits : 0 ≤ p.listen_count ∧ p.listen_count < maxOpenPorts
  · by_cases hj : j = p.listen_count
    · rw [if_pos hfits, if_pos ⟨hfits.1, hfits.2, hj⟩, hj, Function.update_self]
    · rw [if_pos hfits, if_neg fun h => hj h.2.2, Function.update_of_ne hj]
  · rw [if_neg hfits, if_neg fun h => hfits ⟨h.1, h.2.1⟩]

/-- What has been written stays, and nothing is written outside the array. -/
theorem listen_ports_keep {j : Int} (hj : j < p.listen_count ∨ j < 0 ∨ maxOpenPorts ≤ j)
    (hroom : j < 0 ∨ maxOpenPorts ≤ j ∨ p.listen_count + ks.countP isListening ≤ maxOpenPorts) :
    (ks.foldl (Ports.socket is_v6) p).listen_ports j = p.listen_ports j := by
  induction ks generalizing p with
  | nil => rfl
  | cons k ks ih =>
      rw [List.foldl_cons]
      cases hk : isListening k with
      | false =>
          obtain ⟨hcount, hports, -⟩ := socket_not_listening (p := p) hk
          rw [List.countP_cons_of_neg (by simp [hk])] at hroom
          rw [ih, hports]
          · rwa [hcount]
          · rwa [hcount]
      | true =>
          rw [List.countP_cons_of_pos hk] at hroom
          have hwrite : (p.listening k.srcp.toNat).listen_ports j = p.listen_ports j := by
            rw [listen_ports_listening, if_neg]
            unfold maxOpenPorts at hj ⊢
            omega
          rw [socket_listening hk, ih, hwrite]
          · rw [listen_count_listening]
            unfold maxOpenPorts maxOverflowFlag at *
            split_ifs
            all_goals omega
          · rw [listen_count_listening]
            unfold maxOpenPorts maxOverflowFlag at *
            push_cast at hroom
            split_ifs
            all_goals omega

/-- While there is room, the ports are those of the listening sockets, in order. -/
theorem listen_ports_foldl (hcount : 0 ≤ p.listen_count)
    (hroom : p.listen_count + ks.countP isListening ≤ maxOpenPorts) {i : Nat}
    (hi : (ks.filter isListening)[i]? = some k) :
    (ks.foldl (Ports.socket is_v6) p).listen_ports (p.listen_count + i) = k.srcp.toNat := by
  induction ks generalizing p i with
  | nil => cases hi
  | cons k' ks ih =>
      rw [List.foldl_cons]
      cases hk : isListening k' with
      | false =>
          obtain ⟨hsame, -, -⟩ := socket_not_listening (p := p) hk
          rw [List.countP_cons_of_neg (by simp [hk])] at hroom
          rw [List.filter_cons_of_neg (by simp [hk])] at hi
          rw [← hsame]
          exact ih (by rwa [hsame]) (by rwa [hsame]) hi
      | true =>
          rw [List.countP_cons_of_pos hk] at hroom
          rw [List.filter_cons_of_pos hk] at hi
          push_cast at hroom
          have hnext : (p.listening k'.srcp.toNat).listen_count = p.listen_count + 1 := by
            rw [listen_count_listening, if_pos ⟨hcount, by omega⟩]
          rw [socket_listening hk]
          cases i with
          | zero =>
              obtain rfl := Option.some.inj hi
              have hkeep : (ks.foldl (Ports.socket is_v6) (p.listening k'.srcp.toNat)).listen_ports
                  p.listen_count = (p.listening k'.srcp.toNat).listen_ports p.listen_count :=
                listen_ports_keep (.inl (by rw [hnext]; omega))
                  (.inr (.inr (by rw [hnext]; omega)))
              rw [Nat.cast_zero, Int.add_zero, hkeep, listen_ports_listening,
                if_pos ⟨hcount, by omega, rfl⟩]
          | succ i =>
              have hrest := ih (p := p.listening k'.srcp.toNat) (by rw [hnext]; omega)
                (by rw [hnext]; omega) hi
              rw [hnext] at hrest
              rw [← hrest]
              congr 1
              push_cast
              ring

end Count

/-! ## The alarms -/

theorem prebaked_nonneg (n : Int) : 0 ≤ prebaked n := by
  unfold prebaked
  split <;> omega

theorem ofSection_nonneg (portsRaw : Option (List Char)) :
    0 ≤ (Ports.ofSection portsRaw).listen_count := by
  cases portsRaw with
  | none => exact Int.le_refl 0
  | some raw =>
      refine Int.add_nonneg (prebaked_nonneg _) ?_
      split
      · exact prebaked_nonneg _
      · exact Int.le_refl 0

section Alarms

variable (portsRaw : Option (List Char)) (tcp tcp6 : Table)

/-- The sockets of both tables. -/
def socketsOf (tcp tcp6 : Table) : List Raph.Socket := tcp.sockets ++ tcp6.sockets

/-- `rz_probe_ports` on two tables. -/
def portsOf (portsRaw : Option (List Char)) (tcp tcp6 : Table) : Ports :=
  probePorts portsRaw (some tcp.text) (some tcp6.text)

theorem portsOf_eq : portsOf portsRaw tcp tcp6 = tcp6.sockets.foldl (Ports.socket true)
    (tcp.sockets.foldl (Ports.socket false) (.ofSection portsRaw)) := by
  rw [portsOf, probePorts, probeTcpFile_table, probeTcpFile_table]

theorem listenCount_add (n : Int) (a b : Nat) :
    listenCount (listenCount n a) b = listenCount n (a + b) := by
  unfold listenCount maxOpenPorts maxOverflowFlag
  push_cast
  split_ifs
  all_goals omega

theorem listen_count_portsOf : (portsOf portsRaw tcp tcp6).listen_count =
    listenCount (Ports.ofSection portsRaw).listen_count ((socketsOf tcp tcp6).countP isListening) := by
  rw [portsOf_eq, listen_count_foldl, listen_count_foldl, listenCount_add, socketsOf,
    List.countP_append]

theorem suspicious_portsOf : (portsOf portsRaw tcp tcp6).suspicious_listeners =
    (socketsOf tcp tcp6).countP isSuspicious := by
  have hzero : (Ports.ofSection portsRaw).suspicious_listeners = 0 := by
    cases portsRaw <;> rfl
  rw [portsOf_eq, suspicious_foldl, suspicious_foldl, hzero, socketsOf, List.countP_append]
  push_cast
  ring

/-- The name a signal is sent under. -/
def Emission.signal : Emission → Option (List Char)
  | .gaveld signal _ => some signal
  | _ => none

end Alarms

/-- The counters `p` are those of the sockets, on top of what the section has made of `base`. -/
structure Counted (base p : Ports) (tcp tcp6 : List Raph.Socket) : Prop where
  established4 : p.established_tcp4 = base.established_tcp4 + tcp.countP isEstablished
  established6 : p.established_tcp6 = base.established_tcp6 + tcp6.countP isEstablished
  mail : ∀ port ∈ mailPorts, p.mail port = true ↔
    ∃ k ∈ tcp ++ tcp6, isEstablished k = true ∧ (k.destp.toNat : Int) = port
  suspicious : p.suspicious_listeners = (tcp ++ tcp6).countP isSuspicious
  listening : base.listen_count + (tcp ++ tcp6).countP isListening ≤ maxOpenPorts →
    ∀ (i : Nat) (k : Raph.Socket), ((tcp ++ tcp6).filter isListening)[i]? = some k →
      p.listen_ports (base.listen_count + i) = k.srcp.toNat
  inside : ∀ j, j < 0 ∨ maxOpenPorts ≤ j → p.listen_ports j = 0
  -- between 65 and the end the alarm is silent, unless the lines alone are that many
  excessive : excessiveConnections p = true ↔
    maxOpenPorts < base.listen_count ∨
      20 < base.listen_count + (tcp ++ tcp6).countP isListening ∧
        base.listen_count + (tcp ++ tcp6).countP isListening ≤ maxOpenPorts

section Exact

variable (portsRaw : Option (List Char)) (tcp tcp6 : Table)

/-- The section sets the counters of lines, and nothing else. -/
theorem ofSection_rest : (Ports.ofSection portsRaw).mail = (fun _ => false) ∧
    (Ports.ofSection portsRaw).listen_ports = fun _ => 0 := by
  cases portsRaw with
  | none => exact ⟨rfl, rfl⟩
  | some raw => exact ⟨rfl, rfl⟩

theorem mail_portsOf {port : Int} (hport : port ∈ mailPorts) :
    (portsOf portsRaw tcp tcp6).mail port = true ↔
      ∃ k ∈ socketsOf tcp tcp6, isEstablished k = true ∧ (k.destp.toNat : Int) = port := by
  rw [portsOf_eq, mail_foldl hport, mail_foldl hport, (ofSection_rest portsRaw).1]
  simp only [Bool.false_eq_true, false_or, socketsOf, List.mem_append, or_and_right, exists_or]

/-- The ports of the second table stand behind those of the first. -/
theorem listen_ports_portsOf
    (hroom : (Ports.ofSection portsRaw).listen_count + (socketsOf tcp tcp6).countP isListening ≤
      maxOpenPorts) {i : Nat} {k : Raph.Socket}
    (hi : ((socketsOf tcp tcp6).filter isListening)[i]? = some k) :
    (portsOf portsRaw tcp tcp6).listen_ports ((Ports.ofSection portsRaw).listen_count + i) =
      k.srcp.toNat := by
  have hbase := ofSection_nonneg portsRaw
  rw [socketsOf, List.countP_append] at hroom
  rw [socketsOf, List.filter_append] at hi
  push_cast at hroom
  have hfirst : (tcp.sockets.foldl (Ports.socket false) (.ofSection portsRaw)).listen_count =
      (Ports.ofSection portsRaw).listen_count + tcp.sockets.countP isListening := by
    rw [listen_count_foldl, listenCount, if_neg (by unfold maxOpenPorts at *; omega),
      if_pos (by omega)]
  rw [portsOf_eq]
  by_cases hside : i < (tcp.sockets.filter isListening).length
  · -- written by the first pass, and kept by the second
    rw [List.getElem?_append_left hside] at hi
    rw [listen_ports_keep]
    · exact listen_ports_foldl hbase (by omega) hi
    · rw [hfirst, List.countP_eq_length_filter]
      omega
    · rw [hfirst]
      omega
  · rw [List.getElem?_append_right (by omega), ← List.countP_eq_length_filter] at hi
    rw [← List.countP_eq_length_filter] at hside
    have hindex : (Ports.ofSection portsRaw).listen_count + i =
        (tcp.sockets.foldl (Ports.socket false) (.ofSection portsRaw)).listen_count +
          (i - tcp.sockets.countP isListening : Nat) := by
      rw [hfirst]
      omega
    rw [hindex, listen_ports_foldl (by rw [hfirst]; omega) (by rw [hfirst]; omega) hi]

theorem listen_ports_outside {j : Int} (hj : j < 0 ∨ maxOpenPorts ≤ j) :
    (portsOf portsRaw tcp tcp6).listen_ports j = 0 := by
  rw [portsOf_eq, listen_ports_keep (.inr hj) (by tauto), listen_ports_keep (.inr hj) (by tauto),
    (ofSection_rest portsRaw).2]

theorem excessive_listenCount {n : Int} (hn : 0 ≤ n) (l : Nat) :
    20 < listenCount n l ↔ maxOpenPorts < n ∨ 20 < n + l ∧ n + l ≤ maxOpenPorts := by
  unfold listenCount maxOpenPorts maxOverflowFlag
  split_ifs
  all_goals omega

theorem counted : Counted (.ofSection portsRaw) (portsOf portsRaw tcp tcp6) tcp.sockets
    tcp6.sockets where
  established4 := by
    rw [portsOf_eq, established_foldl.1, established_foldl.1]
    simp
  established6 := by
    rw [portsOf_eq, established_foldl.2, established_foldl.2]
    simp
  mail := fun _ hport => mail_portsOf portsRaw tcp tcp6 hport
  suspicious := suspicious_portsOf portsRaw tcp tcp6
  listening := fun hroom _ _ hi => listen_ports_portsOf portsRaw tcp tcp6 hroom hi
  inside := fun _ hj => listen_ports_outside portsRaw tcp tcp6 hj
  excessive := by
    rw [excessiveConnections, decide_eq_true_iff, listen_count_portsOf]
    exact excessive_listenCount (ofSection_nonneg portsRaw) _

end Exact

end MiuiserPeruser.Rahzer
