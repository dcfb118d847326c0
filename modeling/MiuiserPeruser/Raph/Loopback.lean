import MiuiserPeruser.Lib.JoinedText
import MiuiserPeruser.Lib.LineTokens
import MiuiserPeruser.Lib.Strstr
import MiuiserPeruser.Raph.Network

/-!
# raph — suspicious ports (`raph_network.c`)

`raph_network_scan` reports the open sockets on the ports of a list. ADB may
listen on a loopback address: its digits are searched for in the text of the
endpoint, wherever they stand. Of the IPv6 addresses that hold the digits of
127.0.0.1 only one is a loopback address (`exemption_exact_iff`).
-/

namespace MiuiserPeruser.Raph

open CText Inet Krang

/-! ## The scan -/

/-- `SUSPECT_PORTS`. -/
def suspectPorts : List (Int × List Char) := [
  (27042, "Frida server default port".toList),
  (27043, "Frida alt port".toList),
  (4444, "Common RAT/backdoor port".toList),
  (1234, "Common debug/backdoor port".toList),
  (9999, "Common backdoor port".toList),
  (5554, "Android emulator port".toList),
  (5555, "ADB TCP (should only be loopback)".toList),
  (7777, "Common trojan port".toList),
  (31337, "Classic backdoor port (eleet)".toList)]

def adbPort : Int := 5555

/-- 127.0.0.1 as the kernel prints it on a little-endian machine, -/
def loopback4 : List Char := "0100007F".toList

/-- and `::1`. -/
def loopback6 : List Char := "00000000000000000000000001000000".toList

/-- `is_loopback`. -/
def isLoopback (addr : List Char) : Bool :=
  (strstr loopback4 addr).isSome || (strstr loopback6 addr).isSome

/-- A `SUSPECT_PORT` detection. The package that a shell is asked for is left out. -/
structure Suspect where
  port : Int
  name : List Char
  uid : Int
  deriving DecidableEq

/-- The loop over `SUSPECT_PORTS`, which a match ends. -/
def suspectOf (localEnd rem : List Char) (lport rport uid : Int) :
    List (Int × List Char) → Option Suspect
  | [] => none
  | (port, name) :: ports =>
      if lport = port ∨ rport = port then
        -- an exempted row ends the loop like a reported one
        if port = adbPort ∧ (isLoopback localEnd ∨ isLoopback rem) then none
        else some ⟨port, name, uid⟩
      else suspectOf localEnd rem lport rport uid ports

/-- What `raph_network_scan` reports of a row. -/
def scanLine (line : List Char) : Option Suspect :=
  let row := rowScan line
  let fields := scanf (rowFormat line.length) line
  if row.state ≠ "01".toList ∧ row.state ≠ "0A".toList then none
  else suspectOf (textAt fields 1) (textAt fields 2) row.lport row.rport row.uid suspectPorts

/-! ## Rows of the kernel -/

/-- The address of a socket of either family; `v4` is a.b.c.d. -/
inductive SocketAddress where
  | v4 (a b c d : UInt8)
  | v6 (addr : In6Addr)

/-- `%08X` of the address on a little-endian machine, for `v6` of its four words. -/
def SocketAddress.text : SocketAddress → List Char
  | .v4 a b c d =>
      hexPadded 8 (a.toNat + 256 * b.toNat + 65536 * c.toNat + 16777216 * d.toNat)
  | .v6 addr => printAddress addr

/-- 127.0.0.1, its IPv4-mapped form, and `::1`. -/
def SocketAddress.Loopback : SocketAddress → Prop
  | .v4 a b c d => a = 127 ∧ b = 0 ∧ c = 0 ∧ d = 1
  | .v6 addr =>
      addr.s6_addr = List.replicate 10 0 ++ [255, 255, 127, 0, 0, 1] ∨
        addr.s6_addr = List.replicate 15 0 ++ [1]

/-- A socket, as far as the scan looks at it. -/
structure Socket where
  src : SocketAddress
  srcp : UInt16
  dest : SocketAddress
  destp : UInt16
  state : UInt8

/-- A row of `/proc/net/tcp` or `/proc/net/tcp6` for the socket. -/
structure IsSocketRow (k : Socket) (r : RowText) : Prop where
  scanned : IsScannedRow r
  local_address : r.local_address = k.src.text
  local_port : r.local_port = hexPadded 4 k.srcp.toNat
  remote_address : r.remote_address = k.dest.text
  remote_port : r.remote_port = hexPadded 4 k.destp.toNat
  state : r.state = hexPadded 2 k.state.toNat

/-! ## What is exempt -/

section Address

variable {a : SocketAddress} {port : List Char}

theorem isLoopback_iff (addr : List Char) :
    isLoopback addr = true ↔ loopback4 <:+: addr ∨ loopback6 <:+: addr := by
  have hfound : ∀ w : List Char, (strstr w addr).isSome = true ↔ w <:+: addr := by
    intro w
    rw [Option.isSome_iff_ne_none, ne_eq, strstr_eq_none_iff, not_not]
  rw [isLoopback, Bool.or_eq_true, hfound, hfound]

/-- The port of an endpoint is too short to hold a word of eight digits. -/
theorem infix_endpoint_iff {w : List Char} (hcolon : ':' ∉ w) (hw : 4 < w.length)
    (hport : port.length = 4) (address : List Char) :
    w <:+: address ++ ':' :: port ↔ w <:+: address := by
  rw [infix_append_cons_iff hcolon]
  constructor
  · rintro (h | h)
    · exact h
    · have hle := h.length_le
      omega
  · exact Or.inl

theorem length_text_v4 (a b c d : UInt8) : (SocketAddress.v4 a b c d).text.length = 8 := by
  have ha := a.toNat_lt
  have hb := b.toNat_lt
  have hc := c.toNat_lt
  have hd := d.toNat_lt
  exact length_hexPadded (by decide) (by omega)

theorem printAddress_injective {x y : In6Addr} (h : printAddress x = printAddress y) :
    x.s6_addr = y.s6_addr := by
  have hx := decodeBytes_printAddress x
  rw [h, decodeBytes_printAddress] at hx
  exact (Option.some.inj hx).symm

/-- 127.0.0.1 mapped, -/
def mappedLoopback : In6Addr := ⟨List.replicate 10 0 ++ [255, 255, 127, 0, 0, 1], rfl⟩

/-- and `::1`. -/
def loopbackAddress : In6Addr := ⟨List.replicate 15 0 ++ [1], rfl⟩

theorem loopback4_in_mapped : loopback4 <:+: printAddress mappedLoopback := by decide +kernel

theorem printAddress_loopback : printAddress loopbackAddress = loopback6 := by decide +kernel

/-- **What `is_loopback` finds** is a loopback address, or the digits of
127.0.0.1 anywhere in another. -/
theorem isLoopback_endpoint_iff (hport : port.length = 4) (a : SocketAddress) :
    isLoopback (a.text ++ ':' :: port) = true ↔ a.Loopback ∨ loopback4 <:+: a.text := by
  rw [isLoopback_iff, infix_endpoint_iff (by decide) (by decide) hport,
    infix_endpoint_iff (by decide) (by decide) hport]
  cases a with
  | v4 a b c d =>
      constructor
      · rintro (h | h)
        · exact .inr h
        · -- eight digits have no room for `::1`
          have hle := h.length_le
          rw [length_text_v4] at hle
          exact absurd hle (by decide)
      · rintro (⟨rfl, rfl, rfl, rfl⟩ | h)
        · exact .inl (by decide +kernel)
        · exact .inl h
  | v6 addr =>
      constructor
      · rintro (h | h)
        · exact .inr h
        · have htext : loopback6 = printAddress addr :=
            h.eq_of_length (by rw [SocketAddress.text, length_printAddress]; rfl)
          rw [← printAddress_loopback] at htext
          exact .inl (.inr (printAddress_injective htext).symm)
      · rintro ((hbytes | hbytes) | h)
        · obtain rfl : addr = mappedLoopback := by
            cases addr
            cases hbytes
            rfl
          exact .inl loopback4_in_mapped
        · obtain rfl : addr = loopbackAddress := by
            cases addr
            cases hbytes
            rfl
          rw [SocketAddress.text, printAddress_loopback]
          exact .inr (List.infix_refl _)
        · exact .inl h

end Address

section Row

variable {k : Socket} {r : RowText} {columns : List Char}

theorem suspectOf_skip {localEnd rem : List Char} {lport rport uid : Int}
    {front : List (Int × List Char)} (h : ∀ p ∈ front, lport ≠ p.1 ∧ rport ≠ p.1)
    (ports : List (Int × List Char)) :
    suspectOf localEnd rem lport rport uid (front ++ ports) =
      suspectOf localEnd rem lport rport uid ports := by
  induction front with
  | nil => rfl
  | cons p front ih =>
      obtain ⟨hp, hfront⟩ := List.forall_mem_cons.mp h
      rw [List.cons_append, suspectOf, if_neg (not_or.mpr hp), ih hfront]

/-- What is read of a row. -/
theorem scanLine_row (h : IsSocketRow k r) (hstate : k.state = 0x01 ∨ k.state = 0x0A)
    (hcolumns : IsColumns columns) :
    scanLine (r.text ++ columns) =
      suspectOf (k.src.text ++ ':' :: r.local_port) (k.dest.text ++ ':' :: r.remote_port)
        k.srcp.toNat k.destp.toNat (asInt r.inode) suspectPorts := by
  have hport : ∀ p : UInt16, (hexPadded 4 p.toNat).length = 4 := fun p =>
    length_hexPadded (by decide) p.toNat_lt
  have hopen : ¬ (r.state ≠ "01".toList ∧ r.state ≠ "0A".toList) := by
    rw [h.state]
    rcases hstate with hk | hk
    · rw [hk]
      decide
    · rw [hk]
      decide
  unfold scanLine rowScan
  rw [scanf_rowFormat h.scanned hcolumns]
  refine (if_neg hopen).trans ?_
  show suspectOf (r.local_address ++ ':' :: r.local_port) (r.remote_address ++ ':' :: r.remote_port)
    (endpointPort (r.local_address ++ ':' :: r.local_port))
    (endpointPort (r.remote_address ++ ':' :: r.remote_port)) (asInt r.inode) suspectPorts = _
  rw [h.local_port, h.remote_port, endpointPort_eq (hport _) isxdigit_hexPadded,
    endpointPort_eq (hport _) isxdigit_hexPadded, digitsValue_hexPadded, digitsValue_hexPadded,
    h.local_address, h.remote_address]

/-- The ports in front of ADB's. -/
def portsBeforeAdb : List (Int × List Char) := suspectPorts.takeWhile (·.1 ≠ adbPort)

/-- A row of ADB is left out exactly if `is_loopback` finds something. -/
theorem scanLine_adb_iff (h : IsSocketRow k r) (hstate : k.state = 0x01 ∨ k.state = 0x0A)
    (hadb : k.srcp = 5555 ∨ k.destp = 5555)
    (hfirst : ∀ p ∈ portsBeforeAdb, (k.srcp.toNat : Int) ≠ p.1 ∧ (k.destp.toNat : Int) ≠ p.1)
    (hcolumns : IsColumns columns) :
    scanLine (r.text ++ columns) = none ↔
      (k.src.Loopback ∨ loopback4 <:+: k.src.text) ∨
        (k.dest.Loopback ∨ loopback4 <:+: k.dest.text) := by
  have hlocal : r.local_port.length = 4 := by
    rw [h.local_port]
    exact length_hexPadded (by decide) k.srcp.toNat_lt
  have hremote : r.remote_port.length = 4 := by
    rw [h.remote_port]
    exact length_hexPadded (by decide) k.destp.toNat_lt
  have hports : suspectPorts = portsBeforeAdb ++ suspectPorts.drop 6 := by decide
  have hmatch : (k.srcp.toNat : Int) = 5555 ∨ (k.destp.toNat : Int) = 5555 := by
    rcases hadb with hp | hp
    · exact .inl (by rw [hp]; rfl)
    · exact .inr (by rw [hp]; rfl)
  rw [scanLine_row h hstate hcolumns, hports, suspectOf_skip hfirst,
    ← isLoopback_endpoint_iff hlocal, ← isLoopback_endpoint_iff hremote]
  show (if _ then (if _ then none else some _) else _) = none ↔ _
  rw [if_pos hmatch]
  split
  · next hexempt => exact ⟨fun _ => hexempt.2, fun _ => rfl⟩
  · next hno =>
      constructor
      · intro hsome
        cases hsome
      · intro hloop
        exact absurd ⟨rfl, hloop⟩ hno

/-- **The exemption is exact unless another address holds the digits of
127.0.0.1.** -/
theorem exemption_exact_iff (h : IsSocketRow k r) (hstate : k.state = 0x01 ∨ k.state = 0x0A)
    (hadb : k.srcp = 5555 ∨ k.destp = 5555)
    (hfirst : ∀ p ∈ portsBeforeAdb, (k.srcp.toNat : Int) ≠ p.1 ∧ (k.destp.toNat : Int) ≠ p.1)
    (hcolumns : IsColumns columns) :
    (scanLine (r.text ++ columns) = none ↔ k.src.Loopback ∨ k.dest.Loopback) ↔
      k.src.Loopback ∨ k.dest.Loopback ∨
        ¬ (loopback4 <:+: k.src.text ∨ loopback4 <:+: k.dest.text) := by
  rw [scanLine_adb_iff h hstate hadb hfirst hcolumns]
  tauto

end Row

/-- A row of `/proc/net/tcp6`, as the kernel prints it. -/
theorem isSocketRow_rowText (r : TcpRow) :
    IsSocketRow ⟨.v6 r.src, r.srcp, .v6 r.dest, r.destp, r.state⟩ r.rowText where
  scanned := (isKernelRow_rowText r).scanned
  local_address := rfl
  local_port := rfl
  remote_address := rfl
  remote_port := rfl
  state := rfl

/-- ADB on 2001:db8:7f00:1::5, connected to 2001:db8::9. -/
def adbRow : TcpRow :=
  { fixtureRow with
    src := ⟨[0x20, 0x01, 0x0D, 0xB8, 0x7F, 0, 0, 1, 0, 0, 0, 0, 0, 0, 0, 5], rfl⟩
    srcp := 5555
    dest := ⟨[0x20, 0x01, 0x0D, 0xB8, 0, 0, 0, 0, 0, 0, 0, 0, 0, 0, 0, 9], rfl⟩
    destp := 40000
    state := 0x01 }

theorem exemption_exact_iff_adbRow :
    (scanLine (adbRow.rowText.text ++ adbRow.columns) = none ↔
      (SocketAddress.v6 adbRow.src).Loopback ∨ (SocketAddress.v6 adbRow.dest).Loopback) ↔
      (SocketAddress.v6 adbRow.src).Loopback ∨ (SocketAddress.v6 adbRow.dest).Loopback ∨
        ¬ (loopback4 <:+: (SocketAddress.v6 adbRow.src).text ∨
          loopback4 <:+: (SocketAddress.v6 adbRow.dest).text) :=
  exemption_exact_iff (isSocketRow_rowText adbRow) (Or.inl rfl) (Or.inl rfl)
    (by decide +kernel) adbRow.columns_apart

/-- It is not reported, though neither address is a loopback address. -/
theorem adbRow_exempt :
    ¬ (scanLine adbRow.line = none ↔
      (SocketAddress.v6 adbRow.src).Loopback ∨ (SocketAddress.v6 adbRow.dest).Loopback) := by
  have hnone : scanLine adbRow.line = none := by decide +kernel
  intro h
  rcases h.mp hnone with (hsrc | hsrc) | (hdest | hdest)
  · exact absurd hsrc (by decide)
  · exact absurd hsrc (by decide)
  · exact absurd hdest (by decide)
  · exact absurd hdest (by decide)

end MiuiserPeruser.Raph
