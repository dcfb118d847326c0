import MiuiserPeruser.Lib.CNumber

/-!
# inet_ntop

The text of an internet address: four decimal numbers for IPv4, and for
IPv6 the groups of sixteen bits in hexadecimal, with the longest run of
zero groups written as `::`. What its users rely on: with a buffer of
`INET6_ADDRSTRLEN` bytes the conversion does not fail
(`inetNtop4_fits`, `inetNtop6_fits`).
-/

namespace Inet

open CText

/-- `INET6_ADDRSTRLEN`. -/
def addrStrLen : Nat := 46

/-- The sixteen bytes of an address, in network order. -/
structure In6Addr where
  s6_addr : List UInt8
  length_eq : s6_addr.length = 16
  deriving DecidableEq

/-- `IN6_IS_ADDR_V4MAPPED`. -/
def isV4Mapped (bytes : List UInt8) : Bool := bytes.take 12 = (List.replicate 10 0 ++ [255, 255] : List UInt8)

/-- `inet_ntop4`: the text of four bytes. -/
def inetNtop4 (bytes : List UInt8) : List Char :=
  List.intercalate ['.'] (bytes.map fun b => decimal b.toNat)

/-- The groups of an address. -/
def groups : List UInt8 → List Nat
  | high :: low :: rest => (high.toNat * 256 + low.toNat) :: groups rest
  | _ => []

/-- A run of zero groups. -/
structure ZeroRun where
  base : Nat
  len : Nat
  deriving DecidableEq, Repr

/-- The longer run; the earlier one of two equals. -/
def betterRun : Option ZeroRun → Option ZeroRun → Option ZeroRun
  | none, best => best
  | some cur, none => some cur
  | some cur, some best => if cur.len > best.len then some cur else some best

/-- The scan for the longest run: the run that is open, and the best one. -/
def scanRuns : Nat → Option ZeroRun → Option ZeroRun → List Nat → Option ZeroRun
  | _, cur, best, [] => betterRun cur best
  | i, cur, best, w :: ws =>
      if w = 0 then
        let cur := match cur with
          | none => ⟨i, 1⟩
          | some cur => ⟨cur.base, cur.len + 1⟩
        scanRuns (i + 1) (some cur) best ws
      else scanRuns (i + 1) none (betterRun cur best) ws

/-- The run that is left out; a single zero group is not. -/
def bestRun (ws : List Nat) : Option ZeroRun :=
  (scanRuns 0 none none ws).filter fun run => 2 ≤ run.len

/-- The address ends in an IPv4 address. -/
def endsInV4 (ws : List Nat) (run : Option ZeroRun) : Bool :=
  match run with
  | none => false
  | some run => run.base = 0 && (run.len = 6 || run.len = 5 && ws[5]? = some 0xffff)

/-- The groups from the `i`-th on; `v4` is the text of the last four bytes
if they are written as an IPv4 address. -/
def ntop6From (run : Option ZeroRun) (v4 : Option (List Char)) : Nat → List Nat → List Char
  | _, [] => []
  | i, w :: ws =>
      let inside := run.any fun run => run.base ≤ i && i < run.base + run.len
      if inside then
        (if run.any fun run => i = run.base then [':'] else []) ++ ntop6From run v4 (i + 1) ws
      else
        (if i ≠ 0 then [':'] else []) ++
          match (if i = 6 then v4 else none) with
          | some text => text
          | none => Nat.toDigits 16 w ++ ntop6From run v4 (i + 1) ws

/-- `inet_ntop6`. -/
def inetNtop6 (bytes : List UInt8) : List Char :=
  let ws := groups bytes
  let run := bestRun ws
  let v4 := if endsInV4 ws run then some (inetNtop4 (bytes.drop 12)) else none
  ntop6From run v4 0 ws ++ if run.any fun run => run.base + run.len = 8 then [':'] else []

/-- The end of `inet_ntop`: a text that does not fit the buffer is an error. -/
def storeText (size : Nat) (text : List Char) : Option (List Char) :=
  if text.length + 1 > size then none else some text

example : inetNtop6 [0x20, 1, 0x0d, 0xb8, 0, 0, 0, 0, 0, 0, 0, 0, 0, 0, 0, 1] =
    "2001:db8::1".toList := by decide +kernel

/-! ## The buffer is large enough -/

theorem length_decimal_byte (b : UInt8) : (decimal b.toNat).length ≤ 3 :=
  (Nat.length_toDigits_le_iff (by decide) (by decide)).mpr (by have := b.toNat_lt; omega)

theorem length_inetNtop4 {bytes : List UInt8} (h : bytes.length = 4) :
    (inetNtop4 bytes).length ≤ 15 := by
  match bytes, h with
  | [a, b, c, d], _ =>
      have ha := length_decimal_byte a
      have hb := length_decimal_byte b
      have hc := length_decimal_byte c
      have hd := length_decimal_byte d
      simp only [inetNtop4, List.map_cons, List.map_nil, List.intercalate, List.intersperse,
        List.flatten_cons, List.flatten_nil, List.length_append, List.length_cons,
        List.length_nil]
      omega

theorem groups_lt {bytes : List UInt8} : ∀ w ∈ groups bytes, w < 65536 := by
  fun_induction groups bytes with
  | case1 high low rest ih =>
      intro w hw
      rcases List.mem_cons.mp hw with rfl | hw
      · have := high.toNat_lt
        have := low.toNat_lt
        omega
      · exact ih w hw
  | case2 bytes h => exact fun w hw => nomatch hw

theorem length_hex {w : Nat} (h : w < 65536) : (Nat.toDigits 16 w).length ≤ 4 :=
  (Nat.length_toDigits_le_iff (by decide) (by decide)).mpr h

theorem length_groups {bytes : List UInt8} (h : bytes.length = 16) : (groups bytes).length = 8 := by
  match bytes, h with
  | [_, _, _, _, _, _, _, _, _, _, _, _, _, _, _, _], _ => rfl

section Length

variable {run : Option ZeroRun} {v4 : Option (List Char)}

theorem length_ntop6From (run : Option ZeroRun) {v4 : Option (List Char)}
    (hv4 : ∀ text, v4 = some text → text.length ≤ 15) {ws : List Nat}
    (hws : ∀ w ∈ ws, w < 65536) (i : Nat) :
    (ntop6From run v4 i ws).length ≤ 5 * ws.length + (if v4 = none then 0 else 11) := by
  induction ws generalizing i with
  | nil => exact Nat.zero_le _
  | cons w ws ih =>
      have ih := ih (fun w hw => hws w (List.mem_cons_of_mem _ hw)) (i + 1)
      have hw := length_hex (hws w List.mem_cons_self)
      have hcolon : ∀ (p : Prop) [Decidable p], (if p then [':'] else []).length ≤ 1 := by
        intro p _
        split <;> simp
      simp only [ntop6From, List.length_cons]
      split
      · rw [List.length_append]
        have := hcolon (run.any (fun run => i = run.base) = true)
        omega
      · rw [List.length_append]
        have hone := hcolon (i ≠ 0)
        generalize hprefixed : (if i ≠ 0 then [':'] else []) = colon at hone ⊢
        split
        · -- the IPv4 text ends the address
          rename_i text htext
          have hsome : v4 = some text := by
            split at htext
            · exact htext
            · cases htext
          have := hv4 text hsome
          simp only [hsome, reduceCtorEq, if_false]
          omega
        · rw [List.length_append]
          omega

/-- Inside the run nothing is written, but for the colon at its start. -/
theorem ntop6From_inside {len i : Nat} (hi : i < len) (w : Nat) (ws : List Nat) :
    ntop6From (some ⟨0, len⟩) v4 i (w :: ws) =
      (if i = 0 then [':'] else []) ++ ntop6From (some ⟨0, len⟩) v4 (i + 1) ws := by
  have hinside : (decide (0 ≤ i) && decide (i < 0 + len)) = true := by
    simp only [Nat.zero_le, decide_true, Bool.true_and, decide_eq_true_eq]
    omega
  simp only [ntop6From, Option.any_some, hinside, if_true, decide_eq_true_eq]

/-- Behind a run at the start the first groups take one character. -/
theorem ntop6From_run {len : Nat} {ws : List Nat} (hlen : 5 ≤ len) (hws : ws.length = 8) :
    ntop6From (some ⟨0, len⟩) v4 0 ws =
      ':' :: ntop6From (some ⟨0, len⟩) v4 5 (ws.drop 5) := by
  match ws, hws with
  | [a, b, c, d, e, f, g, h], _ =>
      rw [ntop6From_inside (by omega), ntop6From_inside (by omega), ntop6From_inside (by omega),
        ntop6From_inside (by omega), ntop6From_inside (by omega)]
      rfl

end Length

theorem length_inetNtop6 {bytes : List UInt8} (h : bytes.length = 16) :
    (inetNtop6 bytes).length < addrStrLen := by
  have hv4 : ∀ text, some (inetNtop4 (bytes.drop 12)) = some text → text.length ≤ 15 := by
    intro text htext
    rw [← Option.some.inj htext]
    exact length_inetNtop4 (by rw [List.length_drop, h])
  have hend : ∀ (p : Prop) [Decidable p], (if p then [':'] else []).length ≤ 1 := by
    intro p _
    split <;> simp
  have hlen := length_groups h
  simp only [inetNtop6, List.length_append, addrStrLen]
  have hend := hend ((bestRun (groups bytes)).any (fun run => run.base + run.len = 8) = true)
  split
  · rename_i hends
    obtain ⟨len, hrun, hfive⟩ : ∃ len, bestRun (groups bytes) = some ⟨0, len⟩ ∧ 5 ≤ len := by
      unfold endsInV4 at hends
      split at hends
      · cases hends
      · rename_i run hrun
        simp only [Bool.and_eq_true, Bool.or_eq_true, decide_eq_true_eq] at hends
        obtain ⟨base, len⟩ := run
        obtain ⟨rfl, hlen⟩ := hends
        simp only at hlen
        exact ⟨len, hrun, by omega⟩
    rw [hrun] at hend ⊢
    rw [ntop6From_run hfive hlen, List.length_cons]
    have hgroups : ∀ w ∈ (groups bytes).drop 5, w < 65536 := fun w hw =>
      groups_lt w (List.mem_of_mem_drop hw)
    have hrest := length_ntop6From (some ⟨0, len⟩) hv4 hgroups 5
    rw [List.length_drop, hlen, if_neg (by simp)] at hrest
    omega
  · have hnone : ∀ text, (none : Option (List Char)) = some text → text.length ≤ 15 :=
      fun _ h => nomatch h
    have hgroups : ∀ w ∈ groups bytes, w < 65536 := groups_lt
    have hall := length_ntop6From (bestRun (groups bytes)) hnone hgroups 0
    rw [hlen, if_pos rfl] at hall
    omega

/-- **A buffer of `INET6_ADDRSTRLEN` bytes holds the text of every address.** -/
theorem inetNtop6_fits (addr : In6Addr) :
    storeText addrStrLen (inetNtop6 addr.s6_addr) = some (inetNtop6 addr.s6_addr) := by
  have := length_inetNtop6 addr.length_eq
  exact if_neg (by omega)

theorem inetNtop4_fits {bytes : List UInt8} (h : bytes.length = 4) :
    storeText addrStrLen (inetNtop4 bytes) = some (inetNtop4 bytes) := by
  have := length_inetNtop4 h
  exact if_neg (by unfold addrStrLen; omega)

end Inet
