import MiuiserPeruser.Bexec.Wrap
import MiuiserPeruser.Lib.CInt
import MiuiserPeruser.Lib.LineTokens

/-!
# portscan, and the port of adb (`portscan.c`, `local_exec.c`, `backend_exec.c`)

adb listens on a port that changes. `portscan` tries every port of a range, 512
sockets at a time, and prints the lowest it takes for open; `local_exec` runs it and
captures what it prints, in a buffer that grows; and `resolve_adb_port` reads the
number back and puts it into the commands of the two transports.

`scan_chunk` drops what `connect` returns, and a socket whose `connect` has failed at
once can be writable and without an error all the same. Such a port counts as open:
the answer is the lowest port that connected if and only if none of them is in its
way (`adb_port_exact`).
-/

namespace MiuiserPeruser.Bexec

open CText Shell

/-! ## portscan -/

/-- `CHUNK`. -/
def chunk : Nat := 512

/-- What `connect` returns; `failed` is any error but `EINPROGRESS`. -/
inductive Connect where
  | done
  | inProgress
  | failed (errno : Int)

/-- What becomes of the socket for a port: whether there is one, what `connect` returns,
whether it is writable or has failed when `poll` is back, and what `SO_ERROR` says. -/
structure Attempt where
  opened : Bool
  connect : Connect
  ready : Bool
  soError : Option Int

/-- The test of `scan_chunk`. -/
def Attempt.counted (a : Attempt) : Bool := a.opened && a.ready && a.soError = some 0

def Connect.ok : Connect → Bool
  | .done | .inProgress => true
  | .failed _ => false

/-- The socket is connected: `connect` went through or was under way, and the socket is
writable without an error. -/
def Attempt.connected (a : Attempt) : Bool := a.connect.ok && a.counted

/-- The port counts as open, and `connect` failed. -/
def Attempt.mistaken (a : Attempt) : Bool := !a.connect.ok && a.counted

/-- `scan_chunk`, on the ports found so far. -/
def scanChunk (attempt : Nat → Attempt) (start count : Nat) (openPorts : List Nat) : List Nat :=
  (List.range count).foldl
    (fun ports i => if (attempt (start + i)).counted then ports ++ [start + i] else ports) openPorts

/-- `count`, of the chunk at `base`. -/
def chunkCount (base last : Nat) : Nat := if base + chunk - 1 ≤ last then chunk else last - base + 1

/-- The loop over the chunks. -/
def scanFrom (attempt : Nat → Attempt) (base last : Nat) (openPorts : List Nat) : List Nat :=
  if base ≤ last then
    scanFrom attempt (base + chunk) last (scanChunk attempt base (chunkCount base last) openPorts)
  else openPorts
termination_by last + 1 - base
decreasing_by
  unfold chunk
  omega

/-- The host, and whether all ports are shown. -/
def options (args : List (List Char)) : List Char × Bool :=
  args.foldl (fun o arg => if arg = "-a".toList then (o.1, true) else (arg, o.2)) ("127.0.0.1".toList, false)

/-- The exit status, and what is printed, for the ports found. -/
def report (showAll : Bool) : List Nat → Int × List Char
  | [] => (1, [])
  | port :: ports =>
      if showAll then (0, (port :: ports).flatMap fun p => decimal p ++ ['\n'])
      else (0, decimal port ++ ['\n'])

/-- `main`, on the arguments behind the name. -/
def portscan (attempt : List Char → Nat → Attempt) (args : List (List Char)) : Int × List Char :=
  match args with
  | first :: last :: rest =>
      let start := atoi first
      let stop := atoi last
      if start < 1 ∨ stop < start ∨ 65535 < stop then (2, [])
      else
        report (options rest).2 (scanFrom (attempt (options rest).1) start.toNat stop.toNat [])
  | _ => (2, [])

/-! ## local_exec -/

/-- `buf`, with its NUL. -/
structure Buffer where
  cap : Nat
  text : List Char
  fits : text.length + 1 ≤ cap

/-- The capacity for another piece. -/
def grownCap (cap len n : Nat) : Nat := if cap < len + n + 1 then cap * 2 + n + 1 else cap

theorem fits_grown {cap len n : Nat} : len + n + 1 ≤ grownCap cap len n ∨ cap < len := by
  unfold grownCap
  split
  all_goals omega

/-- `memcpy` behind what is there, in the buffer that has grown. -/
def Buffer.append (b : Buffer) (piece : List Char) : Buffer where
  cap := grownCap b.cap b.text.length piece.length
  text := b.text ++ piece
  fits := by
    have := b.fits
    rw [List.length_append]
    rcases @fits_grown b.cap b.text.length piece.length with h | h
    all_goals omega

/-- The loop of `local_exec`; nothing if `realloc` fails. -/
def readPieces (enough : Nat → Bool) (b : Buffer) : List (List Char) → Option Buffer
  | [] => some b
  | piece :: pieces =>
      if (b.append piece).cap ≠ b.cap ∧ !enough (b.append piece).cap then none
      else readPieces enough (b.append piece) pieces

/-- The buffer `malloc` returns. -/
def Buffer.empty : Buffer := ⟨256, [], by decide⟩

/-- What is cut off at the end. -/
def isTrimmed (c : Char) : Bool := c = '\n' || c = '\r' || c = ' '

/-- `local_exec`, on the status of the command and what it prints. -/
def localExec (enough : Nat → Bool) (run : Option (Int × List Char)) : Option (List Char) :=
  match run with
  | none => none
  | some (status, output) =>
      match readPieces enough .empty ((fgetsLines 256 output).map cstr) with
      | none => none
      | some b =>
          if status ≠ 0 ∧ b.text = [] then none
          else some (b.text.rdropWhile isTrimmed)

/-! ## resolve_adb_port -/

def adbPortDefault : Nat := 5555
def adbPortScanLo : Nat := 30000
def adbPortScanHi : Nat := 45000

def portscanPath : String := "/data/data/com.termux/files/home/MiuiserPeruser/bin/portscan"

/-- What `resolve_adb_port` meets: whether portscan is there, whether `popen` and the
`realloc`s work, and the sockets. -/
structure Surroundings where
  executable : Bool
  popens : Bool
  enough : Nat → Bool
  attempt : List Char → Nat → Attempt

/-- `cmd`. -/
def portscanCmd : List Char :=
  snprintf 256 (portscanPath.toList ++ ' ' :: decimal adbPortScanLo ++ ' ' :: decimal adbPortScanHi ++
    " 127.0.0.1".toList)

/-- `popen` and `pclose`, of a line that runs portscan. -/
def popen (env : Surroundings) (line : List Char) : Option (Int × List Char) :=
  if env.popens then (readCommand line).map fun cmd => portscan env.attempt cmd.words.tail else none

/-- The port of `resolve_adb_port`. -/
def resolveAdbPort (env : Surroundings) : Nat :=
  if env.executable then
    match localExec env.enough (popen env portscanCmd) with
    | none => adbPortDefault
    | some out =>
        if out ≠ [] ∧ 0 < atoi out ∧ atoi out ≤ 65535 then (atoi out).toNat else adbPortDefault
  else adbPortDefault

/-! ## What is found, and what is open -/

/-- The ports of a range with a property, from the lowest on. -/
def portsWith (holds : Attempt → Bool) (attempt : Nat → Attempt) (first last : Nat) : List Nat :=
  (List.range' first (last + 1 - first)).filter fun p => holds (attempt p)

/-- The ports that count as open. -/
abbrev foundPorts : (Nat → Attempt) → Nat → Nat → List Nat := portsWith Attempt.counted

/-- The ports that connected. -/
abbrev openPorts : (Nat → Attempt) → Nat → Nat → List Nat := portsWith Attempt.connected

section Scan

variable {holds : Attempt → Bool} {attempt : Nat → Attempt} {lo hi p : Nat}

theorem portsWith_split {first middle last : Nat} (hle : first ≤ middle) (hlast : middle ≤ last + 1) :
    portsWith holds attempt first last =
      ((List.range' first (middle - first)).filter fun p => holds (attempt p)) ++
        portsWith holds attempt middle last := by
  have hcount : last + 1 - first = middle - first + (last + 1 - middle) := by omega
  have hmiddle : first + 1 * (middle - first) = middle := by omega
  rw [portsWith, portsWith, ← List.filter_append, hcount, ← List.range'_append, hmiddle]

theorem mem_portsWith :
    p ∈ portsWith holds attempt lo hi ↔ (lo ≤ p ∧ p ≤ hi) ∧ holds (attempt p) = true := by
  rw [portsWith, List.mem_filter, List.mem_range'_1]
  have hrange : lo ≤ p ∧ p < lo + (hi + 1 - lo) ↔ lo ≤ p ∧ p ≤ hi := by omega
  rw [hrange]

theorem head?_portsWith :
    (portsWith holds attempt lo hi).head? = some p ↔
      holds (attempt p) = true ∧ (lo ≤ p ∧ p ≤ hi) ∧
        ∀ q, lo ≤ q → q < p → holds (attempt q) = false := by
  have hrange : lo ≤ p ∧ p < lo + (hi + 1 - lo) ↔ lo ≤ p ∧ p ≤ hi := by omega
  simp only [portsWith, List.head?_filter, List.find?_range'_eq_some, List.mem_range'_1, hrange,
    Bool.not_eq_true']

theorem scanChunk_eq (attempt : Nat → Attempt) (start count : Nat) (ports : List Nat) :
    scanChunk attempt start count ports =
      ports ++ (List.range' start count).filter fun p => (attempt p).counted := by
  unfold scanChunk
  induction count with
  | zero => exact (List.append_nil ports).symm
  | succ count ih =>
      rw [List.range_succ, List.foldl_concat, ih, List.range'_concat, List.filter_append, Nat.one_mul,
        List.filter_singleton]
      cases (attempt (start + count)).counted with
      | true => exact List.append_assoc _ _ _
      | false => exact congrArg (ports ++ ·) (List.append_nil _).symm

/-- **Chunk by chunk, every port of the range is tried.** -/
theorem scanFrom_eq (attempt : Nat → Attempt) (base last : Nat) (ports : List Nat) :
    scanFrom attempt base last ports = ports ++ foundPorts attempt base last := by
  induction base, ports using scanFrom.induct attempt last with
  | case1 base ports hle ih =>
      rw [scanFrom, if_pos hle, ih, scanChunk_eq, List.append_assoc]
      by_cases hfull : base + chunk - 1 ≤ last
      · have hcount : base + chunk - base = chunkCount base last := by
          rw [chunkCount, if_pos hfull]
          omega
        rw [foundPorts, portsWith_split (Nat.le_add_right base chunk) (by omega), hcount]
      · -- the last chunk ends with the range
        have hcount : last + 1 - base = chunkCount base last := by
          rw [chunkCount, if_neg hfull]
          omega
        have hnone : foundPorts attempt (base + chunk) last = [] := by
          have hzero : last + 1 - (base + chunk) = 0 := by omega
          rw [foundPorts, portsWith, hzero]
          rfl
        rw [hnone, List.append_nil, foundPorts, portsWith, hcount]
  | case2 base ports hgt =>
      have hzero : last + 1 - base = 0 := by omega
      rw [scanFrom, if_neg hgt, foundPorts, portsWith, hzero]
      exact (List.append_nil ports).symm

/-- What portscan answers for a range. -/
theorem portscan_range {attempt : List Char → Nat → Attempt} {first last : List Char} {lo hi : Nat}
    (hfirst : atoi first = lo) (hlast : atoi last = hi) (hlo : 1 ≤ lo) (hle : lo ≤ hi) (hhi : hi ≤ 65535)
    (rest : List (List Char)) :
    portscan attempt (first :: last :: rest) =
      report (options rest).2 (foundPorts (attempt (options rest).1) lo hi) := by
  have hvalid : ¬ (atoi first < 1 ∨ atoi last < atoi first ∨ 65535 < atoi last) := by
    rw [hfirst, hlast]
    omega
  have hfound : scanFrom (attempt (options rest).1) (atoi first).toNat (atoi last).toNat [] =
      foundPorts (attempt (options rest).1) lo hi := by
    rw [hfirst, hlast, Int.toNat_natCast, Int.toNat_natCast, scanFrom_eq, List.nil_append]
  simp only [portscan, if_neg hvalid, hfound]

/-- No port that is mistaken for an open one is in the way of the answer: there is none, or
a lower port has connected. -/
def Unmistaken (showAll : Bool) (attempt : Nat → Attempt) (lo hi : Nat) : Prop :=
  ∀ p, lo ≤ p → p ≤ hi → (attempt p).mistaken = true →
    showAll = false ∧ ∃ q, lo ≤ q ∧ q < p ∧ (attempt q).connected = true

theorem Attempt.connected_or_mistaken {a : Attempt} (h : a.counted = true) :
    a.connected = true ∨ a.mistaken = true := by
  unfold Attempt.connected Attempt.mistaken
  rw [h]
  cases a.connect.ok with
  | true => exact .inl rfl
  | false => exact .inr rfl

theorem Attempt.counted_of_connected {a : Attempt} (h : a.connected = true) : a.counted = true :=
  (Bool.and_eq_true_iff.mp h).2

theorem Attempt.counted_of_mistaken {a : Attempt} (h : a.mistaken = true) : a.counted = true :=
  (Bool.and_eq_true_iff.mp h).2

theorem Attempt.not_connected_of_mistaken {a : Attempt} (h : a.mistaken = true) : a.connected = false := by
  have hfailed := (Bool.and_eq_true_iff.mp h).1
  rw [Bool.not_eq_true'] at hfailed
  rw [Attempt.connected, hfailed, Bool.false_and]

/-- Both lists are the same if no port is mistaken. -/
theorem foundPorts_eq_iff :
    foundPorts attempt lo hi = openPorts attempt lo hi ↔ Unmistaken true attempt lo hi := by
  constructor
  · intro heq p hlo hhi hp
    have hmem : p ∈ openPorts attempt lo hi := by
      rw [← heq]
      exact mem_portsWith.mpr ⟨⟨hlo, hhi⟩, Attempt.counted_of_mistaken hp⟩
    have hconnected := (mem_portsWith.mp hmem).2
    rw [Attempt.not_connected_of_mistaken hp] at hconnected
    cases hconnected
  · intro h
    refine List.filter_congr fun p hp => ?_
    rw [List.mem_range'_1] at hp
    cases hcounted : (attempt p).counted with
    | false => rw [Attempt.connected, hcounted, Bool.and_false]
    | true =>
        rcases Attempt.connected_or_mistaken hcounted with hconnected | hmistaken
        · exact hconnected.symm
        · exact absurd (h p hp.1 (by omega) hmistaken).1 (by simp)

/-- The lowest port found is the lowest that connected, if one has connected below every
mistaken port. -/
theorem head?_foundPorts_eq_iff :
    (foundPorts attempt lo hi).head? = (openPorts attempt lo hi).head? ↔
      Unmistaken false attempt lo hi := by
  constructor
  · intro heq p hlo hhi hp
    refine ⟨rfl, ?_⟩
    have hmem : p ∈ foundPorts attempt lo hi :=
      mem_portsWith.mpr ⟨⟨hlo, hhi⟩, Attempt.counted_of_mistaken hp⟩
    obtain ⟨m, hm⟩ : ∃ m, (foundPorts attempt lo hi).head? = some m := by
      cases hfound : foundPorts attempt lo hi with
      | nil =>
          rw [hfound] at hmem
          cases hmem
      | cons m rest => exact ⟨m, rfl⟩
    obtain ⟨-, -, hleast⟩ := head?_portsWith.mp hm
    obtain ⟨hconnected, hrange, -⟩ := head?_portsWith.mp (heq ▸ hm)
    refine ⟨m, hrange.1, ?_, hconnected⟩
    by_contra hle
    rcases Nat.lt_or_eq_of_le (Nat.le_of_not_lt hle) with hlt | rfl
    · have hnot := hleast p hlo hlt
      rw [Attempt.counted_of_mistaken hp] at hnot
      cases hnot
    · rw [Attempt.not_connected_of_mistaken hp] at hconnected
      cases hconnected
  · intro h
    apply Option.ext
    intro m
    rw [head?_portsWith, head?_portsWith]
    constructor
    · rintro ⟨hcounted, hrange, hleast⟩
      have hbelow : ∀ q, lo ≤ q → q < m → (attempt q).connected = false := by
        intro q hq hlt
        rw [Attempt.connected, hleast q hq hlt, Bool.and_false]
      refine ⟨?_, hrange, hbelow⟩
      rcases Attempt.connected_or_mistaken hcounted with hconnected | hmistaken
      · exact hconnected
      · obtain ⟨-, q, hq, hlt, hconnected⟩ := h m hrange.1 hrange.2 hmistaken
        rw [hbelow q hq hlt] at hconnected
        cases hconnected
    · rintro ⟨hconnected, hrange, hleast⟩
      refine ⟨Attempt.counted_of_connected hconnected, hrange, fun q hq hlt => ?_⟩
      by_contra hcounted
      rcases Attempt.connected_or_mistaken (Bool.eq_true_of_not_eq_false hcounted) with hq' | hq'
      · rw [hleast q hq hlt] at hq'
        cases hq'
      · obtain ⟨-, q', hlo', hlt', hconnected'⟩ := h q hq (by omega) hq'
        rw [hleast q' hlo' (by omega)] at hconnected'
        cases hconnected'

end Scan

section Report

/-- A list of ports is read off its lines. -/
theorem portLines_injective {ports ports' : List Nat}
    (h : (ports.flatMap fun p => decimal p ++ ['\n']) = ports'.flatMap fun p => decimal p ++ ['\n']) :
    ports = ports' := by
  have hlines : ∀ ports : List Nat,
      lineTokens (ports.flatMap fun p => decimal p ++ ['\n']) = ports.map decimal := by
    intro ports
    have htext : (ports.flatMap fun p => decimal p ++ ['\n']) = textLines (ports.map decimal) := by
      rw [textLines, List.flatMap_map]
    rw [htext]
    apply lineTokens_textLines
    intro l hl
    obtain ⟨p, -, rfl⟩ := List.mem_map.mp hl
    exact ⟨decimal_ne_nil p, fun hc => absurd (isDigit_decimal hc) (by decide)⟩
  apply List.map_injective_iff.mpr fun _ _ => decimal_injective
  rw [← hlines, h, hlines]

/-- What a report tells: the lowest port, or all of them. -/
theorem report_eq_iff {showAll : Bool} {ports ports' : List Nat} :
    report showAll ports = report showAll ports' ↔
      if showAll then ports = ports' else ports.head? = ports'.head? := by
  constructor
  · intro h
    cases ports with
    | nil =>
        cases ports' with
        | nil => cases showAll <;> rfl
        | cons q qs => cases showAll <;> exact absurd (congrArg Prod.fst h) (by simp [report])
    | cons p ps =>
        cases ports' with
        | nil => cases showAll <;> exact absurd (congrArg Prod.fst h) (by simp [report])
        | cons q qs =>
            cases showAll with
            | true => exact portLines_injective (congrArg Prod.snd h)
            | false =>
                have htext : decimal p ++ ['\n'] = decimal q ++ ['\n'] := congrArg Prod.snd h
                have hpq : p = q := decimal_injective (List.append_cancel_right htext)
                exact congrArg some hpq
  · intro h
    cases showAll with
    | true => exact congrArg (report true) h
    | false =>
        cases ports with
        | nil =>
            cases ports' with
            | nil => rfl
            | cons q qs => cases h
        | cons p ps =>
            cases ports' with
            | nil => cases h
            | cons q qs =>
                have hpq : p = q := Option.some.inj h
                rw [hpq]
                rfl

/-- **The answer is right** if and only if no mistaken port is in its way. -/
theorem report_foundPorts {showAll : Bool} {attempt : Nat → Attempt} {lo hi : Nat} :
    report showAll (foundPorts attempt lo hi) = report showAll (openPorts attempt lo hi) ↔
      Unmistaken showAll attempt lo hi := by
  rw [report_eq_iff]
  cases showAll with
  | true => exact foundPorts_eq_iff
  | false => exact head?_foundPorts_eq_iff

end Report

section Resolve

variable {env : Surroundings}

theorem length_decimal_port {p : Nat} (h : p ≤ 65535) : (decimal p).length ≤ 5 :=
  (Nat.length_toDigits_le_iff (by decide) (by decide)).mpr (by omega)

/-- A number is captured as it is printed, without its line end; the buffer need not grow. -/
theorem localExec_number (enough : Nat → Bool) {p : Nat} (h : p ≤ 65535) :
    localExec enough (some (0, decimal p ++ ['\n'])) = some (decimal p) := by
  have hlen := length_decimal_port h
  have hdigit : ∀ c ∈ decimal p, c.isDigit = true := fun c hc => isDigit_decimal hc
  have hline : '\n' ∉ decimal p := fun hc => absurd (hdigit _ hc) (by decide)
  have hnul : '\x00' ∉ decimal p ++ ['\n'] := by
    intro hc
    rcases List.mem_append.mp hc with hc | hc
    · exact absurd (hdigit _ hc) (by decide)
    · exact absurd (List.mem_singleton.mp hc) (by decide)
  have hpieces : (fgetsLines 256 (decimal p ++ ['\n'])).map cstr = [decimal p ++ ['\n']] := by
    rw [fgetsLines_line hline (by omega), List.map_cons, cstr_eq_self hnul]
    rfl
  have hgrow : (Buffer.empty.append (decimal p ++ ['\n'])).cap = Buffer.empty.cap := by
    show grownCap 256 0 (decimal p ++ ['\n']).length = 256
    rw [grownCap, if_neg]
    rw [List.length_append, List.length_singleton]
    omega
  have hread : readPieces enough .empty [decimal p ++ ['\n']] =
      some (Buffer.empty.append (decimal p ++ ['\n'])) := by
    rw [readPieces, if_neg fun hno => hno.1 hgrow, readPieces]
  have htrim : (decimal p ++ ['\n']).rdropWhile isTrimmed = decimal p := by
    obtain ⟨front, d, hfront⟩ : ∃ front d, decimal p = front ++ [d] :=
      ⟨_, _, (List.dropLast_append_getLast (decimal_ne_nil p)).symm⟩
    have hd : ¬ isTrimmed d = true := by
      have hdig := hdigit d (by rw [hfront]; exact List.mem_append_right _ (List.mem_singleton.mpr rfl))
      intro hblank
      simp only [isTrimmed, Bool.or_eq_true, decide_eq_true_eq] at hblank
      rcases hblank with (rfl | rfl) | rfl
      all_goals exact absurd hdig (by decide)
    rw [List.rdropWhile_concat_pos _ _ _ (by decide), hfront, List.rdropWhile_concat_neg _ _ _ hd]
  simp only [localExec, hpieces, hread]
  rw [if_neg fun hno => hno.1 rfl]
  exact congrArg some htrim

/-- The shell runs portscan on the range. -/
theorem readCommand_portscanCmd : readCommand portscanCmd =
    some ⟨[portscanPath.toList, "30000".toList, "45000".toList, "127.0.0.1".toList], []⟩ := by
  decide +kernel

/-- The sockets of the scan for adb. -/
abbrev Surroundings.loopback (env : Surroundings) : Nat → Attempt := env.attempt "127.0.0.1".toList

/-- The lowest port of the range that counts as open. -/
def adbPort (env : Surroundings) : Option Nat :=
  (foundPorts env.loopback adbPortScanLo adbPortScanHi).head?

theorem resolveAdbPort_eq (env : Surroundings) :
    resolveAdbPort env =
      if env.executable && env.popens then (adbPort env).getD adbPortDefault else adbPortDefault := by
  have hoptions : options ["127.0.0.1".toList] = ("127.0.0.1".toList, false) := by decide +kernel
  have hscan := @portscan_range env.attempt "30000".toList "45000".toList adbPortScanLo adbPortScanHi
    (by decide +kernel) (by decide +kernel) (by decide) (by decide) (by decide) ["127.0.0.1".toList]
  rw [hoptions] at hscan
  unfold resolveAdbPort popen adbPort
  cases env.executable with
  | false => rfl
  | true =>
      cases env.popens with
      | false => rfl
      | true =>
          rw [readCommand_portscanCmd, if_pos rfl, if_pos rfl, Bool.true_and, if_pos rfl, Option.map_some,
            List.tail_cons, hscan]
          cases hfound : foundPorts env.loopback adbPortScanLo adbPortScanHi with
          | nil => rfl
          | cons p ps =>
              have hmem : p ∈ foundPorts env.loopback adbPortScanLo adbPortScanHi := by
                rw [hfound]
                exact List.mem_cons_self
              obtain ⟨⟨hlo, hhi⟩, -⟩ := mem_portsWith.mp hmem
              unfold adbPortScanLo at hlo
              unfold adbPortScanHi at hhi
              have hread : atoi (decimal p) = p := atoi_decimal (by omega)
              have hreport : report false (p :: ps) = (0, decimal p ++ ['\n']) := rfl
              simp only [hreport, localExec_number env.enough (show p ≤ 65535 by omega), hread]
              rw [if_pos ⟨decimal_ne_nil p, by omega, by omega⟩]
              rfl

theorem resolveAdbPort_le (env : Surroundings) : resolveAdbPort env ≤ 65535 := by
  unfold resolveAdbPort adbPortDefault
  split
  · split
    · decide
    · split_ifs
      · omega
      · decide
  · decide

end Resolve

/-- The transports, behind `resolve_adb_port`. -/
def transportOf (env : Surroundings) (rishPath : List Char) (hplain : PlainWord rishPath) : Transport where
  rishPath := rishPath
  rishPath_plain := hplain
  port := resolveAdbPort env
  port_le := resolveAdbPort_le env

/-- The default is no port of the range, so the ports tell the lists apart. -/
theorem getD_default_inj {holds holds' : Attempt → Bool} {attempt : Nat → Attempt} :
    (portsWith holds attempt adbPortScanLo adbPortScanHi).head?.getD adbPortDefault =
        (portsWith holds' attempt adbPortScanLo adbPortScanHi).head?.getD adbPortDefault ↔
      (portsWith holds attempt adbPortScanLo adbPortScanHi).head? =
        (portsWith holds' attempt adbPortScanLo adbPortScanHi).head? := by
  have hother : ∀ {holds p}, (portsWith holds attempt adbPortScanLo adbPortScanHi).head? = some p →
      p ≠ adbPortDefault := by
    intro holds p hp heq
    have hlo := (head?_portsWith.mp hp).2.1.1
    rw [heq] at hlo
    exact absurd hlo (by decide)
  constructor
  · intro h
    cases hfound : (portsWith holds attempt adbPortScanLo adbPortScanHi).head? with
    | none =>
        cases hopen : (portsWith holds' attempt adbPortScanLo adbPortScanHi).head? with
        | none => rfl
        | some q =>
            rw [hfound, hopen] at h
            exact absurd h.symm (hother hopen)
    | some p =>
        cases hopen : (portsWith holds' attempt adbPortScanLo adbPortScanHi).head? with
        | none =>
            rw [hfound, hopen] at h
            exact absurd h (hother hfound)
        | some q =>
            rw [hfound, hopen] at h
            exact congrArg some h
  · intro h
    rw [h]

/-- **The port of adb.** portscan prints the lowest port of its range that counts as open, or all of
them, whichever sockets fail; the answer is that of the ports that connected if and only if no port
whose `connect` failed at once is in the way. And the transports get that port, or 5555 if there is
none or portscan does not run, in commands that sh splits into their words. -/
theorem adb_port_exact :
    (∀ (attempt : List Char → Nat → Attempt) (first last : List Char) (lo hi : Nat) (rest : List (List Char)),
      atoi first = lo → atoi last = hi → 1 ≤ lo → lo ≤ hi → hi ≤ 65535 →
        portscan attempt (first :: last :: rest) =
            report (options rest).2 (foundPorts (attempt (options rest).1) lo hi) ∧
          (portscan attempt (first :: last :: rest) =
              report (options rest).2 (openPorts (attempt (options rest).1) lo hi) ↔
            Unmistaken (options rest).2 (attempt (options rest).1) lo hi)) ∧
      ∀ (env : Surroundings) (rishPath : List Char) (hplain : PlainWord rishPath),
        (transportOf env rishPath hplain).port =
            (if env.executable && env.popens then (adbPort env).getD adbPortDefault else adbPortDefault) ∧
          (env.executable = true → env.popens = true →
            ((transportOf env rishPath hplain).port =
                (openPorts env.loopback adbPortScanLo adbPortScanHi).head?.getD adbPortDefault ↔
              Unmistaken false env.loopback adbPortScanLo adbPortScanHi)) ∧
          readCommand (transportOf env rishPath hplain).adb =
            some ⟨adbWords (transportOf env rishPath hplain) ++ ["shell".toList], []⟩ ∧
          readCommand (transportOf env rishPath hplain).adbCli =
            some ⟨["timeout".toList, "5".toList] ++ adbWords (transportOf env rishPath hplain) ++
              ["shell".toList], []⟩ := by
  constructor
  · intro attempt first last lo hi rest hfirst hlast hlo hle hhi
    rw [portscan_range hfirst hlast hlo hle hhi rest]
    exact ⟨rfl, report_foundPorts⟩
  · intro env rishPath hplain
    refine ⟨resolveAdbPort_eq env, fun hexecutable hpopens => ?_, readCommand_end (run_adb _),
      readCommand_end (run_adbCli _)⟩
    have hport : (transportOf env rishPath hplain).port = (adbPort env).getD adbPortDefault := by
      refine (resolveAdbPort_eq env).trans ?_
      rw [hexecutable, hpopens]
      rfl
    rw [hport]
    exact getD_default_inj.trans head?_foundPorts_eq_iff

/-- Ports of which 7 has connected, and 9. -/
def sevenAndNine (_ : List Char) (p : Nat) : Attempt :=
  ⟨true, .inProgress, true, some (if p = 7 ∨ p = 9 then 0 else 111)⟩

theorem adb_port_exact_seven :
    portscan sevenAndNine ["5".toList, "9".toList] = (0, "7\n".toList) ∧
      (transportOf ⟨true, true, fun _ => true, sevenAndNine⟩ ['r'] (by decide)).port = 5555 := by
  constructor
  · exact (adb_port_exact.1 sevenAndNine _ _ 5 9 [] (by decide +kernel) (by decide +kernel) (by decide)
      (by decide) (by decide)).1.trans (by decide +kernel)
  · have hnone : adbPort ⟨true, true, fun _ => true, sevenAndNine⟩ = none := by
      rw [adbPort, List.head?_eq_none_iff, List.eq_nil_iff_forall_not_mem]
      intro p hp
      obtain ⟨⟨hlo, -⟩, hopen⟩ := mem_portsWith.mp hp
      unfold adbPortScanLo at hlo
      have hother : ¬ (p = 7 ∨ p = 9) := by omega
      simp [Surroundings.loopback, sevenAndNine, Attempt.counted, hother] at hopen
    rw [(adb_port_exact.2 _ _ _).1, hnone]
    rfl

/-- Nothing connects to the broadcast address, and yet port 1 is printed. -/
example : portscan (fun _ _ => ⟨true, .failed 101, true, some 0⟩)
    ["1".toList, "5".toList, "255.255.255.255".toList] = (0, "1\n".toList) := by
  decide +kernel

end MiuiserPeruser.Bexec
