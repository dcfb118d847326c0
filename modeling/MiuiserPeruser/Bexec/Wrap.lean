import MiuiserPeruser.Lib.CNumber
import MiuiserPeruser.Lib.Shell

/-!
# backend_exec — what each backend runs (`backend_exec.c`)

`bexec_n` hands a command to one of four backends. RISH, ADB_CLI and ADB
wrap it in double quotes behind the command of their transport, DIRECT
runs it as it stands. The argument the transport gets is what `sh` makes
of the wrapped line (`Lib.Shell`).

Only the ADB wrapping escapes the command. The other two deliver it as it
is exactly when it is `DoubleQuotable`.
-/

namespace MiuiserPeruser.Bexec

open CText Shell

/-- `BACKEND_TYPE`. -/
inductive BackendType where
  | rish | adb | direct | adbCli
  deriving DecidableEq, Repr

def adbCliPath : String := "/data/data/com.termux/files/home/.cargo/bin/adb_cli"

/-- What the probes have found: the path of rish, which `probe_rish` has
run as a word of a command line, and the port of `resolve_adb_port`. -/
structure Transport where
  rishPath : List Char
  rishPath_plain : PlainWord rishPath
  port : Nat
  port_le : port ≤ 65535

namespace Transport

variable (t : Transport)

/-- `g_adb_transport`. -/
def adb : List Char :=
  snprintf 192 (adbCliPath.toList ++ (" tcp 127.0.0.1:".toList ++
    (decimal t.port ++ " shell".toList)))

/-- `g_adb_cli_transport`. -/
def adbCli : List Char :=
  snprintf 192 ("timeout 5 ".toList ++ (adbCliPath.toList ++ (" tcp 127.0.0.1:".toList ++
    (decimal t.port ++ " shell".toList))))

end Transport

/-- `escape_for_adb`. -/
def escapeForAdb (cmd : List Char) : List Char :=
  cmd.flatMap fun c => if c = '"' ∨ c = '\\' then ['\\', c] else [c]

section Lines

variable (t : Transport) (cmd : List Char)

/-- The format of `rishcmd`. -/
def rishFormat : List Char :=
  "RISH_APPLICATION_ID=com.termux ".toList ++ t.rishPath ++ " -c ".toList ++
    '"' :: (cmd ++ ['"'])

/-- The format of `full` behind a transport. -/
def quotedFormat (transport : List Char) : List Char :=
  transport ++ " ".toList ++ '"' :: (cmd ++ '"' :: " 2>/dev/null".toList)

/-- The line `bexec_n` gives to `sh`. -/
def bexecLine : BackendType → List Char
  | .rish => snprintf 1600 (rishFormat t cmd)
  | .adbCli => snprintf (t.adbCli.length + cmd.length + 40) (quotedFormat cmd t.adbCli)
  | .adb =>
      snprintf (t.adb.length + (escapeForAdb cmd).length + 32)
        (quotedFormat (escapeForAdb cmd) t.adb)
  | .direct => snprintf (cmd.length + 16) (cmd ++ " 2>/dev/null".toList)

/-- The text a backend executes: the last argument of the wrapped line,
or the line itself without its redirection. -/
def Executes (text : List Char) : BackendType → Prop
  | .direct => bexecLine t cmd .direct = text ++ " 2>/dev/null".toList
  | b => LastArgument (bexecLine t cmd b) text

end Lines

/-! ## The transports -/

section Transports

variable (t : Transport)

theorem length_port : (decimal t.port).length ≤ 5 :=
  (Nat.length_toDigits_le_iff (by decide) (by decide)).mpr (by have := t.port_le; omega)

theorem isPlain_port {c : Char} (h : c ∈ decimal t.port) : isPlain c = true :=
  (isPlain_of_isDigit (Nat.isDigit_of_mem_toDigits (by decide) (by decide) h)).1

/-- The words of a transport that ends in `tcp 127.0.0.1:<port> shell`. -/
theorem run_tcp (ws : List (List Char)) (last : List Char) {pre : List Char}
    (h : run .start pre = some ⟨.plain, some last.reverse, (ws.map .word).reverse⟩) :
    run .start (pre ++ (" tcp 127.0.0.1:".toList ++ (decimal t.port ++ " shell".toList))) =
      some ⟨.plain, some "shell".toList.reverse,
        ((ws ++ [last, "tcp".toList, "127.0.0.1:".toList ++ decimal t.port]).map
          .word).reverse⟩ := by
  have haddress : run ⟨.plain, some last.reverse, (ws.map .word).reverse⟩
      " tcp 127.0.0.1:".toList = some ⟨.plain, some "127.0.0.1:".toList.reverse,
        .word "tcp".toList :: .word last.reverse.reverse :: (ws.map .word).reverse⟩ := rfl
  have hport := run_plain_more (fun c => isPlain_port t (c := c)) "127.0.0.1:".toList.reverse
    (.word "tcp".toList :: .word last.reverse.reverse :: (ws.map .word).reverse)
  have hshell : ∀ acc ts, run ⟨.plain, some acc, ts⟩ " shell".toList =
      some ⟨.plain, some "shell".toList.reverse, .word acc.reverse :: ts⟩ := fun _ _ => rfl
  refine (run_trans h (run_trans haddress (run_trans hport (hshell _ _)))).trans ?_
  simp

/-- The words of `g_adb_transport`. -/
def adbWords : List (List Char) :=
  [adbCliPath.toList, "tcp".toList, "127.0.0.1:".toList ++ decimal t.port]

theorem length_tcp :
    (" tcp 127.0.0.1:".toList ++ (decimal t.port ++ " shell".toList)).length ≤ 26 := by
  have hport := length_port t
  have htcp : " tcp 127.0.0.1:".toList.length = 15 := rfl
  have hshell : " shell".toList.length = 6 := rfl
  simp only [List.length_append]
  omega

theorem length_adbCliPath : adbCliPath.toList.length = 51 := by decide +kernel

theorem run_adb :
    run .start t.adb =
      some ⟨.plain, some "shell".toList.reverse, ((adbWords t).map .word).reverse⟩ := by
  have htcp := length_tcp t
  have hpath := length_adbCliPath
  rw [Transport.adb, snprintf_fits (by rw [List.length_append]; omega)]
  exact run_tcp t [] adbCliPath.toList (by rfl)

theorem run_adbCli :
    run .start t.adbCli =
      some ⟨.plain, some "shell".toList.reverse,
        ((["timeout".toList, "5".toList] ++ adbWords t).map .word).reverse⟩ := by
  have htcp := length_tcp t
  have hpath := length_adbCliPath
  have htimeout : "timeout 5 ".toList.length = 10 := rfl
  rw [Transport.adbCli, snprintf_fits (by rw [List.length_append, List.length_append]; omega),
    ← List.append_assoc]
  exact run_tcp t ["timeout".toList, "5".toList] adbCliPath.toList (by rfl)

end Transports

/-! ## Quoted commands -/

section Quoted

variable {cmd quoted : List Char} {ws : List (List Char)} {last : List Char}

/-- The quotes around a text that `sh` reads as `cmd`. -/
theorem run_quoted {pre : List Char}
    (hpre : run .start pre = some ⟨.plain, none, (ws.map .word).reverse⟩)
    (hcmd : ∀ ts, run ⟨.double, some [], ts⟩ quoted = some ⟨.double, some cmd.reverse, ts⟩) :
    run .start (pre ++ '"' :: (quoted ++ ['"'])) =
      some ⟨.plain, some cmd.reverse, (ws.map .word).reverse⟩ := by
  have hopen : run ⟨.plain, none, (ws.map .word).reverse⟩ ['"'] =
      some ⟨.double, some [], (ws.map .word).reverse⟩ := rfl
  have hclose : run ⟨.double, some cmd.reverse, (ws.map .word).reverse⟩ ['"'] =
      some ⟨.plain, some cmd.reverse, (ws.map .word).reverse⟩ := rfl
  have htail := run_trans hopen (run_trans (hcmd _) hclose)
  exact run_trans hpre htail

theorem lastArgument_quotedFormat {transport : List Char}
    (htransport : run .start transport =
      some ⟨.plain, some last.reverse, (ws.map .word).reverse⟩)
    (hcmd : ∀ ts, run ⟨.double, some [], ts⟩ quoted = some ⟨.double, some cmd.reverse, ts⟩) :
    LastArgument (quotedFormat quoted transport) cmd := by
  have hblank : run ⟨.plain, some last.reverse, (ws.map .word).reverse⟩ " ".toList =
      some ⟨.plain, none, .word last.reverse.reverse :: (ws.map .word).reverse⟩ := rfl
  have hpre : run .start (transport ++ " ".toList) =
      some ⟨.plain, none, ((ws ++ [last]).map .word).reverse⟩ := by
    refine (run_trans htransport hblank).trans ?_
    simp
  have hline := lastArgument_silenced (run_quoted hpre hcmd)
  have heq : quotedFormat quoted transport =
      transport ++ " ".toList ++ '"' :: (quoted ++ ['"']) ++ " 2>/dev/null".toList := by
    simp [quotedFormat]
  rwa [heq]

theorem length_quotedFormat (cmd transport : List Char) :
    (quotedFormat cmd transport).length = transport.length + cmd.length + 15 := by
  have hblank : " ".toList.length = 1 := rfl
  have hnull : " 2>/dev/null".toList.length = 12 := rfl
  simp only [quotedFormat, List.length_append, List.length_cons]
  omega

theorem length_rishFormat (t : Transport) (cmd : List Char) :
    (rishFormat t cmd).length = 31 + t.rishPath.length + 4 + (cmd.length + 2) := by
  have hassign : "RISH_APPLICATION_ID=com.termux ".toList.length = 31 := by decide +kernel
  have hopt : " -c ".toList.length = 4 := by decide +kernel
  have hquotes : ('"' :: (cmd ++ ['"'])).length = cmd.length + 2 := by
    rw [List.length_cons, List.length_append, List.length_singleton]
  unfold rishFormat
  simp only [List.length_append, hassign, hopt, hquotes]

/-- What `escape_for_adb` escapes, `sh` takes back. -/
theorem run_escapeForAdb (hdollar : '$' ∉ cmd) (htick : '`' ∉ cmd) (acc : List Char)
    (ts : List Token) :
    run ⟨.double, some acc, ts⟩ (escapeForAdb cmd) =
      some ⟨.double, some (cmd.reverse ++ acc), ts⟩ := by
  induction cmd generalizing acc with
  | nil => rfl
  | cons c cmd ih =>
      simp only [List.mem_cons, not_or] at hdollar htick
      have hstep : run ⟨.double, some acc, ts⟩ (if c = '"' ∨ c = '\\' then ['\\', c] else [c]) =
          some ⟨.double, some (c :: acc), ts⟩ := by
        split
        · rename_i hc
          rcases hc with rfl | rfl
          · rfl
          · rfl
        · rename_i hc
          rw [not_or] at hc
          have hplain : isDoublePlain c = true :=
            isDoublePlain_iff.mpr ⟨hc.1, hc.2, Ne.symm hdollar.1, Ne.symm htick.1⟩
          rw [run, step_double hplain, Option.bind_some, run]
      refine (run_trans hstep (ih hdollar.2 htick.2 (c :: acc))).trans ?_
      simp

end Quoted

/-! ## What is executed -/

section Executed

variable {t : Transport} {cmd : List Char}

theorem adb_executes (hdollar : '$' ∉ cmd) (htick : '`' ∉ cmd) : Executes t cmd cmd .adb := by
  show LastArgument (snprintf _ _) cmd
  rw [snprintf_fits (by rw [length_quotedFormat]; omega)]
  refine lastArgument_quotedFormat (run_adb t) fun ts => ?_
  simpa using run_escapeForAdb hdollar htick [] ts

theorem direct_executes (t : Transport) (cmd : List Char) : Executes t cmd cmd .direct := by
  have hnull : " 2>/dev/null".toList.length = 12 := rfl
  exact snprintf_fits (by rw [List.length_append]; omega)

theorem adbCli_executes (hdollar : '$' ∉ cmd) (htick : '`' ∉ cmd) (h : DoubleQuotable cmd) :
    Executes t cmd cmd .adbCli := by
  show LastArgument (snprintf _ _) cmd
  rw [snprintf_fits (by rw [length_quotedFormat]; omega)]
  refine lastArgument_quotedFormat (run_adbCli t) fun ts => ?_
  simpa using run_doubleQuotable hdollar htick h [] ts

/-- The words in front of what rish is given. -/
theorem run_rish (t : Transport) :
    run .start ("RISH_APPLICATION_ID=com.termux ".toList ++ t.rishPath ++ " -c ".toList) =
      some ⟨.plain, none, (["RISH_APPLICATION_ID=com.termux".toList, t.rishPath,
        "-c".toList].map .word).reverse⟩ := by
  have hpath : run .start ("RISH_APPLICATION_ID=com.termux ".toList ++ t.rishPath) =
      some ⟨.plain, some t.rishPath.reverse, [.word "RISH_APPLICATION_ID=com.termux".toList]⟩ :=
    run_trans (by rfl) (t.rishPath_plain.run _)
  have hopt : ∀ acc ts, run ⟨.plain, some acc, ts⟩ " -c ".toList =
      some ⟨.plain, none, .word "-c".toList :: .word acc.reverse :: ts⟩ := fun _ _ => rfl
  refine (run_trans hpath (hopt _ _)).trans ?_
  simp

theorem rish_executes (hdollar : '$' ∉ cmd) (htick : '`' ∉ cmd)
    (hfits : (rishFormat t cmd).length < 1600) (h : DoubleQuotable cmd) :
    Executes t cmd cmd .rish := by
  show LastArgument (snprintf _ _) cmd
  rw [snprintf_fits hfits]
  refine lastArgument_end (run_quoted (run_rish t) fun ts => ?_)
  simpa using run_doubleQuotable hdollar htick h [] ts

/-- The rish wrapping delivers only what double quotes keep. -/
theorem doubleQuotable_of_rish (hdollar : '$' ∉ cmd) (htick : '`' ∉ cmd)
    (hfits : (rishFormat t cmd).length < 1600) (h : Executes t cmd cmd .rish) :
    DoubleQuotable cmd := by
  have h : LastArgument (snprintf 1600 (rishFormat t cmd)) cmd := h
  rw [snprintf_fits hfits] at h
  obtain ⟨c, hread, hlast⟩ := h
  refine doubleQuotable_of_mem_words ?_ ink_nil hdollar htick hread (List.mem_of_getLast? hlast)
  have hassign : ink "RISH_APPLICATION_ID=com.termux ".toList = 0 := by decide
  have hopt : ink " -c ".toList = 0 := by decide
  rw [ink_append, ink_append, hassign, t.rishPath_plain.ink, hopt]

/-- **When all backends run the same command**: double quotes keep the
command as it is. -/
theorem backends_agree_iff (t : Transport) (cmd : List Char) (hdollar : '$' ∉ cmd)
    (htick : '`' ∉ cmd) (hfits : (rishFormat t cmd).length < 1600) :
    (∀ b, Executes t cmd cmd b) ↔ DoubleQuotable cmd := by
  constructor
  · intro h
    exact doubleQuotable_of_rish hdollar htick hfits (h .rish)
  · intro h b
    cases b with
    | rish => exact rish_executes hdollar htick hfits h
    | adb => exact adb_executes hdollar htick
    | direct => exact direct_executes t cmd
    | adbCli => exact adbCli_executes hdollar htick h

/-- A transport of a device, with rish in its usual place. -/
def deviceTransport : Transport where
  rishPath := "/data/data/com.termux/files/home/Rish/rish".toList
  rishPath_plain := by decide +kernel
  port := 5555
  port_le := by decide

/-- A backslash as in the commands of tigerclawd. -/
theorem backends_agree_certs :
    DoubleQuotable "find . -exec sha256sum \x7b\x7d \\; 2>/dev/null;".toList ∧
      ∀ b, Executes deviceTransport "find . -exec sha256sum \x7b\x7d \\; 2>/dev/null;".toList
        "find . -exec sha256sum \x7b\x7d \\; 2>/dev/null;".toList b := by
  have hquotable : DoubleQuotable "find . -exec sha256sum \x7b\x7d \\; 2>/dev/null;".toList := by
    decide +kernel
  refine ⟨hquotable, ?_⟩
  exact (backends_agree_iff deviceTransport _ (by decide) (by decide) (by decide +kernel)).mpr
    hquotable

/-- A command with quotes of its own reaches adb as it is, and rish
without them. -/
theorem quotes_lost :
    Executes deviceTransport "echo \"a\"".toList "echo \"a\"".toList .adb ∧
      Executes deviceTransport "echo \"a\"".toList "echo a".toList .rish ∧
      ¬ Executes deviceTransport "echo \"a\"".toList "echo \"a\"".toList .rish := by
  refine ⟨adb_executes (by decide) (by decide), ?_, fun h => ?_⟩
  · refine ⟨⟨["RISH_APPLICATION_ID=com.termux".toList, deviceTransport.rishPath, "-c".toList,
      "echo a".toList], []⟩, by decide +kernel, rfl⟩
  · exact absurd (doubleQuotable_of_rish (by decide) (by decide) (by decide +kernel) h) (by decide)

end Executed

/-! ## Parameters

In a wrapped command `sh` sees `$1` and the like between double quotes,
also where the command has single quotes around them, and the shell of
`bexec_n` has no arguments. -/

/-- The text a backend executes, once `sh` has expanded the parameters. -/
def Expands (t : Transport) (cmd text : List Char) : BackendType → Prop
  | .direct => dropParameters .plain (bexecLine t cmd .direct) = text ++ " 2>/dev/null".toList
  | b => LastArgument (dropParameters .plain (bexecLine t cmd b)) text

section Expanded

variable {t : Transport} {cmd : List Char}

/-- A transport is made of plain characters and blanks. -/
theorem plain_transports (t : Transport) :
    ∀ c ∈ t.adb ++ t.adbCli, c ≠ '$' ∧ c ∉ quotes := by
  have hport : ∀ c ∈ decimal t.port, c ≠ '$' ∧ c ∉ quotes := by
    intro c hc
    obtain ⟨hquotes, -, -, -, hexp⟩ := isPlain_iff.mp (isPlain_port t hc)
    exact ⟨fun h => hexp (h ▸ by decide), hquotes⟩
  have hline : ∀ c ∈ "timeout 5 ".toList ++ (adbCliPath.toList ++ (" tcp 127.0.0.1:".toList ++
      (decimal t.port ++ " shell".toList))), c ≠ '$' ∧ c ∉ quotes := by
    simp only [List.forall_mem_append]
    exact ⟨forall_mem_of_all (by decide), forall_mem_of_all (by decide +kernel), forall_mem_of_all (by decide),
      hport, forall_mem_of_all (by decide)⟩
  intro c hc
  rcases List.mem_append.mp hc with hc | hc
  · exact hline c (List.mem_append_right _ (List.mem_of_mem_take hc))
  · exact hline c (List.mem_of_mem_take hc)

theorem plain_rish (t : Transport) :
    ∀ c ∈ "RISH_APPLICATION_ID=com.termux ".toList ++ t.rishPath ++ " -c ".toList,
      c ≠ '$' ∧ c ∉ quotes := by
  have hpath : ∀ c ∈ t.rishPath, c ≠ '$' ∧ c ∉ quotes := by
    intro c hc
    obtain ⟨hquotes, -, -, -, hexp⟩ := isPlain_iff.mp (t.rishPath_plain.chars c hc)
    exact ⟨fun h => hexp (h ▸ by decide), hquotes⟩
  simp only [List.forall_mem_append]
  exact ⟨⟨forall_mem_of_all (by decide), hpath⟩, forall_mem_of_all (by decide)⟩

theorem escapeForAdb_eq_self (hquote : '"' ∉ cmd) (hback : '\\' ∉ cmd) : escapeForAdb cmd = cmd := by
  have hpiece : ∀ c ∈ cmd, (if c = '"' ∨ c = '\\' then ['\\', c] else [c]) = [c] := by
    intro c hc
    apply if_neg
    rintro (rfl | rfl)
    · exact hquote hc
    · exact hback hc
  rw [escapeForAdb, List.flatMap_congr hpiece, List.flatMap_singleton']

/-- **What is left of a command** that is wrapped in double quotes. -/
theorem expands_wrapped (hquote : '"' ∉ cmd) (hback : '\\' ∉ cmd)
    (hleft : ∀ c ∈ dropParameters .double cmd, c ≠ '$' ∧ c ≠ '`')
    (hfits : (rishFormat t cmd).length < 1600) {b : BackendType} (hb : b ≠ .direct) :
    Expands t cmd (dropParameters .double cmd) b := by
  have hplain : ∀ c ∈ dropParameters .double cmd, isDoublePlain c = true := by
    intro c hc
    have hcmd := mem_dropParameters hc
    obtain ⟨hdollar, htick⟩ := hleft c hc
    exact isDoublePlain_iff.mpr ⟨fun h => hquote (h ▸ hcmd), fun h => hback (h ▸ hcmd), hdollar, htick⟩
  have hread : ∀ ts, run ⟨.double, some [], ts⟩ (dropParameters .double cmd) =
      some ⟨.double, some (dropParameters .double cmd).reverse, ts⟩ := by
    intro ts
    simpa using run_double hplain [] ts
  have hadb : ∀ transport : List Char, (∀ c ∈ transport, c ≠ '$' ∧ c ∉ quotes) →
      dropParameters .plain (quotedFormat cmd transport) =
        quotedFormat (dropParameters .double cmd) transport := by
    intro transport htransport
    have hpre : ∀ c ∈ transport ++ " ".toList, c ≠ '$' ∧ c ∉ quotes := by
      intro c hc
      rcases List.mem_append.mp hc with hc | hc
      · exact htransport c hc
      · rw [List.mem_singleton.mp hc]
        decide
    exact dropParameters_wrapped (fun h => (hpre _ h).1 rfl) (fun c hc => (hpre c hc).2) hquote hback _
  cases b with
  | direct => exact absurd rfl hb
  | rish =>
      show LastArgument (dropParameters .plain (snprintf 1600 (rishFormat t cmd))) _
      have hline : dropParameters .plain (rishFormat t cmd) = rishFormat t (dropParameters .double cmd) :=
        dropParameters_wrapped (fun h => (plain_rish t _ h).1 rfl) (fun c hc => (plain_rish t c hc).2)
          hquote hback []
      rw [snprintf_fits hfits, hline]
      exact lastArgument_end (run_quoted (run_rish t) hread)
  | adb =>
      show LastArgument (dropParameters .plain (snprintf _ _)) _
      rw [snprintf_fits (by rw [length_quotedFormat]; omega), escapeForAdb_eq_self hquote hback,
        hadb t.adb fun c hc => plain_transports t c (List.mem_append_left _ hc)]
      exact lastArgument_quotedFormat (run_adb t) hread
  | adbCli =>
      show LastArgument (dropParameters .plain (snprintf _ _)) _
      rw [snprintf_fits (by rw [length_quotedFormat]; omega),
        hadb t.adbCli fun c hc => plain_transports t c (List.mem_append_right _ hc)]
      exact lastArgument_quotedFormat (run_adbCli t) hread

/-- The shell of a command that is not wrapped sees the single quotes. -/
theorem expands_direct {text : List Char}
    (h : dropParameters .plain (cmd ++ " 2>/dev/null".toList) = text ++ " 2>/dev/null".toList) :
    Expands t cmd text .direct := by
  have hline : bexecLine t cmd .direct = cmd ++ " 2>/dev/null".toList := direct_executes t cmd
  rw [Expands, hline, h]

end Expanded

end MiuiserPeruser.Bexec
