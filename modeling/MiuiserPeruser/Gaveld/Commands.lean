import MiuiserPeruser.Gaveld.Verdict
import MiuiserPeruser.Gaveld.Wire
import MiuiserPeruser.Lib.Shell

/-!
# gaveld — the shell commands (`enforce.c`, `consent.c`)

What `run_cmd` and `send_notification` hand to `system()`, byte by byte.
The source of a case stands in it as the daemon or the client named it:
nothing on the way quotes it. The line is read by `sh`, and for the rish
and adb backends its quoted argument is read once more by the shell on
the other side (`Lib.Shell`).
-/

namespace MiuiserPeruser.Gaveld

open CText Shell

/-! ## Enforcement -/

/-- `backend_t`. -/
inductive Backend where
  | rish | adb | direct
  deriving DecidableEq, Repr

/-- The command before its source. -/
def Cmd.name : Cmd → String
  | .amKill _ => "am kill "
  | .amForceStop _ => "am force-stop "
  | .pmDisableUser _ => "pm disable-user --user 0 "

def Cmd.source : Cmd → String
  | .amKill source | .amForceStop source | .pmDisableUser source => source

def Cmd.format (c : Cmd) : List Char := c.name.toList ++ c.source.toList

/-- `char cmd[512]` in `enforce_execute`. -/
def Cmd.text (c : Cmd) : List Char := snprintf 512 c.format

/-- The format of `run_cmd`. -/
def Backend.format (shellCmd : List Char) : Backend → List Char
  | .rish => rishPath.toList ++ " -c '".toList ++ (shellCmd ++ "' 2>/dev/null".toList)
  | .adb => "adb shell '".toList ++ (shellCmd ++ "' 2>/dev/null".toList)
  | .direct => shellCmd ++ " 2>/dev/null".toList

/-- `run_cmd`: the line it passes to `system()`. -/
def runCmd (backend : Backend) (shellCmd : List Char) : List Char :=
  snprintf 1024 (backend.format shellCmd)

/-! ## Notification -/

def ThreatState.text : ThreatState → String
  | .clean => "CLEAN"
  | .watched => "WATCHED"
  | .warned => "WARNED"
  | .quarantined => "QUARANTINED"
  | .houseArrest => "HOUSE_ARREST"
  | .jailed => "JAILED"

def Verdict.text : Verdict → String
  | .state s => s.text
  | .iaReferral => "IA_REFERRAL"
  | .dismissedStale => "DISMISSED_STALE"
  | .dismissed => "DISMISSED"
  | .consentDenied => "CONSENT_DENIED"

/-- The djb2 hash of a case id, in an `unsigned long`. -/
def djb2 (caseId : List Char) : Nat :=
  caseId.foldl (fun h c => (h <<< 5 + h + c.toNat) % 2 ^ 64) 5381

def notifId (caseId : List Char) : Nat := djb2 caseId &&& 0x7FFFFFFF

/-- The bytes of the dash in the title. -/
def dash : List Char := ['\xe2', '\x80', '\x94']

/-- ` name "arg"` in a format. -/
def quotedOption (o : String × List Char) : List Char :=
  " ".toList ++ (o.1.toList ++ (" \"".toList ++ (o.2 ++ "\"".toList)))

/-- The shell command of a button. -/
def buttonAction (reply : String) (caseId : List Char) : List Char :=
  "echo '".toList ++ reply.toList ++ caseId ++ "' | socat - UNIX-CONNECT:".toList ++
    gaveldSock.toList

/-- The options of the notification, in order. -/
def notificationOptions (r : ConsentRequest) : List (String × List Char) :=
  [("--title", "gaveld ".toList ++ dash ++ " ".toList ++ r.verdict.text.toList),
   ("--content", r.source.toList ++ " | score: ".toList ++ formatF0 (.finite r.score)),
   ("--button1", "Approve".toList),
   ("--button1-action", buttonAction "APPROVE|" r.caseId.toList),
   ("--button2", "Deny".toList),
   ("--button2-action", buttonAction "DENY|" r.caseId.toList)]

/-- The format of `send_notification`. -/
def notification (r : ConsentRequest) : List Char :=
  "termux-notification --id ".toList ++ decimal (notifId r.caseId.toList) ++
    (notificationOptions r).flatMap quotedOption ++ " 2>/dev/null".toList

/-- `send_notification`: the line it passes to `system()`. -/
def sendNotification (r : ConsentRequest) : List Char := snprintf 1024 (notification r)

/-! ## What the shell makes of it -/

/-- The command that is run in the end has the source as last argument:
for rish and adb it is the last argument of the line, read once more. -/
def Backend.Delivers (line source : List Char) : Backend → Prop
  | .rish | .adb => ∃ arg, LastArgument line arg ∧ LastArgument arg source
  | .direct => LastArgument line source

/-- The line is one `termux-notification`, with the source in its content. -/
def Notifies (line source : List Char) : Prop :=
  ∃ cmd before content after, readCommand line = some cmd ∧
    cmd.words = "termux-notification".toList :: before ++ "--content".toList :: content :: after ∧
      source <:+: content

/-! ## Enforcement commands with a plain source -/

/-- The words before the source. -/
def Cmd.words : Cmd → List (List Char)
  | .amKill _ => ["am".toList, "kill".toList]
  | .amForceStop _ => ["am".toList, "force-stop".toList]
  | .pmDisableUser _ => ["pm".toList, "disable-user".toList, "--user".toList, "0".toList]

theorem Cmd.run_name (c : Cmd) :
    run .start c.name.toList = some ⟨.plain, none, (c.words.map .word).reverse⟩ := by
  cases c with
  | amKill source =>
      show run .start "am kill ".toList = _
      rfl
  | amForceStop source =>
      show run .start "am force-stop ".toList = _
      rfl
  | pmDisableUser source =>
      show run .start "pm disable-user --user 0 ".toList = _
      rfl

theorem Cmd.run_format {c : Cmd} (h : PlainWord c.source.toList) :
    run .start c.format =
      some ⟨.plain, some c.source.toList.reverse, (c.words.map .word).reverse⟩ :=
  run_trans c.run_name (h.run _)

theorem Cmd.name_mem (c : Cmd) :
    c.name ∈ ["am kill ", "am force-stop ", "pm disable-user --user 0 "] := by
  cases c <;> simp [Cmd.name]

theorem Cmd.ink_name (c : Cmd) : ink c.name.toList = 0 := by
  have hnames : ∀ s ∈ ["am kill ", "am force-stop ", "pm disable-user --user 0 "],
      ink s.toList = 0 := by decide
  exact hnames c.name c.name_mem

theorem Cmd.quote_not_mem {c : Cmd} (h : PlainWord c.source.toList) : '\'' ∉ c.format := by
  intro hmem
  rcases List.mem_append.mp hmem with hname | hsource
  · exact absurd (List.countP_eq_zero.mp c.ink_name _ hname) (by decide)
  · exact absurd (h.chars _ hsource) (by decide)

/-- The last argument of a line is what stands between its single quotes. -/
theorem lastArgument_single (ws : List (List Char)) {pre arg : List Char}
    (hpre : run .start pre = some ⟨.single, some [], (ws.map .word).reverse⟩)
    (harg : '\'' ∉ arg) : LastArgument (pre ++ (arg ++ "' 2>/dev/null".toList)) arg := by
  have hclose : run ⟨.single, some arg.reverse, (ws.map .word).reverse⟩ ['\''] =
      some ⟨.plain, some arg.reverse, (ws.map .word).reverse⟩ := rfl
  have hsingle := run_single harg [] (ws.map .word).reverse
  rw [List.append_nil] at hsingle
  have h := lastArgument_silenced (run_trans hpre (run_trans hsingle hclose))
  simpa using h

theorem Backend.delivers_format {c : Cmd} (h : PlainWord c.source.toList) (backend : Backend) :
    backend.Delivers (backend.format c.format) c.source.toList := by
  have hinner : LastArgument c.format c.source.toList := lastArgument_end (c.run_format h)
  cases backend with
  | rish =>
      refine ⟨c.format, ?_, hinner⟩
      exact lastArgument_single [rishPath.toList, "-c".toList] (by rfl) (c.quote_not_mem h)
  | adb =>
      refine ⟨c.format, ?_, hinner⟩
      exact lastArgument_single ["adb".toList, "shell".toList] (by rfl) (c.quote_not_mem h)
  | direct => exact lastArgument_silenced (c.run_format h)

/-- Only a plain source comes out of the direct backend as it is. -/
theorem plainWord_of_delivers {c : Cmd}
    (h : Backend.direct.Delivers (Backend.direct.format c.format) c.source.toList) :
    PlainWord c.source.toList := by
  obtain ⟨cmd, hread, hlast⟩ := h
  refine plainWord_of_mem_words c.ink_name (by decide) hread ?_
  exact List.mem_of_getLast? hlast

/-! ## The notification for a plain source -/

section Notification

theorem run_quotedOption {o : String × List Char} (hname : PlainWord o.1.toList)
    (harg : ∀ c ∈ o.2, isDoublePlain c = true) (acc : List Char) (ts : List Token) :
    run ⟨.plain, some acc, ts⟩ (quotedOption o) =
      some ⟨.plain, some o.2.reverse, .word o.1.toList :: .word acc.reverse :: ts⟩ := by
  have hblank : run ⟨.plain, some acc, ts⟩ " ".toList =
      some ⟨.plain, none, .word acc.reverse :: ts⟩ := rfl
  have hopen : run ⟨.plain, some o.1.toList.reverse, .word acc.reverse :: ts⟩ " \"".toList =
      some ⟨.double, some [], .word o.1.toList.reverse.reverse :: .word acc.reverse :: ts⟩ := rfl
  have hclose : run ⟨.double, some (o.2.reverse ++ []), .word o.1.toList.reverse.reverse ::
      .word acc.reverse :: ts⟩ "\"".toList = some ⟨.plain, some (o.2.reverse ++ []),
        .word o.1.toList.reverse.reverse :: .word acc.reverse :: ts⟩ := rfl
  rw [List.append_nil, List.reverse_reverse] at hclose
  rw [List.reverse_reverse] at hopen
  have harg := run_double harg [] (.word o.1.toList :: .word acc.reverse :: ts)
  rw [List.append_nil] at harg
  exact run_trans hblank (run_trans (hname.run _) (run_trans hopen (run_trans harg hclose)))

/-- The words of a list of options follow those before them. -/
theorem run_options {opts : List (String × List Char)}
    (hopts : ∀ o ∈ opts, PlainWord o.1.toList ∧ ∀ c ∈ o.2, isDoublePlain c = true)
    (arg : List Char) (ws : List (List Char)) :
    ∃ arg' ws', run ⟨.plain, some arg.reverse, (ws.map .word).reverse⟩
        (opts.flatMap quotedOption) = some ⟨.plain, some arg'.reverse, (ws'.map .word).reverse⟩ ∧
      ws' ++ [arg'] = ws ++ arg :: opts.flatMap fun o => [o.1.toList, o.2] := by
  induction opts generalizing arg ws with
  | nil => exact ⟨arg, ws, rfl, rfl⟩
  | cons o opts ih =>
      obtain ⟨hname, harg⟩ := hopts o List.mem_cons_self
      have hstep := run_quotedOption hname harg arg.reverse (ws.map .word).reverse
      obtain ⟨arg', ws', hrun, hwords⟩ := ih (fun o ho => hopts o (List.mem_cons_of_mem _ ho)) o.2
        (ws ++ [arg, o.1.toList])
      refine ⟨arg', ws', ?_, ?_⟩
      · refine run_trans (hstep.trans ?_) hrun
        simp
      · rw [hwords]
        simp

theorem isDigit_of_mem_decimal {c : Char} {n : Nat} (h : c ∈ decimal n) : c.isDigit = true :=
  Nat.isDigit_of_mem_toDigits (by decide) (by decide) h

theorem plainWord_decimal (n : Nat) : PlainWord (decimal n) :=
  plainWord_digits Nat.toDigits_ne_nil fun _ => isDigit_of_mem_decimal

theorem isDoublePlain_decimal {c : Char} {n : Nat} (h : c ∈ decimal n) : isDoublePlain c = true :=
  isDoublePlain_of_isPlain ((plainWord_decimal n).chars c h)

theorem isDoublePlain_verdict {v : Verdict} {c : Char} (h : c ∈ v.text.toList) :
    isDoublePlain c = true := by
  have hall : v.text.toList.all isDoublePlain = true := by
    cases v with
    | state s => cases s <;> decide
    | iaReferral | dismissedStale | dismissed | consentDenied => decide
  exact List.all_eq_true.mp hall c h

theorem formatF0_of_nonneg {q : ℚ} (h : 0 ≤ q) :
    formatF0 (.finite q) = decimal (roundEven q).natAbs := by
  rw [formatF0, if_neg (not_lt.mpr h), List.nil_append, abs_of_nonneg h]

/-- The characters of a number, and how many they can be. -/
theorem toString_int (n : Int) :
    (∀ c ∈ (toString n).toList, c = '-' ∨ c.isDigit = true) ∧
      (-2 ^ 63 ≤ n → n < 2 ^ 63 → (toString n).toList.length ≤ 20) := by
  have hlength : ∀ m : Nat, m ≤ 2 ^ 63 → (decimal m).length ≤ 19 := by
    intro m hm
    exact (Nat.length_toDigits_le_iff (by decide) (by decide)).mpr (by omega)
  cases n with
  | ofNat m =>
      have htext : (toString (Int.ofNat m)).toList = decimal m := Nat.toList_repr
      rw [htext]
      refine ⟨fun c hc => .inr (isDigit_of_mem_decimal hc), fun _ hlt => ?_⟩
      have hm : (m : Int) < 2 ^ 63 := hlt
      have := hlength m (by omega)
      omega
  | negSucc m =>
      have htext : (toString (Int.negSucc m)).toList = '-' :: decimal (m + 1) := by
        show ("-" ++ (m + 1).repr).toList = _
        rw [String.toList_append, Nat.toList_repr]
        rfl
      rw [htext]
      refine ⟨fun c hc => ?_, fun hge _ => ?_⟩
      · rcases List.mem_cons.mp hc with rfl | hc
        · exact .inl rfl
        · exact .inr (isDigit_of_mem_decimal hc)
      · have := hlength (m + 1) (by omega)
        rw [List.length_cons]
        omega

theorem isDoublePlain_makeCaseId {ms : Int} {c : Char} (h : c ∈ (makeCaseId ms).toList) :
    isDoublePlain c = true := by
  rw [makeCaseId, String.toList_append, List.mem_append] at h
  have hname : ∀ c ∈ "case_".toList ++ ['-'], isDoublePlain c = true :=
    forall_mem_of_all (by decide)
  rcases h with h | h
  · exact hname c (List.mem_append_left _ h)
  · rcases (toString_int ms).1 c h with rfl | h
    · exact hname '-' (by simp)
    · exact isDoublePlain_of_isPlain (isPlain_of_isDigit h).1

theorem length_makeCaseId {ms : Int} (hms : -2 ^ 63 ≤ ms) (hms' : ms < 2 ^ 63) :
    (makeCaseId ms).toList.length ≤ 25 := by
  have hname : "case_".toList.length = 5 := rfl
  have := (toString_int ms).2 hms hms'
  rw [makeCaseId, String.toList_append, List.length_append]
  omega

theorem length_quotedOption (o : String × List Char) :
    (quotedOption o).length = o.1.toList.length + o.2.length + 4 := by
  simp only [quotedOption, List.length_append]
  have h₁ : " ".toList.length = 1 := rfl
  have h₂ : " \"".toList.length = 2 := rfl
  have h₃ : "\"".toList.length = 1 := rfl
  omega

theorem length_gaveldSock : gaveldSock.toList.length = 65 := by decide +kernel

theorem length_buttonAction (reply : String) (caseId : List Char) :
    (buttonAction reply caseId).length = reply.toList.length + caseId.length + 96 := by
  unfold buttonAction
  have hecho : "echo '".toList.length = 6 := rfl
  have hsocat : "' | socat - UNIX-CONNECT:".toList.length = 25 := rfl
  have hsock := length_gaveldSock
  simp only [List.length_append]
  omega

theorem length_verdict (v : Verdict) : v.text.toList.length ≤ 15 := by
  cases v with
  | state s => cases s <;> decide
  | iaReferral | dismissedStale | dismissed | consentDenied => decide

theorem length_notification {r : ConsentRequest} (hsource : r.source.toList.length ≤ 255)
    (hcase : r.caseId.toList.length ≤ 25) (hscore : (formatF0 (.finite r.score)).length ≤ 3) :
    (notification r).length < 1024 := by
  have hid : (decimal (notifId r.caseId.toList)).length ≤ 10 := by
    refine (Nat.length_toDigits_le_iff (by decide) (by decide)).mpr ?_
    have : notifId r.caseId.toList ≤ 0x7FFFFFFF := Nat.and_le_right
    omega
  have hverdict := length_verdict r.verdict
  have hoptions : ((notificationOptions r).flatMap quotedOption).length =
      r.verdict.text.toList.length + r.source.toList.length +
        (formatF0 (.finite r.score)).length + 2 * r.caseId.toList.length + 327 := by
    simp only [notificationOptions, List.flatMap_cons, List.flatMap_nil, List.length_append,
      length_quotedOption, length_buttonAction, List.length_nil]
    simp [dash]
    omega
  have hhead : "termux-notification --id ".toList.length = 25 := rfl
  have hnull : " 2>/dev/null".toList.length = 12 := rfl
  unfold notification
  simp only [List.length_append]
  omega

theorem plainWord_option {r : ConsentRequest} {o : String × List Char}
    (ho : o ∈ notificationOptions r) : PlainWord o.1.toList := by
  have hnames : ∀ s ∈ ["--title", "--content", "--button1", "--button1-action", "--button2",
      "--button2-action"], PlainWord s.toList := by decide
  refine hnames o.1 ?_
  exact List.mem_map_of_mem (f := Prod.fst) ho

theorem isDoublePlain_buttonAction {reply : String} {caseId : List Char}
    (hreply : reply ∈ ["APPROVE|", "DENY|"]) (hcase : ∀ c ∈ caseId, isDoublePlain c = true)
    {c : Char} (h : c ∈ buttonAction reply caseId) : isDoublePlain c = true := by
  have htext : ∀ s ∈ ["APPROVE|", "DENY|", "echo '", "' | socat - UNIX-CONNECT:", gaveldSock],
      s.toList.all isDoublePlain = true := by decide +kernel
  have htext := fun s hs => List.all_eq_true.mp (htext s hs)
  unfold buttonAction at h
  simp only [List.mem_append] at h
  rcases h with (((h | h) | h) | h) | h
  · exact htext "echo '" (by simp) c h
  · refine htext reply ?_ c h
    exact List.mem_append_left _ hreply
  · exact hcase c h
  · exact htext "' | socat - UNIX-CONNECT:" (by simp) c h
  · exact htext gaveldSock (by simp) c h

theorem isDoublePlain_option {r : ConsentRequest} (hsource : PlainWord r.source.toList)
    (hcase : ∀ c ∈ r.caseId.toList, isDoublePlain c = true) (hscore : 0 ≤ r.score)
    {o : String × List Char} (ho : o ∈ notificationOptions r) {c : Char} (h : c ∈ o.2) :
    isDoublePlain c = true := by
  have htext : ∀ s ∈ ["gaveld ", " ", " | score: ", "Approve", "Deny"],
      s.toList.all isDoublePlain = true := by decide
  have htext := fun s hs => List.all_eq_true.mp (htext s hs)
  have hdash : ∀ c ∈ dash, isDoublePlain c = true := forall_mem_of_all (by decide)
  simp only [notificationOptions, List.mem_cons, List.not_mem_nil, or_false] at ho
  rcases ho with rfl | rfl | rfl | rfl | rfl | rfl
  · simp only [List.mem_append] at h
    rcases h with ((h | h) | h) | h
    · exact htext "gaveld " (by simp) c h
    · exact hdash c h
    · exact htext " " (by simp) c h
    · exact isDoublePlain_verdict h
  · simp only [List.mem_append] at h
    rcases h with (h | h) | h
    · exact isDoublePlain_of_isPlain (hsource.chars c h)
    · exact htext " | score: " (by simp) c h
    · rw [formatF0_of_nonneg hscore] at h
      exact isDoublePlain_decimal h
  · exact htext "Approve" (by simp) c h
  · exact isDoublePlain_buttonAction (by simp) hcase h
  · exact htext "Deny" (by simp) c h
  · exact isDoublePlain_buttonAction (by simp) hcase h

/-- **The notification for a plain source.** -/
theorem notifies_notification {r : ConsentRequest} (hsource : PlainWord r.source.toList)
    (hcase : ∀ c ∈ r.caseId.toList, isDoublePlain c = true) (hscore : 0 ≤ r.score) :
    Notifies (notification r) r.source.toList := by
  have hid : run .start ("termux-notification --id ".toList ++ decimal (notifId r.caseId.toList)) =
      some ⟨.plain, some (decimal (notifId r.caseId.toList)).reverse,
        (["termux-notification".toList, "--id".toList].map .word).reverse⟩ :=
    run_trans (by rfl) ((plainWord_decimal _).run _)
  have hopts : ∀ o ∈ notificationOptions r,
      PlainWord o.1.toList ∧ ∀ c ∈ o.2, isDoublePlain c = true :=
    fun o ho => ⟨plainWord_option ho, fun c hc => isDoublePlain_option hsource hcase hscore ho hc⟩
  obtain ⟨arg, ws, hrun, hwords⟩ := run_options hopts (decimal (notifId r.caseId.toList))
    ["termux-notification".toList, "--id".toList]
  have hread := readCommand_silenced (run_trans hid hrun)
  refine ⟨_, ["--id".toList, decimal (notifId r.caseId.toList), "--title".toList,
    "gaveld ".toList ++ dash ++ " ".toList ++ r.verdict.text.toList],
    r.source.toList ++ " | score: ".toList ++ formatF0 (.finite r.score),
    ((notificationOptions r).drop 2).flatMap fun o => [o.1.toList, o.2], hread, ?_, ?_⟩
  · exact hwords
  · exact ⟨[], " | score: ".toList ++ formatF0 (.finite r.score), by simp⟩

end Notification

/-! ## Every command of a source -/

/-- A source `parse_line` and `handle_client` can deliver. -/
structure Deliverable (source : List Char) : Prop where
  bytes : '\x00' ∉ source ∧ '|' ∉ source ∧ '\n' ∉ source
  length : source.length ≤ 255

/-- A consent request about a source: the scorer has scored a signal of
it, and the case got its id from a clock in milliseconds. -/
def RequestOf (source : String) (req : ConsentRequest) : Prop :=
  ∃ (db : Db) (call : ScorerCall) (r : IngestRecord) (now ms : Int) (state : ThreatState)
    (later : Int), call.source = source ∧ -2 ^ 63 ≤ ms ∧ ms < 2 ^ 63 ∧
      req = (assembled r (scorerProcess db call).2 now ms).request state later

/-- Every line the court passes to `system()` for a source is one command
about that source, and none is cut off. -/
structure CommandsSingle (source : String) : Prop where
  enforced : ∀ list verdict (backend : Backend), ∀ c ∈ enforceExecute list source verdict,
    backend.Delivers (runCmd backend c.text) source.toList
  notified : ∀ req, RequestOf source req → Notifies (sendNotification req) source.toList
  enforcedWhole : ∀ list verdict (backend : Backend), ∀ c ∈ enforceExecute list source verdict,
    c.text = c.format ∧ runCmd backend c.text = backend.format c.text
  notifiedWhole : ∀ req, RequestOf source req → sendNotification req = notification req

section Single

variable {source : String}

theorem source_of_mem_enforceExecute {list : SovereigntyList} {verdict : Verdict} {c : Cmd}
    (h : c ∈ enforceExecute list source verdict) : c.source = source := by
  unfold enforceExecute at h
  split at h
  · rw [List.mem_singleton.mp h, Cmd.source]
  · rw [List.mem_singleton.mp h, Cmd.source]
  · rw [List.mem_singleton.mp h, Cmd.source]
  · rcases List.mem_cons.mp h with rfl | h
    · rfl
    · split at h
      · rw [List.mem_singleton.mp h, Cmd.source]
      · exact absurd h List.not_mem_nil
  · exact absurd h List.not_mem_nil

theorem Cmd.length_format (c : Cmd) : c.format.length ≤ c.source.toList.length + 25 := by
  have hnames : ∀ s ∈ ["am kill ", "am force-stop ", "pm disable-user --user 0 "],
      s.toList.length ≤ 25 := by decide
  have hname := hnames c.name c.name_mem
  rw [Cmd.format, List.length_append]
  omega

theorem Cmd.text_eq {c : Cmd} (h : c.source.toList.length ≤ 255) : c.text = c.format := by
  have := c.length_format
  exact snprintf_fits (by omega)

theorem Backend.length_format (shellCmd : List Char) (backend : Backend) :
    (backend.format shellCmd).length ≤ shellCmd.length + 70 := by
  have hrish : (rishPath.toList ++ " -c '".toList).length = 57 := by decide +kernel
  have hadb : "adb shell '".toList.length = 11 := rfl
  have hquote : "' 2>/dev/null".toList.length = 13 := rfl
  have hnull : " 2>/dev/null".toList.length = 12 := rfl
  cases backend with
  | rish =>
      unfold Backend.format
      rw [List.length_append, hrish, List.length_append]
      omega
  | adb =>
      unfold Backend.format
      rw [List.length_append, List.length_append]
      omega
  | direct =>
      unfold Backend.format
      rw [List.length_append]
      omega

theorem runCmd_eq {c : Cmd} (h : c.source.toList.length ≤ 255) (backend : Backend) :
    runCmd backend c.text = backend.format c.format := by
  have h₁ := c.length_format
  have h₂ := backend.length_format c.format
  rw [c.text_eq h]
  exact snprintf_fits (by omega)

theorem clamp_mem (x : ℚ) : 0 ≤ Scorer.clamp x ∧ Scorer.clamp x ≤ 100 := by
  unfold Scorer.clamp
  simp only
  constructor
  · split_ifs <;> linarith
  · split_ifs <;> linarith

theorem RequestOf.fields {req : ConsentRequest} (h : RequestOf source req) :
    req.source = source ∧ (0 ≤ req.score ∧ req.score ≤ 100) ∧
      ∃ ms : Int, -2 ^ 63 ≤ ms ∧ ms < 2 ^ 63 ∧ req.caseId = makeCaseId ms := by
  obtain ⟨db, call, r, now, ms, state, later, rfl, hms, hms', rfl⟩ := h
  exact ⟨rfl, clamp_mem _, ms, hms, hms', rfl⟩

theorem length_formatF0 {q : ℚ} (h : 0 ≤ q) (h' : q ≤ 100) :
    (formatF0 (.finite q)).length ≤ 3 := by
  rw [formatF0_of_nonneg h]
  refine (Nat.length_toDigits_le_iff (by decide) (by decide)).mpr ?_
  have hfloor : 0 ≤ ⌊q⌋ := Int.floor_nonneg.mpr h
  have hfloor' : ⌊q⌋ ≤ 100 := by
    have : ⌊q⌋ ≤ ⌊(100 : ℚ)⌋ := Int.floor_le_floor h'
    simpa using this
  have hround : 0 ≤ roundEven q ∧ roundEven q ≤ 101 := by
    unfold roundEven
    split_ifs <;> omega
  omega

theorem sendNotification_eq {req : ConsentRequest} (h : RequestOf source req)
    (hlen : source.toList.length ≤ 255) : sendNotification req = notification req := by
  obtain ⟨hsource, ⟨hscore, hscore'⟩, ms, hms, hms', hcase⟩ := h.fields
  refine snprintf_fits (length_notification (hsource ▸ hlen) ?_ (length_formatF0 hscore hscore'))
  rw [hcase]
  exact length_makeCaseId hms hms'

/-- **Which sources stay one command.** -/
theorem commandsSingle_iff (h : Deliverable source.toList) :
    CommandsSingle source ↔ PlainWord source.toList := by
  constructor
  · intro hsingle
    have hdirect := hsingle.enforced none (.state .warned) .direct (.amKill source) (by
      simp [enforceExecute])
    rw [runCmd_eq (c := .amKill source) h.length] at hdirect
    exact plainWord_of_delivers hdirect
  · intro hplain
    refine ⟨fun list verdict backend c hc => ?_, fun req hreq => ?_,
      fun list verdict backend c hc => ?_, fun req hreq => sendNotification_eq hreq h.length⟩
    · have hsource := source_of_mem_enforceExecute hc
      subst hsource
      rw [runCmd_eq h.length]
      exact backend.delivers_format hplain
    · rw [sendNotification_eq hreq h.length]
      obtain ⟨rfl, ⟨hscore, -⟩, ms, -, -, hcase⟩ := hreq.fields
      refine notifies_notification hplain (fun c hc => ?_) hscore
      rw [hcase] at hc
      exact isDoublePlain_makeCaseId hc
    · have hsource := source_of_mem_enforceExecute hc
      subst hsource
      rw [runCmd_eq h.length, c.text_eq h.length]
      exact ⟨rfl, rfl⟩

theorem commandsSingle_package :
    Deliverable "com.example.app".toList ∧ CommandsSingle "com.example.app" := by
  have h : Deliverable "com.example.app".toList := ⟨by decide, by decide⟩
  exact ⟨h, (commandsSingle_iff h).mpr (by decide)⟩

/-- A source that ends one command and begins another: it comes in over
the FIFO like any other, and the shell runs `reboot`. -/
theorem source_runs_command :
    (Wire.parseLine '\x00' "app; reboot|CPU_SPIKE\n".toList).map
        (Option.map Wire.WireRecord.source) = some (some "app; reboot".toList) ∧
      Deliverable "app; reboot".toList ∧
      tokens (runCmd .direct (Cmd.amKill "app; reboot").text) =
        some [.word "am".toList, .word "kill".toList, .word "app".toList, .op ';',
          .word "reboot".toList, .redirect ['2'] '>', .word "/dev/null".toList] ∧
      ¬ CommandsSingle "app; reboot" := by
  refine ⟨by decide, ⟨by decide, by decide⟩, by decide, fun h => ?_⟩
  have hdirect := h.enforced none (.state .warned) .direct (.amKill "app; reboot") (by
    simp [enforceExecute])
  rw [runCmd_eq (c := .amKill "app; reboot") (by decide)] at hdirect
  exact absurd (plainWord_of_delivers hdirect) (by decide)

end Single

end MiuiserPeruser.Gaveld
