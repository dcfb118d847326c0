import MiuiserPeruser.Gaveld.Record
import MiuiserPeruser.Gaveld.Shutdown

/-!
# gaveld — internal affairs (`audit.c`)

The audit thread looks over the court's shoulder: every five minutes, or at
once when the verdict thread refers one of the fleet's own daemons to it,
it reads the verdicts and the scores and writes what it finds to
`audit_log`. Three findings of one kind within the hour are worth a
notification to the user.

The thread runs beside the daemon of `System`, one database call a step,
and shares with it the database, the clock and `g_ia_signal`. `main` starts
it after the decay thread and stops it before. `check_stalls` only logs,
and is left out.
-/

namespace MiuiserPeruser.Gaveld

/-! ## Configuration -/

def auditIntervalSec : Nat := 300
def auditFlagWindowSec : Int := 3600
def auditRepeatThreshold : Nat := 3
def auditVerdictRateMax : Nat := 30
abbrev auditScoreInflation : ℚ := 60

/-- The size of `rows` in `check_score_inflation`. -/
def auditMaxRows : Nat := 512

/-! ## audit_log -/

/-- The `audit_check` column. -/
inductive AuditCheck where
  | verdictRate | scoreInflation | iaReferral
  deriving DecidableEq, Repr

/-- The `result` column. -/
inductive AuditResult where
  | flag | ok | reviewed
  deriving DecidableEq, Repr

/-- A row of `audit_log`. -/
structure AuditRow where
  epoch : Int
  check : AuditCheck
  result : AuditResult
  detail : String
  deriving DecidableEq, Repr

def dbVerdictCountAll (db : Db) (since : Int) : Nat :=
  (db.verdicts.filter fun v => v.epoch > since).length

def dbVerdictCountByType (db : Db) (verdict : Verdict) (since : Int) : Nat :=
  (db.verdicts.filter fun v => v.verdict = verdict ∧ v.epoch > since).length

def dbAuditLogInsert (log : List AuditRow) (r : AuditRow) : List AuditRow := log ++ [r]

def dbAuditFlagCount (log : List AuditRow) (check : AuditCheck) (since : Int) : Nat :=
  (log.filter fun r => r.check = check ∧ r.result = .flag ∧ r.epoch > since).length

/-- What a check writes in `detail`. -/
def AuditCheck.detail : AuditCheck → AuditResult → String
  | .verdictRate, .flag => "JAILED verdict rate exceeded threshold"
  | .scoreInflation, .flag => "Average score exceeds inflation threshold"
  | .iaReferral, .reviewed => "IA_REFERRAL verdicts logged, no enforcement"
  | _, _ => ""

/-- A notification, and the tick it was sent in. -/
structure Notice where
  title : String
  content : String
  now : Int
  deriving DecidableEq, Repr

/-- The `notify_user` call of a check. -/
def AuditCheck.notifyUser (now : Int) : AuditCheck → Notice
  | .verdictRate => ⟨"verdict rate", "High JAILED rate — possible false positives", now⟩
  | .scoreInflation =>
      ⟨"score inflation", "Average threat score elevated — review scoring weights", now⟩
  -- check_ia_referrals has none
  | .iaReferral => ⟨"", "", now⟩

/-! ## The thread -/

/-- Where the audit thread stands. A tick is everything from `time` to the
return to `sleep`. -/
inductive AuditPc where
  | off
  /-- Before the `i`-th second of the sleep. -/
  | sleep (i : Nat)
  /-- At the test of `g_running` after the sleep. -/
  | wake
  | time
  | totals (now : Int)
  | jailed (now : Int) (total : Nat)
  | scores (now : Int)
  | referrals (now : Int)
  | insert (now : Int) (check : AuditCheck) (result : AuditResult)
  | flags (now : Int) (check : AuditCheck)
  | notify (now : Int) (check : AuditCheck)
  deriving DecidableEq

/-- What follows a check in `audit_tick`. -/
def AuditCheck.next (now : Int) : AuditCheck → AuditPc
  | .verdictRate => .scores now
  | .scoreInflation => .referrals now
  | .iaReferral => .sleep 0

/-- The percentage of `check_verdict_rate`. -/
def jailedPct (jailed total : Nat) : Nat := jailed * 100 / total

/-- The average of `check_score_inflation`. -/
def averageScore (rows : List Threat) : ℚ := (rows.map Threat.score).sum / rows.length

/-- The daemon with its audit thread. `signal` is `g_ia_signal`; at
`signalling` the verdict thread stands before `audit_signal_ia_referral`. -/
structure AuditedSys where
  gaveld : Sys
  log : List AuditRow
  pc : AuditPc
  started : Bool
  running : Bool
  signal : Bool
  signalling : Bool

/-- A process about to start its threads. -/
def AuditedSys.boot (env : Env) (db : Db) (log : List AuditRow) : AuditedSys :=
  ⟨.boot env db, log, .off, false, false, false, false⟩

/-- One step of `audit_thread`. -/
def auditThreadStep (a : AuditedSys) : AuditedSys × List Notice :=
  match a.pc with
  | .off => (a, [])
  | .sleep i =>
      if i < auditIntervalSec ∧ a.running then
        if a.signal then ({ a with signal := false, pc := .wake }, [])
        else ({ a with pc := .sleep (i + 1) }, [])
      else ({ a with pc := .wake }, [])
  | .wake => ({ a with pc := if a.running then .time else .off }, [])
  | .time => ({ a with pc := .totals a.gaveld.env.time }, [])
  | .totals now =>
      let since := now - auditFlagWindowSec
      ({ a with pc := .jailed now (dbVerdictCountAll a.gaveld.db since) }, [])
  | .jailed now total =>
      let jailed := dbVerdictCountByType a.gaveld.db (.state .jailed) (now - auditFlagWindowSec)
      let result := if jailedPct jailed total > auditVerdictRateMax then .flag else .ok
      ({ a with pc := if total < 5 then .scores now else .insert now .verdictRate result }, [])
  | .scores now =>
      let rows := dbThreatAll a.gaveld.db auditMaxRows
      let result := if averageScore rows > auditScoreInflation then .flag else .ok
      ({ a with pc :=
          if rows.length = 0 then .referrals now else .insert now .scoreInflation result }, [])
  | .referrals now =>
      let since := now - auditIntervalSec * 2
      let refs := dbVerdictCountByType a.gaveld.db .iaReferral since
      ({ a with pc := if refs > 0 then .insert now .iaReferral .reviewed else .sleep 0 }, [])
  | .insert now check result =>
      ({ a with
          log := dbAuditLogInsert a.log ⟨now, check, result, check.detail result⟩,
          pc := if result = .flag then .flags now check else check.next now }, [])
  | .flags now check =>
      let flags := dbAuditFlagCount a.log check (now - auditFlagWindowSec)
      ({ a with pc := if flags ≥ auditRepeatThreshold then .notify now check else check.next now },
        [])
  | .notify now check => ({ a with pc := check.next now }, [check.notifyUser now])

/-! ## The daemon around it -/

inductive AuditLabel where
  | gaveld (l : Label)
  | audit
  deriving DecidableEq

/-- The verdict thread is about to return from `verdict_emit` of a referral. -/
def VerdictPc.referred : VerdictPc → Bool
  | .emit _ .iaReferral _ .status => true
  | _ => false

/-- `main`, with `audit_start` before `ingest_start` and `audit_stop` before
`decay_stop`. -/
def auditedMain (a : AuditedSys) : AuditedSys :=
  if a.gaveld.main = .startIngest ∧ a.started = false then
    { a with started := true, running := true, pc := .sleep 0 }
  else if a.gaveld.main = .stopDecay ∧ a.running then { a with running := false }
  -- the join waits for the thread to be off
  else if a.gaveld.main = .stopDecay ∧ a.pc ≠ .off then a
  else { a with gaveld := (step a.gaveld .main).1 }

/-- The verdict thread, with `audit_signal_ia_referral` after a referral. -/
def auditedVerdict (a : AuditedSys) : AuditedSys :=
  if a.signalling then { a with signal := true, signalling := false }
  else
    { a with gaveld := (step a.gaveld .verdict).1, signalling := a.gaveld.verdict.referred }

def auditedStep (a : AuditedSys) : AuditLabel → AuditedSys × List Notice
  | .audit => auditThreadStep a
  | .gaveld .main => (auditedMain a, [])
  | .gaveld .verdict => (auditedVerdict a, [])
  | .gaveld .restart => (.boot a.gaveld.env a.gaveld.db a.log, [])
  | .gaveld l => ({ a with gaveld := (step a.gaveld l).1 }, [])

/-- The state and the notifications of a run, from a start on any database. -/
def auditedRun (env : Env) (db : Db) (log : List AuditRow) (ls : List AuditLabel) :
    AuditedSys × List Notice :=
  Machine.run auditedStep (.boot env db log) ls

/-! ## The court does not notice -/

/-- A step leaves the daemon alone, or is a step of the daemon. -/
theorem auditedStep_gaveld (a : AuditedSys) (l : AuditLabel) :
    (auditedStep a l).1.gaveld = a.gaveld ∨
      ∃ m, l = .gaveld m ∧ (auditedStep a l).1.gaveld = (step a.gaveld m).1 := by
  cases l with
  | audit =>
      refine .inl ?_
      simp only [auditedStep, auditThreadStep]
      cases a.pc with
      | sleep i => simp only; split <;> [split; skip] <;> rfl
      | _ => rfl
  | gaveld m =>
      cases m with
      | main =>
          simp only [auditedStep, auditedMain]
          split
          · exact .inl rfl
          split
          · exact .inl rfl
          split
          · exact .inl rfl
          · exact .inr ⟨_, rfl, rfl⟩
      | verdict =>
          simp only [auditedStep, auditedVerdict]
          split
          · exact .inl rfl
          · exact .inr ⟨_, rfl, rfl⟩
      | _ => exact .inr ⟨_, rfl, rfl⟩

/-- The notification a row calls for, after the rows before it. -/
def AuditRow.notice (seen : List AuditRow) (r : AuditRow) : List Notice :=
  if r.result = .flag ∧
      dbAuditFlagCount (seen ++ [r]) r.check (r.epoch - auditFlagWindowSec) ≥ auditRepeatThreshold
  then [r.check.notifyUser r.epoch] else []

def noticesAfter (seen : List AuditRow) : List AuditRow → List Notice
  | [] => []
  | r :: rest => r.notice seen ++ noticesAfter (seen ++ [r]) rest

/-- The notifications the log calls for: one for each flag that is at least
the third of its check within the hour. -/
def noticesDue (log : List AuditRow) : List Notice := noticesAfter [] log

theorem noticesAfter_concat (seen log : List AuditRow) (r : AuditRow) :
    noticesAfter seen (log ++ [r]) = noticesAfter seen log ++ r.notice (seen ++ log) := by
  induction log generalizing seen with
  | nil => simp [noticesAfter]
  | cons x xs ih => simp only [List.cons_append, noticesAfter, ih, List.append_assoc, List.nil_append]

/-- The notification the thread stands before. -/
def AuditPc.inFlight (log : List AuditRow) : AuditPc → List Notice
  | .flags now check =>
      if dbAuditFlagCount log check (now - auditFlagWindowSec) ≥ auditRepeatThreshold then
        [check.notifyUser now]
      else []
  | .notify now check => [check.notifyUser now]
  | _ => []

theorem AuditPc.inFlight_length (log : List AuditRow) (pc : AuditPc) :
    (pc.inFlight log).length ≤ 1 := by
  cases pc with
  | flags now check => simp only [AuditPc.inFlight]; split <;> simp
  | _ => simp [AuditPc.inFlight]

theorem AuditCheck.next_inFlight (log : List AuditRow) (now : Int) (check : AuditCheck) :
    (check.next now).inFlight log = [] := by
  cases check <;> rfl

/-- The notifications sent keep up with the log, and the thread is off until
it is started. -/
structure Notified (a : AuditedSys) (notices : List Notice) (n : Nat) : Prop where
  off : a.started = false → a.pc = .off
  behind : Journal.Behind (noticesDue a.log) notices (a.pc.inFlight a.log) n

theorem Notified.thread {a : AuditedSys} {notices : List Notice} {n : Nat}
    (h : Notified a notices n) :
    Notified (auditThreadStep a).1 (notices ++ (auditThreadStep a).2) n := by
  obtain ⟨hoff, hbehind⟩ := h
  -- a step that stands before nothing and goes on standing before nothing
  have quiet : ∀ a' : AuditedSys, a.pc ≠ .off → a'.started = a.started → a'.log = a.log →
      a.pc.inFlight a.log = [] → a'.pc.inFlight a.log = [] → Notified a' (notices ++ []) n := by
    intro a' hpc hstarted hlog hbefore hafter
    refine ⟨fun hs => absurd (hoff (hstarted ▸ hs)) hpc, ?_⟩
    rw [List.append_nil, hlog, hafter, ← hbefore]
    exact hbehind
  unfold auditThreadStep
  cases hpc : a.pc with
  | off => exact ⟨hoff, by rw [List.append_nil]; exact hbehind⟩
  | sleep i =>
      simp only
      split <;> [split; skip]
      all_goals exact quiet _ (by simp [hpc]) rfl rfl (by rw [hpc]; rfl) rfl
  | wake =>
      refine quiet _ (by simp [hpc]) rfl rfl (by rw [hpc]; rfl) ?_
      simp only
      split <;> rfl
  | time | totals => exact quiet _ (by simp [hpc]) rfl rfl (by rw [hpc]; rfl) rfl
  | jailed | scores | referrals =>
      refine quiet _ (by simp [hpc]) rfl rfl (by rw [hpc]; rfl) ?_
      simp only
      split <;> rfl
  | insert now check result =>
      rw [hpc] at hbehind
      refine ⟨fun hs => absurd (hoff hs) (by simp [hpc]), ?_⟩
      have hdue := noticesAfter_concat [] a.log ⟨now, check, result, check.detail result⟩
      simp only [dbAuditLogInsert, List.append_nil]
      rw [noticesDue, hdue]
      have hnext : AuditRow.notice ([] ++ a.log) ⟨now, check, result, check.detail result⟩ =
          (if result = .flag then AuditPc.flags now check else check.next now).inFlight
            (a.log ++ [⟨now, check, result, check.detail result⟩]) := by
        by_cases hflag : result = .flag
        · simp [AuditRow.notice, AuditPc.inFlight, hflag]
        · simp [AuditRow.notice, hflag, AuditCheck.next_inFlight]
      rw [hnext]
      exact hbehind.call _
  | flags now check =>
      rw [hpc] at hbehind
      refine ⟨fun hs => absurd (hoff hs) (by simp [hpc]), ?_⟩
      rw [List.append_nil]
      simp only [AuditPc.inFlight] at hbehind
      split at hbehind
      · rename_i h
        simp only [if_pos h]
        exact hbehind
      · rename_i h
        simp only [if_neg h]
        rwa [AuditCheck.next_inFlight]
  | notify now check =>
      rw [hpc] at hbehind
      refine ⟨fun hs => absurd (hoff hs) (by simp [hpc]), ?_⟩
      simp only [AuditCheck.next_inFlight]
      exact hbehind.deliver

/-- Steps of the daemon send nothing; a restart forgets what stood to be
sent. -/
theorem Notified.step {a : AuditedSys} {notices : List Notice} {n : Nat}
    (h : Notified a notices n) (l : AuditLabel) :
    Notified (auditedStep a l).1 (notices ++ (auditedStep a l).2)
      (n + if l = .gaveld .restart then 1 else 0) := by
  obtain ⟨hoff, hbehind⟩ := h
  cases l with
  | audit => exact Notified.thread ⟨hoff, hbehind⟩
  | gaveld m =>
      cases m with
      | main =>
          simp only [auditedStep, auditedMain, List.append_nil]
          split
          · rename_i hstart
            rw [hoff hstart.2] at hbehind
            exact ⟨fun hs => (by cases hs), hbehind⟩
          split
          · exact ⟨hoff, hbehind⟩
          split <;> exact ⟨hoff, hbehind⟩
      | verdict =>
          simp only [auditedStep, auditedVerdict, List.append_nil]
          split <;> exact ⟨hoff, hbehind⟩
      | restart =>
          refine ⟨fun _ => rfl, ?_⟩
          simp only [auditedStep, List.append_nil, if_true]
          exact hbehind.crash (AuditPc.inFlight_length _ _)
      | _ =>
          simp only [auditedStep, List.append_nil]
          exact ⟨hoff, hbehind⟩

/-- What a step adds to the verdicts: nothing, or the row of a thread that
stands at its insert. -/
theorem step_verdicts {s : Sys} (ho : Orderly s) (l : Label) :
    (step s l).1.db.verdicts = s.db.verdicts ∨
      (∃ c verdict granted now, l = .verdict ∧ s.verdict = .emit c verdict granted (.insert now) ∧
        (step s l).1.db.verdicts = s.db.verdicts ++ [(c.emission verdict granted).row now] ∧
        (step s l).1.verdict =
          .emit c verdict granted (if verdict.contains then .criminal now else .status)) ∨
      ∃ req approved now, l = .consent ∧
        (step s l).1.db.verdicts =
          s.db.verdicts ++ [(ConsentRequest.emission req approved).row now] := by
  by_cases hj : Judicial s l
  · cases hj with
    | verdict =>
        have m := verdictStep_move s
        generalize hpc : s.verdict = pc at m
        rw [show step s .verdict = verdictStep s from rfl]
        generalize (verdictStep s).1 = s' at m
        generalize (verdictStep s).2 = es at m
        cases m with
        | emitInsert => exact .inr (.inl ⟨_, _, _, _, rfl, rfl, rfl, rfl⟩)
        | _ => exact .inl rfl
    | consent =>
        have m := consentStep_move s
        generalize hpc : s.consent = pc at m
        rw [show step s .consent = consentStep s from rfl]
        generalize (consentStep s).1 = s' at m
        generalize (consentStep s).2 = es at m
        cases m with
        | emitInsert => exact .inr (.inr ⟨_, _, _, rfl, rfl⟩)
        | _ => exact .inl rfl
    | restart => exact .inl rfl
    | startVerdict hm => exact .inl (by rw [step_startVerdict hm])
    | resetPending hm => exact .inl (by rw [step_resetPending hm])
    | startConsent hm => exact .inl (by rw [step_startConsent hm])
    | replying hm hfree => exact .inl (by rw [step_replying hm hfree, replyRequest_frame])
  · exact .inl (congrArg Bench.verdicts (step_bench ho hj).1)

/-- What the audit thread has in front of it when it decides on a finding. -/
def Evidence (a : AuditedSys) (now : Int) : AuditCheck → AuditResult → Prop
  | .verdictRate, result =>
      ∃ total, a.pc = .jailed now total ∧ 5 ≤ total ∧
        (result = .flag ↔
          jailedPct (dbVerdictCountByType a.gaveld.db (.state .jailed) (now - auditFlagWindowSec)) total >
            auditVerdictRateMax)
  | .scoreInflation, result =>
      let rows := dbThreatAll a.gaveld.db auditMaxRows
      a.pc = .scores now ∧ rows ≠ [] ∧ (result = .flag ↔ averageScore rows > auditScoreInflation)
  | .iaReferral, result =>
      a.pc = .referrals now ∧ result = .reviewed ∧
        0 < dbVerdictCountByType a.gaveld.db .iaReferral (now - auditIntervalSec * 2)

/-- The row at `i` is what the audit thread wrote in its next step after the one
that follows `pre`, in the same process. -/
def WrittenFrom (env : Env) (ls : List AuditLabel) (log : List AuditRow) (i : Nat)
    (pre : List AuditLabel) : Prop :=
  (auditedRun env .empty [] pre).1.log = log.take i ∧
    ∃ mid, (∀ l ∈ mid, l ≠ .audit ∧ l ≠ .gaveld .restart) ∧
      pre ++ .audit :: (mid ++ [.audit]) <+: ls ∧
      (auditedRun env .empty [] (pre ++ .audit :: (mid ++ [.audit]))).1.log = log.take (i + 1)

/-- A row stands on what the thread had in front of it. -/
def RowGrounded (env : Env) (ls : List AuditLabel) (log : List AuditRow) (i : Nat) (r : AuditRow) : Prop :=
  ∃ pre, WrittenFrom env ls log i pre ∧
    Evidence (auditedRun env .empty [] pre).1 r.epoch r.check r.result

/-- More rows and more labels do not change it. -/
theorem RowGrounded.mono {env : Env} {ls ls' : List AuditLabel} {log : List AuditRow} {i : Nat} {r : AuditRow}
    (h : RowGrounded env ls log i r) (hi : i < log.length) (hls : ls <+: ls') (more : List AuditRow) :
    RowGrounded env ls' (log ++ more) i r := by
  obtain ⟨pre, ⟨hbefore, mid, hmid, hpre, hafter⟩, hevidence⟩ := h
  refine ⟨pre, ⟨?_, mid, hmid, hpre.trans hls, ?_⟩, hevidence⟩
  · rw [hbefore, List.take_append_of_le_length (by omega)]
  · rw [hafter, List.take_append_of_le_length (by omega)]

/-- Every row of the log is grounded, and so is the one about to be written. -/
structure Grounded (env : Env) (ls : List AuditLabel) (a : AuditedSys) : Prop where
  here : a = (auditedRun env .empty [] ls).1
  rows : ∀ i r, a.log[i]? = some r → RowGrounded env ls a.log i r
  next : ∀ now check result, a.pc = .insert now check result →
    ∃ pre mid, ls = pre ++ .audit :: mid ∧ (∀ l ∈ mid, l ≠ .audit ∧ l ≠ .gaveld .restart) ∧
      (auditedRun env .empty [] pre).1.log = a.log ∧
      Evidence (auditedRun env .empty [] pre).1 now check result

/-- The decisions of the checks stand on what is there. -/
theorem auditThreadStep_insert {a : AuditedSys} {now : Int} {check : AuditCheck}
    {result : AuditResult} (h : (auditThreadStep a).1.pc = .insert now check result) :
    (auditThreadStep a).1.log = a.log ∧ Evidence a now check result := by
  have hflag : ∀ (p : Prop) [Decidable p],
      ((if p then AuditResult.flag else AuditResult.ok) = .flag ↔ p) := by
    intro p _
    split <;> simp_all
  unfold auditThreadStep at h ⊢
  cases hpc : a.pc with
  | jailed now' total =>
      simp only [hpc] at h
      split at h
      · cases h
      · rename_i htotal
        obtain ⟨rfl, rfl, rfl⟩ := AuditPc.insert.inj h
        exact ⟨rfl, total, hpc, Nat.not_lt.mp htotal, hflag _⟩
  | scores now' =>
      simp only [hpc] at h
      split at h
      · cases h
      · rename_i hrows
        obtain ⟨rfl, rfl, rfl⟩ := AuditPc.insert.inj h
        exact ⟨rfl, hpc, fun hnil => hrows (by rw [hnil]; rfl), hflag _⟩
  | referrals now' =>
      simp only [hpc] at h
      split at h
      · rename_i hrefs
        obtain ⟨rfl, rfl, rfl⟩ := AuditPc.insert.inj h
        exact ⟨rfl, hpc, rfl, hrefs⟩
      · cases h
  | sleep i =>
      simp only [hpc] at h
      split at h <;> [split at h; skip] <;> cases h
  | wake =>
      simp only [hpc] at h
      split at h <;> cases h
  | insert now' check' result' =>
      simp only [hpc] at h
      split at h <;> [skip; cases check'] <;> cases h
  | flags now' check' =>
      simp only [hpc] at h
      split at h <;> [skip; cases check'] <;> cases h
  | notify now' check' =>
      simp only [hpc] at h
      cases check' <;> cases h
  | off =>
      simp only [hpc] at h
      cases h
  | time | totals =>
      simp only [hpc] at h
      cases h

/-- The audit thread adds to the log the row it was to insert, if any. -/
theorem auditThreadStep_log (a : AuditedSys) :
    (auditThreadStep a).1.log = a.log ∨
      ∃ now check result, a.pc = .insert now check result ∧
        (auditThreadStep a).1.log = a.log ++ [⟨now, check, result, check.detail result⟩] := by
  unfold auditThreadStep
  cases hpc : a.pc with
  | insert now check result => exact .inr ⟨now, check, result, rfl, rfl⟩
  | sleep i => simp only; split <;> [split; skip] <;> exact .inl rfl
  | _ => exact .inl rfl

/-- A step of the daemon leaves the log alone, and where the audit thread
stands; only a start and the end of the process move it. -/
theorem auditedStep_aside (a : AuditedSys) (m : Label) :
    (auditedStep a (.gaveld m)).1.log = a.log ∧
      ((auditedStep a (.gaveld m)).1.pc = a.pc ∨ (auditedStep a (.gaveld m)).1.pc = .sleep 0 ∨
        (auditedStep a (.gaveld m)).1.pc = .off) := by
  cases m with
  | main =>
      simp only [auditedStep, auditedMain]
      split
      · exact ⟨rfl, .inr (.inl rfl)⟩
      split
      · exact ⟨rfl, .inl rfl⟩
      split <;> exact ⟨rfl, .inl rfl⟩
  | verdict =>
      simp only [auditedStep, auditedVerdict]
      split <;> exact ⟨rfl, .inl rfl⟩
  | restart => exact ⟨rfl, .inr (.inr rfl)⟩
  | _ => exact ⟨rfl, .inl rfl⟩

theorem audited_orderly {a : AuditedSys} (h : Orderly a.gaveld) (l : AuditLabel) :
    Orderly (auditedStep a l).1.gaveld := by
  rcases auditedStep_gaveld a l with hg | ⟨m, -, hg⟩
  · rw [hg]
    exact h
  · rw [hg]
    exact orderly_step _ _ h

theorem Grounded.step {env : Env} {ls : List AuditLabel} {a : AuditedSys}
    (h : Grounded env ls a) (l : AuditLabel) :
    Grounded env (ls ++ [l]) (auditedStep a l).1 := by
  have hhere : (auditedStep a l).1 = (auditedRun env .empty [] (ls ++ [l])).1 :=
    (congrArg (fun a => (auditedStep a l).1) h.here).trans (Machine.run_concat _ _ _).symm
  have hls : ls <+: ls ++ [l] := List.prefix_append _ _
  refine ⟨hhere, fun i r hr => ?_, fun now check result hpc => ?_⟩
  · cases l with
    | gaveld m =>
        have hlog := (auditedStep_aside a m).1
        rw [hlog] at hr ⊢
        have hmono := (h.rows i r hr).mono (List.getElem?_eq_some_iff.mp hr).1 hls []
        rwa [List.append_nil] at hmono
    | audit =>
        rcases auditThreadStep_log a with hlog | ⟨now, check, result, hpc, hlog⟩
        · rw [show (auditedStep a .audit).1.log = a.log from hlog] at hr ⊢
          have hmono := (h.rows i r hr).mono (List.getElem?_eq_some_iff.mp hr).1 hls []
          rwa [List.append_nil] at hmono
        · have hlog : (auditedStep a .audit).1.log = _ := hlog
          rw [hlog] at hr ⊢
          by_cases hi : i < a.log.length
          · rw [List.getElem?_append_left hi] at hr
            exact (h.rows i r hr).mono hi hls _
          · -- the row that is written by this step
            rw [List.getElem?_append_right (by omega)] at hr
            obtain ⟨hzero, hrow⟩ := List.getElem?_eq_some_iff.mp hr
            have hend : i = a.log.length := by
              simp only [List.length_singleton] at hzero
              omega
            subst hend
            simp only [Nat.sub_self, List.getElem_cons_zero] at hrow
            subst hrow
            obtain ⟨pre, mid, rfl, hmid, hbefore, hevidence⟩ := h.next now check result hpc
            refine ⟨pre, ⟨?_, mid, hmid, ?_, ?_⟩, hevidence⟩
            · rw [hbefore, List.take_left]
            · rw [List.append_assoc, List.cons_append]
            · have hafter := congrArg AuditedSys.log hhere
              rw [hlog, List.append_assoc, List.cons_append] at hafter
              rw [← hafter, List.take_of_length_le (by simp)]
  · cases l with
    | gaveld m =>
        have hm : m ≠ .restart := by
          rintro rfl
          cases hpc
        have hsame : a.pc = .insert now check result := by
          rcases (auditedStep_aside a m).2 with hold | hsleep | hoff
          · exact hold ▸ hpc
          · rw [hsleep] at hpc
            cases hpc
          · rw [hoff] at hpc
            cases hpc
        obtain ⟨pre, mid, rfl, hmid, hbefore, hevidence⟩ := h.next now check result hsame
        refine ⟨pre, mid ++ [.gaveld m], by simp, ?_, ?_, hevidence⟩
        · intro l' hl'
          rcases List.mem_append.mp hl' with hl' | hl'
          · exact hmid l' hl'
          · rw [List.mem_singleton.mp hl']
            exact ⟨by simp, by simpa using hm⟩
        · rw [hbefore, (auditedStep_aside a m).1]
    | audit =>
        obtain ⟨hlog, hevidence⟩ := auditThreadStep_insert hpc
        refine ⟨ls, [], rfl, fun l' hl' => (nomatch hl'), ?_, h.here ▸ hevidence⟩
        rw [← h.here]
        exact hlog.symm

/-- In a tick that has not counted the referrals yet. -/
def AuditPc.uncounted : AuditPc → Bool
  | .wake | .time | .totals _ | .jailed _ _ | .scores _ | .referrals _ => true
  | .insert _ check _ | .flags _ check | .notify _ check => check ≠ .iaReferral
  | .off | .sleep _ => false

/-- A referral is still to be counted: the audit thread is told, or about to
be, or on its way to the count; or it has been stopped. -/
def AuditedSys.Told (a : AuditedSys) : Prop :=
  a.started = true ∧ a.running = false ∨ a.gaveld.verdict.referred = true ∨
    a.signalling = true ∨ a.signal = true ∨ a.pc.uncounted = true

/-- A referral was in the table when a tick counted, and was reviewed unless
it was too old for that tick. -/
def Counted (env : Env) (db : Db) (log : List AuditRow) (ls : List AuditLabel) (a : AuditedSys)
    (v : VerdictRow) : Prop :=
  ∃ pre now, pre ++ [.audit] <+: ls ∧ (auditedRun env db log pre).1.pc = .referrals now ∧
    v ∈ (auditedRun env db log pre).1.gaveld.db.verdicts ∧
    (v.epoch > now - auditIntervalSec * 2 →
      a.pc = .insert now .iaReferral .reviewed ∨
        ∃ r ∈ a.log, r.check = .iaReferral ∧ r.result = .reviewed ∧ r.epoch = now)

/-- `main` has not come to `audit_start` yet. -/
def MainPc.beforeAudit : MainPc → Bool
  | .startDecay | .startIngest => true
  | _ => false

/-- Before the audit thread is started there is nothing to refer; from then
on every referral is still to be counted or counted. -/
structure Heard (env : Env) (db : Db) (log : List AuditRow) (ls : List AuditLabel)
    (a : AuditedSys) : Prop where
  orderly : Orderly a.gaveld
  here : a = (auditedRun env db log ls).1
  off : a.started = false → a.pc = .off
  starting : a.started = false → a.gaveld.main.beforeAudit = true
  fresh : a.started = false → a.gaveld.db.verdicts = db.verdicts
  rows : ∀ v ∈ a.gaveld.db.verdicts.drop db.verdicts.length, v.verdict = .iaReferral →
    v.consentRequired = false → a.Told ∨ Counted env db log ls a v

/-- The verdict thread moves with its own steps, and when it is started. -/
theorem step_verdict_still {s : Sys} (ho : Orderly s) {l : Label} (hv : l ≠ .verdict)
    (hr : l ≠ .restart) (hs : s.verdict.idle = false) : (step s l).1.verdict = s.verdict := by
  by_cases hj : Judicial s l
  · cases hj with
    | verdict => exact absurd rfl hv
    | restart => exact absurd rfl hr
    | consent =>
        rw [show step s .consent = consentStep s from rfl, consentStep_frame]
    | startVerdict hm =>
        rw [(ho.quiet (by rw [hm]; rfl)).2.2] at hs
        cases hs
    | resetPending hm => rw [step_resetPending hm]
    | startConsent hm => rw [step_startConsent hm]
    | replying hm hfree => rw [step_replying hm hfree, replyRequest_frame]
  · exact congrArg Bench.verdict (step_bench ho hj).1

theorem VerdictPc.not_idle_of_referred {pc : VerdictPc} (h : pc.referred = true) :
    pc.idle = false := by
  cases pc <;> first | rfl | cases h

/-- While `main` starts, no verdict is written. -/
theorem step_verdicts_starting {s : Sys} (ho : Orderly s) (hm : s.main.beforeConsent = true)
    (l : Label) : (step s l).1.db.verdicts = s.db.verdicts := by
  rcases step_verdicts ho l with h | ⟨c, verdict, granted, now, -, hpc, -, -⟩ | ⟨_, _, _, rfl, -⟩
  · exact h
  · have hidle := (ho.quiet (starting_of_beforeConsent hm)).2.2
    rw [hpc] at hidle
    cases hidle
  · rw [show step s .consent = consentStep s from rfl, consentStep_off (ho.clear hm).2]

/-! The audit thread -/

theorem told_thread {a : AuditedSys} (hoff : a.started = false → a.pc = .off) (h : a.Told)
    (hpc : ∀ now, a.pc ≠ .referrals now) : (auditThreadStep a).1.Told := by
  have hstarted : a.pc ≠ .off → a.started = true := fun hne => by
    cases hs : a.started with
    | true => rfl
    | false => exact absurd (hoff hs) hne
  unfold AuditedSys.Told at h ⊢
  unfold auditThreadStep
  cases hp : a.pc with
  | referrals now => exact absurd hp (hpc now)
  | wake =>
      have hs := hstarted (by simp [hp])
      cases a.running <;> simp [hs, AuditPc.uncounted]
  | off => simpa [hp] using h
  | sleep i =>
      simp only
      split <;> [split; skip] <;> simp_all [AuditPc.uncounted]
  | time | totals => simp [AuditPc.uncounted]
  | jailed | scores =>
      simp only
      split <;> simp [AuditPc.uncounted]
  | insert now check result =>
      simp only
      cases check <;> split <;> simp_all [AuditPc.uncounted, AuditCheck.next]
  | flags now check =>
      simp only
      cases check <;> split <;> simp_all [AuditPc.uncounted, AuditCheck.next]
  | notify now check => cases check <;> simp_all [AuditPc.uncounted, AuditCheck.next]

/-- The count sees the rows that are there, and asks for a review of one
that is recent enough. -/
theorem counted_now {env : Env} {db : Db} {log : List AuditRow} {ls : List AuditLabel}
    {a : AuditedSys} (hhere : a = (auditedRun env db log ls).1) {now : Int}
    (hpc : a.pc = .referrals now) {v : VerdictRow} (hv : v ∈ a.gaveld.db.verdicts)
    (href : v.verdict = .iaReferral) :
    Counted env db log (ls ++ [.audit]) (auditThreadStep a).1 v := by
  refine ⟨ls, now, List.prefix_rfl, hhere ▸ hpc, hhere ▸ hv, fun hrecent => .inl ?_⟩
  have hpos : dbVerdictCountByType a.gaveld.db .iaReferral (now - auditIntervalSec * 2) > 0 := by
    refine List.length_pos_iff_exists_mem.mpr ⟨v, List.mem_filter.mpr ⟨hv, ?_⟩⟩
    simpa [href] using hrecent
  simp only [auditThreadStep, hpc]
  rw [if_pos hpos]

/-- A review asked for is written. -/
theorem Counted.thread {env : Env} {db : Db} {log : List AuditRow} {ls : List AuditLabel}
    {a : AuditedSys} {v : VerdictRow} (h : Counted env db log ls a v) :
    Counted env db log (ls ++ [.audit]) (auditThreadStep a).1 v := by
  obtain ⟨pre, now, hpre, hpc, hv, hreview⟩ := h
  refine ⟨pre, now, hpre.trans (List.prefix_append _ _), hpc, hv, fun hrecent => .inr ?_⟩
  rcases hreview hrecent with hinsert | ⟨r, hr, hfound⟩
  · refine ⟨⟨now, .iaReferral, .reviewed, AuditCheck.detail .iaReferral .reviewed⟩, ?_, rfl, rfl, rfl⟩
    simp only [auditThreadStep, hinsert]
    exact List.mem_append_right _ List.mem_cons_self
  · refine ⟨r, ?_, hfound⟩
    rcases auditThreadStep_log a with hlog | ⟨_, _, _, -, hlog⟩
    · rwa [hlog]
    · rw [hlog]
      exact List.mem_append_left _ hr

/-! The daemon -/

/-- A step of the daemon, short of its end, leaves what a referral waits for. -/
theorem told_gaveld {a : AuditedSys} (ho : Orderly a.gaveld)
    (hoff : a.started = false → a.pc = .off) (h : a.Told) {m : Label} (hm : m ≠ .restart) :
    (auditedStep a (.gaveld m)).1.Told := by
  unfold AuditedSys.Told at h ⊢
  have still : m ≠ .verdict → a.gaveld.verdict.referred = true →
      (step a.gaveld m).1.verdict.referred = true := fun hv href => by
    rwa [step_verdict_still ho hv hm (VerdictPc.not_idle_of_referred href)]
  cases m with
  | restart => exact absurd rfl hm
  | main =>
      simp only [auditedStep, auditedMain]
      split
      · rename_i hstart
        rw [hoff hstart.2, hstart.2] at h
        simpa [AuditPc.uncounted] using h
      split
      · exact h.imp (fun h => ⟨h.1, rfl⟩) id
      split
      · exact h
      · exact h.imp id (Or.imp (still (by simp)) id)
  | verdict =>
      simp only [auditedStep, auditedVerdict]
      split
      · simp
      · rename_i hnot
        rcases h with h | h | h | h
        · exact .inl h
        · exact .inr (.inr (.inl h))
        · exact absurd h hnot
        · exact .inr (.inr (.inr h))
  | _ => exact h.imp id (Or.imp (still (by simp)) id)

theorem Counted.gaveld {env : Env} {db : Db} {log : List AuditRow} {ls : List AuditLabel}
    {a : AuditedSys} {v : VerdictRow} (hoff : a.started = false → a.pc = .off)
    (h : Counted env db log ls a v) {m : Label} (hm : m ≠ .restart) :
    Counted env db log (ls ++ [.gaveld m]) (auditedStep a (.gaveld m)).1 v := by
  obtain ⟨pre, now, hpre, hpc, hv, hreview⟩ := h
  refine ⟨pre, now, hpre.trans (List.prefix_append _ _), hpc, hv, fun hrecent => ?_⟩
  rcases hreview hrecent with hinsert | hfound
  · refine .inl ?_
    rw [← hinsert]
    cases m with
    | restart => exact absurd rfl hm
    | main =>
        simp only [auditedStep, auditedMain]
        split
        · rename_i hstart
          rw [hoff hstart.2] at hinsert
          cases hinsert
        split
        · rfl
        split <;> rfl
    | verdict =>
        simp only [auditedStep, auditedVerdict]
        split <;> rfl
    | _ => rfl
  · refine .inr ?_
    rw [(auditedStep_aside a m).1]
    exact hfound

/-! Every step -/

theorem MainPc.beforeConsent_of_beforeAudit {pc : MainPc} (h : pc.beforeAudit = true) :
    pc.beforeConsent = true := by
  cases pc <;> first | rfl | cases h

/-- Only `main` moves `main`, but for a client it accepts and the end of the
process. -/
theorem step_main_still {s : Sys} {l : Label} (hm : l ≠ .main) (hr : l ≠ .restart)
    (ha : s.main ≠ .accepting) : (step s l).1.main = s.main := by
  cases l with
  | main => exact absurd rfl hm
  | restart => exact absurd rfl hr
  | verdict => rw [show step s .verdict = verdictStep s from rfl, verdictStep_frame]
  | consent => rw [show step s .consent = consentStep s from rfl, consentStep_frame]
  | scorer => rw [show step s .scorer = scorerThreadStep s from rfl, scorerThreadStep_frame]
  | decay => rw [show step s .decay = decayThreadStep s from rfl, decayThreadStep_frame]
  | ingest r =>
      simp only [step]
      split <;> rfl
  | client m => simp only [step, if_neg ha]
  | shutdown | setClock | setLock | setSovereignty => rfl

theorem Heard.beforeStart {env : Env} {db : Db} {log : List AuditRow} {ls : List AuditLabel}
    {a : AuditedSys} (h : Heard env db log ls a) {l : AuditLabel} (hl : l ≠ .gaveld .restart)
    (hs : (auditedStep a l).1.started = false) :
    (auditedStep a l).1.pc = .off ∧ (auditedStep a l).1.gaveld.main.beforeAudit = true ∧
      (auditedStep a l).1.gaveld.db.verdicts = db.verdicts := by
  have before : a.started = false → ∀ m, m ≠ .restart →
      (a.gaveld.main = .startIngest → m ≠ .main) →
      (step a.gaveld m).1.main.beforeAudit = true ∧
        (step a.gaveld m).1.db.verdicts = db.verdicts := by
    intro hstarted m hm hmain
    have hb := h.starting hstarted
    refine ⟨?_, ?_⟩
    · by_cases hmm : m = .main
      · subst hmm
        cases hpc : a.gaveld.main with
        | startDecay => simp [step, mainStep, hpc, MainPc.beforeAudit]
        | startIngest => exact absurd rfl (hmain hpc)
        | _ => rw [hpc] at hb; cases hb
      · rw [step_main_still hmm hm (fun hacc => by rw [hacc] at hb; cases hb)]
        exact hb
    · rw [step_verdicts_starting h.orderly (MainPc.beforeConsent_of_beforeAudit hb)]
      exact h.fresh hstarted
  cases l with
  | audit =>
      have hstarted : a.started = false := by
        rw [← hs]
        simp only [auditedStep, auditThreadStep]
        cases a.pc with
        | sleep i => simp only; split <;> [split; skip] <;> rfl
        | _ => rfl
      have hstill : (auditedStep a .audit).1 = a := by
        simp only [auditedStep, auditThreadStep, h.off hstarted]
      rw [hstill]
      exact ⟨h.off hstarted, h.starting hstarted, h.fresh hstarted⟩
  | gaveld m =>
      have hm : m ≠ .restart := fun hm => hl (by rw [hm])
      cases m with
      | restart => exact absurd rfl hm
      | main =>
          simp only [auditedStep, auditedMain] at hs ⊢
          split at hs
          · cases hs
          rename_i hstart
          have notYet : a.started = false → a.gaveld.main = .stopDecay → False := by
            intro hstarted hstop
            have hb := h.starting hstarted
            rw [hstop] at hb
            cases hb
          split at hs
          · rename_i hstop
            exact (notYet hs hstop.1).elim
          split at hs
          · rename_i hstop
            exact (notYet hs hstop.1).elim
          rename_i hstop hjoin
          rw [if_neg hstart, if_neg hstop, if_neg hjoin]
          exact ⟨h.off hs, before hs _ (by simp) fun hmain => absurd ⟨hmain, hs⟩ hstart⟩
      | verdict =>
          simp only [auditedStep, auditedVerdict] at hs ⊢
          split at hs
          · rename_i hsig
            rw [if_pos hsig]
            exact ⟨h.off hs, h.starting hs, h.fresh hs⟩
          · rename_i hsig
            rw [if_neg hsig]
            exact ⟨h.off hs, before hs _ (by simp) (by simp)⟩
      | _ => exact ⟨h.off hs, before hs _ (by simp) (by simp)⟩

theorem mem_drop_concat {xs : List VerdictRow} {r v : VerdictRow} {n : Nat}
    (h : v ∈ (xs ++ [r]).drop n) : v ∈ xs.drop n ∨ v = r := by
  rw [List.drop_append] at h
  rcases List.mem_append.mp h with h | h
  · exact .inl h
  · exact .inr (List.mem_singleton.mp (List.mem_of_mem_drop h))

/-- A referral just written is about to be signalled. -/
theorem told_new {a : AuditedSys} (ho : Orderly a.gaveld) {l : AuditLabel} {v : VerdictRow}
    {n : Nat} (hnew : v ∈ (auditedStep a l).1.gaveld.db.verdicts.drop n)
    (hold : v ∉ a.gaveld.db.verdicts.drop n) (href : v.verdict = .iaReferral)
    (hreq : v.consentRequired = false) : (auditedStep a l).1.Told := by
  rcases auditedStep_gaveld a l with hg | ⟨m, -, hg⟩
  · rw [hg] at hnew
    exact absurd hnew hold
  · rw [hg] at hnew
    refine .inr (.inl ?_)
    rw [hg]
    rcases step_verdicts ho m with h | ⟨c, verdict, granted, now, -, -, h, hpc⟩ | ⟨_, _, _, -, h⟩
    · rw [h] at hnew
      exact absurd hnew hold
    · rw [h] at hnew
      rcases mem_drop_concat hnew with hmem | rfl
      · exact absurd hmem hold
      · rw [hpc, show verdict = .iaReferral from href]
        rfl
    · rw [h] at hnew
      rcases mem_drop_concat hnew with hmem | rfl
      · exact absurd hmem hold
      · cases hreq

theorem Heard.step {env : Env} {db : Db} {log : List AuditRow} {ls : List AuditLabel}
    {a : AuditedSys} (h : Heard env db log ls a) {l : AuditLabel} (hl : l ≠ .gaveld .restart) :
    Heard env db log (ls ++ [l]) (auditedStep a l).1 := by
  refine ⟨audited_orderly h.orderly l, ?_, fun hs => (h.beforeStart hl hs).1,
    fun hs => (h.beforeStart hl hs).2.1, fun hs => (h.beforeStart hl hs).2.2,
    fun v hv href hreq => ?_⟩
  · exact (congrArg (fun a => (auditedStep a l).1) h.here).trans (Machine.run_concat _ _ _).symm
  by_cases hold : v ∈ a.gaveld.db.verdicts.drop db.verdicts.length
  · rcases h.rows v hold href hreq with htold | hcounted
    · cases l with
      | audit =>
          cases hpc : a.pc with
          | referrals now => exact .inr (counted_now h.here hpc (List.mem_of_mem_drop hold) href)
          | _ => exact .inl (told_thread h.off htold (by simp [hpc]))
      | gaveld m => exact .inl (told_gaveld h.orderly h.off htold (fun hm => hl (by rw [hm])))
    · cases l with
      | audit => exact .inr hcounted.thread
      | gaveld m => exact .inr (hcounted.gaveld h.off (fun hm => hl (by rw [hm])))
  · exact .inl (told_new h.orderly hv hold href hreq)

theorem heard_run (env : Env) (db : Db) (log : List AuditRow) (ls : List AuditLabel)
    (hls : .gaveld .restart ∉ ls) : Heard env db log ls (auditedRun env db log ls).1 := by
  induction ls using List.reverseRecOn with
  | nil =>
      refine ⟨orderly_boot env db, rfl, fun _ => rfl, fun _ => rfl, fun _ => rfl, fun v hv => ?_⟩
      rw [show (auditedRun env db log []).1.gaveld.db.verdicts = db.verdicts from rfl,
        List.drop_length] at hv
      cases hv
  | append_singleton ls l ih =>
      rw [List.mem_append, not_or, List.mem_singleton] at hls
      have hrun : (auditedRun env db log (ls ++ [l])).1 =
          (auditedStep (auditedRun env db log ls).1 l).1 := Machine.run_concat _ _ _
      rw [hrun]
      exact (ih hls.1).step fun hl => hls.2 hl.symm

/-- **No referral is overlooked.** From a start on any database until the
process ends, whatever the interleaving: once the audit thread sleeps with
no signal for it and none about to come, every referral that
`verdict_process` wrote since the start was in the table when some tick
counted, and that tick logged a review unless the referral was more than
ten minutes old by then. -/
theorem referrals_reviewed (env : Env) (db : Db) (log : List AuditRow) (ls : List AuditLabel)
    (hls : .gaveld .restart ∉ ls) :
    let a := (auditedRun env db log ls).1
    a.running = true → (∃ i, a.pc = .sleep i) → a.signal = false → a.signalling = false →
    a.gaveld.verdict.referred = false →
    ∀ v ∈ a.gaveld.db.verdicts.drop db.verdicts.length, v.verdict = .iaReferral →
      v.consentRequired = false →
      ∃ pre now, pre ++ [.audit] <+: ls ∧ (auditedRun env db log pre).1.pc = .referrals now ∧
        v ∈ (auditedRun env db log pre).1.gaveld.db.verdicts ∧
        (v.epoch > now - auditIntervalSec * 2 →
          ∃ r ∈ a.log, r.check = .iaReferral ∧ r.result = .reviewed ∧ r.epoch = now) := by
  intro a hrunning ⟨i, hpc⟩ hsignal hsignalling hreferred v hv href hreq
  have h : Heard env db log ls a := heard_run env db log ls hls
  rcases h.rows v hv href hreq with htold | ⟨pre, now, hpre, hcount, hmem, hreview⟩
  · simp [AuditedSys.Told, hrunning, hpc, hsignal, hsignalling, hreferred, AuditPc.uncounted]
      at htold
  · refine ⟨pre, now, hpre, hcount, hmem, fun hrecent => ?_⟩
    rcases hreview hrecent with hinsert | hfound
    · rw [hpc] at hinsert
      cases hinsert
    · exact hfound

/-- A daemon of the fleet is scored and referred, and the audit thread wakes
for a tick. -/
def referKrangd : List AuditLabel :=
  List.replicate 7 (.gaveld .main) ++
    (submit ⟨false, "krangd", "ROOTKIT_MODULE", 100, ""⟩).map .gaveld ++
    List.replicate 8 (.gaveld .verdict) ++ List.replicate 9 .audit

theorem referrals_reviewed_krangd :
    let a := (auditedRun ⟨1000000, false, none⟩ .empty [] referKrangd).1
    (∃ v ∈ a.gaveld.db.verdicts, v.verdict = .iaReferral ∧ v.consentRequired = false) ∧
    ∀ v ∈ a.gaveld.db.verdicts.drop Db.empty.verdicts.length, v.verdict = .iaReferral →
      v.consentRequired = false →
      ∃ pre now, pre ++ [.audit] <+: referKrangd ∧
        (auditedRun ⟨1000000, false, none⟩ .empty [] pre).1.pc = .referrals now ∧
        v ∈ (auditedRun ⟨1000000, false, none⟩ .empty [] pre).1.gaveld.db.verdicts ∧
        (v.epoch > now - auditIntervalSec * 2 →
          ∃ r ∈ a.log, r.check = .iaReferral ∧ r.result = .reviewed ∧ r.epoch = now) :=
  ⟨by decide +kernel,
    referrals_reviewed ⟨1000000, false, none⟩ .empty [] referKrangd (by decide +kernel)
      (by decide +kernel) ⟨0, by decide +kernel⟩ (by decide +kernel) (by decide +kernel)
      (by decide +kernel)⟩

end MiuiserPeruser.Gaveld
