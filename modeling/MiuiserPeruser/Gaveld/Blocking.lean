import MiuiserPeruser.Lib.Reach
import MiuiserPeruser.Gaveld.Audit

/-!
# gaveld — what the daemon waits for from outside (`ingest.c`, `handle_client`)

The daemon's own threads wait for one another only for a time. Two of its
calls wait for somebody else. `fgets` in `ingest_thread` waits for a line on
a FIFO that the thread itself holds open for writing, so it never sees the
end of it; `ingest_stop` clears the flag and joins the thread, but nothing
wakes it. And `main` reads from the client it has accepted, and writes the
whole of `QUERY|STATUS` to it, without a timeout; its other answers fit the
socket's buffer.

Here the daemon under audit gets the ingest thread's program points and the
client that `main` serves. A signal does not end the two calls: `signal`
restarts them. The commands and notifications the daemon runs are taken to
come back.
-/

namespace MiuiserPeruser.Gaveld

/-! ## The ingest thread and the client -/

/-- Where `ingest_thread` stands. -/
inductive IngestPc where
  | off
  /-- At the test of the outer loop; the sleeps before it may end at any time. -/
  | top
  /-- Before `open_fifo` and `fdopen`. -/
  | opening
  /-- At the test of `g_running` before `fgets`. -/
  | ready
  /-- In `fgets`. -/
  | reading
  deriving DecidableEq

/-- The client of `handle_client`. -/
inductive ClientPc where
  | none
  /-- `main` is in the `read` of its message. -/
  | reading
  /-- `main` is in a `write` of `handle_status`. -/
  | answering
  deriving DecidableEq

/-- The daemon, with all its threads and the client it serves. -/
structure Daemon where
  audited : AuditedSys
  ingest : IngestPc
  client : ClientPc

abbrev Daemon.gaveld (d : Daemon) : Sys := d.audited.gaveld

/-- A process about to start its threads. -/
def Daemon.boot (env : Env) (db : Db) (log : List AuditRow) : Daemon :=
  ⟨.boot env db log, .off, .none⟩

inductive DaemonLabel where
  /-- A step of the daemon under audit. `ingest r` is the return of `fgets`
  with a line that parses, `client m` that of `read` with a message. -/
  | audited (l : AuditLabel)
  | ingest
  /-- `open_fifo` or `fdopen` fails. -/
  | openFails
  /-- `fgets` returns a line that is blank or malformed. -/
  | skipped
  /-- `fgets` returns without a line. -/
  | fgetsFails
  /-- `accept` finds a client. -/
  | connect
  /-- The client asks for `QUERY|STATUS`. -/
  | status
  /-- The client has taken its answer, sends what is refused or ignored, or
  closes its end. -/
  | leave
  deriving DecidableEq

/-- One step of `ingest_thread`. -/
def ingestThreadStep (d : Daemon) : Daemon :=
  match d.ingest with
  | .off => d
  | .top => { d with ingest := if d.gaveld.ingestRunning then .opening else .off }
  | .opening => { d with ingest := .ready }
  | .ready => { d with ingest := if d.gaveld.ingestRunning then .reading else .top }
  -- O_RDWR keeps a writer on the FIFO, so fgets does not return by itself
  | .reading => d

/-- `main`, with the thread of `ingest_start`, its join in `ingest_stop`,
and the calls that wait for the client. -/
def daemonMain (d : Daemon) : Daemon :=
  if d.client ≠ .none then d
  else if d.gaveld.main = .startIngest ∧ d.audited.started then
    { d with audited := auditedMain d.audited, ingest := .top }
  else if d.gaveld.main = .joinIngest ∧ d.ingest ≠ .off then d
  else { d with audited := auditedMain d.audited }

def daemonStep (d : Daemon) : DaemonLabel → Daemon × List Notice
  | .audited (.gaveld .main) => (daemonMain d, [])
  | .audited (.gaveld .restart) =>
      (.boot d.gaveld.env d.gaveld.db d.audited.log, [])
  | .audited (.gaveld (.ingest r)) =>
      if d.ingest = .reading then
        ({ d with audited := (auditedStep d.audited (.gaveld (.ingest r))).1, ingest := .ready }, [])
      else (d, [])
  | .audited (.gaveld (.client m)) =>
      if d.client = .reading then
        ({ d with audited := (auditedStep d.audited (.gaveld (.client m))).1, client := .none }, [])
      else (d, [])
  | .audited l =>
      ({ d with audited := (auditedStep d.audited l).1 }, (auditedStep d.audited l).2)
  | .ingest => (ingestThreadStep d, [])
  | .openFails => (if d.ingest = .opening then { d with ingest := .top } else d, [])
  | .skipped => (if d.ingest = .reading then { d with ingest := .ready } else d, [])
  | .fgetsFails => (if d.ingest = .reading then { d with ingest := .top } else d, [])
  | .connect =>
      (if d.gaveld.main = .accepting ∧ d.client = .none then { d with client := .reading } else d, [])
  | .status => (if d.client = .reading then { d with client := .answering } else d, [])
  | .leave =>
      (if d.client ≠ .none then { d with audited := auditedMain d.audited, client := .none } else d,
        [])

/-- The state and the notifications of a run, from a start on any database. -/
def daemonRun (env : Env) (db : Db) (log : List AuditRow) (ls : List DaemonLabel) :
    Daemon × List Notice :=
  Machine.run daemonStep (.boot env db log) ls

abbrev DaemonLabel.kill : DaemonLabel := .audited (.gaveld .restart)

/-- A step of one of the daemon's own threads. -/
def DaemonLabel.ofThread : DaemonLabel → Bool
  | .audited .audit | .ingest => true
  | .audited (.gaveld l) => l.ofThread
  | _ => false

/-- The daemon under audit takes a step of its own, or none. -/
theorem daemonStep_audited (d : Daemon) (l : DaemonLabel) :
    (daemonStep d l).1.audited = d.audited ∨
      ∃ m, (daemonStep d l).1.audited = (auditedStep d.audited m).1 := by
  have main : auditedMain d.audited = (auditedStep d.audited (.gaveld .main)).1 := rfl
  cases l with
  | audited m =>
      cases m with
      | audit => exact .inr ⟨_, rfl⟩
      | gaveld g =>
          cases g with
          | main =>
              simp only [daemonStep, daemonMain]
              split
              · exact .inl rfl
              split
              · exact .inr ⟨_, main⟩
              split
              · exact .inl rfl
              · exact .inr ⟨_, main⟩
          | restart => exact .inr ⟨.gaveld .restart, rfl⟩
          | ingest | client =>
              simp only [daemonStep]
              split
              · exact .inr ⟨_, rfl⟩
              · exact .inl rfl
          | _ => exact .inr ⟨_, rfl⟩
  | ingest =>
      refine .inl ?_
      simp only [daemonStep, ingestThreadStep]
      split <;> rfl
  | leave =>
      simp only [daemonStep]
      split
      · exact .inr ⟨_, main⟩
      · exact .inl rfl
  | openFails | skipped | fgetsFails | connect | status =>
      refine .inl ?_
      simp only [daemonStep]
      split <;> rfl

/-! ## What is down at each point of the shutdown -/

/-- Before `ingest_start`. -/
def MainPc.beforeIngest : MainPc → Bool
  | .startDecay | .startIngest => true
  | _ => false

/-- `main` stands still while it serves a client, and passes a join only
when its thread is off. -/
structure Joined (d : Daemon) : Prop where
  winding : Winding d.gaveld
  client : d.client ≠ .none → d.gaveld.main = .accepting
  fresh : d.gaveld.main.beforeIngest = true → d.ingest = .off
  ingest : 7 ≤ d.gaveld.main.stage → d.ingest = .off
  audit : 9 ≤ d.gaveld.main.stage → d.audited.pc = .off

theorem joined_boot (env : Env) (db : Db) (log : List AuditRow) : Joined (.boot env db log) where
  winding := winding_boot env db
  client h := absurd rfl h
  fresh _ := rfl
  ingest h := by cases h
  audit h := by cases h

theorem winding_daemonStep {d : Daemon} (h : Winding d.gaveld) (l : DaemonLabel) :
    Winding (daemonStep d l).1.gaveld := by
  have under : ∀ m, Winding (auditedStep d.audited m).1.gaveld := by
    intro m
    rcases auditedStep_gaveld d.audited m with heq | ⟨g, -, heq⟩
    · rw [heq]
      exact h
    · rw [heq]
      exact winding_step _ g h
  rcases daemonStep_audited d l with heq | ⟨m, heq⟩
  · rw [Daemon.gaveld, heq]
    exact h
  · rw [Daemon.gaveld, heq]
    exact under m

/-- A step that leaves `main` where it is. -/
theorem Joined.aside {d d' : Daemon} (h : Joined d) (hwinding : Winding d'.gaveld)
    (hmain : d'.gaveld.main = d.gaveld.main)
    (hclient : d'.client ≠ .none → d.gaveld.main = .accepting)
    (hingest : d.ingest = .off → d'.ingest = .off)
    (haudit : d.audited.pc = .off → d'.audited.pc = .off) : Joined d' where
  winding := hwinding
  client := by rw [hmain]; exact hclient
  fresh := by rw [hmain]; exact fun hle => hingest (h.fresh hle)
  ingest := by rw [hmain]; exact fun hle => hingest (h.ingest hle)
  audit := by rw [hmain]; exact fun hle => haudit (h.audit hle)

theorem MainPc.stage_eq_six {pc : MainPc} (h : pc.stage = 6) : pc = .joinIngest := by
  cases pc <;> first | rfl | cases h

theorem MainPc.stage_eq_eight {pc : MainPc} (h : pc.stage = 8) : pc = .stopDecay := by
  cases pc <;> first | rfl | cases h

/-- `main` takes the shutdown sequence one point at a time, and does not
come back to `ingest_start`. -/
theorem mainStep_onward (s : Sys) :
    (mainStep s).1.main.stage ≤ s.main.stage + 1 ∧
      ((mainStep s).1.main.beforeIngest = true → s.main.beforeIngest = true) := by
  cases hm : s.main with
  | serving w =>
      have hserving : ∀ w' : Worker, (MainPc.serving w').stage = 0 ∧
          (MainPc.serving w').beforeIngest = false := fun _ => ⟨rfl, rfl⟩
      cases w with
      | idle =>
          simp only [mainStep, hm]
          split <;> exact ⟨Nat.zero_le _, by simp [MainPc.beforeIngest]⟩
      | off | scoreBegin | scoring | assembling | decayBegin | decayTime | decaying =>
          simp only [mainStep, hm, hserving]
          exact ⟨Nat.zero_le _, id⟩
  | replying | stopConsent =>
      simp only [mainStep, hm]
      split
      · rw [hm]
        exact ⟨Nat.le_succ _, id⟩
      · exact ⟨Nat.le_of_ble_eq_true rfl, id⟩
  | joinConsent | joinVerdict | joinScorer | joinDecay =>
      simp only [mainStep, hm]
      split <;> exact ⟨Nat.le_of_ble_eq_true rfl, id⟩
  | exited =>
      simp only [mainStep, hm]
      exact ⟨Nat.le_succ _, id⟩
  | startDecay | startIngest | startVerdict | resetPending | startConsent | startScorer | accepting
  | stopVerdict | stopCases | stopIngest | joinIngest | stopDecay =>
      simp only [mainStep, hm]
      exact ⟨Nat.le_of_ble_eq_true rfl, by simp [MainPc.beforeIngest]⟩

/-- What a step of `main` does. -/
inductive DaemonMove (d : Daemon) : Daemon → Prop
  | served (hclient : d.client ≠ .none) : DaemonMove d d
  | auditStart (hclient : d.client = .none) (hmain : d.gaveld.main = .startIngest)
      (hstarted : d.audited.started = false) :
      DaemonMove d
        { d with audited := { d.audited with started := true, running := true, pc := .sleep 0 } }
  | ingestStart (hclient : d.client = .none) (hmain : d.gaveld.main = .startIngest) :
      DaemonMove d
        { d with audited := { d.audited with gaveld := (mainStep d.gaveld).1 }, ingest := .top }
  | ingestJoin (hclient : d.client = .none) (hmain : d.gaveld.main = .joinIngest)
      (hon : d.ingest ≠ .off) : DaemonMove d d
  | auditStop (hclient : d.client = .none) (hmain : d.gaveld.main = .stopDecay)
      (hrunning : d.audited.running = true) :
      DaemonMove d { d with audited := { d.audited with running := false } }
  | auditJoin (hclient : d.client = .none) (hmain : d.gaveld.main = .stopDecay)
      (hrunning : d.audited.running = false) (hon : d.audited.pc ≠ .off) : DaemonMove d d
  | step (hclient : d.client = .none) (hstart : d.gaveld.main ≠ .startIngest)
      (hingest : d.gaveld.main = .joinIngest → d.ingest = .off)
      (haudit : d.gaveld.main = .stopDecay → d.audited.pc = .off) :
      DaemonMove d { d with audited := { d.audited with gaveld := (mainStep d.gaveld).1 } }

theorem daemonMain_move (d : Daemon) : DaemonMove d (daemonMain d) := by
  unfold daemonMain auditedMain
  split
  · exact .served ‹_›
  rename_i hserved
  have hclient : d.client = .none := not_not.mp hserved
  split
  · rename_i hingest
    rw [if_neg (by simp [hingest.2]), if_neg (by simp [hingest.1]), if_neg (by simp [hingest.1])]
    exact .ingestStart hclient hingest.1
  rename_i hstarted
  split
  · rename_i hjoin
    exact .ingestJoin hclient hjoin.1 hjoin.2
  rename_i hjoined
  split
  · rename_i hstart
    exact .auditStart hclient hstart.1 hstart.2
  rename_i haudit
  split
  · rename_i hstop
    exact .auditStop hclient hstop.1 hstop.2
  rename_i hstopped
  split
  · rename_i hjoin
    refine .auditJoin hclient hjoin.1 ?_ hjoin.2
    exact Bool.eq_false_of_not_eq_true fun hrunning => hstopped ⟨hjoin.1, hrunning⟩
  · rename_i hpc
    refine .step hclient (fun hmain => ?_) (fun hmain => ?_) (fun hmain => ?_)
    · cases hbegun : d.audited.started with
      | true => exact hstarted ⟨hmain, hbegun⟩
      | false => exact haudit ⟨hmain, hbegun⟩
    · exact not_not.mp fun hon => hjoined ⟨hmain, hon⟩
    · exact not_not.mp fun hon => hpc ⟨hmain, hon⟩

theorem joined_main {d : Daemon} (h : Joined d) : Joined (daemonMain d) := by
  have hw : Winding (daemonMain d).gaveld := winding_daemonStep h.winding (.audited (.gaveld .main))
  have move := daemonMain_move d
  generalize daemonMain d = d' at hw move
  cases move with
  | served | ingestJoin | auditJoin => exact h
  | auditStart hclient hmain =>
      refine ⟨hw, fun hserved => absurd hclient hserved, h.fresh, h.ingest, fun hle => ?_⟩
      rw [hmain] at hle
      cases hle
  | ingestStart hclient hmain =>
      have hnext : (mainStep d.gaveld).1.main = .startVerdict := by simp only [mainStep, hmain]
      refine ⟨hw, fun hserved => absurd hclient hserved, fun hfresh => ?_, fun hle => ?_, fun hle => ?_⟩
      · rw [hnext] at hfresh
        cases hfresh
      · rw [hnext] at hle
        cases hle
      · rw [hnext] at hle
        cases hle
  | auditStop hclient hmain =>
      exact ⟨hw, fun hserved => absurd hclient hserved, h.fresh, h.ingest, h.audit⟩
  | step hclient hstart hingest haudit =>
      obtain ⟨hstage, hback⟩ := mainStep_onward d.gaveld
      refine ⟨hw, fun hserved => absurd hclient hserved, fun hfresh => h.fresh (hback hfresh),
        fun hle => ?_, fun hle => ?_⟩
      · change 7 ≤ (mainStep d.gaveld).1.main.stage at hle
        rcases Nat.lt_or_ge 6 d.gaveld.main.stage with hlt | hge
        · exact h.ingest hlt
        · exact hingest (MainPc.stage_eq_six (by omega))
      · change 9 ≤ (mainStep d.gaveld).1.main.stage at hle
        rcases Nat.lt_or_ge 8 d.gaveld.main.stage with hlt | hge
        · exact h.audit hlt
        · exact haudit (MainPc.stage_eq_eight (by omega))

/-- The other labels of the daemon under audit leave `main` alone. -/
theorem step_main {s : Sys} {l : Label} (hmain : l ≠ .main) (hrestart : l ≠ .restart)
    (hclient : ∀ m, l ≠ .client m) : (step s l).1.main = s.main := by
  cases l with
  | main => exact absurd rfl hmain
  | restart => exact absurd rfl hrestart
  | client m => exact absurd rfl (hclient m)
  | verdict => simp only [step]; rw [verdictStep_frame s]
  | consent => simp only [step]; rw [consentStep_frame s]
  | scorer => simp only [step]; rw [scorerThreadStep_frame s]
  | decay => simp only [step]; rw [decayThreadStep_frame s]
  | ingest r =>
      simp only [step]
      split <;> rfl
  | shutdown | setClock | setLock | setSovereignty => rfl

theorem auditedStep_pc_off {a : AuditedSys} (l : AuditLabel) (hoff : a.pc = .off)
    (hmain : l ≠ .gaveld .main) : (auditedStep a l).1.pc = .off := by
  cases l with
  | audit => simp only [auditedStep, auditThreadStep, hoff]
  | gaveld l =>
      cases l with
      | main => exact absurd rfl hmain
      | restart => rfl
      | verdict =>
          simp only [auditedStep, auditedVerdict]
          split <;> exact hoff
      | _ => exact hoff

/-- Outside its start and its shutdown `main` owes nothing. -/
theorem Joined.of_serving {d : Daemon} (hwinding : Winding d.gaveld) (hclient : d.client = .none)
    (hstage : d.gaveld.main.stage = 0) (hstarted : d.gaveld.main.beforeIngest = false) :
    Joined d where
  winding := hwinding
  client h := absurd hclient h
  fresh h := by rw [hstarted] at h; cases h
  ingest h := by rw [hstage] at h; cases h
  audit h := by rw [hstage] at h; cases h

/-- `handle_client` returns. -/
theorem auditedMain_accepting {a : AuditedSys} (h : a.gaveld.main = .accepting) :
    (auditedMain a).gaveld = { a.gaveld with main := .serving .idle } := by
  unfold auditedMain
  rw [if_neg (by simp [h]), if_neg (by simp [h]), if_neg (by simp [h])]
  simp only [step, mainStep, h]

theorem joined_step (d : Daemon) (l : DaemonLabel) (h : Joined d) : Joined (daemonStep d l).1 := by
  have hw : Winding (daemonStep d l).1.gaveld := winding_daemonStep h.winding l
  cases l with
  | audited m =>
      cases m with
      | audit =>
          have hsame : (auditedStep d.audited .audit).1.gaveld = d.gaveld := by
            rcases auditedStep_gaveld d.audited .audit with heq | ⟨g, hg, -⟩
            · exact heq
            · cases hg
          exact h.aside hw (congrArg Sys.main hsame) h.client id
            fun hoff => auditedStep_pc_off _ hoff (by simp)
      | gaveld g =>
          cases g with
          | main => exact joined_main h
          | restart => exact joined_boot _ _ _
          | ingest r =>
              simp only [daemonStep] at hw ⊢
              split at hw
              · rename_i hreading
                rw [if_pos hreading]
                refine h.aside hw ?_ h.client ?_ ?_
                · exact step_main (by simp) (by simp) (by simp)
                · intro hoff
                  rw [hreading] at hoff
                  cases hoff
                · exact fun hoff => auditedStep_pc_off _ hoff (by simp)
              · rename_i hreading
                rw [if_neg hreading]
                exact h
          | client m =>
              simp only [daemonStep] at hw ⊢
              split at hw
              · rename_i hreading
                have haccepting : d.gaveld.main = .accepting := h.client (by simp [hreading])
                have hmain : (step d.gaveld (.client m)).1.main = handleClient m := by
                  simp only [step, haccepting, if_true]
                rw [if_pos hreading]
                refine .of_serving hw rfl ?_ ?_
                · change (step d.gaveld (.client m)).1.main.stage = 0
                  rw [hmain]
                  cases m <;> rfl
                · change (step d.gaveld (.client m)).1.main.beforeIngest = false
                  rw [hmain]
                  cases m <;> rfl
              · rename_i hreading
                rw [if_neg hreading]
                exact h
          | verdict =>
              refine h.aside hw ?_ h.client id fun hoff => auditedStep_pc_off _ hoff (by simp)
              simp only [daemonStep, auditedStep, auditedVerdict]
              split
              · rfl
              · exact step_main (by simp) (by simp) (by simp)
          | consent | scorer | decay | shutdown | setClock | setLock | setSovereignty =>
              exact h.aside hw (step_main (by simp) (by simp) (by simp)) h.client id
                fun hoff => auditedStep_pc_off _ hoff (by simp)
  | ingest =>
      have hoff : d.ingest = .off → (ingestThreadStep d).ingest = .off := by
        intro hoff
        simp only [ingestThreadStep, hoff]
      have hframe : ingestThreadStep d = { d with ingest := (ingestThreadStep d).ingest } := by
        unfold ingestThreadStep
        split <;> rfl
      simp only [daemonStep] at hw ⊢
      rw [hframe] at hw ⊢
      exact h.aside hw rfl h.client hoff id
  | openFails | skipped | fgetsFails =>
      simp only [daemonStep] at hw ⊢
      split at hw
      · rename_i hopen
        rw [if_pos hopen]
        exact h.aside hw rfl h.client (fun hoff => by rw [hoff] at hopen; cases hopen) id
      · rename_i hopen
        rw [if_neg hopen]
        exact h
  | connect =>
      simp only [daemonStep] at hw ⊢
      split at hw
      · rename_i hconnect
        rw [if_pos hconnect]
        exact h.aside hw rfl (fun _ => hconnect.1) id id
      · rename_i hconnect
        rw [if_neg hconnect]
        exact h
  | status =>
      simp only [daemonStep] at hw ⊢
      split at hw
      · rename_i hreading
        rw [if_pos hreading]
        exact h.aside hw rfl (fun _ => h.client (by simp [hreading])) id id
      · rename_i hreading
        rw [if_neg hreading]
        exact h
  | leave =>
      simp only [daemonStep] at hw ⊢
      split at hw
      · rename_i hserved
        rw [if_pos hserved]
        have hmain := congrArg Sys.main (auditedMain_accepting (h.client hserved))
        exact .of_serving hw rfl (congrArg MainPc.stage hmain) (congrArg MainPc.beforeIngest hmain)
      · rename_i hserved
        rw [if_neg hserved]
        exact h

/-- Steps of the ingest thread that are left, once its flag is down and
`fgets` has returned. -/
def IngestPc.rank : IngestPc → Nat
  | .off => 0
  | .top => 1
  | .ready => 2
  | .opening => 3
  | .reading => 4

/-- Steps of a tick that are left after a check. -/
def AuditCheck.rank : AuditCheck → Nat
  | .verdictRate => 10
  | .scoreInflation => 6
  | .iaReferral => 2

/-- Steps of the audit thread that are left, once its flag is down. -/
def AuditPc.rank : AuditPc → Nat
  | .off => 0
  | .wake => 1
  | .sleep _ => 2
  | .referrals _ => 6
  | .scores _ => 10
  | .jailed _ _ => 14
  | .totals _ => 15
  | .time => 16
  | .insert _ check _ => check.rank + 3
  | .flags _ check => check.rank + 2
  | .notify _ check => check.rank + 1

theorem AuditCheck.next_rank (now : Int) (check : AuditCheck) :
    (check.next now).rank = check.rank := by
  cases check <;> rfl

/-- With the flag down every step of the audit thread brings it nearer to
its end. -/
theorem auditThreadStep_rank {a : AuditedSys} (hoff : a.pc ≠ .off) (hrun : a.running = false) :
    (auditThreadStep a).1.pc.rank < a.pc.rank := by
  cases hpc : a.pc with
  | off => exact absurd hpc hoff
  | sleep i => simp [auditThreadStep, hpc, hrun, AuditPc.rank]
  | wake => simp [auditThreadStep, hpc, hrun, AuditPc.rank]
  | time | totals => simp [auditThreadStep, hpc, AuditPc.rank]
  | jailed | scores | referrals =>
      simp only [auditThreadStep, hpc]
      split <;> simp [AuditPc.rank, AuditCheck.rank]
  | insert now check result =>
      simp only [auditThreadStep, hpc]
      split
      · exact Nat.lt_succ_self _
      · exact (check.next_rank now).trans_lt (Nat.lt_add_of_pos_right (by simp))
  | flags now check =>
      simp only [auditThreadStep, hpc]
      split
      · exact Nat.lt_succ_self _
      · exact (check.next_rank now).trans_lt (Nat.lt_add_of_pos_right (by simp))
  | notify now check =>
      simp only [auditThreadStep, hpc]
      exact (check.next_rank now).trans_lt (Nat.lt_succ_self _)

/-- With the flag down every step of the ingest thread brings it nearer to
its end, unless it is in `fgets`. -/
theorem ingestThreadStep_rank {d : Daemon} (hoff : d.ingest ≠ .off) (hreading : d.ingest ≠ .reading)
    (hrun : d.gaveld.ingestRunning = false) : (ingestThreadStep d).ingest.rank < d.ingest.rank := by
  cases hpc : d.ingest with
  | off => exact absurd hpc hoff
  | reading => exact absurd hpc hreading
  | top | opening | ready => simp [ingestThreadStep, hpc, hrun, IngestPc.rank]

/-- What `main` waits for beside the threads of `System`. -/
def MainPc.besideRank (d : Daemon) : MainPc → Nat
  | .startIngest => if d.audited.started then 0 else 1
  | .joinVerdict => if d.audited.signalling then 1 else 0
  | .joinIngest => d.ingest.rank
  | .stopDecay => d.audited.pc.rank + if d.audited.running then 1 else 0
  | _ => 0

/-- What is left of the shutdown of the whole daemon. -/
def daemonRank (d : Daemon) : (Nat × Nat) × Nat :=
  (shutdownRank d.gaveld, d.gaveld.main.besideRank d)

/-- The daemon of `System` comes nearer, or what is beside it. -/
def Closer : (Nat × Nat) × Nat → (Nat × Nat) × Nat → Prop := Prod.Lex Shorter (· < ·)

theorem closer_wf : WellFounded Closer := WellFounded.prod_lex shorter_wf Nat.lt_wfRel.wf

theorem Closer.gaveld {d d' : Daemon} (h : Shorter (shutdownRank d'.gaveld) (shutdownRank d.gaveld)) :
    Closer (daemonRank d') (daemonRank d) := .left _ _ h

theorem Closer.beside {d d' : Daemon} {pc : MainPc} (hmain : d.gaveld.main = pc)
    (hgaveld : d'.gaveld = d.gaveld) (h : pc.besideRank d' < pc.besideRank d) :
    Closer (daemonRank d') (daemonRank d) := by
  unfold daemonRank
  rw [hgaveld, hmain]
  exact .right _ h

/-! ## Left to itself -/

/-- The thread the daemon cannot go on without. -/
def chooseThread (d : Daemon) : DaemonLabel :=
  if d.gaveld.main = .joinIngest ∧ d.ingest ≠ .off then .ingest
  else if d.gaveld.main = .stopDecay ∧ d.audited.running = false ∧ d.audited.pc ≠ .off then
    .audited .audit
  else .audited (.gaveld (choose d.gaveld))

theorem chooseThread_ofThread (d : Daemon) : (chooseThread d).ofThread = true := by
  unfold chooseThread
  split
  · rfl
  split
  · rfl
  · exact choose_ofThread d.gaveld

/-- Told to stop, and nobody outside holds it up. -/
structure Free (d : Daemon) : Prop where
  joined : Joined d
  stopping : d.gaveld.stopping = true
  client : d.client = .none
  ingest : d.ingest ≠ .reading

theorem daemonStep_ofThread (d : Daemon) {l : DaemonLabel} (hl : l.ofThread = true) :
    (daemonStep d l).1.gaveld.stopping = d.gaveld.stopping ∧
      (daemonStep d l).1.client = d.client := by
  cases l with
  | audited m =>
      cases m with
      | audit =>
          refine ⟨?_, rfl⟩
          rcases auditedStep_gaveld d.audited .audit with heq | ⟨g, hg, -⟩
          · exact congrArg Sys.stopping heq
          · cases hg
      | gaveld g =>
          cases g with
          | main =>
              have move := daemonMain_move d
              simp only [daemonStep]
              generalize daemonMain d = d' at move
              cases move with
              | ingestStart | step => exact ⟨step_stopping d.gaveld (l := .main) rfl, rfl⟩
              | _ => exact ⟨rfl, rfl⟩
          | verdict =>
              refine ⟨?_, rfl⟩
              simp only [daemonStep, auditedStep, auditedVerdict]
              split
              · rfl
              · exact step_stopping d.gaveld (l := .verdict) rfl
          | consent => exact ⟨step_stopping d.gaveld (l := .consent) rfl, rfl⟩
          | scorer => exact ⟨step_stopping d.gaveld (l := .scorer) rfl, rfl⟩
          | decay => exact ⟨step_stopping d.gaveld (l := .decay) rfl, rfl⟩
          | _ => cases hl
  | ingest =>
      simp only [daemonStep, ingestThreadStep]
      split <;> exact ⟨rfl, rfl⟩
  | _ => cases hl

/-- The ingest thread is given no step that leads it into `fgets`. -/
theorem chooseThread_reading {d : Daemon} (h : Free d) :
    (daemonStep d (chooseThread d)).1.ingest ≠ .reading := by
  unfold chooseThread
  split
  · rename_i hjoin
    have hrun : d.gaveld.ingestRunning = false := h.joined.winding.ingestRunning (by rw [hjoin.1]; rfl)
    simp only [daemonStep]
    intro hreading
    have hless := ingestThreadStep_rank hjoin.2 h.ingest hrun
    rw [hreading] at hless
    cases hpc : d.ingest <;> simp [hpc, IngestPc.rank] at hless
  split
  · exact h.ingest
  · have hl := choose_ofThread d.gaveld
    cases hchoose : choose d.gaveld with
    | main =>
        have move := daemonMain_move d
        simp only [daemonStep]
        generalize daemonMain d = d' at move
        cases move with
        | ingestStart => simp
        | _ => exact h.ingest
    | verdict | consent | scorer | decay => exact h.ingest
    | _ =>
        rw [hchoose] at hl
        cases hl

theorem free_step {d : Daemon} (h : Free d) : Free (daemonStep d (chooseThread d)).1 where
  joined := joined_step d _ h.joined
  stopping := (daemonStep_ofThread d (chooseThread_ofThread d)).1.trans h.stopping
  client := (daemonStep_ofThread d (chooseThread_ofThread d)).2.trans h.client
  ingest := chooseThread_reading h

theorem auditThreadStep_running (a : AuditedSys) : (auditThreadStep a).1.running = a.running := by
  unfold auditThreadStep
  split <;> try rfl
  split <;> [split; skip] <;> rfl

/-- `main` waits for the verdict thread at one join. -/
theorem choose_verdict {s : Sys} (h : choose s = .verdict) : s.main = .joinVerdict := by
  cases hm : s.main with
  | joinVerdict => rfl
  | replying | stopConsent | joinConsent | joinScorer | joinDecay =>
      simp only [choose, hm] at h
      split at h <;> cases h
  | _ => simp [choose, hm] at h

/-- **Progress.** A step of the thread the daemon waits for takes it nearer
to its end. -/
theorem daemon_progress {d : Daemon} (h : Free d) (hex : d.gaveld.main ≠ .exited) :
    Closer (daemonRank (daemonStep d (chooseThread d)).1) (daemonRank d) := by
  have hstep : Shorter (shutdownRank (step d.gaveld (choose d.gaveld)).1) (shutdownRank d.gaveld) :=
    shutdown_progress h.joined.winding h.stopping hex
  unfold chooseThread
  split
  · rename_i hjoin
    have hrun : d.gaveld.ingestRunning = false := h.joined.winding.ingestRunning (by rw [hjoin.1]; rfl)
    have hgaveld : (ingestThreadStep d).gaveld = d.gaveld := by
      unfold ingestThreadStep
      split <;> rfl
    exact .beside hjoin.1 hgaveld (ingestThreadStep_rank hjoin.2 h.ingest hrun)
  rename_i hjoined
  split
  · rename_i hjoin
    have hgaveld : (auditedStep d.audited .audit).1.gaveld = d.gaveld := by
      rcases auditedStep_gaveld d.audited .audit with heq | ⟨g, hg, -⟩
      · exact heq
      · cases hg
    refine .beside hjoin.1 hgaveld ?_
    simp only [daemonStep, auditedStep, MainPc.besideRank, auditThreadStep_running]
    exact Nat.add_lt_add_right (auditThreadStep_rank hjoin.2.2 hjoin.2.1) _
  · rename_i haudited
    have hl := choose_ofThread d.gaveld
    cases hchoose : choose d.gaveld with
    | main =>
        rw [hchoose] at hstep
        have move := daemonMain_move d
        simp only [daemonStep]
        generalize daemonMain d = d' at move
        cases move with
        | served hserved => exact absurd h.client hserved
        | auditStart _ hmain hstarted =>
            exact .beside hmain rfl (by simp [MainPc.besideRank, hstarted])
        | ingestJoin _ hmain hon => exact absurd ⟨hmain, hon⟩ hjoined
        | auditStop _ hmain hrunning =>
            exact .beside hmain rfl (by simp [MainPc.besideRank, hrunning])
        | auditJoin _ hmain hrunning hon => exact absurd ⟨hmain, hrunning, hon⟩ haudited
        | ingestStart | step => exact .gaveld hstep
    | verdict =>
        rw [hchoose] at hstep
        have hmain := choose_verdict hchoose
        cases hsignalling : d.audited.signalling with
        | true =>
            have hverdict : (daemonStep d (.audited (.gaveld .verdict))).1 =
                { d with audited := { d.audited with signal := true, signalling := false } } := by
              simp only [daemonStep, auditedStep, auditedVerdict, hsignalling, if_true]
            rw [hverdict]
            exact .beside hmain rfl (by simp [MainPc.besideRank, hsignalling])
        | false =>
            refine .gaveld ?_
            simp only [daemonStep, auditedStep, auditedVerdict, hsignalling]
            exact hstep
    | consent | scorer | decay =>
        rw [hchoose] at hstep
        exact .gaveld hstep
    | _ =>
        rw [hchoose] at hl
        cases hl

/-- Nothing of the process is left. -/
structure Ended (d : Daemon) : Prop where
  main : d.gaveld.main = .exited
  consent : d.gaveld.consent = .off
  verdict : d.gaveld.verdict = .off
  ingest : d.ingest = .off
  scorer : d.gaveld.scorer = .off
  audit : d.audited.pc = .off
  decay : d.gaveld.decay = .off
  client : d.client = .none

/-- At the end of `main` every thread has been joined. -/
theorem Joined.ended {d : Daemon} (h : Joined d) (hexited : d.gaveld.main = .exited) : Ended d := by
  have stage : d.gaveld.main.stage = 10 := by rw [hexited]; rfl
  have hw := h.winding
  refine ⟨hexited, hw.consent (by omega), hw.verdict (by omega), h.ingest (by omega),
    hw.scorer (by omega), h.audit (by omega), hw.decay (by omega), ?_⟩
  by_contra hserved
  have haccepting := h.client hserved
  rw [hexited] at haccepting
  cases haccepting

theorem Free.ends {d : Daemon} (h : Free d) :
    ∃ ms, (∀ l ∈ ms, l.ofThread = true) ∧ Ended (Machine.run daemonStep d ms).1 := by
  obtain ⟨d', hreach, hfree, hexited⟩ : ∃ d', Machine.Reaches daemonStep (fun l => l.ofThread = true) d d' ∧
      Free d' ∧ d'.gaveld.main = .exited :=
    Machine.reaches_of_rank closer_wf daemonRank chooseThread chooseThread_ofThread
      (fun d hfree hex => ⟨free_step hfree, daemon_progress hfree hex⟩) d h
  obtain ⟨ms, hms, hrun⟩ := hreach.exists_run
  refine ⟨ms, hms, ?_⟩
  rw [hrun]
  exact hfree.joined.ended hexited

/-! ## The result -/

/-- The daemon has started, and waits for a line: as it does all its life. -/
example : (daemonRun ⟨0, false, none⟩ .empty []
    (List.replicate 3 (.audited (.gaveld .main)) ++ [.ingest, .ingest, .ingest])).1.ingest =
      .reading := by
  rfl

end MiuiserPeruser.Gaveld
