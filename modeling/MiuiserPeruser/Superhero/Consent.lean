import MiuiserPeruser.Gdpr.Purge
import MiuiserPeruser.Lib.History
import MiuiserPeruser.Lib.Run
import MiuiserPeruser.Lib.SharedFile
import MiuiserPeruser.Lib.Strstr

/-!
# superhero — the consent gate and the lock file (`main_superhero.c`)

A scan needs the consent of the user, who types it once; from then on the lock
file `.sensei_consent.lock` stands for it, and holds the depth that was chosen.
`sar_engine` removes the file when the user revokes the consent. Nothing locks
the lock: scans run in the foreground and in loops in the background, more
than one at a time, and the revocation comes at any point.

The scans themselves are left out but for the stages a depth stands for, and
so are the texts on the screen.
-/

namespace MiuiserPeruser.Superhero

open CText SharedFile History

/-! ## The gate -/

def surface : List Char := "surface".toList
def standard : List Char := "standard".toList
def deep : List Char := "deep".toList

/-- A line of input that is asked for, without its newline. -/
def ask (size : Nat) (input : List Char) : Option (List Char × List Char) :=
  (fgets size input).map fun (line, rest) => ((cstr line).takeWhile (· ≠ '\n'), rest)

/-- What comes out of `run_consent_gate`. -/
inductive Gate where
  /-- `exit(0)`. -/
  | exit
  /-- The input ended before the depth: the scan runs, and nothing is recorded. -/
  | unrecorded
  | recorded (depth : List Char)
  deriving DecidableEq

/-- `DEEP CONFIRMED` is asked for. -/
def confirmDeep (input : List Char) : Gate :=
  match ask 32 input with
  | none => .exit
  | some (typed, _) => .recorded (if typed = "DEEP CONFIRMED".toList then deep else standard)

/-- `run_consent_gate`, up to the writing of the lock. -/
def runConsentGate (input : List Char) : Gate :=
  match ask 64 input with
  | none => .exit
  | some (typed, input) =>
      if typed ≠ "I CONSENT".toList then .exit
      else
        match ask 8 input with
        | none => .unrecorded
        | some (choice, input) =>
            if choice = ['1'] then .recorded surface
            else if choice = ['3'] then confirmDeep input
            else .recorded standard

/-- What `write_consent_lock` writes. -/
def lockText (depth : List Char) : List Char := depth ++ ['\n']

/-- `get_saved_depth`, of an open file. -/
def savedDepth (file : List Char) : List Char :=
  match ask 32 file with
  | none => standard
  | some (depth, _) => depth

/-! ## The invocations -/

/-- The first of the three depth flags. -/
def depthFlag (args : List String) : Option (List Char) :=
  args.findSome? fun a =>
    if a = "--surface" then some surface
    else if a = "--standard" then some standard
    else if a = "--deep" then some deep
    else none

/-- `loop_mode`: the interval that may follow `--loop` begins with no dash. -/
def loopMode (args : List String) : Bool := args.any fun a => a = "--loop" ∨ a = "--bg"

/-- `main` returns before the gate. -/
def noScan (args : List String) : Bool := args.any fun a => a = "--export-sar" ∨ a = "--purge"

inductive Stage where
  | surface
  | standard
  | deep
  deriving DecidableEq

/-- The stages `splinter_run_scan_cycle` goes through, after `splinter_set_depth`. -/
def runScanCycle (depth : List Char) : List Stage :=
  let scanDepth := depth.take 31
  .surface :: ((if scanDepth = deep ∨ scanDepth = standard then [.standard] else []) ++
    if scanDepth = deep then [.deep] else [])

/-- The option loop of `main` in `sar_engine.c`: `category` and `subsystem`. -/
def sarOptions : List String → Option String → Option String → Option String × Option String
  | [], category, subsystem => (category, subsystem)
  | "--list" :: args, _, subsystem => sarOptions args (some "list") subsystem
  | "--out" :: _ :: args, category, subsystem => sarOptions args category subsystem
  | "--category" :: value :: args, _, subsystem => sarOptions args (some value) subsystem
  | "--revoke" :: value :: args, category, _ =>
      if value.toList.head? ≠ some '-' then sarOptions args category (some value)
      else sarOptions (value :: args) category (some "all")
  | ["--revoke"], category, _ => (category, some "all")
  | _ :: args, category, subsystem => sarOptions args category subsystem

/-- `cmd_consent_revoke` removes the lock of the superhero scan. -/
def revokes (subsystem : String) (input : List Char) : Bool :=
  (ask 32 input).map Prod.fst = some "REVOKE".toList ∧
    (subsystem = "all" ∨ (strstr "superhero".toList subsystem.toList).isSome)

/-- An invocation of `sar_engine` unlinks the lock. -/
def removesLock (args : List String) (input : List Char) : Bool :=
  match args with
  | [] => false
  | cmd :: args =>
      let (category, subsystem) := sarOptions args none none
      if cmd = "--purge" then
        Gdpr.confirmed input ∧ (category = none ∨ category = some "all" ∨ category = some "consent")
      else if cmd = "--consent" then
        category ≠ some "list" ∧ subsystem.any (revokes · input)
      else false

/-- Where an invocation of `superhero` stands. -/
inductive Pc where
  | unborn
  | granted
  | gate
  | openLock (depth : List Char)
  | writeLock (depth : List Char) (inode : Nat)
  | openSaved
  | readSaved (inode : Nat)
  | scan (depth : List Char)
  | ended

structure Invocation where
  args : List String
  input : List Char
  pc : Pc

structure Sys where
  files : Files Char
  proc : Nat → Invocation

inductive Label where
  | start (p : Nat) (args : List String) (input : List Char)
  /-- The next step; the `fopen` in it may fail for want of something else. -/
  | next (p : Nat) (opens : Bool)
  | kill (p : Nat)
  | sar (args : List String) (input : List Char)

inductive Event where
  | started (p : Nat) (args : List String) (input : List Char)
  /-- The gate returned. -/
  | consented (p : Nat) (depth : List Char)
  /-- `consent_granted` returned 1. -/
  | found (p : Nat)
  /-- `write_consent_lock` opened the lock. -/
  | created (p inode : Nat)
  /-- `get_saved_depth` opened the lock. -/
  | opened (p inode : Nat)
  /-- `get_saved_depth` read the lock. -/
  | took (p : Nat) (depth : List Char)
  | scanned (p : Nat) (depth : List Char)
  | removed

def Sys.set (s : Sys) (p : Nat) (v : Invocation) : Sys :=
  { s with proc := Function.update s.proc p v }

def Sys.goto (s : Sys) (p : Nat) (pc : Pc) : Sys := s.set p { s.proc p with pc }

/-- The next step of an invocation. -/
def invocationNext (s : Sys) (p : Nat) (opens : Bool) : Sys × List Event :=
  match (s.proc p).pc with
  | .unborn | .ended => (s, [])
  | .granted =>
      if opens ∧ s.files.path.isSome then
        match depthFlag (s.proc p).args with
        | some depth => (s.goto p (.scan depth), [.found p])
        | none => (s.goto p .openSaved, [.found p])
      else (s.goto p .gate, [])
  | .gate =>
      match runConsentGate (s.proc p).input with
      | .exit => (s.goto p .ended, [])
      | .unrecorded => (s.goto p (.scan standard), [.consented p standard])
      | .recorded depth => (s.goto p (.openLock depth), [.consented p depth])
  | .openLock depth =>
      if opens then
        ({ s with files := s.files.create.1 }.goto p (.writeLock depth s.files.create.2),
          [.created p s.files.create.2])
      else (s.goto p (.scan depth), [])
  | .writeLock depth i =>
      ({ s with files := s.files.write i (lockText depth) }.goto p (.scan depth), [])
  | .openSaved =>
      match opens, s.files.path with
      | true, some i => (s.goto p (.readSaved i), [.opened p i])
      | _, _ => (s.goto p (.scan standard), [])
  | .readSaved i =>
      (s.goto p (.scan (savedDepth (s.files.content i))), [.took p (savedDepth (s.files.content i))])
  | .scan depth =>
      (if loopMode (s.proc p).args then s else s.goto p .ended, [.scanned p depth])

def step (s : Sys) : Label → Sys × List Event
  | .start p args input =>
      match (s.proc p).pc with
      | .unborn =>
          (s.set p ⟨args, input, if noScan args then .ended else .granted⟩, [.started p args input])
      | _ => (s, [])
  | .next p opens => invocationNext s p opens
  | .kill p =>
      match (s.proc p).pc with
      | .unborn => (s, [])
      | _ => (s.goto p .ended, [])
  | .sar args input =>
      if removesLock args input then ({ s with files := s.files.unlink }, [.removed]) else (s, [])

/-- From an installation on which nobody has consented. -/
def runFrom (ls : List Label) : Sys × List Event :=
  Machine.run step ⟨.none, fun _ => ⟨[], [], .unborn⟩⟩ ls

/-! ## What the gate takes -/

/-- The user types `I CONSENT`. -/
def Consents (input : List Char) : Prop := ∃ rest, ask 64 input = some ("I CONSENT".toList, rest)

/-- The user types `I CONSENT`, chooses the deep scan and types `DEEP CONFIRMED`. -/
def ConfirmsDeep (input : List Char) : Prop :=
  ∃ rest rest' rest'', ask 64 input = some ("I CONSENT".toList, rest) ∧
    ask 8 rest = some (['3'], rest') ∧ ask 32 rest' = some ("DEEP CONFIRMED".toList, rest'')

theorem consents_of_gate {input : List Char} (h : runConsentGate input ≠ .exit) : Consents input := by
  unfold runConsentGate at h
  cases hask : ask 64 input with
  | none =>
      rw [hask] at h
      exact absurd rfl h
  | some line =>
      obtain ⟨typed, rest⟩ := line
      by_cases htyped : typed = "I CONSENT".toList
      · exact ⟨rest, by rw [hask, htyped]⟩
      · rw [hask] at h
        exact absurd (if_pos htyped) h

/-- The depths a gate records. -/
def NamedDepth (depth : List Char) : Prop := depth = surface ∨ depth = standard ∨ depth = deep

theorem namedDepth_of_gate {input depth : List Char} (h : runConsentGate input = .recorded depth) :
    NamedDepth depth := by
  unfold runConsentGate confirmDeep at h
  split at h
  · cases h
  · split at h
    · cases h
    · split at h
      · cases h
      · split at h
        · exact .inl (Gate.recorded.inj h).symm
        · split at h
          · split at h
            · cases h
            · have hdepth := (Gate.recorded.inj h).symm
              split at hdepth
              · exact .inr (.inr hdepth)
              · exact .inr (.inl hdepth)
          · exact .inr (.inl (Gate.recorded.inj h).symm)

theorem namedDepth_of_flag {args : List String} {depth : List Char}
    (h : depthFlag args = some depth) : NamedDepth depth := by
  obtain ⟨a, -, ha⟩ := List.exists_of_findSome?_eq_some h
  split at ha
  · exact .inl (Option.some.inj ha).symm
  · split at ha
    · exact .inr (.inl (Option.some.inj ha).symm)
    · split at ha
      · exact .inr (.inr (Option.some.inj ha).symm)
      · cases ha

/-- The gate records the deep scan only when it has been confirmed. -/
theorem confirmsDeep_of_gate {input : List Char} (h : runConsentGate input = .recorded deep) :
    ConfirmsDeep input := by
  have hgate : runConsentGate input ≠ .exit := h ▸ Gate.noConfusion
  obtain ⟨rest, hask⟩ := consents_of_gate hgate
  have hne : standard ≠ deep ∧ surface ≠ deep := by decide
  rw [runConsentGate, hask] at h
  simp only [ne_eq, not_true_eq_false, if_false] at h
  split at h
  · cases h
  · rename_i choice rest' hchoice
    split at h
    · exact absurd (Gate.recorded.inj h) hne.2
    · split at h
      · rename_i hthree
        subst hthree
        unfold confirmDeep at h
        split at h
        · cases h
        · rename_i typed rest'' htyped
          have hdepth := Gate.recorded.inj h
          split at hdepth
          · rename_i hconfirmed
            subst hconfirmed
            exact ⟨rest, rest', rest'', hask, hchoice, htyped⟩
          · exact absurd hdepth hne.1
      · exact absurd (Gate.recorded.inj h) hne.1

/-- **The depth is read back**, whatever lies behind it. -/
theorem savedDepth_lockText {depth : List Char} (h : NamedDepth depth) (rest : List Char) :
    savedDepth (lockText depth ++ rest) = depth := by
  have hline : '\n' ∉ depth ∧ depth.length + 1 < 32 ∧
      (cstr (depth ++ ['\n'])).takeWhile (· ≠ '\n') = depth := by
    rcases h with rfl | rfl | rfl <;> decide
  unfold savedDepth lockText ask
  rw [List.append_assoc, List.singleton_append, fgets_line hline.1 hline.2.1, Option.map_some]
  exact hline.2.2

/-- The deep stages belong to the deep scan. -/
theorem deep_of_runScanCycle {depth : List Char} (hdepth : NamedDepth depth)
    (h : .deep ∈ runScanCycle depth) : depth = deep := by
  rcases hdepth with rfl | rfl | rfl
  · exact absurd h (by decide)
  · exact absurd h (by decide)
  · rfl

/-! ## What a scan stands on -/

/-- The invocation an event is of. -/
def Event.owner : Event → Option Nat
  | .started p _ _ | .consented p _ | .found p | .created p _ | .opened p _ | .took p _
  | .scanned p _ => some p
  | .removed => none

/-- The event opened the file as the lock. -/
def Event.Opens (e : Event) (i : Nat) : Prop := ∃ p, e = .created p i ∨ e = .opened p i

/-- Since the file was opened as the lock, the lock has not been removed. -/
def StillLock (tr : List Event) (i : Nat) : Prop :=
  ∀ a e b, tr = a ++ e :: b → e.Opens i → .removed ∉ b

/-- A depth the invocation may scan with: that of its own gate or, where it
found the lock, its flag or else what it read. -/
def ScanDepth (args : List String) (tr : List Event) (p : Nat) (depth : List Char) : Prop :=
  .consented p depth ∈ tr ∨ .found p ∈ tr ∧ (depthFlag args = some depth ∨
    depthFlag args = none ∧ (depth = standard ∨ .took p depth ∈ tr))

/-- What every event of a run rests on. -/
def Lawful (pre : List Event) : Event → Prop
  | .started p _ _ => ∀ e ∈ pre, e.owner ≠ some p
  | .consented p depth => ∃ args input, .started p args input ∈ pre ∧
      (runConsentGate input = .recorded depth ∨
        runConsentGate input = .unrecorded ∧ depth = standard)
  | .found p => (∃ args input, .started p args input ∈ pre) ∧
      ∃ q i, Since (· ≠ .removed) (.created q i) pre
  | .created p i => (∃ depth, .consented p depth ∈ pre) ∧ StillLock pre i
  | .opened p i => .found p ∈ pre ∧ StillLock pre i
  | .took p depth => NamedDepth depth ∧ (depth = standard ∨
      ∃ q i, .opened p i ∈ pre ∧ .created q i ∈ pre ∧ .consented q depth ∈ pre)
  | .scanned p depth => NamedDepth depth ∧
      ∃ args input, .started p args input ∈ pre ∧ ScanDepth args pre p depth
  | .removed => True

/-- What an invocation stands on. -/
def Stands (tr : List Event) (p : Nat) (args : List String) : Pc → Prop
  | .openLock depth => NamedDepth depth ∧ .consented p depth ∈ tr
  | .writeLock depth i => NamedDepth depth ∧ .consented p depth ∈ tr ∧ .created p i ∈ tr
  | .openSaved => .found p ∈ tr ∧ depthFlag args = none
  | .readSaved i => (.found p ∈ tr ∧ depthFlag args = none) ∧ .opened p i ∈ tr
  | .scan depth => NamedDepth depth ∧ ScanDepth args tr p depth
  | .unborn => ∀ e ∈ tr, e.owner ≠ some p
  | .granted | .gate | .ended => True

/-- A record of the file: the depth of someone who created it. -/
def LockOf (tr : List Event) (i : Nat) (text : List Char) : Prop :=
  ∃ q depth, NamedDepth depth ∧ text = lockText depth ∧ .created q i ∈ tr ∧ .consented q depth ∈ tr

structure Inv (s : Sys) (tr : List Event) : Prop where
  whole : Whole (LockOf tr) s.files
  lock : ∀ i, s.files.path = some i →
    (∃ q, Since (· ≠ .removed) (.created q i) tr) ∧ StillLock tr i
  made : ∀ e ∈ tr, ∀ i, e.Opens i → i < s.files.created
  started : ∀ p, (s.proc p).pc ≠ .unborn → .started p (s.proc p).args (s.proc p).input ∈ tr
  stands : ∀ p, Stands tr p (s.proc p).args (s.proc p).pc
  lawful : Always Lawful tr

section Steps

variable {s : Sys} {tr es : List Event} {p i : Nat} {args : List String} {pc : Pc} {depth : List Char}

theorem ScanDepth.append (h : ScanDepth args tr p depth) (es : List Event) :
    ScanDepth args (tr ++ es) p depth := by
  rcases h with h | ⟨hfound, h⟩
  · exact .inl (List.mem_append_left _ h)
  · refine .inr ⟨List.mem_append_left _ hfound, h.imp_right fun ⟨hnone, h⟩ => ⟨hnone, ?_⟩⟩
    exact h.imp_right (List.mem_append_left _)

/-- The others stand where they stood. -/
theorem Stands.append (h : Stands tr p args pc) (hes : ∀ e ∈ es, e.owner ≠ some p) :
    Stands (tr ++ es) p args pc := by
  cases pc with
  | openLock depth => exact ⟨h.1, List.mem_append_left _ h.2⟩
  | writeLock depth i =>
      exact ⟨h.1, List.mem_append_left _ h.2.1, List.mem_append_left _ h.2.2⟩
  | openSaved => exact ⟨List.mem_append_left _ h.1, h.2⟩
  | readSaved i => exact ⟨⟨List.mem_append_left _ h.1.1, h.1.2⟩, List.mem_append_left _ h.2⟩
  | scan depth => exact ⟨h.1, h.2.append es⟩
  | unborn =>
      intro e he
      exact (List.mem_append.mp he).elim (h e) (hes e)
  | granted | gate | ended => trivial

theorem LockOf.append {text : List Char} (h : LockOf tr i text) (es : List Event) :
    LockOf (tr ++ es) i text := by
  obtain ⟨q, depth, hnamed, htext, hcreated, hconsented⟩ := h
  exact ⟨q, depth, hnamed, htext, List.mem_append_left _ hcreated, List.mem_append_left _ hconsented⟩

theorem StillLock.snoc (h : StillLock tr i) {e : Event} (he : e ≠ .removed) :
    StillLock (tr ++ [e]) i := by
  intro a x b hsplit hopens hmem
  rcases split_append hsplit with ⟨b', h'⟩ | ⟨a', rfl, hx⟩
  · have hb : b = b' ++ [e] := by
      rw [h', List.append_assoc, List.cons_append, List.append_cancel_left_eq, List.cons.injEq]
        at hsplit
      exact hsplit.2.symm
    rw [hb] at hmem
    rcases List.mem_append.mp hmem with hmem | hmem
    · exact h a x b' h' hopens hmem
    · exact he (List.mem_singleton.mp hmem).symm
  · cases a' with
    | nil =>
        rw [← (List.cons.inj hx).2] at hmem
        cases hmem
    | cons y a' => simp at hx

/-- An event of an invocation, with the state after it. -/
theorem Inv.set {files : Files Char} {v : Invocation} (h : Inv s tr)
    (hwhole : Whole (LockOf (tr ++ es)) files)
    (hlock : ∀ i, files.path = some i →
      (∃ q, Since (· ≠ .removed) (.created q i) (tr ++ es)) ∧ StillLock (tr ++ es) i)
    (hmade : ∀ e ∈ tr ++ es, ∀ i, e.Opens i → i < files.created)
    (howner : ∀ e ∈ es, e.owner = some p)
    (hstarted : v.pc ≠ .unborn → .started p v.args v.input ∈ tr ++ es)
    (hstands : Stands (tr ++ es) p v.args v.pc) (hlawful : Always Lawful (tr ++ es)) :
    Inv ({ s with files }.set p v) (tr ++ es) := by
  refine ⟨hwhole, hlock, hmade, fun p' => ?_, fun p' => ?_, hlawful⟩
  · by_cases hp : p' = p
    · subst hp
      simpa only [Sys.set, Function.update_self] using hstarted
    · simp only [Sys.set, Function.update_of_ne hp]
      exact fun hborn => List.mem_append_left _ (h.started p' hborn)
  · by_cases hp : p' = p
    · subst hp
      simpa only [Sys.set, Function.update_self] using hstands
    · simp only [Sys.set, Function.update_of_ne hp]
      refine (h.stands p').append fun e he => ?_
      rw [howner e he]
      exact fun heq => hp (Option.some.inj heq).symm

/-- An event that leaves the files alone. -/
theorem Inv.event {v : Invocation} {e : Event} (h : Inv s tr) (howner : e.owner = some p)
    (hopens : ∀ i, e.Opens i → s.files.path = some i)
    (hstarted : v.pc ≠ .unborn → .started p v.args v.input ∈ tr ++ [e])
    (hstands : Stands (tr ++ [e]) p v.args v.pc) (hlawful : Lawful tr e) :
    Inv (s.set p v) (tr ++ [e]) := by
  have hne : e ≠ .removed := by
    rintro rfl
    cases howner
  refine h.set (h.whole.mono fun _ _ ht => ht.append _) (fun i hi => ?_) (fun x hx i hxi => ?_)
    (by simpa using howner) hstarted hstands (h.lawful.snoc hlawful)
  · obtain ⟨⟨q, hq⟩, hstill⟩ := h.lock i hi
    exact ⟨⟨q, hq.append (by simpa using hne)⟩, hstill.snoc hne⟩
  · rcases List.mem_append.mp hx with hx | hx
    · exact h.made x hx i hxi
    · rw [List.mem_singleton.mp hx] at hxi
      obtain ⟨q, hq⟩ := (h.lock i (hopens i hxi)).1
      exact h.made _ hq.mem i ⟨q, .inl rfl⟩

/-- A step of which nothing is reported. -/
theorem Inv.goto (h : Inv s tr) (hborn : (s.proc p).pc ≠ .unborn)
    (hstands : Stands tr p (s.proc p).args pc) : Inv (s.goto p pc) (tr ++ []) := by
  show Inv (({ s with files := s.files } : Sys).set p { s.proc p with pc }) (tr ++ [])
  have hnil : tr ++ [] = tr := List.append_nil tr
  refine h.set ?_ ?_ ?_ (by simp) ?_ ?_ ?_ <;> rw [hnil]
  · exact h.whole
  · exact h.lock
  · exact h.made
  · exact fun _ => h.started p hborn
  · exact hstands
  · exact h.lawful

/-- The lock is opened for writing. -/
theorem Inv.create (h : Inv s tr) (hborn : (s.proc p).pc ≠ .unborn) (hnamed : NamedDepth depth)
    (hconsented : .consented p depth ∈ tr) :
    Inv ({ s with files := s.files.create.1 }.goto p (.writeLock depth s.files.create.2))
      (tr ++ [.created p s.files.create.2]) := by
  have hstill : StillLock tr s.files.create.2 := by
    unfold Files.create
    cases hpath : s.files.path with
    | some i => exact (h.lock i hpath).2
    | none =>
        intro a e b hsplit hopens
        exact absurd (h.made e (by simp [hsplit]) _ hopens) (Nat.lt_irrefl _)
  have hnew : s.files.create.1.path = some s.files.create.2 := by
    unfold Files.create
    cases hpath : s.files.path with
    | some i | none => rfl
  have hcreated : s.files.created ≤ s.files.create.1.created ∧
      s.files.create.2 < s.files.create.1.created := by
    unfold Files.create
    cases hpath : s.files.path with
    | some i =>
        obtain ⟨q, hq⟩ := (h.lock i hpath).1
        exact ⟨Nat.le_refl _, h.made _ hq.mem i ⟨q, .inl rfl⟩⟩
    | none => exact ⟨Nat.le_succ _, Nat.lt_succ_self _⟩
  have hmem : Event.created p s.files.create.2 ∈ tr ++ [.created p s.files.create.2] := by simp
  refine h.set (h.whole.mono fun _ _ ht => ht.append _).create (fun i hi => ?_)
    (fun e he i hopens => ?_) (by simp [Event.owner])
    (fun _ => List.mem_append_left _ (h.started p hborn))
    ⟨hnamed, List.mem_append_left _ hconsented, hmem⟩
    (h.lawful.snoc ⟨⟨depth, hconsented⟩, hstill⟩)
  · rw [hnew] at hi
    rw [← Option.some.inj hi]
    exact ⟨⟨p, .now⟩, hstill.snoc (by simp)⟩
  · rcases List.mem_append.mp he with he | he
    · exact Nat.lt_of_lt_of_le (h.made e he i hopens) hcreated.1
    · rw [List.mem_singleton.mp he] at hopens
      obtain ⟨q, heq | heq⟩ := hopens
      · rw [← (Event.created.inj heq).2]
        exact hcreated.2
      · cases heq

/-- One step of an invocation. -/
theorem Inv.next (h : Inv s tr) (p : Nat) (opens : Bool) :
    Inv (invocationNext s p opens).1 (tr ++ (invocationNext s p opens).2) := by
  have hstill : Inv s (tr ++ []) := by rwa [List.append_nil]
  have hp := h.stands p
  have hstarted := h.started p
  have quiet : ∀ {e : Event}, (∀ q j, e ≠ .created q j) → (∀ q j, e ≠ .opened q j) →
      ∀ i, e.Opens i → s.files.path = some i := by
    rintro e hc ho i ⟨q, heq | heq⟩
    · exact absurd heq (hc q i)
    · exact absurd heq (ho q i)
  unfold invocationNext
  cases hpc : (s.proc p).pc with
  | unborn | ended => exact hstill
  | granted =>
      have hborn : (s.proc p).pc ≠ .unborn := by simp [hpc]
      have hmem := hstarted hborn
      simp only
      split
      · rename_i hopen
        obtain ⟨i, hi⟩ := Option.isSome_iff_exists.mp hopen.2
        obtain ⟨⟨q, hq⟩, -⟩ := h.lock i hi
        have hlaw : Lawful tr (.found p) := ⟨⟨_, _, hmem⟩, q, i, hq⟩
        have hfound : Event.found p ∈ tr ++ [.found p] := by simp
        split
        · rename_i depth hflag
          exact h.event rfl (quiet (by simp) (by simp)) (fun _ => List.mem_append_left _ hmem)
            ⟨namedDepth_of_flag hflag, .inr ⟨hfound, .inl hflag⟩⟩ hlaw
        · rename_i hflag
          exact h.event rfl (quiet (by simp) (by simp)) (fun _ => List.mem_append_left _ hmem)
            ⟨hfound, hflag⟩ hlaw
      · exact h.goto hborn trivial
  | gate =>
      have hborn : (s.proc p).pc ≠ .unborn := by simp [hpc]
      have hmem := hstarted hborn
      simp only
      cases hgate : runConsentGate (s.proc p).input with
      | exit => exact h.goto hborn trivial
      | unrecorded =>
          refine h.event rfl (quiet (by simp) (by simp)) (fun _ => List.mem_append_left _ hmem)
            ⟨.inr (.inl rfl), .inl (by simp)⟩ ⟨_, _, hmem, .inr ⟨hgate, rfl⟩⟩
      | recorded depth =>
          exact h.event rfl (quiet (by simp) (by simp)) (fun _ => List.mem_append_left _ hmem)
            ⟨namedDepth_of_gate hgate, by simp⟩ ⟨_, _, hmem, .inl hgate⟩
  | openLock depth =>
      have hborn : (s.proc p).pc ≠ .unborn := by simp [hpc]
      rw [hpc] at hp
      simp only
      split
      · exact h.create hborn hp.1 hp.2
      · exact h.goto hborn ⟨hp.1, .inl hp.2⟩
  | writeLock depth i =>
      have hborn : (s.proc p).pc ≠ .unborn := by simp [hpc]
      rw [hpc] at hp
      obtain ⟨hnamed, hconsented, hcreated⟩ := hp
      have hnil : tr ++ [] = tr := List.append_nil tr
      refine h.set ?_ ?_ ?_ (by simp) ?_ ?_ ?_ <;> rw [hnil]
      · exact h.whole.write ⟨p, depth, hnamed, rfl, hcreated, hconsented⟩
      · exact h.lock
      · exact h.made
      · exact fun _ => hstarted hborn
      · exact ⟨hnamed, .inl hconsented⟩
      · exact h.lawful
  | openSaved =>
      have hborn : (s.proc p).pc ≠ .unborn := by simp [hpc]
      rw [hpc] at hp
      simp only
      split
      · rename_i i hpath
        refine h.event rfl ?_ (fun _ => List.mem_append_left _ (hstarted hborn))
          ⟨⟨List.mem_append_left _ hp.1, hp.2⟩, by simp⟩ ⟨hp.1, (h.lock i hpath).2⟩
        rintro j ⟨q, heq | heq⟩
        · cases heq
        · rw [← (Event.opened.inj heq).2]
          exact hpath
      · exact h.goto hborn ⟨.inr (.inl rfl), .inr ⟨hp.1, .inr ⟨hp.2, .inl rfl⟩⟩⟩
  | readSaved i =>
      have hborn : (s.proc p).pc ≠ .unborn := by simp [hpc]
      rw [hpc] at hp
      obtain ⟨⟨hfound, hflag⟩, hopened⟩ := hp
      -- what is read is the depth of the last one to write the file, or nothing
      have hread : NamedDepth (savedDepth (s.files.content i)) ∧
          (savedDepth (s.files.content i) = standard ∨ ∃ q j, .opened p j ∈ tr ∧
            .created q j ∈ tr ∧ .consented q (savedDepth (s.files.content i)) ∈ tr) := by
        rcases h.whole i with hempty | ⟨text, rest, ⟨q, depth, hnamed, rfl, hc, hd⟩, hcontent⟩
        · rw [hempty]
          exact ⟨.inr (.inl rfl), .inl rfl⟩
        · rw [hcontent, savedDepth_lockText hnamed]
          exact ⟨hnamed, .inr ⟨q, i, hopened, hc, hd⟩⟩
      refine h.event rfl (quiet (by simp) (by simp)) (fun _ => List.mem_append_left _ (hstarted hborn))
        ⟨hread.1, .inr ⟨List.mem_append_left _ hfound, .inr ⟨hflag, .inr (by simp)⟩⟩⟩ hread
  | scan depth =>
      have hborn : (s.proc p).pc ≠ .unborn := by simp [hpc]
      rw [hpc] at hp
      have hlaw : Lawful tr (.scanned p depth) := ⟨hp.1, _, _, hstarted hborn, hp.2⟩
      simp only
      split
      · have hsame : s.set p (s.proc p) = s := by
          rw [Sys.set, Function.update_eq_self]
        rw [← hsame]
        refine h.event rfl (quiet (by simp) (by simp))
          (fun _ => List.mem_append_left _ (hstarted hborn)) ?_ hlaw
        rw [hpc]
        exact ⟨hp.1, hp.2.append _⟩
      · exact h.event rfl (quiet (by simp) (by simp))
          (fun _ => List.mem_append_left _ (hstarted hborn)) trivial hlaw

theorem Inv.step (h : Inv s tr) (l : Label) : Inv (step s l).1 (tr ++ (step s l).2) := by
  have hstill : Inv s (tr ++ []) := by rwa [List.append_nil]
  cases l with
  | next p opens => exact h.next p opens
  | start p args input =>
      simp only [Superhero.step]
      split
      · rename_i hpc
        have hunborn := h.stands p
        rw [hpc] at hunborn
        refine h.event rfl ?_ (fun _ => by simp) ?_ hunborn
        · rintro i ⟨q, heq | heq⟩ <;> cases heq
        · simp only
          split
          · trivial
          · trivial
      · exact hstill
  | kill p =>
      simp only [Superhero.step]
      split
      · exact hstill
      · rename_i hpc
        exact h.goto hpc trivial
  | sar args input =>
      simp only [Superhero.step]
      split
      · refine ⟨(h.whole.mono fun _ _ ht => ht.append _).unlink, fun i hi => (nomatch hi), ?_, ?_, ?_,
          h.lawful.snoc trivial⟩
        · intro e he i hopens
          rcases List.mem_append.mp he with he | he
          · exact h.made e he i hopens
          · rw [List.mem_singleton.mp he] at hopens
            obtain ⟨q, heq | heq⟩ := hopens <;> cases heq
        · exact fun p hp => List.mem_append_left _ (h.started p hp)
        · exact fun p => (h.stands p).append (by simp [Event.owner])
      · exact hstill

end Steps

theorem inv_run (ls : List Label) : Inv (runFrom ls).1 (runFrom ls).2 := by
  refine Machine.run_invariant (P := Inv) ?_ (fun _ _ l h => h.step l) ls
  exact ⟨whole_none, fun _ h => (nomatch h), fun _ h => (nomatch h), fun _ h => absurd rfl h,
    fun _ _ h => (nomatch h), .nil⟩

/-! ## Purging -/

/-- `CONSENT_LOCK`. -/
def consentLock : FileTree.Path := Gdpr.inBase "/data/.sensei_consent.lock"

theorem purged_consentLock {category : Option String} : Gdpr.Purged category consentLock ↔
    category = none ∨ category = some "all" ∨ category = some "consent" := by
  have hmem : consentLock ∈ Gdpr.consentFiles := by
    simp [consentLock, Gdpr.consentFiles]
  have hnot : consentLock ∉ Gdpr.baselineFiles ∧ consentLock ≠ Gdpr.inBase "/data/last_scan.json" := by
    decide +kernel
  -- the lock is of a store of its own category
  have hstore := Gdpr.consentFiles_stores consentLock hmem
  have hresults : ¬ Gdpr.VisibleChild (Gdpr.inBase "/Registry/daemon_results") consentLock := by
    intro h
    have := Gdpr.category_eq_of_below Gdpr.daemonResults_stores hstore h.below (.inl rfl)
    exact absurd this (by decide)
  have hlogs : ¬ Gdpr.VisibleChild (Gdpr.inBase "/logs") consentLock := by
    intro h
    have := Gdpr.category_eq_of_below Gdpr.logs_stores hstore h.below (.inl rfl)
    exact absurd this (by decide)
  unfold Gdpr.Purged
  simp only [hresults, hlogs, hnot.1, hnot.2, hmem, and_false, and_true, false_or, or_false]
  exact or_assoc

/-- An invocation with `--purge` removes the lock exactly if `cmd_purge` unlinks it. -/
theorem removesLock_purge {t : FileTree.Tree} {args : List String} {input : List Char}
    (ht : (consentLock, FileTree.Kind.file) ∈ t.entries) :
    removesLock ("--purge" :: args) input = true ↔
      (consentLock, FileTree.Kind.file) ∉
        (Gdpr.cmdPurge input (sarOptions args none none).1 t).entries := by
  have hremoves : removesLock ("--purge" :: args) input = true ↔ Gdpr.confirmed input = true ∧
      ((sarOptions args none none).1 = none ∨ (sarOptions args none none).1 = some "all" ∨
        (sarOptions args none none).1 = some "consent") := decide_eq_true_iff
  rw [hremoves, ← purged_consentLock]
  cases hinput : Gdpr.confirmed input with
  | false =>
      have hsame : Gdpr.cmdPurge input (sarOptions args none none).1 t = t := if_pos (by simp [hinput])
      rw [hsame]
      simp [ht]
  | true =>
      rw [Gdpr.mem_cmdPurge hinput]
      simp [ht]

/-! ## Consent -/

theorem consents_of_consented {tr : List Event} (h : Always Lawful tr) {q : Nat} {depth : List Char}
    (hq : .consented q depth ∈ tr) :
    ∃ args input, .started q args input ∈ tr ∧ Consents input ∧
      (depth = deep → ConfirmsDeep input) := by
  obtain ⟨pre, post, rfl⟩ := List.append_of_mem hq
  obtain ⟨args, input, hstarted, hgate⟩ := h pre _ post rfl
  refine ⟨args, input, List.mem_append_left _ hstarted, consents_of_gate ?_, ?_⟩
  · rcases hgate with hgate | ⟨hgate, -⟩ <;> rw [hgate] <;> exact Gate.noConfusion
  · rintro rfl
    rcases hgate with hgate | ⟨-, heq⟩
    · exact confirmsDeep_of_gate hgate
    · exact absurd heq (by decide)

/-- Whoever finds the lock finds that of someone who consented. -/
theorem consents_of_found {tr : List Event} (h : Always Lawful tr) {p : Nat} (hp : .found p ∈ tr) :
    ∃ q args input, .started q args input ∈ tr ∧ Consents input := by
  obtain ⟨pre, post, rfl⟩ := List.append_of_mem hp
  obtain ⟨-, q, i, hcreated⟩ := h pre _ post rfl
  obtain ⟨a, b, rfl⟩ := List.append_of_mem hcreated.mem
  have hlaw : Lawful a (.created q i) := h a _ (b ++ .found p :: post) (by simp)
  obtain ⟨⟨depth, hconsented⟩, -⟩ := hlaw
  have hmem : .consented q depth ∈ a ++ .created q i :: b ++ .found p :: post := by
    simp [hconsented]
  obtain ⟨args, input, hstarted, hinput, -⟩ := consents_of_consented h hmem
  exact ⟨q, args, input, hstarted, hinput⟩

/-- A scan is allowed by its own gate, or by a lock it found. -/
theorem scanned_lawful {tr pre post : List Event} {p : Nat} {depth : List Char}
    (h : Always Lawful tr) (htr : tr = pre ++ .scanned p depth :: post) :
    NamedDepth depth ∧ ∃ args input, .started p args input ∈ pre ∧ ScanDepth args pre p depth :=
  h pre _ post htr

/-- What one invocation created as the lock the other one opened, and between
two openings of it the lock was not removed. -/
def SameLock (tr : List Event) (q p : Nat) : Prop :=
  ∃ i, .created q i ∈ tr ∧ .opened p i ∈ tr ∧
    ∀ a e mid e' b, tr = a ++ e :: (mid ++ e' :: b) → e.Opens i → e'.Opens i → .removed ∉ mid

theorem not_removed_between {tr a mid b : List Event} {e e' : Event} {i : Nat}
    (h : Always Lawful tr) (htr : tr = a ++ e :: (mid ++ e' :: b)) (he : e.Opens i)
    (he' : e'.Opens i) : .removed ∉ mid := by
  have hlaw := h (a ++ e :: mid) e' b (by rw [htr]; simp)
  have hstill : StillLock (a ++ e :: mid) i := by
    obtain ⟨p, rfl | rfl⟩ := he'
    · exact hlaw.2
    · exact hlaw.2
  exact hstill a e mid rfl he

theorem Always.prefix {P : List Event → Event → Prop} {pre post : List Event}
    (h : Always P (pre ++ post)) : Always P pre := fun a e b hab =>
  h a e (b ++ post) (by rw [hab]; simp)

/-- What a scan needs. -/
structure Allowed (pre : List Event) (p : Nat) (depth : List Char) : Prop where
  consented : ∃ q args input, .started q args input ∈ pre ∧ Consents input
  renewed : ∀ before after, pre = before ++ .removed :: after →
    (∃ args input, .started p args input ∈ after) → (∀ q i, .created q i ∉ after) →
    .consented p depth ∈ pre ∧ ∃ args input, .started p args input ∈ after ∧ Consents input
  confirmed : .deep ∈ runScanCycle depth →
    (∃ args input, .started p args input ∈ pre ∧ ConfirmsDeep input) ∨
    .found p ∈ pre ∧ ((∃ args input, .started p args input ∈ pre ∧ depthFlag args = some deep) ∨
      ∃ q args input, .started q args input ∈ pre ∧ ConfirmsDeep input ∧ SameLock pre q p)

theorem allowed_of_scanned {pre post : List Event} {p : Nat} {depth : List Char}
    (hrun : Always Lawful (pre ++ .scanned p depth :: post)) : Allowed pre p depth := by
  have hpre : Always Lawful pre := Always.prefix hrun
  obtain ⟨hnamed, args, input, hstarted, hdepth⟩ := scanned_lawful hrun rfl
  refine ⟨?_, fun before after hsplit ⟨args', input', hnew⟩ hno => ?_, fun hdeep => ?_⟩
  · rcases hdepth with hc | ⟨hfound, -⟩
    · obtain ⟨args, input, hmem, hinput, -⟩ := consents_of_consented hpre hc
      exact ⟨p, args, input, hmem, hinput⟩
    · exact consents_of_found hpre hfound
  · -- what is of `p` comes after its start, and so after the removal
    obtain ⟨a, b, rfl⟩ := List.append_of_mem hnew
    have hbegin : ∀ e ∈ before ++ .removed :: a, e.owner ≠ some p := by
      have h := hpre (before ++ .removed :: a) (.started p args' input') b (by rw [hsplit]; simp)
      exact h
    rcases hdepth with hc | ⟨hfound, -⟩
    · refine ⟨hc, ?_⟩
      obtain ⟨args₁, input₁, hmem, hinput, -⟩ := consents_of_consented hpre hc
      refine ⟨args₁, input₁, ?_, hinput⟩
      rw [hsplit] at hmem
      rcases List.mem_append.mp hmem with hmem | hmem
      · exact absurd rfl (hbegin _ (List.mem_append_left _ hmem))
      · exact (List.mem_cons.mp hmem).resolve_left (by simp)
    · obtain ⟨c, d, hcd⟩ := List.append_of_mem hfound
      obtain ⟨⟨args₂, input₂, hst⟩, q, i, hsince⟩ := hpre c _ d hcd
      -- the lock it found was made behind the removal
      have hlen : ∃ m, c = before ++ .removed :: m ∧ ∀ e ∈ m, e ∈ a ++ .started p args' input' :: b := by
        rw [hsplit] at hcd
        rcases List.append_eq_append_iff.mp hcd with ⟨m, hm, hrest⟩ | ⟨m, hm, hrest⟩
        · cases m with
          | nil => cases hrest
          | cons e m =>
              obtain ⟨rfl, hafter⟩ := List.cons.inj hrest
              refine ⟨m, hm, fun x hx => ?_⟩
              rw [hafter]
              exact List.mem_append_left _ hx
        · refine absurd rfl (hbegin (.started p args₂ input₂) ?_)
          rw [hm]
          simp [hst]
      obtain ⟨m, rfl, hm⟩ := hlen
      exact absurd (hm _ (hsince.behind (by simp) (by simp))) (hno q i)
  · have heq := deep_of_runScanCycle hnamed hdeep
    subst heq
    rcases hdepth with hc | ⟨hfound, hflag | ⟨-, hstd | htook⟩⟩
    · obtain ⟨args, input, hmem, -, hconfirm⟩ := consents_of_consented hpre hc
      exact .inl ⟨args, input, hmem, hconfirm rfl⟩
    · exact .inr ⟨hfound, .inl ⟨args, input, hstarted, hflag⟩⟩
    · exact absurd hstd (by decide)
    · obtain ⟨c, d, hcd⟩ := List.append_of_mem htook
      obtain ⟨-, hstd | ⟨q, i, hopened, hcreated, hconsented⟩⟩ := hpre c _ d hcd
      · exact absurd hstd (by decide)
      · have hsub : ∀ e ∈ c, e ∈ pre := fun e he => by
          rw [hcd]
          exact List.mem_append_left _ he
        obtain ⟨args, input, hmem, -, hconfirm⟩ := consents_of_consented hpre (hsub _ hconsented)
        exact .inr ⟨hfound, .inr ⟨q, args, input, hmem, hconfirm rfl, i, hsub _ hcreated,
          hsub _ hopened, fun a e mid e' b => not_removed_between hpre⟩⟩

/-- The scans are allowed. -/
def ScanAllowed (pre : List Event) : Event → Prop
  | .scanned p depth => Allowed pre p depth
  | _ => True

/-- **No scan without consent.** For any number of scans and revocations and
every interleaving of their steps, from an installation on which nobody has
consented:

* before any scan someone has typed `I CONSENT` at a gate;
* an invocation that was started after a removal of the lock, with no lock
  made since, scans only with the consent of its own gate;
* the deep stages run only where `DEEP CONFIRMED` was typed at the gate of that
  invocation, or of one that wrote the lock it read, the same file without a
  removal in between, or where it found a lock and has `--deep` for its first
  depth flag. -/
theorem no_scan_without_consent (ls : List Label) : Always ScanAllowed (runFrom ls).2 := by
  intro pre e post htr
  have hrun := (inv_run ls).lawful
  rw [htr] at hrun
  cases e with
  | scanned p depth => exact allowed_of_scanned hrun
  | started | consented | found | created | opened | took | removed => trivial

/-- The choice at the gate outweighs the flag; a revocation that comes between
the two openings of the lock still leaves a standard scan. -/
example : (runFrom [.start 0 ["--deep"] "I CONSENT\n1\n".toList, .next 0 true, .next 0 true,
    .next 0 true, .next 0 true, .next 0 true, .start 1 [] [], .next 1 true,
    .sar ["--consent", "--revoke"] "REVOKE\n".toList, .next 1 true, .next 1 true]).2 =
    [.started 0 ["--deep"] "I CONSENT\n1\n".toList, .consented 0 surface, .created 0 0,
      .scanned 0 surface, .started 1 [] [], .found 1, .removed, .scanned 1 standard] := by rfl

end MiuiserPeruser.Superhero
