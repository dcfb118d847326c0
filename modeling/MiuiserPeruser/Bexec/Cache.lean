import MiuiserPeruser.Bexec.Wrap
import MiuiserPeruser.Lib.History
import MiuiserPeruser.Lib.NumberRow
import MiuiserPeruser.Lib.Run
import MiuiserPeruser.Lib.SharedFile

/-!
# backend_exec — the cache of the probe (`backend_exec.c`)

To find its backend a process runs the probe chain, which takes seconds; so
the first one writes what it found to `.bexec_backend`, and the others take
it from there for the next five minutes. Nothing locks the file: any number
of daemons may load, save and delete it at the same time.

`save_cache` is reached only after a probe of the same process. What a load
accepts is therefore always what some process has found itself, whole, and no
older than the five minutes, however many processes have taken it over since.

The port of the ADB transports (`resolve_adb_port`) is not cached and left out.
-/

namespace MiuiserPeruser.Bexec

open CText SharedFile

/-! ## The record -/

def cacheTtl : Int := 300

/-- The values of the enumeration. -/
def BackendType.code : BackendType → Nat
  | .rish => 0
  | .adb => 1
  | .direct => 2
  | .adbCli => 3

/-- `(BACKEND_TYPE)backend`, after the range check. -/
def BackendType.ofCode (n : Int) : Option BackendType :=
  if n = 0 then some .rish
  else if n = 1 then some .adb
  else if n = 2 then some .direct
  else if n = 3 then some .adbCli
  else none

/-- A path `probe_rish` has run as a word of a command line, which `%s` reads
back: it ends in `/rish`, and fits `g_rish_path`. -/
structure FoundRish where
  chars : List Char
  word : ∀ c ∈ chars, isspace c = false
  slash : '/' ∈ chars
  fits : chars.length ≤ 255

/-- What a probe chain or a load leaves in `g_backend` and `g_rish_path`. -/
inductive Choice where
  | rish (path : FoundRish)
  | adbCli
  | adb
  | direct

def Choice.backend : Choice → BackendType
  | .rish _ => .rish
  | .adbCli => .adbCli
  | .adb => .adb
  | .direct => .direct

/-- `g_rish_path`, which only `probe_rish` and a load of its result set. -/
def Choice.rishPath : Choice → List Char
  | .rish path => path.chars
  | _ => []

/-- `g_rish_path[0] ? g_rish_path : "-"`. -/
def dashed (rishPath : List Char) : List Char := if rishPath = [] then ['-'] else rishPath

/-- What `save_cache` prints. -/
def cacheLine (ts : Int) (backend : BackendType) (rishPath : List Char) : List Char :=
  formatD ts ++ ' ' :: (decimal backend.code ++ ' ' :: (dashed rishPath ++ ['\n']))

def cacheFormat : List Directive := percentLD ++ percentD ++ percentS 255

/-- What `fscanf` assigns in `try_load_cache`. -/
structure CacheEntry where
  ts : Int
  backend : BackendType
  rishPath : List Char

/-- The reading of `try_load_cache`, up to the test of the age. -/
def readCache (file : List Char) : Option CacheEntry :=
  let values := scanf cacheFormat file
  if values.length ≠ 3 then none
  else (BackendType.ofCode (numAt values 1)).map fun backend =>
    ⟨numAt values 0, backend, textAt values 2⟩

theorem ofCode_code (b : BackendType) : BackendType.ofCode b.code = some b := by
  cases b <;> rfl

/-- The path of a choice is a word that fits, or the dash. -/
theorem dashed_field (choice : Choice) :
    dashed choice.rishPath ≠ [] ∧ (∀ c ∈ dashed choice.rishPath, isspace c = false) ∧
      (dashed choice.rishPath).length ≤ 255 := by
  cases choice with
  | rish path =>
      have hne : path.chars ≠ [] := List.ne_nil_of_mem path.slash
      rw [show dashed (Choice.rish path).rishPath = path.chars from if_neg hne]
      exact ⟨hne, path.word, path.fits⟩
  | adbCli | adb | direct =>
      show dashed [] ≠ [] ∧ (∀ c ∈ dashed [], isspace c = false) ∧ (dashed []).length ≤ 255
      rw [show dashed [] = ['-'] from if_pos rfl]
      refine ⟨List.cons_ne_nil _ _, fun c hc => ?_, by simp⟩
      rw [List.mem_singleton.mp hc]
      rfl

theorem stops_space (s : List Char) : Stops (fun c => !isspace c) (' ' :: s) :=
  stops_cons.mpr (by decide)

/-- **A record is read back**, whatever lies behind it. -/
theorem readCache_cacheLine {ts : Int} (hts : IsLong ts) (choice : Choice) (rest : List Char) :
    readCache (cacheLine ts choice.backend choice.rishPath ++ rest) =
      some ⟨ts, choice.backend, dashed choice.rishPath⟩ := by
  obtain ⟨hne, hword, hlen⟩ := dashed_field choice
  unfold cacheLine
  generalize dashed choice.rishPath = path at *
  have htext : formatD ts ++ ' ' :: (decimal choice.backend.code ++ ' ' :: (path ++ ['\n'])) ++ rest =
      formatD ts ++ ' ' :: (decimal choice.backend.code ++ ' ' :: (path ++ '\n' :: rest)) := by
    simp only [List.append_assoc, List.cons_append, List.nil_append]
  have hcode : choice.backend.code < 2 ^ 31 := by
    cases choice.backend <;> decide
  have hscan := calc
    scanf cacheFormat
        (formatD ts ++ ' ' :: (decimal choice.backend.code ++ ' ' :: (path ++ '\n' :: rest)))
      = scanf cacheFormat (' ' ::
          (formatD ts ++ ' ' :: (decimal choice.backend.code ++ ' ' :: (path ++ '\n' :: rest)))) := rfl
    _ = .num (stored (storeSigned 64) ts) :: scanf (percentD ++ percentS 255)
          (' ' :: (decimal choice.backend.code ++ ' ' :: (path ++ '\n' :: rest))) :=
        scanf_formatD ts (stops_space _)
    _ = .num ts :: scanf (percentD ++ percentS 255)
          (decimal choice.backend.code ++ ' ' :: (path ++ '\n' :: rest)) := by
        rw [stored_signed (by decide) hts.1 hts.2]
        rfl
    _ = .num ts :: .num choice.backend.code :: scanf (percentS 255 ++ [])
          (path ++ '\n' :: rest) := by
        rw [percentD, List.cons_append, List.cons_append, List.nil_append,
          scanf_decimal (storeSigned_fits (by decide) hcode) (stops_space _)]
        rfl
    _ = [.num ts, .num choice.backend.code, .text path] := by
        rw [scanf_word hne hword hlen (stops_cons.mpr (by decide))]
        rfl
  rw [htext, readCache, hscan]
  simp only [List.length_cons, List.length_nil, ne_eq, not_true_eq_false, if_false, numAt, textAt,
    List.getElem?_cons_zero, List.getElem?_cons_succ]
  rw [ofCode_code]
  rfl

/-! ## The processes -/

/-- Where a process stands in `bexec_init`, `try_load_cache`, `save_cache`
or `backend_reprobe`. -/
inductive CachePc where
  | idle
  | delete
  | openRead
  | read (inode : Nat)
  | age (entry : CacheEntry)
  | probe
  | openWrite
  | print (inode : Nat)
  | write (inode : Nat) (text : List Char)

/-- The statics of a process. -/
structure Process where
  initDone : Bool
  rishDisabled : Bool
  backend : BackendType
  rishPath : List Char
  pc : CachePc

/-- A process that has not called `bexec_init` yet. -/
def Process.fresh : Process := ⟨false, false, .direct, [], .idle⟩

structure CacheSys where
  clock : {t : Int // IsLong t}
  files : Files Char
  proc : Nat → Process

inductive CacheLabel where
  /-- A call of `bexec_init`, or of a function that makes it. -/
  | init (p : Nat)
  | reprobe (p : Nat)
  | next (p : Nat)
  /-- The probe chain comes to an end. -/
  | probed (p : Nat) (choice : Choice)
  /-- The process ends, and another one takes its place. -/
  | exec (p : Nat)
  | setClock (t : {t : Int // IsLong t})

inductive CacheEvent where
  /-- The probe chain of a process found a backend. -/
  | probed (p : Nat) (choice : Choice)
  /-- `save_cache` printed what the process had. -/
  | saved (p : Nat) (ts : Int) (backend : BackendType) (rishPath : List Char)
  /-- `try_load_cache` returned 1. -/
  | loaded (p : Nat) (now : Int) (backend : BackendType) (rishPath : List Char)

def CacheSys.goto (s : CacheSys) (p : Nat) (pc : CachePc) : CacheSys :=
  { s with proc := Function.update s.proc p { s.proc p with pc } }

def CacheSys.set (s : CacheSys) (p : Nat) (q : Process) : CacheSys :=
  { s with proc := Function.update s.proc p q }

/-- The end of `try_load_cache`. -/
def takeEntry (q : Process) (entry : CacheEntry) : Process :=
  { q with
    backend := entry.backend
    rishPath := if entry.backend = .rish ∧ entry.rishPath ≠ ['-'] then snprintf 256 entry.rishPath
      else q.rishPath
    pc := .idle }

/-- The next step of a process. -/
def cacheNext (s : CacheSys) (p : Nat) : CacheSys × List CacheEvent :=
  match (s.proc p).pc with
  -- the probe chain ends with its own label
  | .idle | .probe => (s, [])
  | .delete =>
      ({ s with files := s.files.unlink }.set p
        { s.proc p with initDone := true, pc := .openRead }, [])
  | .openRead =>
      match s.files.path with
      | some i => (s.goto p (.read i), [])
      | none => (s.goto p .probe, [])
  | .read i =>
      match readCache (s.files.content i) with
      | some entry => (s.goto p (.age entry), [])
      | none => (s.goto p .probe, [])
  | .age entry =>
      if s.clock.1 - entry.ts > cacheTtl then (s.goto p .probe, [])
      else
        (s.set p (takeEntry (s.proc p) entry),
          [.loaded p s.clock (takeEntry (s.proc p) entry).backend
            (takeEntry (s.proc p) entry).rishPath])
  | .openWrite => ({ s with files := s.files.create.1 }.goto p (.print s.files.create.2), [])
  | .print i =>
      (s.goto p (.write i (cacheLine s.clock (s.proc p).backend (s.proc p).rishPath)),
        [.saved p s.clock (s.proc p).backend (s.proc p).rishPath])
  | .write i text => ({ s with files := s.files.write i text }.goto p .idle, [])

/-- `probe_rish` finds nothing where it is disabled, and disables itself
when it finds nothing. -/
def probeChain (q : Process) (choice : Choice) : Option Process :=
  match choice with
  | .rish path =>
      if q.rishDisabled then none
      else some { q with backend := .rish, rishPath := path.chars, pc := .openWrite }
  | choice => some { q with rishDisabled := true, backend := choice.backend, pc := .openWrite }

def cacheStep (s : CacheSys) : CacheLabel → CacheSys × List CacheEvent
  | .init p =>
      match (s.proc p).pc with
      | .idle =>
          if (s.proc p).initDone then (s, [])
          else (s.set p { s.proc p with initDone := true, pc := .openRead }, [])
      | _ => (s, [])
  | .reprobe p =>
      match (s.proc p).pc with
      | .idle =>
          (s.set p ⟨false, false, .direct, [], .delete⟩, [])
      | _ => (s, [])
  | .next p => cacheNext s p
  | .probed p choice =>
      match (s.proc p).pc with
      | .probe =>
          match probeChain (s.proc p) choice with
          | some q => (s.set p q, [.probed p choice])
          | none => (s, [])
      | _ => (s, [])
  | .exec p => (s.set p .fresh, [])
  | .setClock t => ({ s with clock := t }, [])

/-- Processes that have not started, and no cache. -/
def cacheRun (clock : {t : Int // IsLong t}) (ls : List CacheLabel) : CacheSys × List CacheEvent :=
  Machine.run cacheStep ⟨clock, .none, fun _ => .fresh⟩ ls

/-! ## What is loaded has been found -/

/-- The process has taken the choice. -/
def Process.Holds (q : Process) (choice : Choice) : Prop :=
  q.backend = choice.backend ∧ q.rishPath = choice.rishPath

/-- The line of a save of the run. -/
def Record (tr : List CacheEvent) (text : List Char) : Prop :=
  ∃ q ts, ∃ choice : Choice, IsLong ts ∧ text = cacheLine ts choice.backend choice.rishPath ∧
    .saved q ts choice.backend choice.rishPath ∈ tr

/-- Every save follows a probe of the same process, and every load a save of
the same backend, made no longer ago than the time to live. -/
def Founded (pre : List CacheEvent) : CacheEvent → Prop
  | .probed _ _ => True
  | .saved q _ backend rishPath => ∃ choice : Choice, choice.backend = backend ∧
      choice.rishPath = rishPath ∧ .probed q choice ∈ pre
  | .loaded _ now backend rishPath => ∃ q ts, .saved q ts backend rishPath ∈ pre ∧
      now - ts ≤ cacheTtl

/-- Between the start of `bexec_init` and its choice. -/
def CachePc.deciding : CachePc → Bool
  | .delete | .openRead | .read _ | .age _ | .probe => true
  | _ => false

/-- Between the choice and the print of `save_cache`. -/
def CachePc.saving : CachePc → Bool
  | .openWrite | .print _ => true
  | _ => false

theorem CachePc.not_saving {pc : CachePc} (h : pc.deciding = true) : pc.saving = false := by
  cases pc <;> first | rfl | cases h

/-- What a process stands on. -/
structure Good (tr : List CacheEvent) (p : Nat) (q : Process) : Prop where
  begun : q.initDone = false → q.pc = .idle ∨ q.pc = .delete
  blank : q.initDone = false ∨ q.pc.deciding = true → q.rishPath = []
  saving : q.pc.saving = true → ∃ choice, q.Holds choice ∧ .probed p choice ∈ tr
  entry : ∀ e, q.pc = .age e → ∃ writer ts, ∃ choice : Choice,
    .saved writer ts choice.backend choice.rishPath ∈ tr ∧
      e = ⟨ts, choice.backend, dashed choice.rishPath⟩
  text : ∀ i t, q.pc = .write i t → Record tr t
  settled : q.initDone = true → q.pc.deciding = false →
    ∃ choice, q.Holds choice ∧ (.probed p choice ∈ tr ∨
      ∃ now, .loaded p now choice.backend choice.rishPath ∈ tr)

theorem Record.append {tr : List CacheEvent} {text : List Char} (h : Record tr text)
    (es : List CacheEvent) : Record (tr ++ es) text := by
  obtain ⟨q, ts, choice, hts, htext, hmem⟩ := h
  exact ⟨q, ts, choice, hts, htext, List.mem_append_left _ hmem⟩

theorem Good.append {tr : List CacheEvent} {p : Nat} {q : Process} (h : Good tr p q)
    (es : List CacheEvent) : Good (tr ++ es) p q where
  begun := h.begun
  blank := h.blank
  saving hq := by
    obtain ⟨choice, hholds, hmem⟩ := h.saving hq
    exact ⟨choice, hholds, List.mem_append_left _ hmem⟩
  entry e he := by
    obtain ⟨writer, ts, choice, hmem, heq⟩ := h.entry e he
    exact ⟨writer, ts, choice, List.mem_append_left _ hmem, heq⟩
  text i t ht := (h.text i t ht).append es
  settled hi hq := by
    obtain ⟨choice, hholds, hmem | ⟨now, hmem⟩⟩ := h.settled hi hq
    · exact ⟨choice, hholds, .inl (List.mem_append_left _ hmem)⟩
    · exact ⟨choice, hholds, .inr ⟨now, List.mem_append_left _ hmem⟩⟩

theorem good_fresh (tr : List CacheEvent) (p : Nat) : Good tr p .fresh :=
  ⟨fun _ => .inl rfl, fun _ => rfl, fun h => (nomatch h), fun _ h => (nomatch h),
    fun _ _ h => (nomatch h), fun h => (nomatch h)⟩

/-- A process that goes on with its choice still to make. -/
theorem Good.decide {tr : List CacheEvent} {p : Nat} {q : Process} (hpath : q.rishPath = [])
    (hinit : q.initDone = true) (hpc : q.pc.deciding = true) (hage : ∀ e, q.pc ≠ .age e) :
    Good tr p q := by
  refine ⟨fun h => ?_, fun _ => hpath, fun h => ?_, fun e he => absurd he (hage e),
    fun i t ht => ?_, fun _ h => ?_⟩
  · rw [hinit] at h
    cases h
  · rw [CachePc.not_saving hpc] at h
    cases h
  · rw [ht] at hpc
    cases hpc
  · rw [h] at hpc
    cases hpc

structure CacheInv (s : CacheSys) (tr : List CacheEvent) : Prop where
  whole : Whole (fun _ => Record tr) s.files
  good : ∀ p, Good tr p (s.proc p)
  founded : History.Always Founded tr

/-- A step of one process, with what it reports. -/
theorem CacheInv.set {s : CacheSys} {tr : List CacheEvent} (h : CacheInv s tr) (files : Files Char)
    {p : Nat} {q : Process} {es : List CacheEvent} (hfiles : Whole (fun _ => Record (tr ++ es)) files)
    (hq : Good (tr ++ es) p q) (hes : History.Always Founded (tr ++ es)) :
    CacheInv ({ s with files }.set p q) (tr ++ es) := by
  refine ⟨hfiles, fun p' => ?_, hes⟩
  by_cases hp : p' = p
  · subst hp
    simpa only [CacheSys.set, Function.update_self] using hq
  · simpa only [CacheSys.set, Function.update_of_ne hp] using (h.good p').append es

/-- A step that reports nothing and leaves the files alone. -/
theorem CacheInv.silent {s : CacheSys} {tr : List CacheEvent} (h : CacheInv s tr) {p : Nat}
    {q : Process} (hq : Good tr p q) : CacheInv (s.set p q) (tr ++ []) := by
  have hnil : tr ++ [] = tr := List.append_nil tr
  refine h.set s.files ?_ ?_ ?_ <;> rw [hnil]
  · exact h.whole
  · exact hq
  · exact h.founded

/-- A load leaves the process with the choice that was saved. -/
theorem takeEntry_holds {q : Process} (hq : q.rishPath = []) (ts : Int) (choice : Choice) :
    (takeEntry q ⟨ts, choice.backend, dashed choice.rishPath⟩).Holds choice := by
  refine ⟨rfl, ?_⟩
  cases choice with
  | rish path =>
      have hne : path.chars ≠ [] := List.ne_nil_of_mem path.slash
      have hdashed : dashed (Choice.rish path).rishPath = path.chars := if_neg hne
      have hdash : path.chars ≠ ['-'] := by
        intro heq
        have hslash := path.slash
        rw [heq] at hslash
        simp at hslash
      have hcopy : snprintf 256 path.chars = path.chars :=
        snprintf_fits (Nat.lt_succ_of_le path.fits)
      rw [hdashed]
      exact (if_pos ⟨rfl, hdash⟩).trans hcopy
  | adbCli | adb | direct => exact hq

theorem CacheInv.next {s : CacheSys} {tr : List CacheEvent} (h : CacheInv s tr) (p : Nat) :
    CacheInv (cacheNext s p).1 (tr ++ (cacheNext s p).2) := by
  have hp := h.good p
  have hstill : CacheInv s (tr ++ []) := by rwa [List.append_nil]
  have hnil : tr ++ [] = tr := List.append_nil tr
  have hinit : (s.proc p).pc ≠ .idle → (s.proc p).pc ≠ .delete → (s.proc p).initDone = true := by
    intro hidle hdelete
    cases hi : (s.proc p).initDone with
    | true => rfl
    | false => exact ((hp.begun hi).elim hidle hdelete).elim
  unfold cacheNext
  cases hpc : (s.proc p).pc with
  | idle | probe => exact hstill
  | delete =>
      have hblank := hp.blank (.inr (by rw [hpc]; rfl))
      refine h.set _ ?_ ?_ ?_ <;> rw [hnil]
      · exact h.whole.unlink
      · exact .decide hblank rfl rfl (fun e he => nomatch he)
      · exact h.founded
  | openRead =>
      have hblank := hp.blank (.inr (by rw [hpc]; rfl))
      have hdone := hinit (by simp [hpc]) (by simp [hpc])
      simp only
      split
      · exact h.silent (.decide hblank hdone rfl (fun e he => nomatch he))
      · exact h.silent (.decide hblank hdone rfl (fun e he => nomatch he))
  | read i =>
      have hblank := hp.blank (.inr (by rw [hpc]; rfl))
      have hdone := hinit (by simp [hpc]) (by simp [hpc])
      simp only
      rcases h.whole i with hempty | ⟨text, rest, ⟨writer, ts, choice, hts, rfl, hmem⟩, hcontent⟩
      · rw [hempty, show readCache [] = none from rfl]
        exact h.silent (.decide hblank hdone rfl (fun e he => nomatch he))
      · rw [hcontent, readCache_cacheLine hts]
        refine h.silent ⟨fun hi => ?_, fun _ => hblank, fun h => (nomatch h), fun e he => ?_,
          fun _ _ h => (nomatch h), fun _ h => (nomatch h)⟩
        · rw [hdone] at hi
          cases hi
        · exact ⟨writer, ts, choice, hmem, (CachePc.age.inj he).symm⟩
  | age entry =>
      have hblank := hp.blank (.inr (by rw [hpc]; rfl))
      have hdone := hinit (by simp [hpc]) (by simp [hpc])
      simp only
      split
      · exact h.silent (.decide hblank hdone rfl (fun e he => nomatch he))
      · rename_i hage
        obtain ⟨writer, ts, choice, hmem, rfl⟩ := hp.entry entry hpc
        have hholds := takeEntry_holds (q := s.proc p) hblank ts choice
        rw [hholds.1, hholds.2]
        refine h.set _ (h.whole.mono fun _ _ ht => ht.append _) ?_ (h.founded.snoc ?_)
        · refine ⟨fun hi => ?_, fun hi => ?_, fun h => (nomatch h), fun _ h => (nomatch h),
            fun _ _ h => (nomatch h), fun _ _ => ⟨choice, hholds, .inr ⟨s.clock, by simp⟩⟩⟩
          · rw [show (takeEntry _ _).initDone = _ from hdone] at hi
            cases hi
          · rcases hi with hi | hi
            · rw [show (takeEntry _ _).initDone = _ from hdone] at hi
              cases hi
            · cases hi
        · exact ⟨writer, ts, hmem, not_lt.mp hage⟩
  | openWrite =>
      have hdone := hinit (by simp [hpc]) (by simp [hpc])
      obtain ⟨choice, hholds, hmem⟩ := hp.saving (by rw [hpc]; rfl)
      refine h.set _ ?_ ?_ ?_ <;> rw [hnil]
      · exact h.whole.create
      · refine ⟨fun hi => ?_, fun hi => ?_, fun _ => ⟨choice, hholds, hmem⟩, fun _ h => (nomatch h),
          fun _ _ h => (nomatch h), fun _ _ => ⟨choice, hholds, .inl hmem⟩⟩
        · rw [show (s.proc p).initDone = _ from hdone] at hi
          cases hi
        · rcases hi with hi | hi
          · rw [show (s.proc p).initDone = _ from hdone] at hi
            cases hi
          · cases hi
      · exact h.founded
  | print i =>
      have hdone := hinit (by simp [hpc]) (by simp [hpc])
      obtain ⟨choice, hholds, hmem⟩ := hp.saving (by rw [hpc]; rfl)
      rw [hholds.1, hholds.2]
      refine h.set s.files (h.whole.mono fun _ _ ht => ht.append _) ?_
        (h.founded.snoc ⟨choice, rfl, rfl, hmem⟩)
      refine ⟨fun hi => ?_, fun hi => ?_, fun h => (nomatch h), fun _ h => (nomatch h),
        fun j t ht => ?_, fun _ _ => ⟨choice, hholds, .inl (List.mem_append_left _ hmem)⟩⟩
      · rw [show (s.proc p).initDone = _ from hdone] at hi
        cases hi
      · rcases hi with hi | hi
        · rw [show (s.proc p).initDone = _ from hdone] at hi
          cases hi
        · cases hi
      · obtain ⟨-, rfl⟩ := CachePc.write.inj ht
        exact ⟨p, s.clock, choice, s.clock.2, rfl, by simp⟩
  | write i text =>
      have hdone := hinit (by simp [hpc]) (by simp [hpc])
      refine h.set _ ?_ ?_ ?_ <;> rw [hnil]
      · exact h.whole.write (hp.text i text hpc)
      · refine ⟨fun _ => .inl rfl, fun hi => ?_, fun h => (nomatch h), fun _ h => (nomatch h),
          fun _ _ h => (nomatch h), fun _ _ => hp.settled hdone (by rw [hpc]; rfl)⟩
        rcases hi with hi | hi
        · rw [show (s.proc p).initDone = _ from hdone] at hi
          cases hi
        · cases hi
      · exact h.founded

/-- The probe chain of a process comes to its end. -/
theorem probeChain_holds {q q' : Process} {choice : Choice} (hq : q.rishPath = [])
    (h : probeChain q choice = some q') :
    q'.Holds choice ∧ q'.initDone = q.initDone ∧ q'.pc = .openWrite := by
  unfold probeChain at h
  cases choice with
  | rish path =>
      simp only at h
      split at h
      · cases h
      · rw [← Option.some.inj h]
        exact ⟨⟨rfl, rfl⟩, rfl, rfl⟩
  | adbCli | adb | direct =>
      rw [← Option.some.inj h]
      exact ⟨⟨rfl, hq⟩, rfl, rfl⟩

theorem CacheInv.step {s : CacheSys} {tr : List CacheEvent} (h : CacheInv s tr) (l : CacheLabel) :
    CacheInv (cacheStep s l).1 (tr ++ (cacheStep s l).2) := by
  have hstill : CacheInv s (tr ++ []) := by rwa [List.append_nil]
  cases l with
  | next p => exact h.next p
  | exec p => exact h.silent (good_fresh tr p)
  | setClock t =>
      refine ⟨?_, fun p => ?_, ?_⟩
      all_goals simp only [cacheStep, List.append_nil]
      · exact h.whole
      · exact h.good p
      · exact h.founded
  | init p =>
      simp only [cacheStep]
      split
      · rename_i hpc
        split
        · exact hstill
        · rename_i hinit
          have hblank := (h.good p).blank (.inl (Bool.eq_false_iff.mpr hinit))
          exact h.silent (.decide hblank rfl rfl (fun e he => nomatch he))
      · exact hstill
  | reprobe p =>
      simp only [cacheStep]
      split
      · exact h.silent ⟨fun _ => .inr rfl, fun _ => rfl, fun h => (nomatch h), fun _ h => (nomatch h),
          fun _ _ h => (nomatch h), fun h => (nomatch h)⟩
      · exact hstill
  | probed p choice =>
      simp only [cacheStep]
      split
      · rename_i hpc
        have hp := h.good p
        have hblank := hp.blank (.inr (by rw [hpc]; rfl))
        split
        · rename_i q hchain
          obtain ⟨hholds, hdone, hq⟩ := probeChain_holds hblank hchain
          have hinit : (s.proc p).initDone = true := by
            cases hi : (s.proc p).initDone with
            | true => rfl
            | false => rcases hp.begun hi with h' | h' <;> rw [hpc] at h' <;> cases h'
          have hmem : CacheEvent.probed p choice ∈ tr ++ [.probed p choice] := by simp
          refine h.set s.files (h.whole.mono fun _ _ ht => ht.append _) ?_
            (h.founded.snoc trivial)
          refine ⟨fun hi => ?_, fun hi => ?_, fun _ => ⟨choice, hholds, hmem⟩, fun e he => ?_,
            fun i t ht => ?_, fun _ _ => ⟨choice, hholds, .inl hmem⟩⟩
          · rw [hdone, hinit] at hi
            cases hi
          · rw [hdone, hinit, hq] at hi
            rcases hi with hi | hi <;> cases hi
          · rw [hq] at he
            cases he
          · rw [hq] at ht
            cases ht
        · exact hstill
      · exact hstill

theorem cacheInv_run (clock : {t : Int // IsLong t}) (ls : List CacheLabel) :
    CacheInv (cacheRun clock ls).1 (cacheRun clock ls).2 := by
  refine Machine.run_invariant (P := CacheInv) ?_ (fun _ _ l h => h.step l) ls
  exact ⟨whole_none, good_fresh [], .nil⟩

/-- **What is loaded has been found.** For any number of processes and any
interleaving of their loads, saves and deletions of the cache, with processes
that end at any point: every save follows a probe of the same process with the
same result; every load takes, whole, what some process saved no more than
five minutes before, and the age counts from that process's own save, however
often the result was taken over since; a process that has come out of
`bexec_init` uses what it probed or loaded; and a reader that finds the file
not empty finds a record in it. -/
theorem cache_truthful (clock : {t : Int // IsLong t}) (ls : List CacheLabel) :
    let s := (cacheRun clock ls).1
    let tr := (cacheRun clock ls).2
    History.Always Founded tr ∧
    (∀ p, (s.proc p).initDone = true → (s.proc p).pc = .idle →
      ∃ choice, (s.proc p).Holds choice ∧ (.probed p choice ∈ tr ∨
        ∃ now, .loaded p now choice.backend choice.rishPath ∈ tr)) ∧
    ∀ p i, (s.proc p).pc = .read i → s.files.content i ≠ [] →
      ∃ q ts, ∃ choice : Choice, .saved q ts choice.backend choice.rishPath ∈ tr ∧
        readCache (s.files.content i) = some ⟨ts, choice.backend, dashed choice.rishPath⟩ := by
  intro s tr
  have h : CacheInv s tr := cacheInv_run clock ls
  refine ⟨h.founded, fun p hinit hpc => ?_, fun p i _ hne => ?_⟩
  · exact (h.good p).settled hinit (by rw [hpc]; rfl)
  · rcases h.whole i with hempty | ⟨text, rest, ⟨q, ts, choice, hts, rfl, hmem⟩, hcontent⟩
    · exact absurd hempty hne
    · exact ⟨q, ts, choice, hmem, by rw [hcontent, readCache_cacheLine hts]⟩

end MiuiserPeruser.Bexec
