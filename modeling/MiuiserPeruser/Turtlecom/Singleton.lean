import Mathlib.Logic.Function.Basic
import MiuiserPeruser.Lib.Run

/-!
# turtlecomd — one instance (`turtlecomd.c`)

A process opens the pid file, locks it and serves; on shutdown it unlocks
the file, closes it and removes it. The lock belongs to the file, and
newcomers find the file by its path: who opens it before a shutdown removes
it, and locks it after, serves from a file that has no name, and the next
one makes a new file (`two_instances`).

Where no step takes part in that race, one process serves at a time, and
the path does not name another file (`singleton_unless_raced`).
-/

namespace MiuiserPeruser.Turtlecom

open Machine

/-! ## Processes and their files -/

/-- Where a process is, and which file its `g_lock_fd` has open. -/
inductive Pc where
  | start
  | opened (inode : Nat)
  | locked (inode : Nat)
  | serving (inode : Nat)
  | unlocked (inode : Nat)
  | closed
  | gone
  deriving DecidableEq

/-- The file a process has locked. -/
def Pc.held : Pc → Option Nat
  | .locked inode => some inode
  | .serving inode => some inode
  | _ => none

/-- `TURTLE_PID_PATH` as a name for a file, the number of files made so far,
the holder of each file's lock, and the processes. -/
structure System where
  path : Option Nat
  created : Nat
  lock : Nat → Option Nat
  pc : Nat → Pc

/-- A process goes on. -/
def System.goto (s : System) (p : Nat) (pc : Pc) : System :=
  { s with pc := Function.update s.pc p pc }

/-- `open(TURTLE_PID_PATH, O_CREAT | O_RDWR, 0644)`. -/
def openPidFile (s : System) (p : Nat) : System :=
  match s.path with
  | some inode => s.goto p (.opened inode)
  | none => { s with path := some s.created, created := s.created + 1 }.goto p (.opened s.created)

/-- `flock(g_lock_fd, LOCK_EX | LOCK_NB)`; a process that does not get the
lock exits. -/
def flockPidFile (s : System) (p inode : Nat) : System :=
  match s.lock inode with
  | some _ => s.goto p .gone
  | none => { s with lock := Function.update s.lock inode (some p) }.goto p (.locked inode)

/-- The lock of a process is given up. -/
def System.release (s : System) (p : Nat) : System :=
  match (s.pc p).held with
  | some inode => { s with lock := Function.update s.lock inode none }
  | none => s

inductive Label where
  | next (p : Nat)
  | crash (p : Nat)

/-- The next step of a process, in `acquire_singleton_lock` up to `serving`
and then in the shutdown of `main`. -/
def next (s : System) (p : Nat) : System :=
  match s.pc p with
  | .start => openPidFile s p
  | .opened inode => flockPidFile s p inode
  | .locked inode => s.goto p (.serving inode)
  | .serving inode => (s.release p).goto p (.unlocked inode)
  | .unlocked _ => s.goto p .closed
  | .closed => { s with path := none }.goto p .gone
  | .gone => s

/-- One step of one process. A crash closes its files, as does `main` when
it finds no transport. -/
def step (s : System) : Label → System × List Empty
  | .next p => (next s p, [])
  | .crash p => ((s.release p).goto p .gone, [])

/-- No process has started, and no pid file is there. -/
def init : System := ⟨none, 0, fun _ => none, fun _ => .start⟩

/-! ## One instance -/

/-- One process at most has returned from `acquire_singleton_lock` and holds
its lock, and the path does not name another file than its own. -/
structure Singleton (s : System) : Prop where
  one : ∀ p q i j, s.pc p = .serving i → s.pc q = .serving j → p = q
  named : ∀ p i j, s.pc p = .serving i → s.path = some j → j = i

/-- No process has a lock. -/
def NoneLocked (s : System) : Prop := ∀ p, (s.pc p).held = none

/-- The step is not part of the race: no file is made while some process has
a lock, and a file is locked only under its name, or while none has one. -/
def Unraced (s : System) : Label → Prop
  | .crash _ => True
  | .next p =>
      match s.pc p with
      | .start => s.path = none → NoneLocked s
      | .opened inode =>
          s.lock inode = none → s.path = some inode ∨ s.path = none ∧ NoneLocked s
      | _ => True

/-- What steps outside the race keep. -/
structure Inv (s : System) : Prop where
  lock_iff : ∀ i p, s.lock i = some p ↔ (s.pc p).held = some i
  one : ∀ p q i j, (s.pc p).held = some i → (s.pc q).held = some j → p = q
  named : ∀ p i j, (s.pc p).held = some i → s.path = some j → j = i

section Steps

variable {s : System}

theorem Inv.singleton (h : Inv s) : Singleton s where
  one p q i j hp hq := h.one p q i j (by rw [hp]; rfl) (by rw [hq]; rfl)
  named p i j hp hpath := h.named p i j (by rw [hp]; rfl) hpath

theorem goto_held (p q : Nat) (pc : Pc) :
    ((s.goto p pc).pc q).held = if q = p then pc.held else (s.pc q).held := by
  unfold System.goto
  by_cases hq : q = p
  · rw [hq, if_pos rfl]
    exact congrArg Pc.held (Function.update_self ..)
  · rw [if_neg hq]
    exact congrArg Pc.held (Function.update_of_ne hq ..)

/-- A step that neither takes nor gives up a lock. -/
theorem Inv.goto (h : Inv s) {p : Nat} {pc : Pc} (hpc : pc.held = (s.pc p).held) :
    Inv (s.goto p pc) := by
  have hheld : ∀ q, ((s.goto p pc).pc q).held = (s.pc q).held := by
    intro q
    rw [goto_held]
    split
    · next hq => rw [hq, hpc]
    · rfl
  constructor
  case lock_iff =>
    intro i q
    rw [hheld]
    exact h.lock_iff i q
  case one =>
    intro q r i j
    rw [hheld, hheld]
    exact h.one q r i j
  case named =>
    intro q i j
    rw [hheld]
    exact h.named q i j

/-- A process that has a lock gives it up. -/
theorem Inv.release (h : Inv s) {p : Nat} {pc : Pc} (hpc : pc.held = none) :
    Inv ((s.release p).goto p pc) := by
  cases hp : (s.pc p).held with
  | none =>
      rw [System.release, hp]
      exact h.goto (hpc.trans hp.symm)
  | some inode =>
      have hrelease : s.release p = { s with lock := Function.update s.lock inode none } := by
        rw [System.release, hp]
      have hothers : ∀ q i, (((s.release p).goto p pc).pc q).held = some i ↔
          q ≠ p ∧ (s.pc q).held = some i := by
        intro q i
        rw [goto_held, hrelease]
        by_cases hq : q = p
        · simp [hq, hpc]
        · simp [hq]
      constructor
      case lock_iff =>
        intro i q
        rw [hothers, hrelease]
        show Function.update s.lock inode none i = some q ↔ _
        by_cases hi : i = inode
        · rw [hi, Function.update_self]
          constructor
          · intro hnone
            cases hnone
          · rintro ⟨hq, hheld⟩
            exact absurd (h.one q p inode inode hheld hp) hq
        · rw [Function.update_of_ne hi, h.lock_iff]
          constructor
          · intro hheld
            refine ⟨?_, hheld⟩
            rintro rfl
            rw [hp] at hheld
            exact hi (Option.some.inj hheld).symm
          · exact And.right
      case one =>
        intro q r i j hq hr
        exact h.one q r i j ((hothers q i).mp hq).2 ((hothers r j).mp hr).2
      case named =>
        intro q i j hq hpath
        rw [hrelease] at hpath
        exact h.named q i j ((hothers q i).mp hq).2 hpath

/-- The path is given to a new file, or to none. -/
theorem Inv.rename (h : Inv s) (path : Option Nat) (created : Nat)
    (hpath : path = none ∨ NoneLocked s) : Inv { s with path := path, created := created } where
  lock_iff := h.lock_iff
  one := h.one
  named p i j hp hj := by
    rcases hpath with hnone | hfree
    · have hj : path = some j := hj
      rw [hnone] at hj
      cases hj
    · have hp : (s.pc p).held = some i := hp
      rw [hfree p] at hp
      cases hp

theorem Inv.openPidFile (h : Inv s) {p : Nat} (hpc : (s.pc p).held = none)
    (hfree : s.path = none → NoneLocked s) : Inv (openPidFile s p) := by
  unfold Turtlecom.openPidFile
  cases hpath : s.path with
  | some inode => exact h.goto hpc.symm
  | none => exact (h.rename _ _ (.inr (hfree hpath))).goto hpc.symm

theorem Inv.flockPidFile (h : Inv s) {p inode : Nat} (hpc : (s.pc p).held = none)
    (hraced : s.lock inode = none → s.path = some inode ∨ s.path = none ∧ NoneLocked s) :
    Inv (flockPidFile s p inode) := by
  unfold Turtlecom.flockPidFile
  cases hlock : s.lock inode with
  | some q => exact h.goto hpc.symm
  | none =>
      -- the file is the one the path names, so nobody has another one
      have hnobody : NoneLocked s := by
        intro q
        rcases hraced hlock with hpath | ⟨-, hnone⟩
        · cases hq : (s.pc q).held with
          | none => rfl
          | some i =>
              rw [h.named q i inode hq hpath, (h.lock_iff i q).mpr hq] at hlock
              cases hlock
        · exact hnone q
      have hheld : ∀ q i, ((({ s with lock := Function.update s.lock inode (some p) } :
          System).goto p (.locked inode)).pc q).held = some i ↔ q = p ∧ i = inode := by
        intro q i
        rw [goto_held]
        by_cases hq : q = p
        · simp [hq, Pc.held, eq_comm]
        · simp [hq, hnobody q]
      constructor
      case lock_iff =>
        intro i q
        rw [hheld]
        show Function.update s.lock inode (some p) i = some q ↔ _
        by_cases hi : i = inode
        · simp [hi, eq_comm]
        · rw [Function.update_of_ne hi, h.lock_iff, hnobody q]
          simp [hi]
      case one =>
        intro q r i j hq hr
        rw [((hheld q i).mp hq).1, ((hheld r j).mp hr).1]
      case named =>
        intro q i j hq hj
        obtain ⟨-, rfl⟩ := (hheld q i).mp hq
        have hj : s.path = some j := hj
        rcases hraced hlock with hpath | ⟨hnone, -⟩
        · rw [hpath] at hj
          exact (Option.some.inj hj).symm
        · rw [hnone] at hj
          cases hj

/-- What one step outside the race keeps. -/
theorem Inv.step (h : Inv s) (l : Label) (hok : Unraced s l) : Inv (step s l).1 := by
  cases l with
  | crash p => exact h.release rfl
  | next p =>
      show Inv (next s p)
      unfold next
      unfold Unraced at hok
      cases hp : s.pc p with
      | start =>
          simp only [hp] at hok
          exact h.openPidFile (by rw [hp]; rfl) hok
      | opened inode =>
          simp only [hp] at hok
          exact h.flockPidFile (by rw [hp]; rfl) hok
      | locked inode => exact h.goto (by rw [hp]; rfl)
      | serving inode => exact h.release rfl
      | unlocked inode => exact h.goto (by rw [hp]; rfl)
      | closed => exact (h.rename none s.created (.inl rfl)).goto (by show _ = (s.pc p).held; rw [hp]; rfl)
      | gone => exact h

end Steps

theorem inv_init : Inv init := by
  constructor
  case lock_iff =>
    intro i p
    constructor
    · intro h
      cases h
    · intro h
      cases h
  case one =>
    intro p q i j hp
    cases hp
  case named =>
    intro p i j hp
    cases hp

/-- **One process serves at a time**, and from the file the path names, in
every run without the race. -/
theorem singleton_unless_raced (ls : List Label) (h : Meets step Unraced init ls) :
    Throughout step Singleton init ls :=
  Throughout.of_invariant (fun _ l hinv hok => hinv.step l hok) (fun _ hinv => hinv.singleton) ls init
    inv_init h

/-- The second process finds the file locked; the third starts when the first is gone. -/
def relay : List Label :=
  [.next 0, .next 0, .next 0, .next 1, .next 1, .next 0, .next 0, .next 0, .next 2, .next 2, .next 2]

theorem singleton_unless_raced_relay :
    Throughout step Singleton init relay ∧ (run step init relay).1.pc 2 = .serving 1 := by
  refine ⟨singleton_unless_raced relay ?_, rfl⟩
  have hpath : ∀ {i : Nat} {P : Prop}, some i = none → P := fun h => by cases h
  refine ⟨fun _ _ => rfl, fun _ => .inl rfl, trivial, hpath, hpath, trivial, trivial, trivial, ?_,
    fun _ => .inl rfl, trivial, trivial⟩
  intro _ p
  by_cases h0 : p = 0
  · subst h0
    rfl
  · by_cases h1 : p = 1
    · subst h1
      rfl
    · simp [step, next, init, System.goto, System.release, flockPidFile, openPidFile, Pc.held, h0, h1]

/-- The first process unlocks the file, the second locks it, the first
removes it, and the third locks a new one. -/
def race : List Label :=
  [.next 0, .next 0, .next 0, .next 1, .next 0, .next 1, .next 1, .next 0, .next 0, .next 2, .next 2,
    .next 2]

/-- Then two processes serve, each from a file of its own. -/
theorem two_instances : ¬ Throughout step Singleton init race := by
  intro h
  obtain ⟨-, -, -, -, -, -, -, -, -, -, -, -, hend⟩ := h
  have hsame : 1 = 2 := hend.one 1 2 0 1 rfl rfl
  cases hsame

end MiuiserPeruser.Turtlecom
