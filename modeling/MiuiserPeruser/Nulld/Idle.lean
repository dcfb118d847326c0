import MiuiserPeruser.Nulld.Poll

/-!
# nulld — idle accounting (`nulld.c`)

The baseline is captured when the screen goes from on to off between two
polls, the seconds are reset at this edge and at the opposite one, and the
deltas are taken whenever the screen is off. So an idle period that begins
otherwise, behind a poll that could not read the screen or with the process,
is measured from what an earlier period has left, or from zero.

What a poll reports is right just if its period began at the edge, or what
was left happens to be what the edge would have set (`refersToPeriod_iff`).
-/

namespace MiuiserPeruser.Nulld

open CText

/-- The counters with which the idle period began. -/
def periodStart (run : List Outputs) : Option Snapshot := (idlePeriod run).head?.map snapshot

/-- The polls of the idle period that found the screen off. -/
def offCount (run : List Outputs) : Nat := (idlePeriod run).countP (getScreenState · = .off)

/-- What a poll reports behind a run refers to its idle period: the deltas to
the counters it began with, and the seconds to its polls. -/
structure RefersToPeriod (run : List Outputs) (o : Outputs) : Prop where
  deltas : ∃ start, periodStart (run ++ [o]) = some start ∧
    (poll (stateAfter run) o).2.idleRxDelta = wrap64 ((snapshot o).rx - start.rx) ∧
    (poll (stateAfter run) o).2.idleTxDelta = wrap64 ((snapshot o).tx - start.tx) ∧
    (poll (stateAfter run) o).2.tcpDelta = wrap32 ((snapshot o).tcp - start.tcp)
  seconds : (poll (stateAfter run) o).1.idleSecs = pollSec * offCount (run ++ [o])

/-- The same bytes, and as many connections. -/
def SameCounters (a b : Snapshot) : Prop := a.rx = b.rx ∧ a.tx = b.tx ∧ a.tcp = b.tcp

instance (a b : Snapshot) : Decidable (SameCounters a b) := inferInstanceAs (Decidable (_ ∧ _ ∧ _))

/-- The idle period began when the screen was on at the poll before, or what
was left of the time before is what it began with; and its seconds still fit
in an `int`. -/
def BeganFresh (run : List Outputs) : Prop :=
  ((stateAfter (beforeIdle run)).prevScreen = .on ∨
    (stateAfter (beforeIdle run)).idleSecs = 0 ∧
      ∀ start ∈ periodStart run, SameCounters (stateAfter (beforeIdle run)).idleBaseline start) ∧
  pollSec * offCount run < 2 ^ 31

instance (run : List Outputs) : Decidable (BeganFresh run) := inferInstanceAs (Decidable (_ ∧ _))

section Idle

variable {s : IdleState} {idle : List Outputs}

/-- **Inside an idle period** the baseline stays, and the seconds go on. -/
theorem foldl_poll_idle (hidle : ∀ o ∈ idle, getScreenState o ≠ .on) (hprev : s.prevScreen ≠ .on)
    (hsecs : IsInt s.idleSecs) :
    (idle.foldl (fun s o => (poll s o).1) s).idleBaseline = s.idleBaseline ∧
      (idle.foldl (fun s o => (poll s o).1) s).idleSecs =
        wrap32 (s.idleSecs + pollSec * idle.countP (getScreenState · = .off)) := by
  induction idle generalizing s with
  | nil =>
      refine ⟨rfl, ?_⟩
      rw [List.countP_nil, List.foldl_nil, Int.ofNat_zero, mul_zero, add_zero, wrap32_of_isInt hsecs]
  | cons o idle ih =>
      have ho := hidle o List.mem_cons_self
      have hbase : (poll s o).1.idleBaseline = s.idleBaseline := by
        rw [poll_idleBaseline, if_neg fun h => hprev h.2]
      have hnext : (poll s o).1.prevScreen ≠ .on := ho
      rw [List.foldl_cons]
      cases hscreen : getScreenState o with
      | on => exact absurd hscreen ho
      | unknown =>
          have hkept := poll_idleSecs_unknown (s := s) hscreen
          obtain ⟨hbaseline, hcount⟩ := ih (fun o h => hidle o (List.mem_cons_of_mem _ h)) hnext (hkept ▸ hsecs)
          refine ⟨hbaseline.trans hbase, ?_⟩
          rw [hcount, hkept, List.countP_cons_of_neg (by simp [hscreen])]
      | off =>
          have hadded := poll_idleSecs_off (s := s) hscreen
          rw [if_neg hprev] at hadded
          obtain ⟨hbaseline, hcount⟩ := ih (fun o h => hidle o (List.mem_cons_of_mem _ h)) hnext
            (hadded ▸ isInt_wrap32 _)
          refine ⟨hbaseline.trans hbase, ?_⟩
          rw [hcount, hadded, wrap32_add, List.countP_cons_of_pos (by simp [hscreen])]
          push_cast
          congr 1
          ring

/-- What the state has of the idle period at its end. -/
theorem stateAfter_idle (before : List Outputs) {first : Outputs} {rest : List Outputs}
    (hfirst : getScreenState first = .off) (hrest : ∀ o ∈ rest, getScreenState o ≠ .on) :
    (stateAfter (before ++ first :: rest)).idleBaseline =
        (if (stateAfter before).prevScreen = .on then snapshot first else (stateAfter before).idleBaseline) ∧
      (stateAfter (before ++ first :: rest)).idleSecs =
        wrap32 ((if (stateAfter before).prevScreen = .on then 0 else (stateAfter before).idleSecs) +
          pollSec * (first :: rest).countP (getScreenState · = .off)) := by
  have hprev : (poll (stateAfter before) first).1.prevScreen ≠ .on := by
    rw [poll_prevScreen, hfirst]
    exact nofun
  have hsecs := poll_idleSecs_off (s := stateAfter before) hfirst
  obtain ⟨hbaseline, hcount⟩ := foldl_poll_idle hrest hprev (hsecs ▸ isInt_wrap32 _)
  rw [stateAfter_append, List.foldl_cons, hbaseline, hcount, poll_idleBaseline, hsecs, wrap32_add,
    List.countP_cons_of_pos (by simp [hfirst])]
  constructor
  · simp only [hfirst, true_and]
  · push_cast
    congr 1
    ring

/-- The seconds are right if none were left and none are too many. -/
theorem seconds_eq_iff {left count : Int} (hleft : IsInt left) (hcount : 0 ≤ count) :
    wrap32 (left + count) = count ↔ left = 0 ∧ count < 2 ^ 31 := by
  constructor
  · intro h
    have hint := isInt_wrap32 (left + count)
    rw [h] at hint
    have hmod : wrap32 (left + count) = wrap32 count := by rw [h, wrap32_of_isInt hint]
    rw [wrap32_eq_iff] at hmod
    rw [IsInt] at hint hleft
    omega
  · rintro ⟨rfl, hfits⟩
    rw [zero_add, wrap32_of_isInt]
    rw [IsInt]
    omega

/-- **Idle accounting refers to the current idle period** if and only if the
period began at an edge, or as if it had. -/
theorem refersToPeriod_iff (run : List Outputs) (o : Outputs) (h : getScreenState o = .off) :
    RefersToPeriod run o ↔ BeganFresh (run ++ [o]) := by
  obtain ⟨first, rest, hperiod, hfirst⟩ := idlePeriod_concat run h
  have hrest : ∀ o ∈ rest, getScreenState o ≠ .on := by
    intro o ho
    exact idlePeriod_not_on o (hperiod ▸ List.mem_cons_of_mem _ ho)
  have hsplit : beforeIdle (run ++ [o]) ++ first :: rest = run ++ [o] := hperiod ▸ beforeIdle_append _
  have hstart : periodStart (run ++ [o]) = some (snapshot first) := by rw [periodStart, hperiod]; rfl
  have hcount : offCount (run ++ [o]) = (first :: rest).countP (getScreenState · = .off) := by
    rw [offCount, hperiod]
  obtain ⟨hbaseline, hsecs⟩ := stateAfter_idle (beforeIdle (run ++ [o])) hfirst hrest
  rw [hsplit, stateAfter_concat] at hbaseline hsecs
  obtain ⟨hrx, htx, htcp⟩ := poll_measured (s := stateAfter run) h
  have hleft : IsInt (if (stateAfter (beforeIdle (run ++ [o]))).prevScreen = .on then 0
      else (stateAfter (beforeIdle (run ++ [o]))).idleSecs) := by
    split
    · exact isInt_zero.1
    · exact isInt_idleSecs _
  have hseconds : (poll (stateAfter run) o).1.idleSecs = pollSec * offCount (run ++ [o]) ↔
      ((stateAfter (beforeIdle (run ++ [o]))).prevScreen = .on ∨
        (stateAfter (beforeIdle (run ++ [o]))).idleSecs = 0) ∧ pollSec * offCount (run ++ [o]) < 2 ^ 31 := by
    rw [hsecs, hcount, seconds_eq_iff hleft (by unfold pollSec; omega)]
    by_cases hon : (stateAfter (beforeIdle (run ++ [o]))).prevScreen = .on
    · simp [hon]
    · simp [hon]
  have hdeltas : (∃ start, periodStart (run ++ [o]) = some start ∧
      (poll (stateAfter run) o).2.idleRxDelta = wrap64 ((snapshot o).rx - start.rx) ∧
      (poll (stateAfter run) o).2.idleTxDelta = wrap64 ((snapshot o).tx - start.tx) ∧
      (poll (stateAfter run) o).2.tcpDelta = wrap32 ((snapshot o).tcp - start.tcp)) ↔
      SameCounters (poll (stateAfter run) o).1.idleBaseline (snapshot first) := by
    rw [hstart, hrx, htx, htcp]
    simp only [Option.some.injEq, exists_eq_left', wrap64_sub_eq_iff (Snapshot.longs _).1 (Snapshot.longs _).1,
      wrap64_sub_eq_iff (Snapshot.longs _).2 (Snapshot.longs _).2,
      wrap32_sub_eq_iff (isInt_wrap32 _) (isInt_wrap32 _), Snapshot.tcp, SameCounters]
  have hall : RefersToPeriod run o ↔ SameCounters (poll (stateAfter run) o).1.idleBaseline (snapshot first) ∧
      (poll (stateAfter run) o).1.idleSecs = pollSec * offCount (run ++ [o]) :=
    ⟨fun h => ⟨hdeltas.mp h.deltas, h.seconds⟩, fun h => ⟨hdeltas.mpr h.1, h.2⟩⟩
  rw [hall, hseconds, hbaseline, BeganFresh, hstart]
  by_cases hon : (stateAfter (beforeIdle (run ++ [o]))).prevScreen = .on
  · rw [if_pos hon]
    exact ⟨fun h => ⟨.inl hon, h.2.2⟩, fun h => ⟨⟨rfl, rfl, rfl⟩, .inl hon, h.2⟩⟩
  · rw [if_neg hon]
    constructor
    · rintro ⟨hsame, hzero, hfits⟩
      refine ⟨.inr ⟨hzero.resolve_left hon, fun start hmem => ?_⟩, hfits⟩
      obtain rfl := Option.some.inj hmem
      exact hsame
    · rintro ⟨hbegan, hfits⟩
      obtain ⟨hzero, hsame⟩ := hbegan.resolve_left hon
      exact ⟨hsame _ rfl, .inr hzero, hfits⟩

/-! ## Two evenings -/

/-- What the commands print: the screen, and the ninth number of `wlan0`. -/
def evening (power netDev : String) : Outputs where
  health := some "adb_ok".toList
  power := some power.toList
  tcp4 := some "4".toList
  tcp6 := some "9".toList
  netDev := some netDev.toList
  netstats := none
  last := fun _ => '\x00'

def awake : Outputs := evening "mWakefulness=Awake" "wlan0: 7000000 1 0 0 0 0 0 0 5000000"

def asleep : Outputs := evening "mWakefulness=Asleep" "wlan0: 7000000 1 0 0 0 0 0 0 5000000"

/-- A poll at which the backend does not answer. -/
def noAnswer : Outputs := ⟨none, none, none, none, none, none, fun _ => '\x00'⟩

/-- At the edge, and behind a poll without an answer in the idle period. -/
theorem refersToPeriod_iff_edge : RefersToPeriod [awake, asleep, noAnswer] asleep :=
  (refersToPeriod_iff [awake, asleep, noAnswer] asleep (by decide +kernel)).mpr (by decide +kernel)

/-- Behind a poll without an answer an idle period begins with all bytes since
the start of the device. -/
theorem edge_missed : getScreenState asleep = .off ∧
    (poll (stateAfter [awake, noAnswer]) asleep).2.idleTxDelta = 5000000 ∧
    ¬ RefersToPeriod [awake, noAnswer] asleep := by
  refine ⟨by decide +kernel, by decide +kernel, fun h => ?_⟩
  obtain ⟨start, hstart, -, htx, -⟩ := h.deltas
  have hsame : ∀ start ∈ periodStart ([awake, noAnswer] ++ [asleep]), wrap64 ((snapshot asleep).tx - start.tx) = 0 := by
    decide +kernel
  rw [hsame start hstart] at htx
  exact absurd htx (by decide +kernel)

end Idle

end MiuiserPeruser.Nulld
