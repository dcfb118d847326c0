import MiuiserPeruser.Nulld.Poll

/-!
# nulld — suspicious transmitters (`nulld.c`)

`check_suspicious_transmitters` compares the sessions of a package with those
in `g_baseline_sessions`, which nothing fills. So every package with
sessions counts as one that has transmitted since the screen went off, and a
check reports new traffic alone just if each of the packages it lists had
fewer sessions when the idle period began (`onlyNewTraffic_iff`).
-/

namespace MiuiserPeruser.Nulld

open CText

/-! ## What a check finds -/

section Check

variable {baseline : List PkgSessions} {rlen : Nat}

/-- A package is reported. -/
def isReported (baseline : List PkgSessions) (p : PkgSessions) : Bool :=
  0 < wrap32 (p.sessions - baselineSessions baseline p.uid)

theorem foldl_checkTransmitter (baseline : List PkgSessions) (rlen : Nat) (current : List PkgSessions)
    (c : TransmitterCheck) :
    (current.foldl (checkTransmitter baseline rlen) c).found = c.found ++ current.filter (isReported baseline) ∧
      (current.foldl (checkTransmitter baseline rlen) c).report =
        current.foldl (addTransmitter baseline rlen) c.report ∧
      (current.foldl (checkTransmitter baseline rlen) c).events = c.events ++
        (current.filter (isReported baseline)).flatMap fun p =>
          telemetry p (wrap32 (p.sessions - baselineSessions baseline p.uid)) := by
  induction current generalizing c with
  | nil => simp
  | cons p current ih =>
      obtain ⟨hfound, hreport, hevents⟩ := ih (checkTransmitter baseline rlen c p)
      rw [List.foldl_cons, hfound, hreport, hevents, List.foldl_cons]
      by_cases hp : 0 < wrap32 (p.sessions - baselineSessions baseline p.uid)
      · have hstep : checkTransmitter baseline rlen c p =
            ⟨addTransmitter baseline rlen c.report p, c.found ++ [p],
              c.events ++ telemetry p (wrap32 (p.sessions - baselineSessions baseline p.uid))⟩ := if_pos hp
        have hfilter : (p :: current).filter (isReported baseline) = p :: current.filter (isReported baseline) :=
          List.filter_cons_of_pos (decide_eq_true hp)
        rw [hstep, hfilter]
        simp
      · have hstep : checkTransmitter baseline rlen c p = c := if_neg hp
        have hadd : addTransmitter baseline rlen c.report p = c.report := if_neg hp
        have hfilter : (p :: current).filter (isReported baseline) = current.filter (isReported baseline) :=
          List.filter_cons_of_neg (by simpa [isReported] using hp)
        rw [hstep, hadd, hfilter]
        exact ⟨rfl, rfl, rfl⟩

/-- `sessions` is an `int`. -/
theorem isInt_sessions {last : Nat → Char} {max count : Nat} {texts : List (List Char)} {sessions : List PkgSessions}
    (h : readSessions last max count texts = some sessions) : ∀ p ∈ sessions, IsInt p.sessions := by
  have hnum : ∀ line i, IsInt (numAt (scanf sessionsFormat line) i) := by
    intro line i
    refine numAt_of_forall isInt_zero.1 (fun n hn => ?_) i
    obtain ⟨base, store, negative, k, hmem, rfl⟩ := scanf_num_stored hn
    obtain ⟨-, rfl⟩ : base = 10 ∧ store = storeSigned 32 := by simpa [sessionsFormat, percentD] using hmem
    exact isInt_wrap32 _
  intro p hp
  obtain ⟨line, k, hcopy⟩ := mem_readSessions h hp
  obtain ⟨pkg, -, rfl⟩ := Option.map_eq_some_iff.mp hcopy
  exact hnum line 2

/-- Without a baseline whatever has sessions is reported. -/
theorem isReported_nil {p : PkgSessions} (h : IsInt p.sessions) : isReported [] p = true ↔ 0 < p.sessions := by
  have hdelta : wrap32 (p.sessions - baselineSessions [] p.uid) = p.sessions := by
    show wrap32 (p.sessions - 0) = p.sessions
    rw [sub_zero, wrap32_of_isInt h]
  rw [isReported, hdelta, decide_eq_true_iff]

end Check

/-! ## The checks of a run -/

/-- The check of a poll is due: the screen is off, for a multiple of 60
seconds. -/
def CheckDue (s : IdleState) (o : Outputs) : Prop :=
  getScreenState o = .off ∧ (wrap32 ((if s.prevScreen = .on then 0 else s.idleSecs) + pollSec)).tmod 60 = 0 ∧
    0 < wrap32 ((if s.prevScreen = .on then 0 else s.idleSecs) + pollSec)

instance (s : IdleState) (o : Outputs) : Decidable (CheckDue s o) := inferInstanceAs (Decidable (_ ∧ _ ∧ _))

theorem poll_check (s : IdleState) (o : Outputs) : (poll s o).2.check =
    if CheckDue s o then checkTransmitters s.baselineSessions o 512 else some .empty := by
  cases h : getScreenState o with
  | unknown =>
      have hnot : ¬ CheckDue s o := fun hdue => by simpa [h] using hdue.1
      rw [if_neg hnot, poll_unknown h]
      rfl
  | on =>
      have hnot : ¬ CheckDue s o := fun hdue => by simpa [h] using hdue.1
      rw [if_neg hnot, poll_on h]
      rfl
  | off =>
      rw [poll_off h, captureBaseline_off h]
      simp only [CheckDue, h, true_and]
      rfl

/-- The first line of netstats about a package, read as the check reads it:
its sessions, or none. -/
def packageSessions (o : Outputs) (uid : Int) (pkg : List Char) : Int :=
  let rows := ((lines ((nullRun o.netstats).getD [])).map (scanf sessionsFormat)).filter (·.length = 3)
  match rows.find? fun values => numAt values 0 = uid ∧ sanitizeField (textAt values 1) = pkg with
  | some values => numAt values 2
  | none => 0

/-- The sessions of a package when the idle period began. -/
def sessionsAtStart (run : List Outputs) (p : PkgSessions) : Int :=
  match (idlePeriod run).head? with
  | some o => packageSessions o p.uid p.pkg
  | none => 0

/-- What the poll behind a run reports has new sessions in this idle period,
and its signals are of such packages. What has none is not reported. -/
structure OnlyNewTraffic (run : List Outputs) (o : Outputs) : Prop where
  found : ∀ c, (poll (stateAfter run) o).2.check = some c → ∀ p ∈ c.found,
    sessionsAtStart (run ++ [o]) p < p.sessions
  emitted : ∀ c, (poll (stateAfter run) o).2.check = some c → ∀ e ∈ c.events, ∃ p ∈ c.found, ∃ delta,
    e = telemetryEvent p delta ∧ sessionsAtStart (run ++ [o]) p < p.sessions
  unchanged : ∀ c, (poll (stateAfter run) o).2.check = some c → ∀ p,
    sessionsAtStart (run ++ [o]) p = p.sessions → p ∉ c.found

/-- If a check is due, each of the first 64 packages of netstats that has
sessions had fewer when the idle period began. -/
def AllAreNew (run : List Outputs) (o : Outputs) : Prop :=
  CheckDue (stateAfter run) o → ∀ current, getPackageSessions o.last (nullRun o.netstats) 64 = some current →
    ∀ p ∈ current, 0 < p.sessions → sessionsAtStart (run ++ [o]) p < p.sessions

/-- What a check of a run finds. -/
theorem check_of_run {run : List Outputs} {o : Outputs} {current : List PkgSessions} (hdue : CheckDue (stateAfter run) o)
    (hcurrent : getPackageSessions o.last (nullRun o.netstats) 64 = some current) :
    ∃ c, (poll (stateAfter run) o).2.check = some c ∧ (∀ p, p ∈ c.found ↔ p ∈ current ∧ 0 < p.sessions) ∧
      ∀ e ∈ c.events, ∃ p ∈ c.found, ∃ delta, e = telemetryEvent p delta := by
  have hcheck : (poll (stateAfter run) o).2.check = checkTransmitters [] o 512 := by
    rw [poll_check, if_pos hdue, stateAfter_baselineSessions]
  obtain ⟨hfound, -, hevents⟩ := foldl_checkTransmitter [] 512 current .empty
  refine ⟨_, by rw [hcheck, checkTransmitters, hcurrent, Option.map_some], ?_, ?_⟩
  · intro p
    rw [hfound]
    show p ∈ current.filter (isReported []) ↔ _
    rw [List.mem_filter]
    constructor
    · rintro ⟨hp, hreported⟩
      exact ⟨hp, (isReported_nil (isInt_sessions hcurrent p hp)).mp hreported⟩
    · rintro ⟨hp, hpos⟩
      exact ⟨hp, (isReported_nil (isInt_sessions hcurrent p hp)).mpr hpos⟩
  · intro e he
    rw [hevents] at he
    obtain ⟨p, hp, he⟩ := List.mem_flatMap.mp he
    obtain ⟨k, -, rfl⟩ := List.mem_map.mp he
    refine ⟨p, ?_, _, rfl⟩
    rw [hfound]
    exact hp

/-- **Only new traffic makes a transmitter suspicious**, if and only if there
is no other. -/
theorem onlyNewTraffic_iff (run : List Outputs) (o : Outputs) : OnlyNewTraffic run o ↔ AllAreNew run o := by
  constructor
  · intro h hdue current hcurrent p hp hpos
    obtain ⟨c, hcheck, hfound, -⟩ := check_of_run hdue hcurrent
    exact h.found c hcheck p ((hfound p).mpr ⟨hp, hpos⟩)
  · intro h
    have hnew : ∀ c, (poll (stateAfter run) o).2.check = some c →
        (∀ p ∈ c.found, sessionsAtStart (run ++ [o]) p < p.sessions) ∧
        ∀ e ∈ c.events, ∃ p ∈ c.found, ∃ delta, e = telemetryEvent p delta := by
      intro c hc
      by_cases hdue : CheckDue (stateAfter run) o
      · cases hcurrent : getPackageSessions o.last (nullRun o.netstats) 64 with
        | none =>
            rw [poll_check, if_pos hdue, checkTransmitters, hcurrent] at hc
            exact absurd hc nofun
        | some current =>
            obtain ⟨c', hcheck, hfound, hevents⟩ := check_of_run hdue hcurrent
            obtain rfl : c' = c := Option.some.inj (hcheck.symm.trans hc)
            refine ⟨fun p hp => ?_, hevents⟩
            obtain ⟨hmem, hpos⟩ := (hfound p).mp hp
            exact h hdue current hcurrent p hmem hpos
      · rw [poll_check, if_neg hdue] at hc
        obtain rfl := Option.some.inj hc
        exact ⟨fun p hp => absurd hp List.not_mem_nil, fun e he => absurd he List.not_mem_nil⟩
    refine ⟨fun c hc => (hnew c hc).1, ?_, ?_⟩
    · intro c hc e he
      obtain ⟨p, hp, delta, he⟩ := (hnew c hc).2 e he
      exact ⟨p, hp, delta, he, (hnew c hc).1 p hp⟩
    · intro c hc p hsame hp
      have hlt := (hnew c hc).1 p hp
      rw [hsame] at hlt
      exact absurd hlt (lt_irrefl _)

/-! ## A quiet minute -/

/-- A poll with one package in netstats. -/
def withAnalytics (power : String) : Outputs where
  health := none
  power := some power.toList
  tcp4 := none
  tcp6 := none
  netDev := none
  netstats := some " \x7buid=10023,package=com.miui.analytics\x7d=5\n".toList
  last := fun _ => '\x00'

/-- The package with five sessions. -/
def analytics : PkgSessions := ⟨"com.miui.analytics".toList, 10023, 5⟩

/-- The sessions are five all the time, and after a minute they are reported. -/
theorem unchanged_reported :
    (poll (stateAfter (withAnalytics "Awake" :: List.replicate 5 (withAnalytics "Asleep")))
        (withAnalytics "Asleep")).2.check.map TransmitterCheck.found = some [analytics] ∧
      ¬ OnlyNewTraffic (withAnalytics "Awake" :: List.replicate 5 (withAnalytics "Asleep"))
        (withAnalytics "Asleep") := by
  have hfound : (poll (stateAfter (withAnalytics "Awake" :: List.replicate 5 (withAnalytics "Asleep")))
      (withAnalytics "Asleep")).2.check.map TransmitterCheck.found = some [analytics] := by decide +kernel
  refine ⟨hfound, fun h => ?_⟩
  obtain ⟨c, hc, hmem⟩ := Option.map_eq_some_iff.mp hfound
  have hlt := h.found c hc analytics (by rw [hmem]; exact List.mem_cons_self)
  exact absurd hlt (by decide +kernel)

end MiuiserPeruser.Nulld
