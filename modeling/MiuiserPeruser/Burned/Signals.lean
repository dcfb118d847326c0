import MiuiserPeruser.Burned.Props
import MiuiserPeruser.Lib.JoinedText

/-!
# burned — one signal for one finding (`burned.c`)

A poll passes every signal that fires on to the court, and keeps the signals
it passed on in one text, so that none goes twice. The text is asked with
`strstr` and has room for 512 bytes: a signal whose name is part of another
is taken for it, and the signal that no longer fits is not found again
(`emitted_once_iff`).
-/

namespace MiuiserPeruser.Burned

open CText

/-! ## The tables -/

/-- What a key may consist of. -/
def plainName (name : String) : Bool :=
  name.toList.all fun c => c ≠ '"' && c ≠ '\\' && 0x20 ≤ c.toNat

theorem plain_of_plainName {name : String} (h : plainName name = true) :
    ∀ c ∈ name.toList, c ≠ '"' ∧ c ≠ '\\' ∧ 0x20 ≤ c.toNat := by
  intro c hc
  simpa [and_assoc] using List.all_eq_true.mp h c hc

/-- A literal is `String.ofList` of its characters. -/
theorem plain {name : List Char}
    (h : (name.all fun c => c ≠ '"' && c ≠ '\\' && 0x20 ≤ c.toNat) = true) :
    plainName (String.ofList name) = true := by
  rwa [plainName, String.toList_ofList]

def propKey (name : String) (h : plainName name = true) : PropKey := ⟨name, plain_of_plainName h⟩

/-- `g_bprops`, and the signal of each row. -/
def gBprops : List (BProp × Option String) :=
  [(⟨propKey "persist.sys.miui_optimization" (plain rfl), "MIUI Optimisation", -1⟩,
      some "MIUI_OPTIMIZATION_OFF"),
   (⟨propKey "persist.sys.miui_restricted_mode" (plain rfl), "Restricted Mode", 1⟩,
      some "MIUI_RESTRICTED_MODE"),
   (⟨propKey "persist.sys.powerkeeper" (plain rfl), "PowerKeeper", 1⟩, some "POWERKEEPER_ACTIVE"),
   (⟨propKey "persist.sys.game_turbo_enabled" (plain rfl), "Game Turbo", 1⟩,
      some "GAME_TURBO_ACTIVE"),
   (⟨propKey "persist.sys.memory_extension_enabled" (plain rfl), "RAM Extension", 1⟩,
      some "RAM_EXTENSION_ACTIVE"),
   (⟨propKey "persist.sys.miui.turbosched" (plain rfl), "TurboSched", 1⟩, none),
   (⟨propKey "persist.sys.perfshielder" (plain rfl), "PerfShielder", 1⟩, none),
   (⟨propKey "miui.whetstone.power" (plain rfl), "Whetstone Power", 1⟩, none),
   (⟨propKey "persist.sys.miui.msa.consent" (plain rfl), "MSA Telemetry", 1⟩,
      some "MSA_TELEMETRY_ACTIVE"),
   (⟨propKey "persist.sys.background_data" (plain rfl), "Background Data", 1⟩, none),
   (⟨propKey "persist.sys.miuibooster.rtmode" (plain rfl), "Booster RTMode", 1⟩,
      some "MIUI_BOOSTER_RTMODE"),
   (⟨propKey "persist.sys.miui_scout_binder_full_kill_process" (plain rfl), "Binder Full Kill", 1⟩,
      some "PROCESS_KILL_AGGRESSIVE"),
   (⟨propKey "persist.sys.smart_gc.enable" (plain rfl), "Smart GC", 1⟩, some "SMART_GC_AGGRESSIVE"),
   (⟨propKey "persist.sys.lmk.reportkills" (plain rfl), "LMK Kill Report", 1⟩, none),
   (⟨propKey "persist.sys.perf_scenario_recognition.enable" (plain rfl), "Perf Scenario", 1⟩, none),
   (⟨propKey "persist.sys.enable_rtmode_uclamp" (plain rfl), "RT Uclamp", 1⟩, none),
   (⟨propKey "persist.sys.stability.window_monitor.kill_when_leak" (plain rfl), "Kill On Leak", 1⟩,
      none),
   (⟨propKey "persist.sys.disable_restart_threshold" (plain rfl), "Restart Threshold", 1⟩, none),
   (⟨propKey "persist.sys.autostart" (plain rfl), "Autostart Control", 0⟩, none),
   (⟨propKey "persist.sys.performance_mode" (plain rfl), "Perf Mode", 1⟩, none)]

/-- `g_pprops`, and the signal of each row. -/
def gPprops : List (PProp × Option String) :=
  [(⟨propKey "persist.sys.miui.sno" (plain rfl), "Device SNO", none, false⟩,
      some "DEVICE_SERIAL_EXPOSED"),
   (⟨propKey "ro.ril.miui.imei0" (plain rfl), "IMEI0 (ro)", none, false⟩, some "IMEI_EXPOSED"),
   (⟨propKey "ro.ril.miui.imei1" (plain rfl), "IMEI1 (ro)", none, false⟩, some "IMEI_EXPOSED"),
   (⟨propKey "persist.sys.misight.ue_mode" (plain rfl), "MiSight UE Mode", some "off", true⟩,
      some "MISIGHT_ANALYTICS_ON"),
   (⟨propKey "persist.sys.downgrade_after_inactive_days" (plain rfl), "App Downgrade Days",
      some "(unset)", true⟩, some "APP_DOWNGRADE_ACTIVE"),
   (⟨propKey "persist.sys.cleaner_level" (plain rfl), "Cleaner Level", none, false⟩,
      some "CLEANER_AGGRESSIVE"),
   (⟨propKey "persist.sys.mms.bg_apps_limit" (plain rfl), "BG App Limit", none, false⟩, none),
   (⟨propKey "persist.sys.perf_turbo_type" (plain rfl), "Perf Turbo Type", none, false⟩, none),
   (⟨propKey "persist.sys.stability.reboot_days" (plain rfl), "Forced Reboot Days",
      some "(unset)", true⟩,
      some "FORCED_REBOOT_POLICY"),
   (⟨propKey "ro.mi.os.version.name" (plain rfl), "OS Version", some "OS", false⟩,
      some "HYPEROS_DETECTED")]

/-- A row the query on the table `partners` gives; a missing text counts as empty. -/
structure PartnerRow where
  signalName : List Char
  propKey : List Char
  propValue : List Char
  priority : Int32

/-- `db_pprop_t` as it is loaded, with any key. -/
structure LoadedProp where
  signal : List Char
  key : List Char
  expect : List Char
  priority : Int32

/-- `MAX_DB_PPROPS`. -/
def maxDbPprops : Nat := 64

/-- `load_partner_db`. -/
def loadPartnerDb (rows : List PartnerRow) : List LoadedProp :=
  (rows.take maxDbPprops).map fun row =>
    ⟨row.signalName.take 63, row.propKey.take 79, row.propValue.take 159, row.priority⟩

/-- `db_pprop_fires` of a loaded row. -/
def LoadedProp.fires (p : LoadedProp) (cur : List Char) : Bool :=
  if p.key = [] ∨ p.expect = [] then false
  else if cur = unset ∨ cur = err ∨ cur = [] then false
  else if ',' ∉ p.expect then (strstr p.expect cur).isSome
  else ((p.expect.take 159).splitOn ',').any fun tok => tok ≠ [] && (strstr tok cur).isSome

/-- A row with a plain key fires as it is printed. -/
theorem dbPpropFires_eq (p : DbPProp) (cur : List Char) :
    dbPpropFires p cur = LoadedProp.fires ⟨p.signal, p.key.name.toList, p.expect, p.priority⟩ cur := by
  have hname : p.key.name = "" ↔ p.key.name.toList = [] := String.toList_eq_nil_iff.symm
  simp only [dbPpropFires, LoadedProp.fires, hname]

/-! ## emit_signal -/

/-- `dedup_check_add`: whether the signal is new, and the text afterwards. -/
def dedupCheckAdd (deduped sig : List Char) : Bool × List Char :=
  if (strstr sig deduped).isSome then (false, deduped)
  else
    let named := deduped ++ sig.take (space 512 2 deduped)
    (true, named ++ [','].take (space 512 1 named))

/-- `g_deduped_signals`, and the signals that went to `gaveld_emit`. -/
structure Emission where
  deduped : List Char
  emitted : List (List Char)

/-- `emit_signal`; no caller passes NULL. -/
def emitSignal (st : Emission) (sig : List Char) : Emission :=
  if sig = [] then st
  else
    let checked := dedupCheckAdd st.deduped sig
    ⟨checked.2, if checked.1 then st.emitted ++ [sig] else st.emitted⟩

/-- The calls of `emit_signal`, after `dedup_reset`. -/
def emitAll (calls : List (List Char)) : Emission := calls.foldl emitSignal ⟨[], []⟩

/-- The signals `poll_burned` calls `emit_signal` with, in the order of its
three passes; the functions give the value read for the i-th row of each. -/
def firedSignals (partners : List LoadedProp) (binary privacy partner : Nat → List Char) :
    List (List Char) :=
  (gBprops.zipIdx.filterMap fun p =>
      if (p.1.1.entry (binary p.2)).fired then p.1.2.map String.toList else none) ++
    (gPprops.zipIdx.filterMap fun p =>
      if ppropFires p.1.1 (privacy p.2) then p.1.2.map String.toList else none) ++
    partners.zipIdx.filterMap fun p => if p.1.fires (partner p.2) then some p.1.signal else none

/-- A size is computed for a new signal that is less than zero. -/
def Wraps (deduped sig : List Char) : Prop :=
  (strstr sig deduped).isSome = false ∧
    (512 < deduped.length + 2 ∨
      512 < (deduped ++ sig.take (space 512 2 deduped)).length + 1)

/-- Every distinct signal is passed on once, and the text keeps within its
512 bytes after every call. -/
structure EmittedOnce (calls : List (List Char)) : Prop where
  once : (emitAll calls).emitted.Nodup
  every : ∀ sig, sig ∈ (emitAll calls).emitted ↔ sig ∈ calls
  within : ∀ front, front <+: calls → (emitAll front).deduped.length < 512
  noWrap : ∀ front sig, front ++ [sig] <+: calls → ¬ Wraps (emitAll front).deduped sig

/-- When that is so, in terms of the distinct signals in the order they fire
first: none is part of an earlier one, all but the last fit with a comma
behind each, and the last fits as well or does not fire again. -/
structure Distinguished (calls : List (List Char)) : Prop where
  apart : calls.eraseDups.Pairwise fun earlier later => ¬ later <:+: earlier
  fit : (joined ',' calls.eraseDups.dropLast).length ≤ 510
  last : ∀ sig ∈ calls.eraseDups.getLast?,
    (joined ',' calls.eraseDups).length < 512 ∨ calls.count sig = 1

section Once

variable {calls : List (List Char)} {sig deduped : List Char}

theorem eraseDups_concat (calls : List (List Char)) (sig : List Char) :
    (calls ++ [sig]).eraseDups =
      if sig ∈ calls then calls.eraseDups else calls.eraseDups ++ [sig] := by
  rw [List.eraseDups_append]
  by_cases hmem : sig ∈ calls
  · simp [List.removeAll, hmem]
  · simp [List.removeAll, hmem, List.eraseDups_cons]

theorem nodup_eraseDups (calls : List (List Char)) : calls.eraseDups.Nodup := by
  induction calls using List.reverseRecOn with
  | nil => exact List.nodup_nil
  | append_singleton calls sig ih =>
      rw [eraseDups_concat]
      split
      · exact ih
      · next hmem =>
          rw [List.nodup_append_comm, List.singleton_append, List.nodup_cons, List.mem_eraseDups]
          exact ⟨hmem, ih⟩

theorem emitAll_concat (calls : List (List Char)) (sig : List Char) :
    emitAll (calls ++ [sig]) = emitSignal (emitAll calls) sig := by
  rw [emitAll, List.foldl_append]
  rfl

/-- A signal that is found in the text changes nothing. -/
theorem emitSignal_found {st : Emission} (h : sig <:+: st.deduped) : emitSignal st sig = st := by
  have hfound : (strstr sig st.deduped).isSome = true := by
    rw [Option.isSome_iff_ne_none]
    exact fun hnone => strstr_eq_none_iff.mp hnone h
  simp [emitSignal, dedupCheckAdd, hfound]

theorem strstr_isSome_eq_false (h : ¬ sig <:+: deduped) : (strstr sig deduped).isSome = false := by
  rw [strstr_eq_none_iff.mpr h]
  rfl

/-- Any other is passed on, and the text grows. -/
theorem emitSignal_fresh {st : Emission} (hne : sig ≠ []) (h : ¬ sig <:+: st.deduped) :
    (emitSignal st sig).emitted = st.emitted ++ [sig] ∧ st.deduped <+: (emitSignal st sig).deduped := by
  rw [emitSignal, if_neg hne]
  simp only [dedupCheckAdd, strstr_isSome_eq_false h]
  exact ⟨rfl, (List.prefix_append _ _).trans (List.prefix_append _ _)⟩

/-- A signal the text has room for. -/
theorem emitSignal_room {firsts emitted : List (List Char)} (hne : sig ≠ [])
    (hlen : (joined ',' firsts).length ≤ 510) (h : ¬ sig <:+: joined ',' firsts) :
    emitSignal ⟨joined ',' firsts, emitted⟩ sig =
      ⟨clipped ',' 512 (firsts ++ [sig]), emitted ++ [sig]⟩ := by
  have hname : space 512 2 (joined ',' firsts) = 512 - 2 - (joined ',' firsts).length := by
    rw [space_eq (by show _ + 2 ≤ 512; omega)]
    show 512 - _ - 2 = _
    omega
  have hnamed : (joined ',' firsts ++
      sig.take (512 - 2 - (joined ',' firsts).length)).length ≤ 510 := by
    rw [List.length_append, List.length_take]
    omega
  have hcomma : [','].take (space 512 1 (joined ',' firsts ++
      sig.take (512 - 2 - (joined ',' firsts).length))) = [','] := by
    apply List.take_of_length_le
    rw [space_eq (by show _ + 1 ≤ 512; omega), List.length_singleton]
    show 1 ≤ 512 - _ - 1
    omega
  rw [emitSignal, if_neg hne]
  simp only [dedupCheckAdd, strstr_isSome_eq_false h, hname, Bool.false_eq_true, if_false, if_true]
  rw [hcomma, clipped_concat (by omega), joined_concat, List.append_assoc]

/-- Without its last call a sequence is distinguished all the more. -/
theorem Distinguished.front (h : Distinguished (calls ++ [sig])) : Distinguished calls := by
  obtain ⟨hapart, hfit, hlast⟩ := h
  rw [eraseDups_concat] at hapart hfit hlast
  by_cases hmem : sig ∈ calls
  · rw [if_pos hmem] at hapart hfit hlast
    refine ⟨hapart, hfit, fun last hin => ?_⟩
    rcases hlast last hin with hlen | hcount
    · exact Or.inl hlen
    · have hpos : 0 < calls.count last := by
        rw [List.count_pos_iff, ← List.mem_eraseDups]
        exact List.mem_of_getLast? hin
      rw [List.count_append] at hcount
      exact Or.inr (by omega)
  · rw [if_neg hmem, List.dropLast_concat] at hfit
    rw [if_neg hmem] at hapart
    have hfront : (joined ',' calls.eraseDups.dropLast).length ≤ (joined ',' calls.eraseDups).length :=
      length_joined_dropLast_le
    exact ⟨(List.pairwise_append.mp hapart).1, by omega, fun last _ => Or.inl (by omega)⟩

/-- A signal that fired before is found in the text. -/
theorem found_of_mem (h : Distinguished (calls ++ [sig])) (hmem : sig ∈ calls) :
    sig <:+: clipped ',' 512 calls.eraseDups := by
  obtain ⟨-, hfit, hlast⟩ := h
  rw [eraseDups_concat, if_pos hmem] at hfit hlast
  have hin : sig ∈ calls.eraseDups := List.mem_eraseDups.mpr hmem
  cases hfirsts : calls.eraseDups using List.reverseRecOn with
  | nil => simp [hfirsts] at hin
  | append_singleton firsts last =>
      rw [hfirsts] at hin hfit hlast
      rw [List.dropLast_concat] at hfit
      by_cases hfront : sig ∈ firsts
      · rw [clipped_concat hfit]
        exact infix_joined_of_mem (List.mem_append_left _ hfront)
      · -- the last signal fires a second time, so it is there in full
        obtain rfl : sig = last := by
          rcases List.mem_append.mp hin with hin | hin
          · exact absurd hin hfront
          · exact List.mem_singleton.mp hin
        rcases hlast sig (by simp) with hlen | hcount
        · rw [clipped, if_pos hlen]
          exact infix_joined_of_mem hin
        · have hpos : 0 < calls.count sig := List.count_pos_iff.mpr hmem
          rw [List.count_append, List.count_singleton_self] at hcount
          omega

/-- A signal that fires for the first time finds room and is not found. -/
theorem fresh_of_not_mem (h : Distinguished (calls ++ [sig])) (hne : sig ≠ []) (hcomma : ',' ∉ sig)
    (hmem : sig ∉ calls) : clipped ',' 512 calls.eraseDups = joined ',' calls.eraseDups ∧
      (joined ',' calls.eraseDups).length ≤ 510 ∧ ¬ sig <:+: joined ',' calls.eraseDups := by
  obtain ⟨hapart, hfit, -⟩ := h
  rw [eraseDups_concat, if_neg hmem] at hapart hfit
  rw [List.dropLast_concat] at hfit
  refine ⟨clipped_of_le (by decide) hfit, hfit, ?_⟩
  rw [infix_joined_iff hcomma hne]
  rintro ⟨earlier, hin, hpart⟩
  exact (List.pairwise_append.mp hapart).2.2 earlier hin sig List.mem_cons_self hpart

/-- **What the text and the calls of the court are** as long as the signals
are distinguished. -/
theorem emitAll_eq (hnames : ∀ sig ∈ calls, sig ≠ [] ∧ ',' ∉ sig) (h : Distinguished calls) :
    emitAll calls = ⟨clipped ',' 512 calls.eraseDups, calls.eraseDups⟩ := by
  induction calls using List.reverseRecOn with
  | nil => rfl
  | append_singleton calls sig ih =>
      obtain ⟨hne, hcomma⟩ := hnames sig (by simp)
      have hst := ih (fun s hs => hnames s (by simp [hs])) h.front
      rw [emitAll_concat, hst, eraseDups_concat]
      by_cases hmem : sig ∈ calls
      · rw [if_pos hmem]
        exact emitSignal_found (found_of_mem h hmem)
      · rw [if_neg hmem]
        obtain ⟨hclip, hlen, hnot⟩ := fresh_of_not_mem h hne hcomma hmem
        rw [hclip]
        exact emitSignal_room hne hlen hnot

/-- Only what fired is passed on. -/
theorem mem_of_emitted (h : sig ∈ (emitAll calls).emitted) : sig ∈ calls := by
  induction calls using List.reverseRecOn with
  | nil => cases h
  | append_singleton calls next ih =>
      rw [emitAll_concat] at h
      by_cases hnext : next = []
      · rw [emitSignal, if_pos hnext] at h
        exact List.mem_append_left _ (ih h)
      by_cases hfound : next <:+: (emitAll calls).deduped
      · rw [emitSignal_found hfound] at h
        exact List.mem_append_left _ (ih h)
      · rw [(emitSignal_fresh hnext hfound).1] at h
        rcases List.mem_append.mp h with h | h
        · exact List.mem_append_left _ (ih h)
        · exact List.mem_append_right _ h

/-- A signal that fired was passed on or taken for another, and is so forever. -/
theorem emitted_or_found (hnames : ∀ sig ∈ calls, sig ≠ []) (hmem : sig ∈ calls) :
    sig ∈ (emitAll calls).emitted ∨ sig <:+: (emitAll calls).deduped := by
  induction calls using List.reverseRecOn with
  | nil => cases hmem
  | append_singleton calls next ih =>
      have hnext : next ≠ [] := hnames next (by simp)
      rw [emitAll_concat]
      by_cases hfound : next <:+: (emitAll calls).deduped
      · rw [emitSignal_found hfound]
        rcases List.mem_append.mp hmem with hmem | hmem
        · exact ih (fun s hs => hnames s (by simp [hs])) hmem
        · exact Or.inr (List.mem_singleton.mp hmem ▸ hfound)
      · obtain ⟨hemitted, hgrows⟩ := emitSignal_fresh hnext hfound
        rw [hemitted]
        rcases List.mem_append.mp hmem with hmem | hmem
        · rcases ih (fun s hs => hnames s (by simp [hs])) hmem with h | h
          · exact Or.inl (List.mem_append_left _ h)
          · exact Or.inr (h.trans hgrows.isInfix)
        · exact Or.inl (List.mem_append_right _ hmem)

/-- What holds of a poll holds of its beginning. -/
theorem EmittedOnce.front (hnames : ∀ s ∈ calls ++ [sig], s ≠ []) (h : EmittedOnce (calls ++ [sig])) :
    EmittedOnce calls := by
  obtain ⟨honce, hevery, hwithin, hwrap⟩ := h
  have hfront : calls <+: calls ++ [sig] := List.prefix_append calls [sig]
  have hsig : sig ≠ [] := hnames sig (by simp)
  have hboth : (emitAll calls).emitted.Nodup ∧ ∀ s ∈ calls, s ∈ (emitAll calls).emitted := by
    rw [emitAll_concat] at honce hevery
    by_cases hfound : sig <:+: (emitAll calls).deduped
    · rw [emitSignal_found hfound] at honce hevery
      exact ⟨honce, fun s hs => (hevery s).mpr (List.mem_append_left _ hs)⟩
    · rw [(emitSignal_fresh hsig hfound).1] at honce hevery
      refine ⟨(List.nodup_append.mp honce).1, fun s hs => ?_⟩
      rcases emitted_or_found (fun t ht => hnames t (List.mem_append_left _ ht)) hs with hin | hpart
      · exact hin
      · rcases List.mem_append.mp ((hevery s).mpr (List.mem_append_left _ hs)) with hin | hin
        · exact hin
        · obtain rfl : s = sig := List.mem_singleton.mp hin
          exact absurd hpart hfound
  exact ⟨hboth.1, fun s => ⟨mem_of_emitted, hboth.2 s⟩,
    fun front hf => hwithin front (hf.trans hfront),
    fun front s hf => hwrap front s (hf.trans hfront)⟩

theorem emittedOnce_of_distinguished (hnames : ∀ sig ∈ calls, sig ≠ [] ∧ ',' ∉ sig)
    (h : Distinguished calls) : EmittedOnce calls := by
  have hfronts : ∀ front, front <+: calls → Distinguished front := by
    intro front hfront
    obtain ⟨back, rfl⟩ := hfront
    induction back using List.reverseRecOn with
    | nil => rwa [List.append_nil] at h
    | append_singleton back sig ih =>
        rw [← List.append_assoc] at h
        exact ih (fun s hs => hnames s (by simp at hs ⊢; tauto)) h.front
  have hstate := fun front (hfront : front <+: calls) =>
    emitAll_eq (fun s hs => hnames s (hfront.subset hs)) (hfronts front hfront)
  have hall := hstate calls (List.prefix_refl calls)
  refine ⟨?_, fun sig => ?_, fun front hfront => ?_, fun front sig hfront hwraps => ?_⟩
  · rw [hall]
    exact nodup_eraseDups calls
  · rw [hall]
    exact List.mem_eraseDups
  · rw [hstate front hfront]
    exact length_clipped_lt (by decide)
  · have hd := hfronts _ hfront
    obtain ⟨hne, hcomma⟩ := hnames sig (hfront.subset (by simp))
    obtain ⟨hnot, hlen⟩ := hwraps
    rw [hstate front ((List.prefix_append front [sig]).trans hfront)] at hnot hlen
    by_cases hmem : sig ∈ front
    · have hnone := Option.isSome_eq_false_iff.mp hnot
      rw [Option.isNone_iff_eq_none] at hnone
      exact strstr_eq_none_iff.mp hnone (found_of_mem hd hmem)
    · obtain ⟨hclip, hroom, -⟩ := fresh_of_not_mem hd hne hcomma hmem
      simp only [hclip, List.length_append, List.length_take] at hlen
      rw [space_eq (by show _ + 2 ≤ 512; omega)] at hlen
      have htwo : (512 : UInt64).toNat - (joined ',' front.eraseDups).length - (2 : UInt64).toNat =
          510 - (joined ',' front.eraseDups).length := by
        show 512 - _ - 2 = _
        omega
      omega

/-- A cut signal that fires again is found only in the text of others. -/
theorem fits_of_found {firsts : List (List Char)} (hne : sig ≠ []) (hcomma : ',' ∉ sig)
    (hapart : ∀ earlier ∈ firsts, ¬ sig <:+: earlier) (hfit : (joined ',' firsts).length ≤ 510)
    (hfound : sig <:+: clipped ',' 512 (firsts ++ [sig])) :
    (joined ',' (firsts ++ [sig])).length < 512 := by
  rw [clipped_concat hfit, infix_joined_iff hcomma hne] at hfound
  obtain ⟨name, hname, hpart⟩ := hfound
  rcases List.mem_append.mp hname with hname | hname
  · exact absurd hpart (hapart name hname)
  · obtain rfl := List.mem_singleton.mp hname
    have hlen := hpart.length_le
    rw [List.length_take] at hlen
    simp only [joined_concat, List.length_append, List.length_singleton]
    omega

/-- What the sequence needs when a signal fires again. -/
theorem distinguished_again (hne : sig ≠ []) (hcomma : ',' ∉ sig) (hd : Distinguished calls)
    (hmem : sig ∈ calls) (hfound : sig <:+: clipped ',' 512 calls.eraseDups) :
    Distinguished (calls ++ [sig]) := by
  obtain ⟨hapart, hfit, hlast⟩ := hd
  have hsame : (calls ++ [sig]).eraseDups = calls.eraseDups := by
    rw [eraseDups_concat, if_pos hmem]
  refine ⟨hsame ▸ hapart, hsame ▸ hfit, fun last hin => ?_⟩
  rw [hsame] at hin ⊢
  rcases hlast last hin with hlen | hcount
  · exact Or.inl hlen
  by_cases heq : last = sig
  · obtain ⟨firsts, hfirsts⟩ := List.getLast?_eq_some_iff.mp hin
    subst heq
    rw [hfirsts] at hapart hfit hfound ⊢
    rw [List.dropLast_concat] at hfit
    left
    refine fits_of_found hne hcomma (fun earlier he => ?_) hfit hfound
    exact (List.pairwise_append.mp hapart).2.2 earlier he last List.mem_cons_self
  · right
    rw [List.count_append, hcount, List.count_singleton]
    simp [Ne.symm heq]

/-- What it needs when a signal fires for the first time. -/
theorem distinguished_new (hne : sig ≠ []) (hcomma : ',' ∉ sig) (hd : Distinguished calls)
    (hmem : sig ∉ calls) (hnot : ¬ sig <:+: clipped ',' 512 calls.eraseDups)
    (hroom : (clipped ',' 512 calls.eraseDups).length ≤ 510) : Distinguished (calls ++ [sig]) := by
  have hlen := (length_clipped_le_iff (by decide)).mp hroom
  have hnew : (calls ++ [sig]).eraseDups = calls.eraseDups ++ [sig] := by
    rw [eraseDups_concat, if_neg hmem]
  rw [clipped_of_le (by decide) hlen, infix_joined_iff hcomma hne] at hnot
  constructor
  · rw [hnew, List.pairwise_append]
    refine ⟨hd.apart, List.pairwise_singleton _ _, fun earlier he later hlater hpart => ?_⟩
    obtain rfl := List.mem_singleton.mp hlater
    exact hnot ⟨earlier, he, hpart⟩
  · rw [hnew, List.dropLast_concat]
    exact hlen
  · intro last hin
    rw [hnew, List.getLast?_concat] at hin
    obtain rfl : sig = last := Option.some.inj hin
    right
    rw [List.count_append, List.count_eq_zero.mpr hmem, List.count_singleton_self]

theorem distinguished_of_emittedOnce (hnames : ∀ sig ∈ calls, sig ≠ [] ∧ ',' ∉ sig)
    (h : EmittedOnce calls) : Distinguished calls := by
  induction calls using List.reverseRecOn with
  | nil => exact ⟨List.Pairwise.nil, Nat.zero_le _, fun _ hin => by cases hin⟩
  | append_singleton calls sig ih =>
      have hcalls : ∀ s ∈ calls, s ≠ [] ∧ ',' ∉ s := fun s hs => hnames s (by simp [hs])
      obtain ⟨hne, hcomma⟩ := hnames sig (by simp)
      have hd := ih hcalls (h.front fun s hs => (hnames s hs).1)
      have hst := emitAll_eq hcalls hd
      obtain ⟨honce, hevery, -, hwrap⟩ := h
      rw [emitAll_concat, hst] at honce hevery
      by_cases hmem : sig ∈ calls
      · -- a signal that comes again has to be found
        refine distinguished_again hne hcomma hd hmem ?_
        by_contra hnot
        rw [(emitSignal_fresh hne hnot).1] at honce
        have hin : sig ∈ calls.eraseDups := List.mem_eraseDups.mpr hmem
        exact (List.nodup_append.mp honce).2.2 sig hin sig List.mem_cons_self rfl
      · -- a new one has to be passed on, and the text has to have room for it
        have hnot : ¬ sig <:+: clipped ',' 512 calls.eraseDups := by
          intro hfound
          rw [emitSignal_found hfound] at hevery
          exact hmem (List.mem_eraseDups.mp ((hevery sig).mpr (by simp)))
        refine distinguished_new hne hcomma hd hmem hnot ?_
        by_contra hfull
        have hspace := hwrap calls sig (List.prefix_refl _)
        rw [hst] at hspace
        have hfull : 512 < (clipped ',' 512 calls.eraseDups).length + 2 := by omega
        exact hspace ⟨strstr_isSome_eq_false hnot, Or.inl hfull⟩

end Once

/-! ## A poll -/

/-- The signals of burned's own tables are names without commas. -/
theorem own_signals_named :
    ∀ sig ∈ gBprops.filterMap (·.2) ++ gPprops.filterMap (·.2), sig.toList ≠ [] ∧ ',' ∉ sig.toList := by
  repeat refine forall_literals_cons (P := fun sig => sig ≠ [] ∧ ',' ∉ sig) (by decide) ?_
  exact fun _ h => absurd h List.not_mem_nil

/-- All a poll sends are names without commas if the database has such. -/
theorem firedSignals_named {rows : List PartnerRow}
    (hrows : ∀ row ∈ rows, row.signalName ≠ [] ∧ ',' ∉ row.signalName)
    (binary privacy partner : Nat → List Char) {sig : List Char}
    (h : sig ∈ firedSignals (loadPartnerDb rows) binary privacy partner) : sig ≠ [] ∧ ',' ∉ sig := by
  rw [firedSignals, List.mem_append, List.mem_append] at h
  rcases h with (h | h) | h
  · obtain ⟨⟨row, i⟩, hrow, hsig⟩ := List.mem_filterMap.mp h
    obtain ⟨name, hname, rfl⟩ := Option.map_eq_some_iff.mp (Option.ite_none_right_eq_some.mp hsig).2
    apply own_signals_named
    exact List.mem_append_left _ (List.mem_filterMap.mpr ⟨row, List.fst_mem_of_mem_zipIdx hrow, hname⟩)
  · obtain ⟨⟨row, i⟩, hrow, hsig⟩ := List.mem_filterMap.mp h
    obtain ⟨name, hname, rfl⟩ := Option.map_eq_some_iff.mp (Option.ite_none_right_eq_some.mp hsig).2
    apply own_signals_named
    exact List.mem_append_right _ (List.mem_filterMap.mpr ⟨row, List.fst_mem_of_mem_zipIdx hrow, hname⟩)
  · obtain ⟨⟨p, i⟩, hp, hsig⟩ := List.mem_filterMap.mp h
    obtain rfl := Option.some.inj (Option.ite_none_right_eq_some.mp hsig).2
    obtain ⟨row, hrow, rfl⟩ := List.mem_map.mp (List.fst_mem_of_mem_zipIdx hp)
    obtain ⟨hne, hcomma⟩ := hrows row (List.mem_of_mem_take hrow)
    constructor
    · simp [hne]
    · exact fun hc => hcomma (List.mem_of_mem_take hc)

/-- **Every signal is emitted once exactly if the signals that fire are
distinguished**: the partner that is named like a part of another is lost. -/
theorem emitted_once_iff (rows : List PartnerRow)
    (hrows : ∀ row ∈ rows, row.signalName ≠ [] ∧ ',' ∉ row.signalName)
    (binary privacy partner : Nat → List Char) :
    EmittedOnce (firedSignals (loadPartnerDb rows) binary privacy partner) ↔
      Distinguished (firedSignals (loadPartnerDb rows) binary privacy partner) := by
  have hnames : ∀ sig ∈ firedSignals (loadPartnerDb rows) binary privacy partner,
      sig ≠ [] ∧ ',' ∉ sig := fun sig => firedSignals_named hrows binary privacy partner
  exact ⟨distinguished_of_emittedOnce hnames, emittedOnce_of_distinguished hnames⟩

/-- Two partners of one vendor. -/
def spotifyRows : List PartnerRow :=
  [⟨"SPOTIFY_PARTNER_ID".toList, "ro.csc.spotify.music.partnerid".toList, "xiaomi".toList, 1⟩,
   ⟨"SPOTIFY_PARTNER".toList, "ro.spotify.partner".toList, "xiaomi".toList, 2⟩]

/-- Values of burned's own properties that are no findings. -/
def quietPrivacy (i : Nat) : List Char := if i = 3 then "off".toList else unset

theorem spotifyRows_named : ∀ row ∈ spotifyRows, row.signalName ≠ [] ∧ ',' ∉ row.signalName := by
  decide

theorem emitted_once_iff_spotify :
    EmittedOnce (firedSignals (loadPartnerDb spotifyRows) (fun _ => unset) quietPrivacy
        (fun _ => "xiaomi_eea".toList)) ↔
      Distinguished (firedSignals (loadPartnerDb spotifyRows) (fun _ => unset) quietPrivacy
        (fun _ => "xiaomi_eea".toList)) :=
  emitted_once_iff spotifyRows spotifyRows_named _ _ _

/-- The second partner fires and is not passed on. -/
theorem spotify_partner_lost :
    ¬ EmittedOnce (firedSignals (loadPartnerDb spotifyRows) (fun _ => unset) quietPrivacy
      (fun _ => "xiaomi_eea".toList)) := by
  intro h
  have hin := (h.every "SPOTIFY_PARTNER".toList).mpr (by decide +kernel)
  revert hin
  decide +kernel

end MiuiserPeruser.Burned
