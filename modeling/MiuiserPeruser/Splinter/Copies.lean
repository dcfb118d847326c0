import MiuiserPeruser.Lib.CNumber
import MiuiserPeruser.Splinter.Protocol

/-!
# The daemons' own `splinterd_emit`

Thirteen daemons do not use `splinter_emit` but carry a copy of the
sending end of their own. All copies are the same but for the name in the
line: they format it into 512 bytes and hand `write` the number `snprintf`
returned, which is the length of the whole line and not of what was
stored. The longest payloads are the lists of kernel modules `detect_drift`
of shredderd builds.
-/

namespace MiuiserPeruser.Splinter

open CText

/-- The daemons with a copy. -/
inductive Daemon where
  | bebopd | burned | fugitoidd | granitord | krangd | leatherheadd | metalheadd | nulld
  | overlordd | ratkingd | rocksteadyd | shredderd | tigerclawd
  deriving DecidableEq, Repr

/-- `DAEMON_NAME`, or the name that stands in the format. -/
def Daemon.name : Daemon → String
  | .bebopd => "bebopd"
  | .burned => "burned"
  | .fugitoidd => "fugitoidd"
  | .granitord => "granitord"
  | .krangd => "krangd"
  | .leatherheadd => "leatherheadd"
  | .metalheadd => "metalheadd"
  | .nulld => "nulld"
  | .overlordd => "overlordd"
  | .ratkingd => "ratkingd"
  | .rocksteadyd => "rocksteadyd"
  | .shredderd => "shredderd"
  | .tigerclawd => "tigerclawd"

/-- A call of `write`: the string in the buffer, and the number of bytes. -/
structure WriteCall where
  stored : List Char
  count : Nat
  deriving DecidableEq

/-- `splinterd_emit` on an open connection. -/
def splinterdEmit (d : Daemon) (type payload : List Char) : Option WriteCall :=
  let text := eventLine d.name.toList type payload ++ ['\n']
  let buf := snprintf 512 text
  if 0 < text.length then some ⟨buf, text.length⟩ else none

/-- Only bytes of the formatted line are sent, and a newline ends them. -/
structure WriteCall.Contained (w : WriteCall) : Prop where
  inside : w.count ≤ w.stored.length
  terminated : (w.stored.take w.count).getLast? = some '\n'

/-! ## The list of kernel modules -/

/-- The loop of `detect_drift` over the lines of `/proc/modules`, for at
most so many modules. -/
def moduleNames : Nat → List Char → List (List Char)
  | 0, _ => []
  | room + 1, mods =>
      match strtok ['\n'] mods with
      | (none, _) => []
      | (some line, rest) => line.take 63 :: moduleNames room rest

/-- `current_names`. -/
def currentNames (mods : List Char) : List (List Char) := moduleNames 512 mods

/-- `entry`: a module, and the time it was found (or missed) at. -/
def driftEntry (field : String) (found : List Char × Nat) : List Char :=
  snprintf 512 ("\x7b\"name\":\"".toList ++ found.1 ++ "\",\"".toList ++ field.toList ++
    "\":\"".toList ++ decimal found.2 ++ "\"\x7d,".toList)

/-- An entry is appended if it fits. -/
def appendEntry (size : Nat) (json entry : List Char) : List Char :=
  if json.length + entry.length < size - 1 then json ++ entry.take (size - json.length - 1)
  else json

/-- The list `detect_drift` builds in a buffer. -/
def driftJson (field : String) (size : Nat) (found : List (List Char × Nat)) : List Char :=
  found.foldl (fun json f => appendEntry size json (driftEntry field f)) []

/-- `new_mods`: the current modules that are not in the baseline, with
the time each was found at. -/
def newMods (baseline : List (List Char)) (mods : List Char) (now : List Char → Nat) :
    List Char :=
  driftJson "detected_at" 4096
    (((currentNames mods).filter fun name => name ∉ baseline).map fun name => (name, now name))

/-- The emission `poll_integrity` makes for new modules. -/
def emitNewModules (baseline : List (List Char)) (mods : List Char) (now : List Char → Nat) :
    Option WriteCall :=
  splinterdEmit .shredderd "new_kernel_module".toList (newMods baseline mods now)

/-! ## What is sent -/

theorem splinterdEmit_eq (d : Daemon) (type payload : List Char) :
    splinterdEmit d type payload =
      some ⟨snprintf 512 (eventLine d.name.toList type payload ++ ['\n']),
        d.name.toList.length + type.length + payload.length + 9⟩ := by
  have hlen : (eventLine d.name.toList type payload ++ ['\n']).length =
      d.name.toList.length + type.length + payload.length + 9 := by
    rw [List.length_append, length_eventLine]
    rfl
  unfold splinterdEmit
  simp only [hlen]
  rw [if_pos (by omega)]

/-- **When a copy sends only what it formatted.** -/
theorem splinterdEmit_contained_iff (d : Daemon) (type payload : List Char) :
    (∀ w, splinterdEmit d type payload = some w → w.Contained) ↔
      d.name.toList.length + type.length + payload.length ≤ 502 := by
  generalize hline : eventLine d.name.toList type payload = line
  have hlen : line.length = d.name.toList.length + type.length + payload.length + 8 := by
    rw [← hline, length_eventLine]
  rw [splinterdEmit_eq, hline]
  constructor
  · intro h
    have hinside := (h _ rfl).inside
    have hstored : (snprintf 512 (line ++ ['\n'])).length ≤ 511 := List.length_take_le _ _
    simp only at hinside
    omega
  · intro hfits w hw
    obtain rfl := Option.some.inj hw
    have hsent : (line ++ ['\n']).length =
        d.name.toList.length + type.length + payload.length + 9 := by
      rw [List.length_append, List.length_singleton]
      omega
    rw [snprintf_fits (by omega)]
    refine ⟨hsent.ge, ?_⟩
    show ((line ++ ['\n']).take _).getLast? = some '\n'
    rw [List.take_of_length_le hsent.le]
    simp

/-- The modules of the baseline, -/
def baselineModules : List (List Char) := ["fuse".toList, "zram".toList]

/-- and twelve more behind them. -/
def fourteenModules : List Char :=
  ("fuse\nzram\nmod_aaaa\nmod_bbbb\nmod_cccc\nmod_dddd\nmod_eeee\nmod_ffff\n" ++
    "mod_gggg\nmod_hhhh\nmod_iiii\nmod_jjjj\nmod_kkkk\nmod_llll").toList

/-- shredderd reports twelve new modules: `write` is told to send more
than the buffer holds. -/
theorem new_modules_overread :
    (emitNewModules baselineModules fourteenModules fun _ => 1700000000).map
        (fun w => (w.stored.length, w.count)) = some (511, 599) ∧
      ¬ ∀ w, emitNewModules baselineModules fourteenModules (fun _ => 1700000000) = some w →
        w.Contained := by
  have hcall : (emitNewModules baselineModules fourteenModules fun _ => 1700000000).map
      (fun w => (w.stored.length, w.count)) = some (511, 599) := by
    unfold fourteenModules
    rw [String.toList_append, String.toList_ofList, String.toList_ofList]
    decide +kernel
  refine ⟨hcall, fun h => ?_⟩
  obtain ⟨w, hw, hsizes⟩ := Option.map_eq_some_iff.mp hcall
  have hinside := (h w hw).inside
  simp only [Prod.mk.injEq] at hsizes
  omega

end MiuiserPeruser.Splinter
