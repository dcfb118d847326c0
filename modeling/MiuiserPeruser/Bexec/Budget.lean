import MiuiserPeruser.Bexec.Batch
import MiuiserPeruser.Bexec.Wrap
import MiuiserPeruser.Shredder.Probe

/-!
# backend_exec — what the budget leaves room for

`bexec_n` formats the command line for rish into 1600 bytes: 37 of its own,
the path of rish and the command. The budget of a batch, and shredderd's of
a chunk, allow a command of 1450 bytes, whatever the path. The line is
complete exactly if path and command have 1562 bytes at most, and all that
is within the budgets is safe exactly if the path has 112 at most
(`budget_safe_iff`).
-/

namespace MiuiserPeruser.Bexec

open CText

/-- A string that fits `g_rish_path`. -/
structure RishPath where
  text : List Char
  isString : '\x00' ∉ text
  fits : text.length < 256

/-- The format of `rishcmd`. -/
def rishLine (path cmd : List Char) : List Char :=
  "RISH_APPLICATION_ID=com.termux ".toList ++ path ++ " -c ".toList ++ '"' :: (cmd ++ ['"'])

/-- `rishcmd`. -/
def rishcmd (path cmd : List Char) : List Char := snprintf 1600 (rishLine path cmd)

/-- The line of `bexec_n` is that of the path that was probed. -/
theorem bexecLine_rish (t : Transport) (cmd : List Char) :
    bexecLine t cmd .rish = rishcmd t.rishPath cmd := rfl

/-- The line is there as a whole, with its closing quote. -/
def Complete (path cmd : List Char) : Prop := rishcmd path cmd = rishLine path cmd

theorem length_rishLine (path cmd : List Char) :
    (rishLine path cmd).length = path.length + cmd.length + 37 := by
  have hassign : "RISH_APPLICATION_ID=com.termux ".toList.length = 31 := by decide
  have hopt : " -c ".toList.length = 4 := by decide
  unfold rishLine
  rw [List.length_append, List.length_append, List.length_append, List.length_cons,
    List.length_append, List.length_singleton, hassign, hopt]
  omega

theorem complete_iff {path cmd : List Char} : Complete path cmd ↔ path.length + cmd.length ≤ 1562 := by
  have hlength := length_rishLine path cmd
  unfold Complete rishcmd snprintf
  rw [List.take_eq_self_iff]
  omega

/-- `append_probe_chunk` of shredderd accepts the command of a chunk. -/
def ChunkAccepted (cmd : List Char) : Prop :=
  ∃ st raw st', Shredder.appendProbeChunk st cmd raw = some st'

theorem chunkAccepted_iff {cmd : List Char} : ChunkAccepted cmd ↔ cmd.length ≤ 1450 := by
  unfold ChunkAccepted Shredder.appendProbeChunk Probe.appendProbeChunk
  constructor
  · rintro ⟨st, raw, st', h⟩
    by_contra hlong
    rw [if_pos (by simp only [Shredder.probeCmdBudget]; omega)] at h
    cases h
  · intro hshort
    refine ⟨⟨[], false, []⟩, some [], ⟨[], false, []⟩, ?_⟩
    rw [if_neg (by simp only [Shredder.probeCmdBudget]; omega)]
    rfl

/-- **What the budgets are worth.** The line of an accepted batch or chunk is
complete exactly if path and command have 1562 bytes at most; everything that
is accepted is safe exactly if the path has 112 at most. -/
theorem budget_safe_iff (path : RishPath) :
    (∀ items cmd, batchCommand items = some cmd →
      (Complete path.text cmd ↔ path.text.length + cmd.length ≤ 1562)) ∧
    (∀ cmd, ChunkAccepted cmd →
      (Complete path.text cmd ↔ path.text.length + cmd.length ≤ 1562)) ∧
    ((∀ items cmd, batchCommand items = some cmd → Complete path.text cmd) ↔
      path.text.length ≤ 112) ∧
    ((∀ cmd, ChunkAccepted cmd → Complete path.text cmd) ↔ path.text.length ≤ 112) := by
  refine ⟨fun _ _ _ => complete_iff, fun _ _ => complete_iff, ⟨fun h => ?_, fun h items cmd hcmd => ?_⟩,
    fun h => ?_, fun h cmd hcmd => ?_⟩
  · have hfull := batchCommand_single (List.replicate 1435 'x') .null
    rw [List.length_replicate, if_neg (by decide)] at hfull
    have hcomplete := complete_iff.mp (h _ _ hfull)
    have hecho : "echo __BX_0__; ".toList.length = 15 := by decide
    rw [List.length_append, hecho, List.length_replicate] at hcomplete
    omega
  · have hbudget : cmd.length ≤ 1450 := (batchCommand_some hcmd).2.2
    exact complete_iff.mpr (by omega)
  · have hcomplete := h (List.replicate 1450 'x') (chunkAccepted_iff.mpr (by rw [List.length_replicate]))
    rw [complete_iff, List.length_replicate] at hcomplete
    omega
  · have hbudget := chunkAccepted_iff.mp hcmd
    exact complete_iff.mpr (by omega)

theorem isString_longName : '\x00' ∉ '/' :: List.replicate 120 'a' := by
  rw [List.mem_cons, List.mem_replicate]
  decide

theorem fits_longName : ('/' :: List.replicate 120 'a').length < 256 := by
  rw [List.length_cons, List.length_replicate]
  decide

/-- A path with a long name, as the cache file may hold it. -/
def longPath : RishPath := ⟨'/' :: List.replicate 120 'a', isString_longName, fits_longName⟩

/-- A chunk within the budget, without the end of its line. -/
theorem long_path_truncates :
    ¬ ∀ cmd, ChunkAccepted cmd → Complete longPath.text cmd := by
  intro h
  have hcomplete := h (List.replicate 1450 'x') (chunkAccepted_iff.mpr (by rw [List.length_replicate]))
  rw [complete_iff, List.length_replicate, longPath, List.length_cons, List.length_replicate]
    at hcomplete
  omega

end MiuiserPeruser.Bexec
