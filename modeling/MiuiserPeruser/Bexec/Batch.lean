import MiuiserPeruser.Lib.CNumber
import MiuiserPeruser.Probe.Sections

/-!
# backend_exec — several commands at once (`backend_exec.c`)

`bexec_batch` puts `echo __BX_i__` in front of each command, runs them as
one command and cuts the output up again at these markers. A batch that is
too long is refused before anything is run, and then nothing is written to
the results, although the header promises NULL there: a failed batch leaves
NULL everywhere exactly if it was not refused, or if NULL stood there before
(`failure_nulls_iff`).
-/

namespace MiuiserPeruser.Bexec

open CText
open Probe (isEol stripped)

/-- `BEXEC_CMD_BUDGET` and `BEXEC_MAX_BATCH`. -/
def cmdBudget : Nat := 1450
def maxBatch : Nat := 12

/-- What a `result` field holds: NULL, a string of this call, or what stood
there before. -/
inductive ResultPtr where
  | null
  | string (s : List Char)
  | stale (address : Nat)
  deriving DecidableEq

/-- `bexec_batch_item_t`; the label is only logged. -/
structure BatchItem where
  cmd : List Char
  result : ResultPtr

/-! ## The command -/

/-- A command of the batch, behind its marker. -/
def batchPiece (i : Nat) (cmd : List Char) : List Char :=
  (if i = 0 then [] else "; ".toList) ++ "echo __BX_".toList ++ decimal i ++ "__; ".toList ++ cmd

/-- `combined`, unless it overflows its buffer. -/
def combineFrom : Nat → List Char → List (List Char) → Option (List Char)
  | _, combined, [] => some combined
  | i, combined, cmd :: cmds =>
      if (batchPiece i cmd).length ≥ 4096 - combined.length then none
      else combineFrom (i + 1) (combined ++ batchPiece i cmd) cmds

/-- The command that is run, unless the batch is refused. -/
def batchCommand (items : List BatchItem) : Option (List Char) :=
  if items.length = 0 ∨ items.length > maxBatch then none
  else (combineFrom 0 [] (items.map BatchItem.cmd)).bind fun combined =>
    if combined.length > cmdBudget then none else some combined

/-! ## The results -/

/-- What is printed in front of the `i`-th output. -/
def marker (i : Nat) : List Char := snprintf 32 ("__BX_".toList ++ decimal i ++ "__".toList)

/-- The loop over the output from the `i`-th item on, `n` of which are left. -/
def splitLoop : Nat → Nat → List Char → List (Option (List Char))
  | _, 0, _ => []
  | i, n + 1, cursor =>
      match strstr (marker i) cursor with
      | none => none :: splitLoop (i + 1) n cursor
      | some found =>
          let start := (found.drop (marker i).length).dropWhile isEol
          let stop := if n = 0 then none else strstr (marker (i + 1)) start
          let len := match stop with
            | some next => start.length - next.length
            | none => start.length
          let res := (start.take len).rdropWhile isEol
          some res :: splitLoop (i + 1) n (stop.getD (start.drop res.length))

def ResultPtr.ofOption : Option (List Char) → ResultPtr
  | none => .null
  | some s => .string s

/-- `bexec_batch`, where `bexec` is what the backend returns for a command:
the return value and the result fields. -/
def bexecBatch (bexec : List Char → Option (List Char)) (items : List BatchItem) :
    Int × List ResultPtr :=
  match batchCommand items with
  | none => (-1, items.map BatchItem.result)
  | some combined =>
      match bexec combined with
      | none => (-1, items.map fun _ => .null)
      | some raw => (0, (splitLoop 0 items.length raw).map .ofOption)

section Calls

variable {bexec : List Char → Option (List Char)} {items : List BatchItem} {cmd raw : List Char}

theorem bexecBatch_refused (h : batchCommand items = none) :
    bexecBatch bexec items = (-1, items.map BatchItem.result) := by
  rw [bexecBatch, h]

theorem bexecBatch_failed (h : batchCommand items = some cmd) (hraw : bexec cmd = none) :
    bexecBatch bexec items = (-1, items.map fun _ => .null) := by
  rw [bexecBatch, h]
  simp only [hraw]

theorem bexecBatch_ran (h : batchCommand items = some cmd) (hraw : bexec cmd = some raw) :
    bexecBatch bexec items = (0, (splitLoop 0 items.length raw).map .ofOption) := by
  rw [bexecBatch, h]
  simp only [hraw]

/-- An accepted batch has items, and its command is within the budget. -/
theorem batchCommand_some (h : batchCommand items = some cmd) :
    0 < items.length ∧ items.length ≤ maxBatch ∧ cmd.length ≤ cmdBudget := by
  unfold batchCommand at h
  split at h
  · cases h
  · rename_i hcount
    obtain ⟨combined, -, hbudget⟩ := Option.bind_eq_some_iff.mp h
    split at hbudget
    · cases hbudget
    · obtain rfl := Option.some.inj hbudget
      omega

end Calls

/-- **A failed batch.** It leaves NULL in all results exactly if it was
run, or if NULL stood in all of them before. -/
theorem failure_nulls_iff (bexec : List Char → Option (List Char)) (items : List BatchItem) :
    ((bexecBatch bexec items).1 = -1 → ∀ r ∈ (bexecBatch bexec items).2, r = .null) ↔
      (batchCommand items).isSome = true ∨ ∀ item ∈ items, item.result = .null := by
  cases hcmd : batchCommand items with
  | none =>
      rw [bexecBatch_refused hcmd]
      simp
  | some cmd =>
      refine iff_of_true ?_ (.inl rfl)
      cases hraw : bexec cmd with
      | none =>
          rw [bexecBatch_failed hcmd hraw]
          simp
      | some raw =>
          rw [bexecBatch_ran hcmd hraw]
          have hzero : (0 : Int) ≠ -1 := by decide
          exact fun h => absurd h hzero

/-- The command of a batch of one. -/
theorem batchCommand_single (cmd : List Char) (result : ResultPtr) :
    batchCommand [⟨cmd, result⟩] =
      if cmd.length > 1435 then none else some ("echo __BX_0__; ".toList ++ cmd) := by
  have hpiece : batchPiece 0 cmd = "echo __BX_0__; ".toList ++ cmd := by
    have hprefix : "echo __BX_".toList ++ decimal 0 ++ "__; ".toList = "echo __BX_0__; ".toList := by
      decide
    rw [batchPiece, if_pos rfl, List.nil_append, hprefix]
  have hlength : ("echo __BX_0__; ".toList ++ cmd).length = 15 + cmd.length := by
    have hecho : "echo __BX_0__; ".toList.length = 15 := by decide
    rw [List.length_append, hecho]
  have hcount : ¬ ([(⟨cmd, result⟩ : BatchItem)].length = 0 ∨
      [(⟨cmd, result⟩ : BatchItem)].length > maxBatch) := by
    simp [maxBatch]
  rw [batchCommand, if_neg hcount, List.map_singleton, combineFrom, combineFrom, hpiece,
    List.nil_append, hlength, List.length_nil]
  by_cases hlong : cmd.length > 1435
  · rw [if_pos hlong]
    split
    · rfl
    · rw [Option.bind_some, hlength, if_pos (by simp only [cmdBudget]; omega)]
  · rw [if_neg hlong, if_neg (by omega), Option.bind_some, hlength,
      if_neg (by simp only [cmdBudget]; omega)]

/-- A command that is over the budget with its marker. -/
def longItem : BatchItem := ⟨List.replicate 1436 'x', .stale 0x7f00⟩

/-- The refused batch leaves in place what is no pointer of its own. -/
theorem refused_batch_keeps_stale :
    ¬ ((bexecBatch (fun _ => none) [longItem]).1 = -1 →
      ∀ r ∈ (bexecBatch (fun _ => none) [longItem]).2, r = .null) := by
  have hrefused : batchCommand [longItem] = none := by
    rw [longItem, batchCommand_single, if_pos (by rw [List.length_replicate]; decide)]
  rw [bexecBatch_refused hrefused]
  intro h
  have hnull : ResultPtr.stale 0x7f00 = .null := h rfl _ (List.mem_singleton_self _)
  cases hnull

end MiuiserPeruser.Bexec
