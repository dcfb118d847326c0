import Mathlib.Data.List.Count
import MiuiserPeruser.Lib.Shell
import MiuiserPeruser.Splinter.SewerDb

/-!
# splinterd — the notification of a rollup (`sewer_db.c`)

`fire_notification` hands the summary of a rollup to a shell, in single
quotes. `shell_quote` stops where it might have no room for one more quote
of the text and the last one, so the quotes are always closed: the shell
reads one word, a beginning of the text (`notification_contained`).
-/

namespace MiuiserPeruser.Splinter

open CText Shell

/-! ## Quoting -/

/-- What is written for a character. -/
def quotePiece (c : Char) : List Char :=
  if c = '\'' then ['\'', '\\', '\'', '\''] else [c]

/-- The loop of `shell_quote`, behind what is in `out` already. -/
def quoteLoop (outsize : Nat) : List Char → List Char → List Char
  | out, [] => out
  | out, c :: cs =>
      if out.length < outsize - 5 then quoteLoop outsize (out ++ quotePiece c) cs else out

/-- `shell_quote`, without the NUL at the end. From 5 on no difference of
sizes wraps around. -/
def shellQuote (input : List Char) (outsize : Nat) : List Char :=
  let out := if 0 < outsize - 1 then ['\''] else []
  let out := quoteLoop outsize out input
  if out.length < outsize - 1 then out ++ ['\''] else out

/-- What `cmdbuf` is to hold. -/
def notificationLine (quoted : List Char) : List Char :=
  "cmd notification post -S bigtext -t 'sewer.db rollup' sewer_rollup ".toList ++ quoted

/-- `cmdbuf` of `fire_notification`. -/
def cmdbuf (summary : List Char) : List Char :=
  snprintf 2048 (notificationLine (shellQuote summary 1536))

/-- The words in front of the summary. -/
def notificationWords : List (List Char) :=
  ["cmd", "notification", "post", "-S", "bigtext", "-t", "sewer.db rollup", "sewer_rollup"].map
    String.toList

section Quote

variable {outsize : Nat} {out input : List Char}

theorem length_quotePiece (c : Char) : 1 ≤ (quotePiece c).length ∧ (quotePiece c).length ≤ 4 := by
  unfold quotePiece
  split
  · decide
  · rw [List.length_singleton]
    omega

/-- The length of the fully quoted text. -/
theorem length_flatMap_quotePiece (input : List Char) :
    (input.flatMap quotePiece).length = input.length + 3 * input.count '\'' := by
  induction input with
  | nil => rfl
  | cons c input ih =>
      rw [List.flatMap_cons, List.length_append, ih, List.length_cons, List.count_cons]
      by_cases hc : c = '\''
      · subst hc
        have hpiece : (quotePiece '\'').length = 4 := by decide
        rw [hpiece, if_pos (beq_self_eq_true _)]
        omega
      · rw [quotePiece, if_neg hc, List.length_singleton, if_neg (by simpa using hc)]
        omega

/-- Each turn begins with room for four bytes and the closing quote; the
text is written to its end where it has room as a whole. -/
theorem quoteLoop_spec (hout : out.length ≤ outsize - 2) (input : List Char) :
    ∃ v, v <+: input ∧ quoteLoop outsize out input = out ++ v.flatMap quotePiece ∧
      (quoteLoop outsize out input).length ≤ outsize - 2 ∧
      (out.length + (input.flatMap quotePiece).length ≤ outsize - 5 → v = input) := by
  induction input generalizing out with
  | nil => exact ⟨[], List.nil_prefix, (List.append_nil out).symm, hout, fun _ => rfl⟩
  | cons c input ih =>
      have hpiece := length_quotePiece c
      rw [quoteLoop]
      split
      · rename_i hroom
        have hout' : (out ++ quotePiece c).length ≤ outsize - 2 := by
          rw [List.length_append]
          omega
        obtain ⟨v, hv, hloop, hlength, hall⟩ := ih hout'
        refine ⟨c :: v, List.cons_prefix_cons.mpr ⟨rfl, hv⟩, ?_, hlength, fun hfits => ?_⟩
        · rw [hloop, List.flatMap_cons, List.append_assoc]
        · rw [List.flatMap_cons, List.length_append] at hfits
          rw [hall (by rw [List.length_append]; omega)]
      · rename_i hfull
        refine ⟨[], List.nil_prefix, (List.append_nil out).symm, hout, fun hfits => ?_⟩
        rw [List.flatMap_cons, List.length_append] at hfits
        omega

/-- Between single quotes a piece is read as its character. -/
theorem run_quotePiece (ts : List Token) (c : Char) (acc : List Char) :
    run ⟨.single, some acc, ts⟩ (quotePiece c) = some ⟨.single, some (c :: acc), ts⟩ := by
  unfold quotePiece
  split
  · rename_i hc
    subst hc
    rfl
  · rename_i hc
    exact run_single (w := [c]) (fun h => hc (List.mem_singleton.mp h).symm) acc ts

/-- What `shell_quote` writes: a beginning of the text, in quotes. -/
theorem shellQuote_spec (hsize : 6 ≤ outsize) (input : List Char) :
    ∃ v, v <+: input ∧ shellQuote input outsize = '\'' :: (v.flatMap quotePiece ++ ['\'']) ∧
      (shellQuote input outsize).length + 1 ≤ outsize ∧
      (2 + input.length + 3 * input.count '\'' ≤ outsize - 4 → v = input) := by
  have hout : ['\''].length ≤ outsize - 2 := by
    rw [List.length_singleton]
    omega
  obtain ⟨v, hv, hloop, hlength, hall⟩ := quoteLoop_spec hout input
  have hquote : shellQuote input outsize = quoteLoop outsize ['\''] input ++ ['\''] := by
    have hopen : (if 0 < outsize - 1 then ['\''] else []) = ['\''] := if_pos (by omega)
    unfold shellQuote
    rw [hopen]
    exact if_pos (by omega)
  refine ⟨v, hv, ?_, ?_, fun hfits => hall ?_⟩
  · rw [hquote, hloop]
    rfl
  · rw [hquote, List.length_append, List.length_singleton]
    omega
  · rw [length_flatMap_quotePiece, List.length_singleton]
    omega

/-- Behind other words the quoted text is one word. -/
theorem run_quoted (v : List Char) (ts : List Token) :
    run ⟨.plain, none, ts⟩ ('\'' :: (v.flatMap quotePiece ++ ['\''])) =
      some ⟨.plain, some v.reverse, ts⟩ := by
  have hopen : run ⟨.plain, none, ts⟩ ['\''] = some ⟨.single, some [], ts⟩ := rfl
  have hclose : run ⟨.single, some (v.reverse ++ []), ts⟩ ['\''] =
      some ⟨.plain, some (v.reverse ++ []), ts⟩ := rfl
  have hrun := run_trans hopen (run_trans (run_pieces (run_quotePiece ts) v []) hclose)
  rwa [List.append_nil] at hrun

end Quote

/-- The command in front of the summary. -/
theorem run_notification :
    run .start "cmd notification post -S bigtext -t 'sewer.db rollup' sewer_rollup ".toList =
      some ⟨.plain, none, (notificationWords.map .word).reverse⟩ := by
  decide +kernel

theorem length_notificationLine (quoted : List Char) :
    (notificationLine quoted).length = 67 + quoted.length := by
  have hfront : "cmd notification post -S bigtext -t 'sewer.db rollup' sewer_rollup ".toList.length =
      67 := by decide +kernel
  unfold notificationLine
  rw [List.length_append, hfront]

theorem readCommand_notification (v : List Char) :
    readCommand (notificationLine ('\'' :: (v.flatMap quotePiece ++ ['\'']))) =
      some ⟨notificationWords ++ [v], []⟩ :=
  readCommand_end (run_trans run_notification (run_quoted v (notificationWords.map .word).reverse))

/-- **The notification is contained.** What `shell_quote` writes has room and
is read as one word, a beginning of its input; so is the last argument of the
command, which is never truncated. -/
theorem notification_contained {outsize : Nat} (hsize : 6 ≤ outsize) (input : List Char)
    (rows : List TransitionRow) :
    ((shellQuote input outsize).length + 1 ≤ outsize ∧
      ∃ v, v <+: input ∧ readCommand (shellQuote input outsize) = some ⟨[v], []⟩ ∧
        (2 + input.length + 3 * input.count '\'' ≤ outsize - 4 → v = input)) ∧
    (cmdbuf (rollupSummary rows) = notificationLine (shellQuote (rollupSummary rows) 1536) ∧
      ∃ v, v <+: rollupSummary rows ∧
        readCommand (cmdbuf (rollupSummary rows)) = some ⟨notificationWords ++ [v], []⟩) := by
  constructor
  · obtain ⟨v, hv, hquote, hlength, hall⟩ := shellQuote_spec hsize input
    refine ⟨hlength, v, hv, ?_, hall⟩
    rw [hquote]
    have hrun : run .start ('\'' :: (v.flatMap quotePiece ++ ['\''])) =
        some ⟨.plain, some v.reverse, (([] : List (List Char)).map Token.word).reverse⟩ :=
      run_quoted v []
    exact readCommand_end hrun
  · obtain ⟨v, hv, hquote, hlength, -⟩ := shellQuote_spec (show 6 ≤ 1536 by decide) (rollupSummary rows)
    have hcomplete : cmdbuf (rollupSummary rows) =
        notificationLine (shellQuote (rollupSummary rows) 1536) := by
      refine snprintf_fits ?_
      rw [length_notificationLine]
      omega
    refine ⟨hcomplete, v, hv, ?_⟩
    rw [hcomplete, hquote]
    exact readCommand_notification v

/-- A text with a quote in it, and room for all of it. -/
theorem notification_short :
    readCommand (shellQuote "it's".toList 16) = some ⟨["it's".toList], []⟩ := by
  obtain ⟨-, v, -, hread, hall⟩ :=
    (notification_contained (show 6 ≤ 16 by decide) "it's".toList []).1
  rwa [hall (by decide)] at hread

end MiuiserPeruser.Splinter
