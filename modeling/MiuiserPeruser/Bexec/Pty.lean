import MiuiserPeruser.Lib.CText

/-!
# backend_exec — reading a command's output (`backend_exec.c`)

`run_via_pty` collects the output of a child on a pseudo terminal, in
whatever pieces the kernel delivers it: in the poll loop, and in one of
two drains when the child has exited or the time is up. Each of the three
places keeps a piece that fits the buffer and drops one that does not,
with the same rule (`keepChunk`). The other backends read from a pipe, in
the `popen` branch of `bexec_n`, which cuts the output off instead.
-/

namespace MiuiserPeruser.Bexec

open CText

/-! ## The pseudo terminal -/

/-- What happens in one round of the loop of `run_via_pty`. -/
inductive Round where
  /-- The deadline has passed; the reads of the drain. -/
  | timeout (drain : List (List Char))
  /-- The child has exited; the reads of the drain. -/
  | exited (drain : List (List Char))
  /-- `poll` was interrupted or found nothing, or `read` did. -/
  | nothing
  /-- `poll` or `read` failed. -/
  | failed
  /-- `read` delivered a chunk. -/
  | chunk (bytes : List Char)
  deriving DecidableEq

/-- A chunk is kept if it fits. -/
def keepChunk (outsize : Nat) (out bytes : List Char) : List Char :=
  if out.length + bytes.length < outsize - 1 then out ++ bytes else out

/-- The loop of `run_via_pty`: the text it returns, or `none` while it is
still running. -/
def ptyLoop (outsize : Nat) : List Char → List Round → Option (List Char)
  | _, [] => none
  | out, .timeout drain :: _ => some (drain.foldl (keepChunk outsize) out)
  | out, .exited drain :: _ => some (drain.foldl (keepChunk outsize) out)
  | out, .nothing :: rounds => ptyLoop outsize out rounds
  | out, .failed :: _ => some out
  | out, .chunk bytes :: rounds => ptyLoop outsize (keepChunk outsize out bytes) rounds

/-- `run_via_pty`. -/
def runViaPty (outsize : Nat) (rounds : List Round) : Option (List Char) :=
  ptyLoop outsize [] rounds

/-- The chunks the reads of a run deliver. -/
def delivered : List Round → List (List Char)
  | [] => []
  | .timeout drain :: _ => drain
  | .exited drain :: _ => drain
  | .nothing :: rounds => delivered rounds
  | .failed :: _ => []
  | .chunk bytes :: rounds => bytes :: delivered rounds

/-- The phases make no difference: all chunks go through one rule. -/
theorem ptyLoop_eq {outsize : Nat} {out text : List Char} {rounds : List Round}
    (h : ptyLoop outsize out rounds = some text) :
    text = (delivered rounds).foldl (keepChunk outsize) out := by
  induction rounds generalizing out with
  | nil => cases h
  | cons r rounds ih =>
      cases r with
      | timeout drain => exact (Option.some.inj h).symm
      | exited drain => exact (Option.some.inj h).symm
      | nothing => exact ih h
      | failed => exact (Option.some.inj h).symm
      | chunk bytes => exact ih h

section Keep

variable {outsize : Nat} {out : List Char}

/-- The buffer is never full. -/
theorem length_keepChunks (h : out.length < outsize - 1) (chunks : List (List Char)) :
    (chunks.foldl (keepChunk outsize) out).length < outsize - 1 := by
  induction chunks generalizing out with
  | nil => exact h
  | cons bytes chunks ih =>
      apply ih
      unfold keepChunk
      split
      · rwa [List.length_append]
      · exact h

/-- Chunks that fit together are all kept. -/
theorem keepChunks_fit {chunks : List (List Char)}
    (h : out.length + chunks.flatten.length < outsize - 1) :
    chunks.foldl (keepChunk outsize) out = out ++ chunks.flatten := by
  induction chunks generalizing out with
  | nil => simp
  | cons bytes chunks ih =>
      rw [List.flatten_cons, List.length_append] at h
      have hkeep : keepChunk outsize out bytes = out ++ bytes := if_pos (by omega)
      rw [List.foldl_cons, hkeep, ih (by rw [List.length_append]; omega), List.flatten_cons,
        List.append_assoc]

/-- What is kept stays. -/
theorem prefix_keepChunks (out : List Char) (chunks : List (List Char)) :
    out <+: chunks.foldl (keepChunk outsize) out := by
  induction chunks generalizing out with
  | nil => exact List.prefix_refl out
  | cons bytes chunks ih =>
      have hkeep : out <+: keepChunk outsize out bytes := by
        unfold keepChunk
        split
        · exact List.prefix_append out bytes
        · exact List.prefix_refl out
      exact hkeep.trans (ih _)

/-- Nothing else is kept. -/
theorem mem_keepChunks {chunks : List (List Char)} {c : Char}
    (h : c ∈ chunks.foldl (keepChunk outsize) out) : c ∈ out ∨ c ∈ chunks.flatten := by
  induction chunks generalizing out with
  | nil => exact .inl h
  | cons bytes chunks ih =>
      rw [List.flatten_cons, List.mem_append]
      rcases ih h with hc | hc
      · unfold keepChunk at hc
        split at hc
        · rcases List.mem_append.mp hc with hc | hc
          · exact .inl hc
          · exact .inr (.inl hc)
        · exact .inl hc
      · exact .inr (.inr hc)

/-- A chunk is dropped only where less than its length is left: the first bytes
are those of the output. -/
theorem keepChunks_take {m width : Nat} (hroom : m + width < outsize) {chunks : List (List Char)}
    (hwidth : ∀ bytes ∈ chunks, bytes.length ≤ width) :
    (chunks.foldl (keepChunk outsize) out).take m = (out ++ chunks.flatten).take m := by
  induction chunks generalizing out with
  | nil => simp
  | cons bytes chunks ih =>
      have hrest : ∀ bytes ∈ chunks, bytes.length ≤ width := fun b hb => hwidth b (List.mem_cons_of_mem _ hb)
      have hlen := hwidth bytes List.mem_cons_self
      rw [List.foldl_cons, List.flatten_cons]
      by_cases hfits : out.length + bytes.length < outsize - 1
      · rw [ih hrest, keepChunk, if_pos hfits, List.append_assoc]
      · have hkeep : keepChunk outsize out bytes = out := if_neg hfits
        obtain ⟨more, hmore⟩ : out <+: chunks.foldl (keepChunk outsize) out := prefix_keepChunks out chunks
        rw [hkeep, ← hmore, List.take_append_of_le_length (by omega),
          List.take_append_of_le_length (by omega)]

end Keep

/-! ## The pipe -/

/-- The loop of the `popen` branch of `bexec_n`, over what `fgets` reads. -/
def popenLoop (cap : Nat) : List Char → List (List Char) → List Char
  | out, [] => out
  | out, line :: lines =>
      if out.length < cap - 1 then
        let tmp := cstr line
        let n := if out.length + tmp.length ≥ cap - 1 then cap - 1 - out.length else tmp.length
        popenLoop cap (out ++ tmp.take n) lines
      else out

/-- The `popen` branch: the text it returns for the output of a command. -/
def popenText (cap : Nat) (output : List Char) : List Char :=
  popenLoop cap [] (fgetsLines 4096 output)

theorem popenLoop_eq {cap : Nat} {out : List Char} {lines : List (List Char)}
    (hout : out.length ≤ cap - 1) (hnul : ∀ line ∈ lines, '\x00' ∉ line) :
    popenLoop cap out lines = (out ++ lines.flatten).take (cap - 1) := by
  induction lines generalizing out with
  | nil => simp [popenLoop, List.take_of_length_le hout]
  | cons line lines ih =>
      have hlines : ∀ line ∈ lines, '\x00' ∉ line := fun l hl => hnul l (List.mem_cons_of_mem _ hl)
      rw [popenLoop, cstr_eq_self (hnul line List.mem_cons_self), List.flatten_cons]
      split
      · rename_i hroom
        simp only
        split
        · -- the line fills the buffer: nothing after it counts
          rename_i hfull
          have hlen : (out ++ line.take (cap - 1 - out.length)).length = cap - 1 := by
            rw [List.length_append, List.length_take]
            omega
          rw [ih hlen.le hlines, List.take_append_of_le_length hlen.ge,
            List.take_of_length_le hlen.le, List.take_append,
            List.take_of_length_le hout, List.take_append_of_le_length (by omega)]
        · rename_i hfits
          rw [List.take_of_length_le le_rfl, ih (by rw [List.length_append]; omega) hlines,
            List.append_assoc]
      · rename_i hfull
        rw [List.take_append_of_le_length (by omega), List.take_of_length_le hout]

/-- The `popen` branch returns a prefix of the output. -/
theorem popenText_eq {cap : Nat} {output : List Char} (hnul : '\x00' ∉ output) :
    popenText cap output = output.take (cap - 1) := by
  have hflatten := fgetsLines_flatten 4096 output
  rw [popenText, popenLoop_eq (Nat.zero_le _), List.nil_append, hflatten]
  intro line hline hmem
  exact hnul (hflatten ▸ List.mem_flatten.mpr ⟨line, hline, hmem⟩)

/-! ## Both -/

/-- The text of a run is the prefix of the output that fits the buffer,
and what the `popen` branch returns for output without NUL. -/
structure Prefix (outsize : Nat) (output text : List Char) : Prop where
  first : text = output.take (min (outsize - 1) output.length)
  popen : '\x00' ∉ output → text = popenText outsize output

/-- **When `run_via_pty` returns a prefix of the output.** -/
theorem runViaPty_prefix_iff {outsize : Nat} (hsize : 2 ≤ outsize) {rounds : List Round}
    {text : List Char} (h : runViaPty outsize rounds = some text) :
    Prefix outsize (delivered rounds).flatten text ↔
      (delivered rounds).flatten.length < outsize - 1 := by
  have htext := ptyLoop_eq h
  constructor
  · intro hfirst
    have hlen : text.length < outsize - 1 := by
      rw [htext]
      exact length_keepChunks (by rw [List.length_nil]; omega) _
    have hfirst := congrArg List.length hfirst.first
    rw [List.length_take] at hfirst
    omega
  · intro hfits
    have hall : text = (delivered rounds).flatten := by
      rw [htext, keepChunks_fit (by rw [List.length_nil]; omega), List.nil_append]
    refine ⟨?_, fun hnul => ?_⟩
    · rw [List.take_of_length_le (by omega), hall]
    · rw [popenText_eq hnul, List.take_of_length_le hfits.le, hall]

/-- Output in three chunks, the last one from the drain, that fits. -/
theorem runViaPty_prefix_example :
    runViaPty 128 [.chunk "uid=".toList, .nothing, .chunk "2000".toList, .exited ["\n".toList]] =
        some "uid=2000\n".toList ∧
      Prefix 128 "uid=2000\n".toList "uid=2000\n".toList := by
  have h : runViaPty 128 [.chunk "uid=".toList, .nothing, .chunk "2000".toList,
      .exited ["\n".toList]] = some "uid=2000\n".toList := by decide
  exact ⟨h, (runViaPty_prefix_iff (by decide) h).mpr (by decide)⟩

/-- The chunk in the middle does not fit and is dropped, the one after it
is kept; the `popen` branch returns the first five bytes. -/
theorem middle_chunk_dropped :
    runViaPty 6 [.chunk "aaa".toList, .chunk "bbbbb".toList, .exited ["c".toList]] =
        some "aaac".toList ∧
      popenText 6 "aaabbbbbc".toList = "aaabb".toList ∧
      ¬ Prefix 6 (delivered [.chunk "aaa".toList, .chunk "bbbbb".toList,
        .exited ["c".toList]]).flatten "aaac".toList := by
  refine ⟨by decide, by decide, fun h => ?_⟩
  exact absurd h.first (by decide)

end MiuiserPeruser.Bexec
