import Mathlib.Algebra.Order.BigOperators.Group.List
import Mathlib.Algebra.Order.Ring.Nat
import MiuiserPeruser.Lib.CText

/-!
# Reading a command line the way `sh` does

Token recognition and quoting of the POSIX shell, on one line: words are
separated by blanks, the three kinds of quoting are removed, `<` and `>`
make redirections, the other operators end a simple command. A line that
needs MORE of the shell (a parameter expansion, a command substitution, a
pattern, a comment, a quote that is not closed) is not read: what the
shell makes of it does not depend on the line alone.

The reader is an automaton over characters (`step`), so that a line can
be read piece by piece (`run_append`).

Quoting always LOSES characters: the quote or backslash itself. `ink`
counts the quoting characters that reach the words; a line that keeps all
of them had none to begin with (`run_potential`, `run_potential_lt`). That
is how one shows that a text which is not quoted properly cannot come out
of the shell as it went in.
-/

namespace Shell

/-! ## The reader -/

def quotes : List Char := ['\'', '"', '\\']
def blanks : List Char := [' ', '\t']
def redirections : List Char := ['<', '>']
def operators : List Char := ['|', '&', ';', '(', ')', '\n']

/-- Characters that start an expansion, or make a word a pattern. -/
def expansions : List Char := ['$', '`', '*', '?', '[']

/-- Characters that are special at the start of a word: a comment, and
the expansion of a home directory. -/
def starters : List Char := ['#', '~']

inductive Token where
  | word (text : List Char)
  /-- A redirection, with the number of the file in front of it. -/
  | redirect (fd : List Char) (op : Char)
  | op (c : Char)
  deriving DecidableEq

inductive Mode where
  | plain
  /-- After a backslash. -/
  | escape
  | single
  | double
  /-- After a backslash, inside double quotes. -/
  | doubleEscape
  deriving DecidableEq

/-- The reader: its mode, the word it is in and the tokens before that,
both newest first. -/
structure Lexer where
  mode : Mode
  word : Option (List Char)
  tokens : List Token
  deriving DecidableEq

def Lexer.start : Lexer := ⟨.plain, none, []⟩

/-- The tokens, with the current word closed. -/
def Lexer.flush (s : Lexer) : List Token :=
  match s.word with
  | none => s.tokens
  | some w => .word w.reverse :: s.tokens

/-- The next character of the current word, in a mode. -/
def Lexer.push (s : Lexer) (mode : Mode) (c : Char) : Lexer :=
  { s with mode, word := some (c :: s.word.getD []) }

/-- A quote opens: it makes a word even if nothing follows. -/
def Lexer.opened (s : Lexer) (mode : Mode) : Lexer :=
  { s with mode, word := some (s.word.getD []) }

/-- The tokens after `<` or `>`. Digits right before it name a file. -/
def Lexer.redirected (s : Lexer) (c : Char) : List Token :=
  match s.word with
  | none => .redirect [] c :: s.tokens
  | some w =>
      if w.all Char.isDigit then .redirect w.reverse c :: s.tokens
      else .redirect [] c :: .word w.reverse :: s.tokens

/-- One character. -/
def step (s : Lexer) (c : Char) : Option Lexer :=
  match s.mode with
  | .plain =>
      if c = '\'' then some (s.opened .single)
      else if c = '"' then some (s.opened .double)
      else if c = '\\' then some { s with mode := .escape }
      else if c ∈ blanks then some ⟨.plain, none, s.flush⟩
      else if c ∈ redirections then some ⟨.plain, none, s.redirected c⟩
      else if c ∈ operators then some ⟨.plain, none, .op c :: s.flush⟩
      else if c ∈ expansions then none
      else if s.word = none ∧ c ∈ starters then none
      else some (s.push .plain c)
  | .escape => some (if c = '\n' then { s with mode := .plain } else s.push .plain c)
  | .single => some (if c = '\'' then { s with mode := .plain } else s.push .single c)
  | .double =>
      if c = '"' then some { s with mode := .plain }
      else if c = '\\' then some { s with mode := .doubleEscape }
      else if c = '$' ∨ c = '`' then none
      else some (s.push .double c)
  | .doubleEscape =>
      some (if c ∈ ['$', '`', '"', '\\'] then s.push .double c
        else if c = '\n' then { s with mode := .double }
        else (s.push .double '\\').push .double c)

def run : Lexer → List Char → Option Lexer
  | s, [] => some s
  | s, c :: cs => (step s c).bind fun s => run s cs

/-- The tokens of a line; the quotes must be closed at its end. -/
def tokens (line : List Char) : Option (List Token) :=
  (run .start line).bind fun s => if s.mode = .plain then some s.flush.reverse else none

/-- A simple command: its words, and its redirections with their targets. -/
structure SimpleCommand where
  words : List (List Char)
  redirects : List (List Char × Char × List Char)
  deriving DecidableEq

def simpleCommand : List Token → Option SimpleCommand
  | [] => some ⟨[], []⟩
  | .word w :: ts => (simpleCommand ts).map fun c => { c with words := w :: c.words }
  | .redirect fd op :: .word w :: ts =>
      (simpleCommand ts).map fun c => { c with redirects := (fd, op, w) :: c.redirects }
  | .redirect _ _ :: _ => none
  | .op _ :: _ => none

/-- The simple commands of a pipeline. -/
def pipeline (line : List Char) : Option (List SimpleCommand) :=
  (tokens line).bind fun ts => (ts.splitOn (.op '|')).mapM simpleCommand

/-- The line as one simple command. -/
def readCommand (line : List Char) : Option SimpleCommand := (tokens line).bind simpleCommand

/-- The line is one simple command, and its last argument is `arg`. -/
def LastArgument (line arg : List Char) : Prop :=
  ∃ cmd, readCommand line = some cmd ∧ cmd.words.getLast? = some arg

theorem not_mem_quotes {c : Char} : c ∉ quotes ↔ c ≠ '\'' ∧ c ≠ '"' ∧ c ≠ '\\' := by
  simp [quotes]

/-! ## Reading piece by piece -/

theorem run_append (s : Lexer) (xs ys : List Char) :
    run s (xs ++ ys) = (run s xs).bind fun s => run s ys := by
  induction xs generalizing s with
  | nil => rfl
  | cons c xs ih =>
      simp only [List.cons_append, run]
      cases step s c with
      | none => rfl
      | some s => exact ih s

theorem run_of_append {s s' : Lexer} {xs ys : List Char} (h : run s (xs ++ ys) = some s') :
    ∃ m, run s xs = some m ∧ run m ys = some s' := by
  rw [run_append] at h
  exact Option.bind_eq_some_iff.mp h

theorem run_cons {s s' : Lexer} {c : Char} {cs : List Char} (h : run s (c :: cs) = some s') :
    ∃ m, step s c = some m ∧ run m cs = some s' := Option.bind_eq_some_iff.mp h

theorem run_trans {s m s' : Lexer} {xs ys : List Char} (hxs : run s xs = some m)
    (hys : run m ys = some s') : run s (xs ++ ys) = some s' := by
  rw [run_append, hxs, Option.bind_some, hys]

/-- The command of a line that ends outside quotes. -/
theorem readCommand_of_run {line : List Char} {s : Lexer} (h : run .start line = some s)
    (hs : s.mode = .plain) : readCommand line = simpleCommand s.flush.reverse := by
  rw [readCommand, tokens, h, Option.bind_some, if_pos hs, Option.bind_some]

theorem simpleCommand_words (ws : List (List Char)) (ts : List Token) :
    simpleCommand (ws.map .word ++ ts) =
      (simpleCommand ts).map fun c => { c with words := ws ++ c.words } := by
  induction ws with
  | nil => simp
  | cons w ws ih =>
      rw [List.map_cons, List.cons_append, simpleCommand, ih, Option.map_map]
      rfl

section LastArgument

variable {line arg : List Char} {ws : List (List Char)}

/-- A line of words that ends in its last word. -/
theorem readCommand_end
    (h : run .start line = some ⟨.plain, some arg.reverse, (ws.map .word).reverse⟩) :
    readCommand line = some ⟨ws ++ [arg], []⟩ := by
  rw [readCommand_of_run h rfl]
  have hflush : (Lexer.flush ⟨.plain, some arg.reverse, (ws.map .word).reverse⟩).reverse =
      ws.map .word ++ [.word arg] := by simp [Lexer.flush]
  rw [hflush, simpleCommand_words]
  rfl

/-- The last word of a line that ends in it. -/
theorem lastArgument_end
    (h : run .start line = some ⟨.plain, some arg.reverse, (ws.map .word).reverse⟩) :
    LastArgument line arg := ⟨_, readCommand_end h, by simp⟩

/-- A line whose error output is thrown away. -/
theorem readCommand_silenced
    (h : run .start line = some ⟨.plain, some arg.reverse, (ws.map .word).reverse⟩) :
    readCommand (line ++ " 2>/dev/null".toList) =
      some ⟨ws ++ [arg], [(['2'], '>', "/dev/null".toList)]⟩ := by
  have hend : run ⟨.plain, some arg.reverse, (ws.map .word).reverse⟩ " 2>/dev/null".toList =
      some ⟨.plain, some "/dev/null".toList.reverse,
        .redirect ['2'] '>' :: .word arg.reverse.reverse :: (ws.map .word).reverse⟩ := rfl
  rw [readCommand_of_run (run_trans h hend) rfl]
  have hflush : (Lexer.flush ⟨.plain, some "/dev/null".toList.reverse,
      .redirect ['2'] '>' :: .word arg.reverse.reverse :: (ws.map .word).reverse⟩).reverse =
      ws.map .word ++ [.word arg, .redirect ['2'] '>', .word "/dev/null".toList] := by
    simp [Lexer.flush]
  rw [hflush, simpleCommand_words]
  rfl

theorem lastArgument_silenced
    (h : run .start line = some ⟨.plain, some arg.reverse, (ws.map .word).reverse⟩) :
    LastArgument (line ++ " 2>/dev/null".toList) arg :=
  ⟨_, readCommand_silenced h, by simp⟩

end LastArgument

/-- An unquoted character that is nothing but itself. -/
def isPlain (c : Char) : Bool :=
  c ∉ quotes ++ blanks ++ redirections ++ operators ++ expansions

/-- A word the shell takes as it stands. -/
structure PlainWord (w : List Char) : Prop where
  chars : ∀ c ∈ w, isPlain c = true
  start : ∃ c r, w = c :: r ∧ c ∉ starters

theorem plainWord_iff {w : List Char} :
    PlainWord w ↔ w.all isPlain = true ∧ w.head?.any (fun c => decide (c ∉ starters)) = true := by
  constructor
  · intro h
    obtain ⟨c, r, rfl, hc⟩ := h.start
    exact ⟨List.all_eq_true.mpr h.chars, decide_eq_true hc⟩
  · rintro ⟨hall, hany⟩
    obtain ⟨c, hc, hstart⟩ := (Option.any_eq_true _ _).mp hany
    exact ⟨List.all_eq_true.mp hall, c, w.tail, List.eq_cons_of_mem_head? hc,
      of_decide_eq_true hstart⟩

instance : DecidablePred PlainWord := fun _ => decidable_of_iff _ plainWord_iff.symm

theorem isPlain_iff {c : Char} :
    isPlain c = true ↔ c ∉ quotes ∧ c ∉ blanks ∧ c ∉ redirections ∧ c ∉ operators ∧
      c ∉ expansions := by
  simp only [isPlain, List.mem_append, not_or, decide_eq_true_eq, and_assoc]

theorem isPlain_of_isDigit {c : Char} (h : c.isDigit = true) :
    isPlain c = true ∧ c ∉ starters := by
  have hspecial : ∀ c ∈ quotes ++ blanks ++ redirections ++ operators ++ expansions ++ starters,
      c.isDigit = false := CText.forall_mem_of_all (by decide)
  have hc : c ∉ quotes ++ blanks ++ redirections ++ operators ++ expansions ++ starters :=
    fun hc => absurd h (by simp [hspecial c hc])
  rw [List.mem_append, not_or] at hc
  exact ⟨decide_eq_true hc.1, hc.2⟩

theorem plainWord_digits {w : List Char} (hne : w ≠ []) (hw : ∀ c ∈ w, c.isDigit = true) :
    PlainWord w where
  chars c hc := (isPlain_of_isDigit (hw c hc)).1
  start := by
    obtain ⟨c, r, rfl⟩ := List.exists_cons_of_ne_nil hne
    exact ⟨c, r, rfl, (isPlain_of_isDigit (hw c List.mem_cons_self)).2⟩

theorem step_plain {s : Lexer} {c : Char} (hs : s.mode = .plain) (hc : isPlain c = true)
    (hstart : s.word = none → c ∉ starters) : step s c = some (s.push .plain c) := by
  obtain ⟨hquotes, hblank, hredirect, hop, hexp⟩ := isPlain_iff.mp hc
  obtain ⟨hq₁, hq₂, hq₃⟩ := not_mem_quotes.mp hquotes
  simp only [step, hs, hq₁, hq₂, hq₃, hblank, hredirect, hop, hexp, if_false]
  rw [if_neg fun h => hstart h.1 h.2]

/-- Plain characters continue a word. -/
theorem run_plain_more {w : List Char} (hw : ∀ c ∈ w, isPlain c = true) (acc : List Char)
    (ts : List Token) :
    run ⟨.plain, some acc, ts⟩ w = some ⟨.plain, some (w.reverse ++ acc), ts⟩ := by
  induction w generalizing acc with
  | nil => rfl
  | cons c w ih =>
      rw [run, step_plain rfl (hw c List.mem_cons_self) (by simp), Option.bind_some]
      show run ⟨.plain, some (c :: acc), ts⟩ w = _
      simpa using ih (fun c hc => hw c (List.mem_cons_of_mem _ hc)) (c :: acc)

/-- A plain word is read as itself. -/
theorem PlainWord.run {w : List Char} (h : PlainWord w) (ts : List Token) :
    run ⟨.plain, none, ts⟩ w = some ⟨.plain, some w.reverse, ts⟩ := by
  obtain ⟨c, r, rfl, hc⟩ := h.start
  rw [Shell.run, step_plain rfl (h.chars c List.mem_cons_self) (fun _ => hc), Option.bind_some]
  show Shell.run ⟨.plain, some [c], ts⟩ r = _
  simpa using run_plain_more (fun c hc => h.chars c (List.mem_cons_of_mem _ hc)) [c] ts

/-- Everything but a quote stands for itself inside single quotes. -/
theorem run_single {w : List Char} (hw : '\'' ∉ w) (acc : List Char) (ts : List Token) :
    run ⟨.single, some acc, ts⟩ w = some ⟨.single, some (w.reverse ++ acc), ts⟩ := by
  induction w generalizing acc with
  | nil => rfl
  | cons c w ih =>
      have hc : c ≠ '\'' := fun h => hw (h ▸ List.mem_cons_self)
      have hstep : step ⟨.single, some acc, ts⟩ c = some ⟨.single, some (c :: acc), ts⟩ := by
        simp only [step, hc, if_false]
        rfl
      rw [run, hstep, Option.bind_some]
      simpa using ih (fun h => hw (List.mem_cons_of_mem _ h)) (c :: acc)

/-- A text that is written piece by piece, each piece being read as the
character it stands for, is read as itself. -/
theorem run_pieces {piece : Char → List Char} {mode : Mode} {ts : List Token}
    (h : ∀ c acc, run ⟨mode, some acc, ts⟩ (piece c) = some ⟨mode, some (c :: acc), ts⟩)
    (w acc : List Char) :
    run ⟨mode, some acc, ts⟩ (w.flatMap piece) = some ⟨mode, some (w.reverse ++ acc), ts⟩ := by
  induction w generalizing acc with
  | nil => rfl
  | cons c w ih =>
      rw [List.flatMap_cons, run_trans (h c acc) (ih (c :: acc)), List.reverse_cons, List.append_assoc,
        List.singleton_append]

/-- A character that stands for itself inside double quotes. -/
def isDoublePlain (c : Char) : Bool := c ∉ ['"', '\\', '$', '`']

theorem isDoublePlain_iff {c : Char} :
    isDoublePlain c = true ↔ c ≠ '"' ∧ c ≠ '\\' ∧ c ≠ '$' ∧ c ≠ '`' := by
  simp [isDoublePlain]

theorem step_double {c : Char} (hc : isDoublePlain c = true) (acc : List Char) (ts : List Token) :
    step ⟨.double, some acc, ts⟩ c = some ⟨.double, some (c :: acc), ts⟩ := by
  obtain ⟨h₁, h₂, h₃, h₄⟩ := isDoublePlain_iff.mp hc
  simp only [step, h₁, h₂, h₃, h₄, or_self, if_false]
  rfl

theorem run_double {w : List Char} (hw : ∀ c ∈ w, isDoublePlain c = true) (acc : List Char)
    (ts : List Token) :
    run ⟨.double, some acc, ts⟩ w = some ⟨.double, some (w.reverse ++ acc), ts⟩ := by
  induction w generalizing acc with
  | nil => rfl
  | cons c w ih =>
      rw [run, step_double (hw c List.mem_cons_self), Option.bind_some]
      simpa using ih (fun c hc => hw c (List.mem_cons_of_mem _ hc)) (c :: acc)

theorem isDoublePlain_of_isPlain {c : Char} (h : isPlain c = true) : isDoublePlain c = true := by
  obtain ⟨hquotes, -, -, -, hexp⟩ := isPlain_iff.mp h
  obtain ⟨-, hdouble, hslash⟩ := not_mem_quotes.mp hquotes
  refine isDoublePlain_iff.mpr ⟨hdouble, hslash, fun hc => hexp ?_, fun hc => hexp ?_⟩
  · simp [hc, expansions]
  · simp [hc, expansions]

/-! ## Positional parameters -/

/-- The mode behind a character. -/
def Mode.next : Mode → Char → Mode
  | .plain, c =>
      if c = '\'' then .single else if c = '"' then .double else if c = '\\' then .escape else .plain
  | .single, c => if c = '\'' then .plain else .single
  | .double, c => if c = '"' then .plain else if c = '\\' then .doubleEscape else .double
  | .escape, _ => .plain
  | .doubleEscape, _ => .double

/-- A `$` stands for itself inside single quotes and after a backslash. -/
def Mode.expands : Mode → Bool
  | .plain | .double => true
  | .single | .escape | .doubleEscape => false

/-- What a shell without arguments makes of `$1` to `$9`: nothing. The reader
above takes a line from here on. -/
def dropParameters : Mode → List Char → List Char
  | _, [] => []
  | _, [c] => [c]
  | m, c :: d :: cs =>
      if c = '$' ∧ d ∈ "123456789".toList ∧ m.expands = true then dropParameters m cs
      else c :: dropParameters (m.next c) (d :: cs)

section Parameters

variable {w rest : List Char} {m : Mode}

/-- Any other character stays. -/
theorem dropParameters_cons {c : Char} (hc : c ≠ '$') (m : Mode) (w : List Char) :
    dropParameters m (c :: w) = c :: dropParameters (m.next c) w := by
  cases w with
  | nil => rfl
  | cons d w => exact if_neg fun h => hc h.1

/-- A text without `$` stays as it is. -/
theorem dropParameters_append (hw : '$' ∉ w) (m : Mode) (rest : List Char) :
    dropParameters m (w ++ rest) = w ++ dropParameters (w.foldl Mode.next m) rest := by
  induction w generalizing m with
  | nil => rfl
  | cons c w ih =>
      simp only [List.mem_cons, not_or] at hw
      rw [List.cons_append, dropParameters_cons (Ne.symm hw.1), ih hw.2]
      rfl

/-- A text without quoting does not change the mode. -/
theorem foldl_next_plain (hw : ∀ c ∈ w, c ∉ quotes) : w.foldl Mode.next .plain = .plain := by
  induction w with
  | nil => rfl
  | cons c w ih =>
      obtain ⟨h₁, h₂, h₃⟩ := not_mem_quotes.mp (hw c List.mem_cons_self)
      have hnext : Mode.plain.next c = .plain := by simp [Mode.next, h₁, h₂, h₃]
      rw [List.foldl_cons, hnext, ih fun c hc => hw c (List.mem_cons_of_mem _ hc)]

theorem mem_dropParameters {c : Char} (h : c ∈ dropParameters m w) : c ∈ w := by
  fun_induction dropParameters m w with
  | case1 => exact h
  | case2 => exact h
  | case3 m c d cs _ ih => exact List.mem_cons_of_mem _ (List.mem_cons_of_mem _ (ih h))
  | case4 m c d cs _ ih =>
      rcases List.mem_cons.mp h with rfl | h
      · exact List.mem_cons_self
      · exact List.mem_cons_of_mem _ (ih h)

/-- The parameters of a text between double quotes. -/
theorem dropParameters_quoted (hquote : '"' ∉ w) (hback : '\\' ∉ w) (rest : List Char) :
    dropParameters .double (w ++ '"' :: rest) =
      dropParameters .double w ++ '"' :: dropParameters .plain rest := by
  have hnext : ∀ c : Char, c ≠ '"' → c ≠ '\\' → Mode.double.next c = .double := by
    intro c h₁ h₂
    simp [Mode.next, h₁, h₂]
  have hclose : ∀ w : List Char, dropParameters .double ('"' :: w) = '"' :: dropParameters .plain w :=
    dropParameters_cons (by decide) .double
  induction w using List.twoStepInduction with
  | nil => exact hclose rest
  | singleton c =>
      simp only [List.mem_singleton] at hquote hback
      have hone : dropParameters .double (c :: '"' :: rest) =
          c :: dropParameters (Mode.double.next c) ('"' :: rest) :=
        if_neg fun h => absurd h.2.1 (by decide)
      rw [List.singleton_append, hone, hnext c (Ne.symm hquote) (Ne.symm hback), hclose]
      rfl
  | cons_cons c d w ih ih' =>
      simp only [List.mem_cons, not_or] at hquote hback
      rw [List.cons_append, List.cons_append, dropParameters, dropParameters]
      split
      · exact ih hquote.2.2 hback.2.2
      · rw [hnext c (Ne.symm hquote.1) (Ne.symm hback.1)]
        exact congrArg (c :: ·) (ih' d (by simp [hquote.2]) (by simp [hback.2]))

/-- The parameters of a text that is put between double quotes, behind a text
without any. -/
theorem dropParameters_wrapped {pre : List Char} (hdollar : '$' ∉ pre) (hpre : ∀ c ∈ pre, c ∉ quotes)
    (hquote : '"' ∉ w) (hback : '\\' ∉ w) (rest : List Char) :
    dropParameters .plain (pre ++ '"' :: (w ++ '"' :: rest)) =
      pre ++ '"' :: (dropParameters .double w ++ '"' :: dropParameters .plain rest) := by
  rw [dropParameters_append hdollar, foldl_next_plain hpre, dropParameters_cons (by decide)]
  exact congrArg (fun tail => pre ++ '"' :: tail) (dropParameters_quoted hquote hback rest)

end Parameters

/-! ## Quoting loses ink -/

/-- The quoting characters in a text. -/
def ink (w : List Char) : Nat := w.countP (· ∈ quotes)

def Token.ink : Token → Nat
  | .word w => Shell.ink w
  | .redirect fd _ => Shell.ink fd
  | .op _ => 0

/-- The quoting characters that have reached a word. -/
def Lexer.ink (s : Lexer) : Nat := Shell.ink (s.word.getD []) + (s.tokens.map Token.ink).sum

/-- The quoting characters a mode may still keep: an open quote has yet to
be closed, and loses one more. -/
def Mode.credit : Mode → Nat
  | .plain | .escape | .doubleEscape => 1
  | .single | .double => 0

def Lexer.potential (s : Lexer) : Nat := s.ink + s.mode.credit

@[simp] theorem ink_nil : ink [] = 0 := rfl

theorem ink_cons (c : Char) (w : List Char) : ink (c :: w) = ink w + ink [c] := by
  simp [ink, List.countP_cons]

theorem ink_append (v w : List Char) : ink (v ++ w) = ink v + ink w := List.countP_append

theorem ink_reverse (w : List Char) : ink w.reverse = ink w := List.countP_reverse

theorem PlainWord.ink {w : List Char} (h : PlainWord w) : ink w = 0 := by
  refine List.countP_eq_zero.mpr fun c hc => ?_
  simpa using (isPlain_iff.mp (h.chars c hc)).1

theorem flush_ink (s : Lexer) : (s.flush.map Token.ink).sum = s.ink := by
  unfold Lexer.flush Lexer.ink
  cases s.word with
  | none => simp
  | some w => simp [Token.ink, ink_reverse]

theorem redirected_ink (s : Lexer) (c : Char) : ((s.redirected c).map Token.ink).sum = s.ink := by
  unfold Lexer.redirected Lexer.ink
  cases s.word with
  | none => simp [Token.ink]
  | some w =>
      simp only
      split <;> simp [Token.ink, ink_reverse]

section Potential

variable {s s' : Lexer} {c : Char}

theorem mem_redirected {w : List Char} (h : .word w ∈ s.redirected c) : .word w ∈ s.flush := by
  unfold Lexer.redirected at h
  unfold Lexer.flush
  cases hword : s.word with
  | none => simpa [hword] using h
  | some v =>
      rw [hword] at h
      simp only at h
      split_ifs at h with hdigits
      · simp only [List.mem_cons, reduceCtorEq, false_or] at h
        exact List.mem_cons_of_mem _ h
      · simpa using h

@[simp] theorem Lexer.push_ink (s : Lexer) (mode : Mode) (c : Char) :
    (s.push mode c).ink = s.ink + Shell.ink [c] := by
  simp only [Lexer.push, Lexer.ink, Option.getD_some]
  rw [ink_cons]
  omega

@[simp] theorem Lexer.push_mode (s : Lexer) (mode : Mode) (c : Char) :
    (s.push mode c).mode = mode := rfl

@[simp] theorem Lexer.opened_mode (s : Lexer) (mode : Mode) : (s.opened mode).mode = mode := rfl

@[simp] theorem Lexer.opened_ink (s : Lexer) (mode : Mode) : (s.opened mode).ink = s.ink := by
  simp [Lexer.opened, Lexer.ink]

@[simp] theorem Lexer.setMode_ink (s : Lexer) (mode : Mode) : { s with mode := mode }.ink = s.ink := rfl

theorem ink_of_quote : ∀ c ∈ quotes, ink [c] = 1 := by
  intro c hc
  simp [ink, hc]

theorem ink_of_not_quote (hc : c ∉ quotes) : ink [c] = 0 := by
  simp [ink, hc]

/-- What a character can do outside quotes: open a quote, end the current
word, or continue it. -/
theorem step_plain_cases (hs : s.mode = .plain) (h : step s c = some s') :
    (c ∈ quotes ∧ s'.potential ≤ s.potential) ∨
    (c ∉ quotes ∧ ∃ ts, s' = ⟨.plain, none, ts⟩ ∧ (ts.map Token.ink).sum = s.ink ∧
      ∀ w, .word w ∈ ts → .word w ∈ s.flush) ∨
    (isPlain c = true ∧ (s.word = none → c ∉ starters) ∧ s' = s.push .plain c) := by
  by_cases hc : c ∈ quotes
  · refine .inl ⟨hc, ?_⟩
    simp only [quotes, List.mem_cons, List.not_mem_nil, or_false] at hc
    rcases hc with rfl | rfl | rfl
    all_goals
      simp only [step, hs, if_true, if_false, Option.some.injEq, Char.reduceEq] at h
      subst h
      simp [Lexer.potential, hs, Mode.credit]
  · obtain ⟨h₁, h₂, h₃⟩ := not_mem_quotes.mp hc
    simp only [step, hs, h₁, h₂, h₃, if_false] at h
    split_ifs at h with hblank hredirect hop hexp hstart
    · obtain rfl := Option.some.inj h
      exact .inr (.inl ⟨hc, s.flush, rfl, flush_ink s, fun _ hw => hw⟩)
    · obtain rfl := Option.some.inj h
      exact .inr (.inl ⟨hc, _, rfl, redirected_ink s c, fun _ hw => mem_redirected hw⟩)
    · obtain rfl := Option.some.inj h
      refine .inr (.inl ⟨hc, .op c :: s.flush, rfl, ?_, fun w hw => ?_⟩)
      · rw [List.map_cons, List.sum_cons, flush_ink]
        exact Nat.zero_add _
      · simpa using hw
    · obtain rfl := Option.some.inj h
      refine .inr (.inr ⟨isPlain_iff.mpr ⟨hc, hblank, hredirect, hop, hexp⟩, ?_, rfl⟩)
      exact fun hword hstarters => hstart ⟨hword, hstarters⟩

/-- Outside quotes no character adds ink. -/
theorem step_plain_potential (hs : s.mode = .plain) (h : step s c = some s') :
    s'.potential ≤ s.potential := by
  rcases step_plain_cases hs h with ⟨-, hle⟩ | ⟨-, ts, rfl, hts, -⟩ | ⟨hplain, -, rfl⟩
  · exact hle
  · simp [Lexer.potential, Lexer.ink, hts, hs, Mode.credit]
  · have hc : ink [c] = 0 := ink_of_not_quote (isPlain_iff.mp hplain).1
    simp [Lexer.potential, hs, Mode.credit, hc]

/-- Only a quoting character leaves the plain mode. -/
theorem step_plain_mode (hs : s.mode = .plain) (hc : c ∉ quotes) (h : step s c = some s') :
    s'.mode = .plain := by
  rcases step_plain_cases hs h with ⟨hquote, -⟩ | ⟨-, ts, rfl, -⟩ | ⟨-, -, rfl⟩
  · exact absurd hquote hc
  · rfl
  · rfl

/-- **No step gains ink.** -/
theorem step_potential (h : step s c = some s') : s'.potential ≤ s.potential + ink [c] := by
  have hone := ink_of_quote
  -- a kept character adds its own ink, a closing quote gives the credit back
  cases hs : s.mode with
  | plain => exact (step_plain_potential hs h).trans (Nat.le_add_right _ _)
  | escape =>
      simp only [step, hs, Option.some.injEq] at h
      subst h
      split
      · simp [Lexer.potential, hs, Mode.credit]
      · simp only [Lexer.potential, Lexer.push_ink, Lexer.push_mode, hs, Mode.credit]
        omega
  | single =>
      simp only [step, hs, Option.some.injEq] at h
      subst h
      split
      · rename_i hc
        simp [Lexer.potential, hs, Mode.credit, hone c (by simp [hc, quotes])]
      · simp [Lexer.potential, hs, Mode.credit, Lexer.push_ink]
  | double =>
      simp only [step, hs] at h
      split_ifs at h with h₁ h₂ h₃
      · obtain rfl := Option.some.inj h
        simp [Lexer.potential, hs, Mode.credit, hone c (by simp [h₁, quotes])]
      · obtain rfl := Option.some.inj h
        simp [Lexer.potential, hs, Mode.credit, hone c (by simp [h₂, quotes])]
      · obtain rfl := Option.some.inj h
        simp [Lexer.potential, hs, Mode.credit, Lexer.push_ink]
  | doubleEscape =>
      simp only [step, hs, Option.some.injEq] at h
      subst h
      split
      · simp [Lexer.potential, hs, Mode.credit, Lexer.push_ink]
      · split
        · simp only [Lexer.potential, Lexer.setMode_ink, hs, Mode.credit]
          omega
        · simp [Lexer.potential, hs, Mode.credit, Lexer.push_ink, hone '\\' (by simp [quotes])]

theorem run_potential {input : List Char} (h : run s input = some s') :
    s'.potential ≤ s.potential + ink input := by
  induction input generalizing s with
  | nil =>
      obtain rfl := Option.some.inj h
      exact Nat.le_add_right _ _
  | cons c input ih =>
      obtain ⟨m, hm, hrest⟩ := run_cons h
      have h₁ := step_potential hm
      have h₂ := ih hrest
      rw [ink_cons]
      omega

/-- **Quoting costs.** A line with a quoting character in it, read from
outside quotes, loses at least one. -/
theorem run_potential_lt {input : List Char} (hs : s.mode = .plain) (hq : ink input ≠ 0)
    (h : run s input = some s') : s'.potential < s.potential + ink input := by
  induction input generalizing s with
  | nil => exact absurd rfl hq
  | cons c input ih =>
      obtain ⟨m, hm, hrest⟩ := run_cons h
      have hstep := step_plain_potential hs hm
      have hrun := run_potential hrest
      rw [ink_cons] at hq ⊢
      by_cases hc : c ∈ quotes
      · have : ink [c] = 1 := ink_of_quote c hc
        omega
      · have hc0 := ink_of_not_quote hc
        have hmode : m.mode = .plain := step_plain_mode hs hc hm
        have := ih hmode (by omega) hrest
        omega

/-- The words of a simple command are words of the line. -/
theorem mem_of_mem_words {ts : List Token} {cmd : SimpleCommand} {w : List Char}
    (h : simpleCommand ts = some cmd) (hw : w ∈ cmd.words) : .word w ∈ ts := by
  induction ts using simpleCommand.induct generalizing cmd with
  | case1 =>
      obtain rfl := Option.some.inj h
      exact absurd hw List.not_mem_nil
  | case2 v ts ih =>
      obtain ⟨c, hc, rfl⟩ := Option.map_eq_some_iff.mp h
      rcases List.mem_cons.mp hw with rfl | hw
      · exact List.mem_cons_self
      · exact List.mem_cons_of_mem _ (ih hc hw)
  | case3 fd op v ts ih =>
      obtain ⟨c, hc, rfl⟩ := Option.map_eq_some_iff.mp h
      exact List.mem_cons_of_mem _ (List.mem_cons_of_mem _ (ih hc hw))
  | case4 fd op ts hne =>
      rw [simpleCommand] at h
      · exact absurd h (by simp)
      · exact hne
  | case5 op ts => exact absurd h (by simp [simpleCommand])

/-- What a line that is read leaves in the reader. -/
theorem readCommand_run {line : List Char} {cmd : SimpleCommand}
    (h : readCommand line = some cmd) :
    ∃ s, run .start line = some s ∧ s.mode = .plain ∧ simpleCommand s.flush.reverse = some cmd := by
  obtain ⟨ts, hts, hcmd⟩ := Option.bind_eq_some_iff.mp h
  obtain ⟨s, hs, hmode⟩ := Option.bind_eq_some_iff.mp hts
  split_ifs at hmode with hp
  obtain rfl := Option.some.inj hmode
  exact ⟨s, hs, hp, hcmd⟩

theorem ink_le_of_mem_flush {w : List Char} (h : .word w ∈ s.flush) : ink w ≤ s.ink := by
  rw [← flush_ink]
  exact List.le_sum_of_mem (List.mem_map.mpr ⟨_, h, rfl⟩)

end Potential

/-! ## Text without quotes -/

/-- Every word read so far is a plain word. -/
structure Lexer.PlainWords (s : Lexer) : Prop where
  plain : s.mode = .plain
  flushed : ∀ w, .word w ∈ s.flush → PlainWord w

section PlainWords

variable {s s' : Lexer} {c : Char}

theorem PlainWord.concat {w : List Char} (h : PlainWord w) (hc : isPlain c = true) :
    PlainWord (w ++ [c]) where
  chars := by
    intro x hx
    rcases List.mem_append.mp hx with hx | hx
    · exact h.chars x hx
    · rwa [List.mem_singleton.mp hx]
  start := by
    obtain ⟨d, r, rfl, hd⟩ := h.start
    exact ⟨d, r ++ [c], rfl, hd⟩

/-- A character that is no quote keeps all words plain. -/
theorem step_plainWords (hs : s.PlainWords) (hc : c ∉ quotes) (h : step s c = some s') :
    s'.PlainWords := by
  refine ⟨step_plain_mode hs.plain hc h, ?_⟩
  rcases step_plain_cases hs.plain h with ⟨hquote, -⟩ | ⟨-, ts, rfl, -, hwords⟩ | ⟨hplain, hstart, rfl⟩
  · exact absurd hquote hc
  · intro w hw
    exact hs.flushed w (hwords w hw)
  · intro w hw
    cases hword : s.word with
    | none =>
        have hflush : s.flush = s.tokens := by simp [Lexer.flush, hword]
        simp only [Lexer.flush, Lexer.push, hword, Option.getD_none, List.reverse_singleton,
          List.mem_cons, Token.word.injEq] at hw
        rcases hw with rfl | hw
        · exact ⟨by simpa using hplain, c, [], rfl, hstart hword⟩
        · exact hs.flushed w (hflush ▸ hw)
    | some v =>
        have hflush : s.flush = .word v.reverse :: s.tokens := by simp [Lexer.flush, hword]
        simp only [Lexer.flush, Lexer.push, hword, Option.getD_some, List.reverse_cons,
          List.mem_cons, Token.word.injEq] at hw
        rcases hw with rfl | hw
        · exact (hs.flushed v.reverse (by simp [hflush])).concat hplain
        · exact hs.flushed w (by simp [hflush, hw])

theorem run_plainWords {input : List Char} (hs : s.PlainWords) (hink : ink input = 0)
    (h : run s input = some s') : s'.PlainWords := by
  induction input generalizing s with
  | nil =>
      obtain rfl := Option.some.inj h
      exact hs
  | cons c input ih =>
      obtain ⟨m, hm, hrest⟩ := run_cons h
      rw [ink_cons] at hink
      have hc : c ∉ quotes := by
        intro hc
        have := ink_of_quote c hc
        omega
      exact ih (step_plainWords hs hc hm) (by omega) hrest

/-- **A text that comes out of a line as one word, without having been
quoted there, is a plain word.** -/
theorem plainWord_of_mem_words {pre w post : List Char} {cmd : SimpleCommand}
    (hpre : ink pre = 0) (hpost : ink post = 0)
    (h : readCommand (pre ++ w ++ post) = some cmd) (hw : w ∈ cmd.words) : PlainWord w := by
  obtain ⟨s, hs, hplain, hcmd⟩ := readCommand_run h
  have hflush : .word w ∈ s.flush := List.mem_reverse.mp (mem_of_mem_words hcmd hw)
  have hink := ink_le_of_mem_flush hflush
  have hline : ink (pre ++ w ++ post) = ink w := by simp only [ink_append]; omega
  -- a quote in `w` would have been lost on the way
  have hzero : ink w = 0 := by
    by_contra hne
    have hlt := run_potential_lt (s := .start) rfl (by omega) hs
    have hstart : Lexer.start.potential = 1 := rfl
    simp only [Lexer.potential, hplain, Mode.credit] at hlt hstart
    omega
  have hstart : Lexer.start.PlainWords := ⟨rfl, fun w hw => absurd hw List.not_mem_nil⟩
  exact (run_plainWords hstart (by omega) hs).flushed w hflush

end PlainWords

/-! ## Text between double quotes -/

/-- A text without expansions that double quotes keep as it is: no quote,
and every backslash in front of a character it does not escape. -/
structure DoubleQuotable (w : List Char) : Prop where
  noQuote : '"' ∉ w
  escapes : ∀ u v, w = u ++ '\\' :: v → ∃ c r, v = c :: r ∧ c ≠ '\\' ∧ c ≠ '\n'

section DoubleQuotable

variable {w : List Char} {c d : Char}

theorem doubleQuotable_iff :
    DoubleQuotable w ↔ '"' ∉ w ∧ ∀ i < w.length, w[i]? = some '\\' →
      w[i + 1]?.any (fun c => decide (c ≠ '\\' ∧ c ≠ '\n')) = true := by
  constructor
  · intro h
    refine ⟨h.noQuote, fun i hi hslash => ?_⟩
    have hsplit : w = w.take i ++ '\\' :: w.drop (i + 1) := by
      obtain ⟨_, hget⟩ := List.getElem?_eq_some_iff.mp hslash
      rw [← hget, ← List.drop_eq_getElem_cons hi, List.take_append_drop]
    obtain ⟨c, r, hdrop, hc⟩ := h.escapes _ _ hsplit
    have hhead : (w.drop (i + 1))[0]? = some c := by rw [hdrop]; rfl
    have hnext : w[i + 1]? = some c := by simpa using hhead
    rw [hnext]
    exact decide_eq_true hc
  · rintro ⟨hquote, h⟩
    refine ⟨hquote, fun u v hsplit => ?_⟩
    have hany := h u.length (by simp [hsplit]) (by simp [hsplit])
    obtain ⟨c, hmem, hc⟩ := (Option.any_eq_true _ _).mp hany
    refine ⟨c, v.tail, List.eq_cons_of_mem_head? ?_, of_decide_eq_true hc⟩
    rw [hsplit, List.getElem?_append_right (by omega), Nat.add_sub_cancel_left] at hmem
    simpa [List.head?_eq_getElem?] using hmem

instance : DecidablePred DoubleQuotable := fun _ => decidable_of_iff _ doubleQuotable_iff.symm

theorem DoubleQuotable.nil : DoubleQuotable [] where
  noQuote := List.not_mem_nil
  escapes u v h := absurd h (by simp)

theorem DoubleQuotable.tail (h : DoubleQuotable (c :: w)) : DoubleQuotable w where
  noQuote hw := h.noQuote (List.mem_cons_of_mem _ hw)
  escapes u v hw := h.escapes (c :: u) v (by rw [hw, List.cons_append])

theorem DoubleQuotable.cons (hc : c ≠ '"') (hc' : c ≠ '\\') (h : DoubleQuotable w) :
    DoubleQuotable (c :: w) where
  noQuote hw := by
    rcases List.mem_cons.mp hw with rfl | hw
    · exact hc rfl
    · exact h.noQuote hw
  escapes u v hw := by
    cases u with
    | nil => exact absurd (List.cons.inj hw).1 hc'
    | cons x u => exact h.escapes u v (List.cons.inj hw).2

theorem DoubleQuotable.escaped (hd : d ∉ ['"', '\\', '\n']) (h : DoubleQuotable w) :
    DoubleQuotable ('\\' :: d :: w) := by
  simp only [List.mem_cons, not_or, List.not_mem_nil, not_false_eq_true, and_true] at hd
  have htail := h.cons hd.1 hd.2.1
  refine ⟨fun hw => ?_, fun u v hw => ?_⟩
  · rcases List.mem_cons.mp hw with hw | hw
    · exact absurd hw (by decide)
    · exact htail.noQuote hw
  · cases u with
    | nil => exact ⟨d, w, (List.cons.inj hw).2.symm, hd.2⟩
    | cons x u => exact htail.escapes u v (List.cons.inj hw).2

/-- A backslash that escapes nothing stays, with the character after it. -/
theorem run_escaped_plain (hd : d ∉ ['$', '`', '"', '\\', '\n']) (acc rest : List Char)
    (ts : List Token) :
    run ⟨.double, some acc, ts⟩ ('\\' :: d :: rest) =
      run ⟨.double, some (d :: '\\' :: acc), ts⟩ rest := by
  have hesc : d ∉ ['$', '`', '"', '\\'] := fun h => hd (by
    simp only [List.mem_cons, List.not_mem_nil, or_false] at h ⊢
    tauto)
  have hline : d ≠ '\n' := fun h => hd (by simp [h])
  have hslash : step ⟨.double, some acc, ts⟩ '\\' = some ⟨.doubleEscape, some acc, ts⟩ := rfl
  have hstep : step ⟨.doubleEscape, some acc, ts⟩ d =
      some ⟨.double, some (d :: '\\' :: acc), ts⟩ := by
    simp only [step, if_neg hesc, if_neg hline]
    rfl
  rw [run, hslash, Option.bind_some, run, hstep, Option.bind_some]

/-- Between double quotes such a text is read as itself. -/
theorem run_doubleQuotable (hdollar : '$' ∉ w) (htick : '`' ∉ w) (h : DoubleQuotable w)
    (acc : List Char) (ts : List Token) :
    run ⟨.double, some acc, ts⟩ w = some ⟨.double, some (w.reverse ++ acc), ts⟩ := by
  -- a backslash takes the next character along, so the induction is on the length
  induction hn : w.length using Nat.strong_induction_on generalizing w acc with
  | _ n ih =>
    cases w with
    | nil => rfl
    | cons c w =>
        simp only [List.mem_cons, not_or] at hdollar htick
        rw [List.length_cons] at hn
        by_cases hc : c = '\\'
        · subst hc
          obtain ⟨d, r, rfl, hd, hd'⟩ := h.escapes [] w rfl
          simp only [List.mem_cons, not_or] at hdollar htick
          rw [List.length_cons] at hn
          have hquote : d ≠ '"' := fun he => h.noQuote (by simp [he])
          have hplain : d ∉ ['$', '`', '"', '\\', '\n'] := by
            simp only [List.mem_cons, List.not_mem_nil, or_false, not_or]
            exact ⟨Ne.symm hdollar.2.1, Ne.symm htick.2.1, hquote, hd, hd'⟩
          rw [run_escaped_plain hplain,
            ih r.length (by omega) hdollar.2.2 htick.2.2 h.tail.tail _ rfl]
          simp
        · have hquote : c ≠ '"' := fun he => h.noQuote (by simp [he])
          have hplain : isDoublePlain c = true :=
            isDoublePlain_iff.mpr ⟨hquote, hc, Ne.symm hdollar.1, Ne.symm htick.1⟩
          rw [run, step_double hplain, Option.bind_some,
            ih w.length (by omega) hdollar.2 htick.2 h.tail _ rfl]
          simp

/-- A backslash that does escape is lost. -/
theorem run_escape_potential {rest acc : List Char} {ts : List Token} {s' : Lexer}
    (hd : d ∈ ['"', '\\', '\n'])
    (h : run ⟨.doubleEscape, some acc, ts⟩ (d :: rest) = some s') :
    s'.potential ≤ (⟨.double, some acc, ts⟩ : Lexer).ink + ink [d] + ink rest := by
  obtain ⟨m, hm, hrest⟩ := run_cons h
  have hpot := run_potential hrest
  have hmpot : m.potential = (⟨.double, some acc, ts⟩ : Lexer).ink + ink [d] := by
    simp only [List.mem_cons, List.not_mem_nil, or_false] at hd
    rcases hd with rfl | rfl | rfl
    · obtain rfl := Option.some.inj hm
      exact Lexer.push_ink ⟨.doubleEscape, some acc, ts⟩ .double '"'
    · obtain rfl := Option.some.inj hm
      exact Lexer.push_ink ⟨.doubleEscape, some acc, ts⟩ .double '\\'
    · obtain rfl := Option.some.inj hm
      rfl
  omega

/-- A text that has kept all its ink when the quotes around it are closed
stood for itself. -/
theorem doubleQuotable_of_run {post acc : List Char} {ts : List Token} {s' : Lexer}
    (hdollar : '$' ∉ w) (htick : '`' ∉ w) (hpost : ink post = 0) (hplain : s'.mode = .plain)
    (h : run ⟨.double, some acc, ts⟩ (w ++ '"' :: post) = some s')
    (hkeep : (⟨.double, some acc, ts⟩ : Lexer).ink + ink w ≤ s'.ink) : DoubleQuotable w := by
  have hquote : ink ['"'] = 1 := by decide
  have hslash : ink ['\\'] = 1 := by decide
  have hpot' : s'.potential = s'.ink + 1 := by simp [Lexer.potential, hplain, Mode.credit]
  have hrestInk : ∀ r, ink (r ++ '"' :: post) = ink r + 1 := by
    intro r
    rw [ink_append, ink_cons, hpost, hquote]
  induction hn : w.length using Nat.strong_induction_on generalizing w acc with
  | _ n ih =>
    cases w with
    | nil => exact .nil
    | cons c w =>
        simp only [List.mem_cons, not_or] at hdollar htick
        rw [List.length_cons] at hn
        rw [ink_cons] at hkeep
        rw [List.cons_append] at h
        obtain ⟨m, hm, hrest⟩ := run_cons h
        by_cases hc : c = '"'
        · -- the quotes end early, and the last one opens new ones
          subst hc
          obtain rfl : (⟨.plain, some acc, ts⟩ : Lexer) = m := Option.some.inj hm
          have hlt := run_potential_lt rfl (by rw [hrestInk]; omega) hrest
          rw [hrestInk] at hlt
          simp only [Lexer.potential, Lexer.ink, Mode.credit] at *
          omega
        by_cases hc' : c = '\\'
        · subst hc'
          obtain rfl : (⟨.doubleEscape, some acc, ts⟩ : Lexer) = m := Option.some.inj hm
          cases w with
          | nil =>
              -- the backslash escapes the closing quote
              have hpot := run_escape_potential (by simp) hrest
              rw [ink_nil, hslash] at hkeep
              omega
          | cons d w =>
              rw [ink_cons, hslash] at hkeep
              simp only [List.mem_cons, not_or] at hdollar htick
              by_cases hd : d ∈ ['"', '\\', '\n']
              · rw [List.cons_append] at hrest
                have hpot := run_escape_potential hd hrest
                rw [hrestInk] at hpot
                omega
              · have hd' : d ∉ ['$', '`', '"', '\\', '\n'] := by
                  rw [List.mem_cons, List.mem_cons, not_or, not_or]
                  exact ⟨Ne.symm hdollar.2.1, Ne.symm htick.2.1, hd⟩
                rw [List.cons_append, run_escaped_plain hd'] at h
                rw [List.length_cons] at hn
                refine (ih w.length (by omega) hdollar.2.2 htick.2.2 h ?_ rfl).escaped hd
                simp only [Lexer.ink, Option.getD_some] at hkeep ⊢
                rw [ink_cons, ink_cons '\\', hslash]
                omega
        · have hplain : isDoublePlain c = true :=
            isDoublePlain_iff.mpr ⟨hc, hc', Ne.symm hdollar.1, Ne.symm htick.1⟩
          rw [step_double hplain] at hm
          obtain rfl := Option.some.inj hm
          refine (ih w.length (by omega) hdollar.2 htick.2 hrest ?_ rfl).cons hc hc'
          simp only [Lexer.ink, Option.getD_some] at hkeep ⊢
          rw [ink_cons]
          omega

/-- **A text that comes out of double quotes as it went in is one they
keep as it is.** -/
theorem doubleQuotable_of_mem_words {pre post : List Char} {cmd : SimpleCommand}
    (hpre : ink pre = 0) (hpost : ink post = 0) (hdollar : '$' ∉ w) (htick : '`' ∉ w)
    (h : readCommand (pre ++ '"' :: (w ++ '"' :: post)) = some cmd) (hw : w ∈ cmd.words) :
    DoubleQuotable w := by
  obtain ⟨s, hs, hplain, hcmd⟩ := readCommand_run h
  have hflush : .word w ∈ s.flush := List.mem_reverse.mp (mem_of_mem_words hcmd hw)
  obtain ⟨m, hm, hrest⟩ := run_of_append hs
  have hwords : Lexer.start.PlainWords := ⟨rfl, fun w hw => absurd hw List.not_mem_nil⟩
  have hmode : m.mode = .plain := (run_plainWords hwords hpre hm).plain
  have hmink : m.ink = 0 := by
    have hpot := run_potential hm
    have hstart : Lexer.start.potential = 1 := rfl
    simp only [Lexer.potential, hmode, Mode.credit] at hpot hstart
    omega
  obtain ⟨o, ho, hrest⟩ := run_cons hrest
  have hopened : step m '"' = some (m.opened .double) := by
    simp [step, hmode]
  obtain rfl := Option.some.inj (hopened.symm.trans ho)
  refine doubleQuotable_of_run hdollar htick hpost hplain hrest ?_
  have hopen : (m.opened .double).ink = 0 := by rw [Lexer.opened_ink, hmink]
  calc (m.opened .double).ink + ink w
      = ink w := by rw [hopen, Nat.zero_add]
    _ ≤ s.ink := ink_le_of_mem_flush hflush

end DoubleQuotable

end Shell
