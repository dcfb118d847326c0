import Mathlib.Data.List.DropRight

/-!
# Text functions of the C library

The few C library functions on text that the modelled programs read
their inputs with, on `List Char`, following the documented behaviour of
the C function whose name they keep.
-/

namespace CText

/-- A property of the characters of a literal, checked one by one. -/
theorem forall_mem_of_all {p : Char → Prop} [DecidablePred p] {l : List Char}
    (h : l.all (fun c => decide (p c)) = true) : ∀ c ∈ l, p c :=
  fun c hc => of_decide_eq_true (List.all_eq_true.mp h c hc)

/-- What holds of the characters of the first literal, and of the rest. A
literal is `String.ofList` of its characters, so none is decoded here. -/
theorem forall_literals_cons {P : List Char → Prop} {l : List Char} {names : List String}
    (h : P l) (hs : ∀ name ∈ names, P name.toList) :
    ∀ name ∈ String.ofList l :: names, P name.toList := by
  rintro name (_ | ⟨_, hname⟩)
  · rwa [String.toList_ofList]
  · exact hs name hname

/-- A prefix ends in the first part, or goes on into the second. -/
theorem prefix_append_cases {α : Type} {a b p : List α} (h : p <+: a ++ b) :
    p <+: a ∨ ∃ q, q <+: b ∧ p = a ++ q := by
  by_cases hlen : p.length ≤ a.length
  · exact .inl (List.prefix_of_prefix_length_le h (List.prefix_append a b) hlen)
  · obtain ⟨q, rfl⟩ := List.prefix_of_prefix_length_le (List.prefix_append a b) h (by omega)
    exact .inr ⟨q, (List.prefix_append_right_inj a).mp h, rfl⟩

/-- The successive results of `fgets(line, n + 1, fp)` on the rest of a
file: each is the text up to and including the next newline, cut at `n`
characters. `room` is what is left of the current buffer, `acc` its
content, newest character first. -/
def fgetsFrom (n : Nat) : Nat → List Char → List Char → List (List Char)
  | _, [], [] => []
  | _, acc, [] => [acc.reverse]
  | room, acc, c :: cs =>
      if c = '\n' then (c :: acc).reverse :: fgetsFrom n n [] cs
      else match room with
        | 0 | 1 => (c :: acc).reverse :: fgetsFrom n n [] cs
        | room + 1 => fgetsFrom n room (c :: acc) cs

/-- All the lines a loop of `fgets(line, size, fp)` reads. -/
def fgetsLines (size : Nat) (file : List Char) : List (List Char) :=
  fgetsFrom (size - 1) (size - 1) [] file

theorem fgetsFrom_newline (n room : Nat) (acc cs : List Char) :
    fgetsFrom n room acc ('\n' :: cs) = ('\n' :: acc).reverse :: fgetsFrom n n [] cs := by
  match room with
  | 0 | 1 | _ + 2 => simp [fgetsFrom]

theorem fgetsFrom_char {n room : Nat} {acc cs : List Char} {c : Char} (hc : c ≠ '\n') :
    fgetsFrom n (room + 2) acc (c :: cs) = fgetsFrom n (room + 1) (c :: acc) cs := by
  simp [fgetsFrom, hc]

theorem fgetsFrom_line (n : Nat) {l : List Char} (hl : '\n' ∉ l) (rest : List Char) :
    ∀ (room : Nat) (acc : List Char), l.length < room →
      fgetsFrom n room acc (l ++ '\n' :: rest) =
        (acc.reverse ++ l ++ ['\n']) :: fgetsFrom n n [] rest := by
  induction l with
  | nil =>
      intro room acc _
      rw [List.nil_append, fgetsFrom_newline, List.reverse_cons, List.append_nil]
  | cons c l ih =>
      intro room acc hroom
      have hc : c ≠ '\n' := fun h => hl (h ▸ List.mem_cons_self)
      have hl' : '\n' ∉ l := fun h => hl (List.mem_cons_of_mem _ h)
      match room, hroom with
      | room + 2, hroom =>
          simp only [List.length_cons] at hroom
          rw [List.cons_append, fgetsFrom_char hc, ih hl' (room + 1) (c :: acc) (by omega)]
          simp

/-- A line that fits the buffer is read in one piece. -/
theorem fgetsLines_line {size : Nat} {l : List Char} (hl : '\n' ∉ l) (hsize : l.length + 1 < size)
    (rest : List Char) :
    fgetsLines size (l ++ '\n' :: rest) = (l ++ ['\n']) :: fgetsLines size rest := by
  exact fgetsFrom_line (size - 1) hl rest (size - 1) [] (by omega)

theorem fgetsFrom_flatten (n : Nat) (cs : List Char) :
    ∀ (room : Nat) (acc : List Char), (fgetsFrom n room acc cs).flatten = acc.reverse ++ cs := by
  induction cs with
  | nil =>
      intro room acc
      cases acc <;> simp [fgetsFrom]
  | cons c cs ih =>
      intro room acc
      by_cases hc : c = '\n'
      · subst hc
        rw [fgetsFrom_newline, List.flatten_cons, ih]
        simp
      · match room with
        | 0 | 1 =>
            have hfull : ∀ room ≤ 1, fgetsFrom n room acc (c :: cs) =
                (c :: acc).reverse :: fgetsFrom n n [] cs := by
              intro room hroom
              match room, hroom with
              | 0, _ | 1, _ => simp [fgetsFrom, hc]
            rw [hfull _ (by decide), List.flatten_cons, ih]
            simp
        | room + 2 =>
            rw [fgetsFrom_char hc, ih]
            simp

/-- Together the lines are the file. -/
theorem fgetsLines_flatten (size : Nat) (file : List Char) :
    (fgetsLines size file).flatten = file := fgetsFrom_flatten _ file _ []

/-- One `fgets(line, size, fp)`: the line, and what is left of the input. -/
def fgets (size : Nat) (input : List Char) : Option (List Char × List Char) :=
  (fgetsLines size input).head?.map fun line => (line, input.drop line.length)

theorem fgets_line {size : Nat} {l : List Char} (hl : '\n' ∉ l) (hsize : l.length + 1 < size)
    (rest : List Char) : fgets size (l ++ '\n' :: rest) = some (l ++ ['\n'], rest) := by
  have hdrop : (l ++ '\n' :: rest).drop (l ++ ['\n']).length = rest := by
    rw [List.append_cons l '\n' rest, List.drop_left]
  rw [fgets, fgetsLines_line hl hsize, List.head?_cons, Option.map_some, hdrop]

/-- `sscanf(s, "%w[^stop]", out)`: the longest prefix free of the stop
characters, at most `w` of it. -/
def scanUntil (stop : List Char) (w : Nat) (s : List Char) : List Char :=
  (s.takeWhile fun c => c ∉ stop).take w

/-- What follows the last occurrence of `c`, or all of `s`: the
`strrchr(s, c)` idiom for a base name. -/
def afterLast (c : Char) (s : List Char) : List Char := s.rtakeWhile (· ≠ c)

/-! ## Strings in buffers -/

/-- The string in a buffer: what stands before the first NUL. -/
def cstr (buf : List Char) : List Char := buf.takeWhile (· ≠ '\x00')

/-- `char buf[n + 1]; strncpy(buf, s, n);` where nothing else is written
to `buf`, whose last byte holds `last`: the string in `buf` afterwards.
A string of `n` bytes or more fills the copy without a NUL; `none` means
that it then runs on past the buffer. -/
def strncpyOpen (n : Nat) (last : Char) (s : List Char) : Option (List Char) :=
  if s.length < n then some s
  else if last = '\x00' then some (s.take n) else none

/-- `snprintf(buf, size, ...)`: what is stored of a formatted text. The
function returns the length of the whole text. -/
def snprintf (size : Nat) (text : List Char) : List Char := text.take (size - 1)

/-- `strtok` and `strtok_r`: skip delimiters, and return the text up to
the next one, with what is left after it. -/
def strtok (delims s : List Char) : Option (List Char) × List Char :=
  match s.dropWhile (· ∈ delims) with
  | [] => (none, [])
  | s => (some (s.takeWhile (· ∉ delims)), (s.dropWhile (· ∉ delims)).tail)

theorem cstr_eq_self {s : List Char} (h : '\x00' ∉ s) : cstr s = s := by
  refine List.takeWhile_eq_self_iff.mpr fun c hc => ?_
  have : c ≠ '\x00' := fun h' => h (h' ▸ hc)
  simpa using this

theorem snprintf_fits {size : Nat} {text : List Char} (h : text.length < size) :
    snprintf size text = text := List.take_of_length_le (by omega)

theorem strncpyOpen_short {n : Nat} {last : Char} {s : List Char} (h : s.length < n) :
    strncpyOpen n last s = some s := if_pos h

section Strtok

variable {delims s w rest : List Char} {d : Char}

/-- A run of bytes ends where the rest begins, if not before. -/
theorem dropWhile_append_rest {p : Char → Bool} (hrest : ∀ c r, rest = c :: r → p c = false)
    (s : List Char) : (s ++ rest).dropWhile p = s.dropWhile p ++ rest := by
  induction s with
  | nil =>
      cases rest with
      | nil => rfl
      | cons c r => exact List.dropWhile_cons_of_neg (by simp [hrest c r rfl])
  | cons c s ih =>
      rw [List.cons_append, List.dropWhile_cons, List.dropWhile_cons, ih]
      split
      · rfl
      · rfl

theorem takeWhile_append_rest {p : Char → Bool} (hrest : ∀ c r, rest = c :: r → p c = false)
    (s : List Char) : (s ++ rest).takeWhile p = s.takeWhile p := by
  induction s with
  | nil =>
      cases rest with
      | nil => rfl
      | cons c r => exact List.takeWhile_cons_of_neg (by simp [hrest c r rfl])
  | cons c s ih => rw [List.cons_append, List.takeWhile_cons, List.takeWhile_cons, ih]

theorem dropWhile_append_of_stop {p : Char → Bool} (hw : ∀ c ∈ w, p c = true)
    (hrest : ∀ c r, rest = c :: r → p c = false) : (w ++ rest).dropWhile p = rest := by
  rw [dropWhile_append_rest hrest, List.dropWhile_eq_nil_iff.mpr hw, List.nil_append]

theorem takeWhile_append_of_stop {p : Char → Bool} (hw : ∀ c ∈ w, p c = true)
    (hrest : ∀ c r, rest = c :: r → p c = false) : (w ++ rest).takeWhile p = w := by
  rw [takeWhile_append_rest hrest, List.takeWhile_eq_self_iff.mpr hw]

@[simp] theorem strtok_nil : strtok delims [] = (none, []) := rfl

/-- Delimiters in front of a token are skipped. -/
theorem strtok_skip (h : ∀ c ∈ w, c ∈ delims) : strtok delims (w ++ s) = strtok delims s := by
  have hdrop : (w ++ s).dropWhile (· ∈ delims) = s.dropWhile (· ∈ delims) := by
    induction w with
    | nil => rfl
    | cons c w ih =>
        rw [List.cons_append, List.dropWhile_cons_of_pos (by simpa using h c List.mem_cons_self)]
        exact ih fun c hc => h c (List.mem_cons_of_mem _ hc)
  rw [strtok, hdrop]
  rfl

/-- A token that is not at once a delimiter is returned whole; `rest` is
the end of the text or starts with a delimiter. -/
theorem strtok_token (hne : w ≠ []) (hw : ∀ c ∈ w, c ∉ delims)
    (hrest : ∀ c r, rest = c :: r → c ∈ delims) :
    strtok delims (w ++ rest) = (some w, rest.tail) := by
  obtain ⟨c, w', rfl⟩ := List.exists_cons_of_ne_nil hne
  have hstart : (c :: w' ++ rest).dropWhile (· ∈ delims) = c :: w' ++ rest :=
    List.dropWhile_cons_of_neg (by simpa using hw c List.mem_cons_self)
  have htake : (c :: w' ++ rest).takeWhile (· ∉ delims) = c :: w' :=
    takeWhile_append_of_stop (fun x hx => by simpa using hw x hx)
      fun x r h => by simpa using hrest x r h
  have hdrop : (c :: w' ++ rest).dropWhile (· ∉ delims) = rest :=
    dropWhile_append_of_stop (fun x hx => by simpa using hw x hx)
      fun x r h => by simpa using hrest x r h
  rw [strtok, hstart]
  show (some ((c :: w' ++ rest).takeWhile (· ∉ delims)),
    ((c :: w' ++ rest).dropWhile (· ∉ delims)).tail) = _
  rw [htake, hdrop]

theorem strtok_token_end (hne : w ≠ []) (hw : ∀ c ∈ w, c ∉ delims) :
    strtok delims w = (some w, []) := by
  have h : strtok delims (w ++ []) = (some w, [].tail) := strtok_token hne hw (by simp)
  rwa [List.append_nil] at h

end Strtok

/-! ## The last occurrence of a byte -/

theorem afterLast_append {c : Char} {t : List Char} (hc : c ∉ t) (s : List Char) :
    afterLast c (s ++ c :: t) = t := by
  have hreverse : (s ++ c :: t).reverse = t.reverse ++ c :: s.reverse := by simp
  have hall : ∀ d ∈ t.reverse, decide (d ≠ c) = true := by
    intro d hd
    rw [decide_eq_true_eq]
    rintro rfl
    exact hc (List.mem_reverse.mp hd)
  have htake : (t.reverse ++ c :: s.reverse).takeWhile (fun d => decide (d ≠ c)) = t.reverse := by
    apply takeWhile_append_of_stop hall
    rintro d r h
    rw [← (List.cons.inj h).1]
    simp
  rw [afterLast, List.rtakeWhile, hreverse, htake, List.reverse_reverse]

/-! ## Decimal numbers

`snprintf(buf, len, "%ld", n)` is Lean's own decimal text of an integer;
what its users rely on is that it tells numbers apart. -/

theorem natRepr_injective {m n : Nat} (h : m.repr = n.repr) : m = n := by
  have hd : Nat.toDigits 10 m = Nat.toDigits 10 n := by simpa using congrArg String.toList h
  rw [← @Nat.ofDigitChars_ten_toDigits m, hd, Nat.ofDigitChars_ten_toDigits]

theorem natRepr_ne_minus {m : Nat} {s : String} : m.repr ≠ "-" ++ s := by
  intro h
  have hd : Nat.toDigits 10 m = '-' :: s.toList := by simpa using congrArg String.toList h
  have hdigit : ('-' : Char).isDigit = true :=
    Nat.isDigit_of_mem_toDigits (b := 10) (n := m) (by decide) (by decide) (by rw [hd]; simp)
  exact absurd hdigit (by decide)

theorem intRepr_injective {a b : Int} (h : a.repr = b.repr) : a = b := by
  cases a with
  | ofNat m =>
      cases b with
      | ofNat n => exact congrArg Int.ofNat (natRepr_injective h)
      | negSucc n => exact absurd h natRepr_ne_minus
  | negSucc m =>
      cases b with
      | ofNat n => exact absurd h.symm natRepr_ne_minus
      | negSucc n =>
          have hr : m.succ.repr = n.succ.repr := (String.append_right_inj "-").mp h
          rw [Nat.succ.inj (natRepr_injective hr)]

end CText
