import MiuiserPeruser.Lib.CInt

/-!
# Reading JSON

A reader of JSON texts. A text is a list of bytes; of those that are no
ASCII characters it only asks that they stand in strings, and it leaves
numbers as they are written. What documents that are printed field by field
need of it: what it does with a member (`members_member`), and that a text
printed between quotes is read back as itself only if it has no character
that is special in a string (`scanString_exact`).
-/

namespace Json

open CText

inductive Value where
  | null
  | bool (b : Bool)
  | number (text : List Char)
  | string (s : List Char)
  | array (vs : List Value)
  | object (ms : List (List Char × Value))

/-- The value of a member of an object. -/
def Value.get? : Value → List Char → Option Value
  | .object ms, key => ms.lookup key
  | _, _ => none

theorem Value.get?_cons_self (key : List Char) (v : Value) (ms : List (List Char × Value)) :
    (Value.object ((key, v) :: ms)).get? key = some v := by
  rw [Value.get?, List.lookup_cons, beq_self_eq_true]

theorem Value.get?_cons_ne {key k : List Char} (h : key ≠ k) (v : Value)
    (ms : List (List Char × Value)) :
    (Value.object ((k, v) :: ms)).get? key = (Value.object ms).get? key := by
  rw [Value.get?, Value.get?, List.lookup_cons, beq_eq_false_iff_ne.mpr h]

/-- Members with other keys do not count. -/
theorem Value.get?_append {key : List Char} {fs : List (List Char × Value)}
    (h : key ∉ fs.map Prod.fst) (ms : List (List Char × Value)) :
    (Value.object (fs ++ ms)).get? key = (Value.object ms).get? key := by
  induction fs with
  | nil => rfl
  | cons f fs ih =>
      rw [List.map_cons, List.mem_cons, not_or] at h
      rw [List.cons_append, Value.get?_cons_ne h.1, ih h.2]

/-! ## Strings -/

/-- The character an escape of two characters stands for. -/
def simpleEscape (c : Char) : Option Char :=
  if c = '"' ∨ c = '\\' ∨ c = '/' then some c
  else if c = 'b' then some '\x08'
  else if c = 'f' then some '\x0c'
  else if c = 'n' then some '\n'
  else if c = 'r' then some '\r'
  else if c = 't' then some '\t'
  else none

def isHex (c : Char) : Bool :=
  c.isDigit || ('a' ≤ c && c ≤ 'f') || ('A' ≤ c && c ≤ 'F')

/-- The number of four hexadecimal digits. -/
def hex4 (a b c d : Char) : Option Nat :=
  if isHex a && isHex b && isHex c && isHex d then some (digitsValue 16 [a, b, c, d]) else none

/-- The bytes of a character in UTF-8. -/
def utf8 (n : Nat) : List Char :=
  if n < 0x80 then [Char.ofNat n]
  else if n < 0x800 then [Char.ofNat (0xC0 + n / 64), Char.ofNat (0x80 + n % 64)]
  else if n < 0x10000 then
    [Char.ofNat (0xE0 + n / 4096), Char.ofNat (0x80 + n / 64 % 64), Char.ofNat (0x80 + n % 64)]
  else
    [Char.ofNat (0xF0 + n / 262144), Char.ofNat (0x80 + n / 4096 % 64),
      Char.ofNat (0x80 + n / 64 % 64), Char.ofNat (0x80 + n % 64)]

/-- What follows `\u`: the bytes it stands for, and how many characters it
takes. The halves of a pair of surrogates only come together. -/
def unicodeEscape : List Char → Option (List Char × Nat)
  | a :: b :: c :: d :: s =>
      match hex4 a b c d with
      | none => none
      | some n =>
          if n < 0xD800 ∨ 0xE000 ≤ n then some (utf8 n, 4)
          else if 0xDC00 ≤ n then none
          else match s with
            | '\\' :: 'u' :: a :: b :: c :: d :: _ =>
                match hex4 a b c d with
                | none => none
                | some m =>
                    if 0xDC00 ≤ m ∧ m < 0xE000 then
                      some (utf8 (0x10000 + (n - 0xD800) * 0x400 + (m - 0xDC00)), 10)
                    else none
            | _ => none
  | _ => none

/-- What follows a backslash, likewise. -/
def scanEscape : List Char → Option (List Char × Nat)
  | [] => none
  | d :: s =>
      match simpleEscape d with
      | some e => some ([e], 1)
      | none => if d = 'u' then (unicodeEscape s).map fun p => (p.1, p.2 + 1) else none

/-- The rest of a string behind its opening quote, and what follows it. -/
def scanString : List Char → Option (List Char × List Char)
  | [] => none
  | c :: s =>
      if c = '"' then some ([], s)
      else if c.toNat < 0x20 then none
      else if c = '\\' then
        match scanEscape s with
        | none => none
        | some p => (scanString (s.drop p.2)).map fun q => (p.1 ++ q.1, q.2)
      else (scanString s).map fun q => (c :: q.1, q.2)
termination_by s => s.length
decreasing_by
  · rw [List.length_drop, List.length_cons]
    omega
  · exact Nat.lt_succ_self _

/-! ## Numbers -/

def scanInt : List Char → Option (List Char × List Char)
  | [] => none
  | c :: s =>
      if c = '0' then some (['0'], s)
      else if c.isDigit then some ((c :: s).takeWhile Char.isDigit, (c :: s).dropWhile Char.isDigit)
      else none

/-- At least one digit. -/
def scanDigits (s : List Char) : Option (List Char × List Char) :=
  if s.takeWhile Char.isDigit = [] then none
  else some (s.takeWhile Char.isDigit, s.dropWhile Char.isDigit)

def scanFraction : List Char → Option (List Char × List Char)
  | [] => some ([], [])
  | c :: s =>
      if c = '.' then (scanDigits s).map fun p => ('.' :: p.1, p.2)
      else some ([], c :: s)

def scanExponent : List Char → Option (List Char × List Char)
  | [] => some ([], [])
  | c :: s =>
      if c = 'e' ∨ c = 'E' then
        if s.head? = some '+' ∨ s.head? = some '-' then
          (scanDigits s.tail).map fun p => (c :: (s.take 1 ++ p.1), p.2)
        else (scanDigits s).map fun p => (c :: p.1, p.2)
      else some ([], c :: s)

/-- A number behind its sign. -/
def scanUnsigned (s : List Char) : Option (List Char × List Char) := do
  let int ← scanInt s
  let fraction ← scanFraction int.2
  let exponent ← scanExponent fraction.2
  some (int.1 ++ fraction.1 ++ exponent.1, exponent.2)

def scanNumber (s : List Char) : Option (List Char × List Char) :=
  if s.head? = some '-' then (scanUnsigned s.tail).map fun p => ('-' :: p.1, p.2)
  else scanUnsigned s

/-! ## Values -/

def isSpace (c : Char) : Bool := c = ' ' || c = '\t' || c = '\n' || c = '\r'

def skipSpace (s : List Char) : List Char := s.dropWhile isSpace

/-- What follows a character, which blanks may precede. -/
def expect (c : Char) (s : List Char) : Option (List Char) :=
  if (skipSpace s).head? = some c then some (skipSpace s).tail else none

/-- The three words and the numbers. -/
def scanScalar (s : List Char) : Option (Value × List Char) :=
  if "true".toList <+: s then some (.bool true, s.drop 4)
  else if "false".toList <+: s then some (.bool false, s.drop 5)
  else if "null".toList <+: s then some (.null, s.drop 4)
  else (scanNumber s).map fun p => (.number p.1, p.2)

/-- The entries of a list behind its first one, up to the closing bracket. -/
def after {α : Type} (close : Char) (rest : List Char → Option (List α × List Char)) (a : α)
    (s : List Char) : Option (List α × List Char) :=
  match expect ',' s with
  | some s => (rest s).map fun p => (a :: p.1, p.2)
  | none => (expect close s).map fun s => ([a], s)

mutual

/-- A value, and what follows it. -/
def value : Nat → List Char → Option (Value × List Char)
  | 0, _ => none
  | fuel + 1, s =>
      match expect '"' s with
      | some s => (scanString s).map fun p => (.string p.1, p.2)
      | none =>
          match expect '\x7b' s with
          | some s =>
              match expect '\x7d' s with
              | some s => some (.object [], s)
              | none => (members fuel s).map fun p => (.object p.1, p.2)
          | none =>
              match expect '[' s with
              | some s =>
                  match expect ']' s with
                  | some s => some (.array [], s)
                  | none => (elements fuel s).map fun p => (.array p.1, p.2)
              | none => scanScalar (skipSpace s)

/-- The members of an object and its closing brace. -/
def members : Nat → List Char → Option (List (List Char × Value) × List Char)
  | 0, _ => none
  | fuel + 1, s => do
      let s ← expect '"' s
      let key ← scanString s
      let s ← expect ':' key.2
      let v ← value fuel s
      after '\x7d' (members fuel) (key.1, v.1) v.2

/-- The elements of an array and its closing bracket. -/
def elements : Nat → List Char → Option (List Value × List Char)
  | 0, _ => none
  | fuel + 1, s => do
      let v ← value fuel s
      after ']' (elements fuel) v.1 v.2

end

/-- The value of a JSON text. -/
def parse (s : List Char) : Option Value := do
  let v ← value (s.length + 1) s
  if skipSpace v.2 = [] then some v.1 else none

/-! ## Strings that are read back -/

section Strings

variable {c d e : Char} {s w r : List Char}

/-- A character that stands in a string as it is. -/
def PlainChar (c : Char) : Prop := c ≠ '"' ∧ c ≠ '\\' ∧ 0x20 ≤ c.toNat

instance (c : Char) : Decidable (PlainChar c) := inferInstanceAs (Decidable (_ ∧ _))

def Plain (s : List Char) : Prop := ∀ c ∈ s, PlainChar c

theorem plain_iff_all : Plain s ↔ s.all (fun c => decide (PlainChar c)) = true := by
  rw [List.all_eq_true]
  exact forall₂_congr fun c _ => decide_eq_true_iff.symm

instance : Decidable (Plain s) := decidable_of_iff _ plain_iff_all.symm

/-- A literal is `String.ofList` of its characters, so it is not decoded here. -/
theorem plain_literal (h : Plain s) : Plain (String.ofList s).toList := by
  rwa [String.toList_ofList]

theorem scanString_quote (s : List Char) : scanString ('"' :: s) = some ([], s) := by
  rw [scanString, if_pos rfl]

theorem scanString_char (hc : PlainChar c) (s : List Char) :
    scanString (c :: s) = (scanString s).map fun p => (c :: p.1, p.2) := by
  rw [scanString, if_neg hc.1, if_neg (Nat.not_lt.mpr hc.2.2), if_neg hc.2.1]

/-- No control character stands in a string. -/
theorem scanString_low (hc : c.toNat < 0x20) (s : List Char) : scanString (c :: s) = none := by
  have hquote : c ≠ '"' := by
    rintro rfl
    exact absurd hc (by decide)
  rw [scanString, if_neg hquote, if_pos hc]

theorem scanString_escape (h : simpleEscape d = some e) (s : List Char) :
    scanString ('\\' :: d :: s) = (scanString s).map fun p => (e :: p.1, p.2) := by
  have hescape : scanEscape (d :: s) = some ([e], 1) := by
    rw [scanEscape, h]
  rw [scanString, if_neg (by decide), if_neg (by decide), if_pos rfl, hescape]
  rfl

/-- Plain text is read as it is. -/
theorem scanString_plain (hw : Plain w) : scanString (w ++ '"' :: r) = some (w, r) := by
  induction w with
  | nil => exact scanString_quote r
  | cons c w ih =>
      rw [List.cons_append, scanString_char (hw c List.mem_cons_self),
        ih fun d hd => hw d (List.mem_cons_of_mem c hd)]
      rfl

/-- A string that a control character follows is not closed. -/
theorem scanString_plain_low (hw : Plain w) (hc : c.toNat < 0x20) :
    scanString (w ++ c :: r) = none := by
  induction w with
  | nil => exact scanString_low hc r
  | cons d w ih =>
      rw [List.cons_append, scanString_char (hw d List.mem_cons_self),
        ih fun e he => hw e (List.mem_cons_of_mem d he)]
      rfl

theorem length_utf8_le (n : Nat) : (utf8 n).length ≤ 4 := by
  unfold utf8
  split
  · simp
  · split
    · simp
    · split <;> simp

theorem ne_quote_of_isHex (h : isHex c = true) : c ≠ '"' := by
  rintro rfl
  exact absurd h (by decide)

theorem ne_quote_of_hex4 {a b c d : Char} {n : Nat} (h : hex4 a b c d = some n) :
    ∀ x ∈ [a, b, c, d], x ≠ '"' := by
  unfold hex4 at h
  split at h
  · next hall =>
      simp only [Bool.and_eq_true] at hall
      obtain ⟨⟨⟨ha, hb⟩, hc⟩, hd⟩ := hall
      simp [ne_quote_of_isHex ha, ne_quote_of_isHex hb, ne_quote_of_isHex hc, ne_quote_of_isHex hd]
  · cases h

/-- Four hexadecimal digits in front of a text without quotes. -/
theorem quote_notMem_digits {a b c d : Char} {n : Nat} (h : hex4 a b c d = some n)
    (hs : '"' ∉ s) : '"' ∉ a :: b :: c :: d :: s := by
  have hdigits := ne_quote_of_hex4 h
  simp only [List.forall_mem_cons] at hdigits
  obtain ⟨ha, hb, hc, hd, -⟩ := hdigits
  simp [ha.symm, hb.symm, hc.symm, hd.symm, hs]

/-- An escape stands for fewer bytes than it takes characters, none of which is a quote. -/
theorem unicodeEscape_spec {bytes : List Char} {n : Nat} (h : unicodeEscape s = some (bytes, n)) :
    bytes.length ≤ n ∧ n ≤ s.length ∧ '"' ∉ s.take n := by
  unfold unicodeEscape at h
  split at h
  · next a b c d s =>
      split at h
      · cases h
      · next n' hhigh =>
          split at h
          · obtain ⟨rfl, rfl⟩ := Prod.mk.inj (Option.some.inj h)
            refine ⟨length_utf8_le _, by simp, ?_⟩
            show '"' ∉ [a, b, c, d]
            exact quote_notMem_digits hhigh List.not_mem_nil
          · split at h
            · cases h
            · split at h
              · next a' b' c' d' s' =>
                  split at h
                  · cases h
                  · next m hlow =>
                      split at h
                      · obtain ⟨rfl, rfl⟩ := Prod.mk.inj (Option.some.inj h)
                        refine ⟨le_trans (length_utf8_le _) (by decide), by simp, ?_⟩
                        show '"' ∉ a :: b :: c :: d :: '\\' :: 'u' :: [a', b', c', d']
                        have hrest := quote_notMem_digits hlow List.not_mem_nil
                        exact quote_notMem_digits hhigh (by simp [hrest])
                      · cases h
              · cases h
  · cases h

theorem scanEscape_spec {bytes : List Char} {n : Nat} (h : scanEscape s = some (bytes, n)) :
    bytes.length ≤ n ∧ n ≤ s.length ∧ ∀ d t, s = d :: t → '"' ∉ t.take (n - 1) := by
  cases s with
  | nil => cases h
  | cons d s =>
      rw [scanEscape] at h
      split at h
      · obtain ⟨rfl, rfl⟩ := Prod.mk.inj (Option.some.inj h)
        refine ⟨le_refl _, by simp, ?_⟩
        rintro d t -
        simp
      · split at h
        · obtain ⟨⟨b, k⟩, hunicode, hb⟩ := Option.map_eq_some_iff.mp h
          obtain ⟨rfl, rfl⟩ := Prod.mk.inj hb
          obtain ⟨hlen, hle, hquote⟩ := unicodeEscape_spec hunicode
          refine ⟨Nat.le_succ_of_le hlen, Nat.succ_le_succ hle, ?_⟩
          rintro d t hdt
          obtain ⟨rfl, rfl⟩ := List.cons.inj hdt
          exact hquote
        · cases h

/-- A string that begins with an escape. -/
theorem scanString_backslash (h : scanString ('\\' :: s) = some (w, r)) :
    ∃ bytes n w', scanEscape s = some (bytes, n) ∧ scanString (s.drop n) = some (w', r) ∧
      w = bytes ++ w' := by
  rw [scanString, if_neg (by decide), if_neg (by decide), if_pos rfl] at h
  split at h
  · cases h
  · next p hescape =>
      obtain ⟨⟨v, t⟩, hscan, hv⟩ := Option.map_eq_some_iff.mp h
      obtain ⟨rfl, rfl⟩ := Prod.mk.inj hv
      exact ⟨p.1, p.2, v, hescape, hscan, rfl⟩

section Exact

variable {u y r' : List Char}

/-- The string does not end in a backslash that is read behind its quote. -/
def EndsPlainly (r : List Char) : Prop :=
  ∀ z r', scanString r = some (z, r') → z.getLast? ≠ some '\\'

theorem endsPlainly_of_none (h : scanString r = none) : EndsPlainly r := by
  intro z r' hscan
  rw [h] at hscan
  cases hscan

/-- A comma in front of the next quote. -/
theorem endsPlainly_comma (s : List Char) : EndsPlainly (',' :: '"' :: s) := by
  intro z r' hscan
  rw [scanString_char (by decide), scanString_quote] at hscan
  have hz : [','] = z := (Prod.mk.inj (Option.some.inj hscan)).1
  rw [← hz]
  decide

/-- What is read from an escape on stays behind what it is read from. -/
theorem not_read_backslash (hr : EndsPlainly r)
    (ih : ∀ v y, v.length ≤ u.length → scanString (v ++ '"' :: r) = some (y ++ v, r') → y = []) :
    scanString ('\\' :: (u ++ '"' :: r)) ≠ some (y ++ '\\' :: u, r') := by
  intro h
  cases u with
  | nil =>
      -- the quote is escaped, and the string goes on behind it
      rw [List.nil_append, scanString_escape (e := '"') (by decide)] at h
      obtain ⟨⟨z, t⟩, hscan, hz⟩ := Option.map_eq_some_iff.mp h
      have hw : '"' :: z = y ++ ['\\'] := (Prod.mk.inj hz).1
      cases y with
      | nil => exact absurd (List.cons.inj hw).1 (by decide)
      | cons e y =>
          have htail : z = y ++ ['\\'] := (List.cons.inj hw).2
          apply hr z t hscan
          rw [htail, List.getLast?_concat]
  | cons d u =>
      obtain ⟨bytes, n, w', hescape, hscan, hw⟩ := scanString_backslash h
      obtain ⟨hbytes, -, hquote⟩ := scanEscape_spec hescape
      have hinside : n ≤ (d :: u).length := by
        by_contra hlong
        rw [List.length_cons] at hlong
        have hmem : '"' ∈ (u ++ '"' :: r).take (n - 1) := by
          obtain ⟨k, hk⟩ : ∃ k, n - 1 = u.length + (k + 1) := ⟨n - 2 - u.length, by omega⟩
          rw [hk, List.take_append, List.take_of_length_le (by omega), Nat.add_sub_cancel_left,
            List.take_succ_cons]
          simp
        exact hquote d (u ++ '"' :: r) rfl hmem
      rw [List.drop_append_of_le_length hinside] at hscan
      have hsplit : y ++ '\\' :: (d :: u) = (y ++ '\\' :: (d :: u).take n) ++ (d :: u).drop n := by
        rw [List.append_assoc, List.cons_append, List.take_append_drop]
      have hlength : (y ++ '\\' :: (d :: u).take n).length = y.length + n + 1 := by
        rw [List.length_append, List.length_cons, List.length_take, min_eq_left hinside]
        omega
      rw [hsplit] at hw
      rcases List.append_eq_append_iff.mp hw with ⟨z, hz, -⟩ | ⟨z, hz, hrest⟩
      · have hlen := congrArg List.length hz
        rw [List.length_append, hlength] at hlen
        omega
      · have hlen := congrArg List.length hz
        rw [hlength, List.length_append] at hlen
        have hnil := ih ((d :: u).drop n) z (by rw [List.length_drop]; omega) (hrest ▸ hscan)
        rw [hnil, List.length_nil] at hlen
        omega

/-- A text that is read as the end of what is read is plain. -/
theorem plain_of_read (hr : EndsPlainly r) :
    ∀ n (u y : List Char), u.length ≤ n → scanString (u ++ '"' :: r) = some (y ++ u, r') →
      y = [] ∧ Plain u ∧ r' = r := by
  have hnil : ∀ y, scanString ([] ++ '"' :: r) = some (y ++ [], r') → y = [] ∧ Plain [] ∧ r' = r := by
    intro y h
    rw [List.nil_append, List.append_nil, scanString_quote] at h
    obtain ⟨hy, hrest⟩ := Prod.mk.inj (Option.some.inj h)
    exact ⟨hy.symm, fun c hc => absurd hc List.not_mem_nil, hrest.symm⟩
  intro n
  induction n with
  | zero =>
      intro u y hn
      obtain rfl : u = [] := List.eq_nil_of_length_eq_zero (Nat.le_zero.mp hn)
      exact hnil y
  | succ n ih =>
      intro u y hn h
      cases u with
      | nil => exact hnil y h
      | cons c u =>
          rw [List.length_cons] at hn
          rw [List.cons_append] at h
          by_cases hquote : c = '"'
          · subst hquote
            rw [scanString_quote] at h
            have hempty := (Prod.mk.inj (Option.some.inj h)).1
            simp at hempty
          · by_cases hlow : c.toNat < 0x20
            · rw [scanString_low hlow] at h
              cases h
            · by_cases hslash : c = '\\'
              · subst hslash
                exact absurd h (not_read_backslash hr fun v y hv hscan =>
                  (ih v y (by omega) hscan).1)
              · have hc : PlainChar c := ⟨hquote, hslash, Nat.not_lt.mp hlow⟩
                rw [scanString_char hc] at h
                obtain ⟨⟨z, t⟩, hscan, hz⟩ := Option.map_eq_some_iff.mp h
                obtain ⟨hw, rfl⟩ := Prod.mk.inj hz
                cases y with
                | nil =>
                    obtain rfl : z = u := (List.cons.inj hw).2
                    obtain ⟨-, hplain, hrest⟩ := ih z [] (by omega) hscan
                    exact ⟨rfl, List.forall_mem_cons.mpr ⟨hc, hplain⟩, hrest⟩
                | cons e y =>
                    obtain ⟨rfl, rfl⟩ := List.cons.inj hw
                    have hscan : scanString (u ++ '"' :: r) = some ((y ++ [c]) ++ u, t) := by
                      rw [List.append_assoc]
                      exact hscan
                    have hempty := (ih u (y ++ [c]) (by omega) hscan).1
                    simp at hempty

/-- **A text is read back as itself exactly if it is plain.** -/
theorem scanString_exact (hr : EndsPlainly r) (h : scanString (w ++ '"' :: r) = some (w, r')) :
    Plain w ∧ r' = r :=
  (plain_of_read hr w.length w [] (le_refl _) h).2

end Exact

end Strings

/-! ## Numbers that are read back -/

section Numbers

variable {rest : List Char}

/-- The characters that continue a number. -/
def numberChar (c : Char) : Bool := c.isDigit || c = '.' || c = 'e' || c = 'E'

/-- Only zero begins with a zero. -/
theorem decimal_zero_head {m : Nat} {ds : List Char} (h : decimal m = '0' :: ds) : m = 0 := by
  have hvalue : ∀ k, decimal k = ['0'] → k = 0 := by
    intro k hk
    rw [← digitsValue_decimal k, hk]
    rfl
  have hbegins : ['0'] <+: decimal m := by
    rw [h]
    exact ⟨ds, rfl⟩
  rcases decimal_prefix hbegins (List.cons_ne_nil _ _) with hzero | ⟨k, hk, -, hzero⟩
  · exact hvalue m hzero.symm
  · exact absurd (hvalue k hzero.symm) (Nat.ne_of_gt hk)

theorem scanInt_decimal (m : Nat) (hrest : Stops numberChar rest) :
    scanInt (decimal m ++ rest) = some (decimal m, rest) := by
  have hstop : Stops Char.isDigit rest := by
    intro c r hc
    have hnumber := hrest c r hc
    simp only [numberChar, Bool.or_eq_false_iff] at hnumber
    exact hnumber.1.1.1
  obtain ⟨c, ds, hm, hdigit⟩ := decimal_eq_cons m
  by_cases hzero : c = '0'
  · subst hzero
    obtain rfl := decimal_zero_head hm
    show scanInt ('0' :: rest) = some (['0'], rest)
    rw [scanInt, if_pos rfl]
  · have hdigits : ∀ d ∈ decimal m, d.isDigit = true := fun d hd => isDigit_decimal hd
    have htake := takeWhile_append_of_stop hdigits hstop
    have hdrop := dropWhile_append_of_stop hdigits hstop
    rw [hm, List.cons_append] at htake hdrop
    rw [hm, List.cons_append, scanInt, if_neg hzero, if_pos hdigit, htake, hdrop]

theorem scanUnsigned_decimal (m : Nat) (hrest : Stops numberChar rest) :
    scanUnsigned (decimal m ++ rest) = some (decimal m, rest) := by
  have hfraction : scanFraction rest = some ([], rest) := by
    cases rest with
    | nil => rfl
    | cons c r =>
        have hc : c ≠ '.' := by
          rintro rfl
          exact absurd (hrest '.' r rfl) (by decide)
        rw [scanFraction, if_neg hc]
  have hexponent : scanExponent rest = some ([], rest) := by
    cases rest with
    | nil => rfl
    | cons c r =>
        have hc : ¬ (c = 'e' ∨ c = 'E') := by
          rintro (rfl | rfl) <;> exact absurd (hrest _ r rfl) (by decide)
        rw [scanExponent, if_neg hc]
  rw [scanUnsigned, scanInt_decimal m hrest]
  simp only [Option.bind_eq_bind, Option.bind_some, hfraction, hexponent, List.append_nil]

theorem scanNumber_formatD (n : Int) (hrest : Stops numberChar rest) :
    scanNumber (formatD n ++ rest) = some (formatD n, rest) := by
  obtain ⟨c, ds, hm, hdigit⟩ := decimal_eq_cons n.natAbs
  by_cases hn : n < 0
  · have hformat : formatD n = '-' :: decimal n.natAbs := by rw [formatD, if_pos hn]; rfl
    rw [hformat, List.cons_append, scanNumber, if_pos List.head?_cons, List.tail_cons,
      scanUnsigned_decimal _ hrest]
    rfl
  · have hformat : formatD n = decimal n.natAbs := by rw [formatD, if_neg hn]; rfl
    have hminus : (decimal n.natAbs ++ rest).head? ≠ some '-' := by
      rw [hm]
      intro h
      rw [Option.some.inj h] at hdigit
      exact absurd hdigit (by decide)
    rw [hformat, scanNumber, if_neg hminus, scanUnsigned_decimal _ hrest]

end Numbers

/-! ## Values in a text -/

section Values

variable {c d : Char} {s : List Char}

theorem expect_space (h : isSpace c = true) : expect d (c :: s) = expect d s := by
  rw [expect, expect, skipSpace, List.dropWhile_cons_of_pos h]
  rfl

theorem skipSpace_cons (h : isSpace c = false) : skipSpace (c :: s) = c :: s :=
  List.dropWhile_cons_of_neg (by simp [h])

theorem expect_self (h : isSpace c = false) : expect c (c :: s) = some s := by
  rw [expect, skipSpace_cons h]
  exact if_pos rfl

theorem expect_ne (h : isSpace c = false) (hne : c ≠ d) : expect d (c :: s) = none := by
  rw [expect, skipSpace_cons h]
  exact if_neg fun heq => hne (Option.some.inj heq)

theorem value_space (h : isSpace c = true) (fuel : Nat) : value fuel (c :: s) = value fuel s := by
  cases fuel with
  | zero => rfl
  | succ fuel =>
      have hskip : skipSpace (c :: s) = skipSpace s := List.dropWhile_cons_of_pos h
      rw [value, value, expect_space h, expect_space h, expect_space h, hskip]

theorem members_space (h : isSpace c = true) (fuel : Nat) :
    members fuel (c :: s) = members fuel s := by
  cases fuel with
  | zero => rfl
  | succ fuel => rw [members, members, expect_space h]

theorem elements_space (h : isSpace c = true) (fuel : Nat) :
    elements fuel (c :: s) = elements fuel s := by
  cases fuel with
  | zero => rfl
  | succ fuel => rw [elements, elements, value_space h]

theorem members_spaces {w : List Char} (hw : w.all isSpace = true) (fuel : Nat) :
    members fuel (w ++ s) = members fuel s := by
  induction w with
  | nil => rfl
  | cons c w ih =>
      rw [List.all_cons, Bool.and_eq_true] at hw
      rw [List.cons_append, members_space hw.1, ih hw.2]

theorem value_spaces {w : List Char} (hw : w.all isSpace = true) (fuel : Nat) :
    value fuel (w ++ s) = value fuel s := by
  induction w with
  | nil => rfl
  | cons c w ih =>
      rw [List.all_cons, Bool.and_eq_true] at hw
      rw [List.cons_append, value_space hw.1, ih hw.2]

theorem expect_spaces {w : List Char} (hw : w.all isSpace = true) :
    expect d (w ++ s) = expect d s := by
  induction w with
  | nil => rfl
  | cons c w ih =>
      rw [List.all_cons, Bool.and_eq_true] at hw
      rw [List.cons_append, expect_space hw.1, ih hw.2]

theorem value_string (fuel : Nat) (s : List Char) :
    value (fuel + 1) ('"' :: s) = (scanString s).map fun p => (.string p.1, p.2) := by
  rw [value, expect_self (by decide)]

theorem value_object (h : expect '\x7d' s = none) (fuel : Nat) :
    value (fuel + 1) ('\x7b' :: s) = (members fuel s).map fun p => (.object p.1, p.2) := by
  rw [value, expect_ne (by decide) (by decide), expect_self (by decide)]
  simp only [h]

theorem value_array (h : expect ']' s = none) (fuel : Nat) :
    value (fuel + 1) ('[' :: s) = (elements fuel s).map fun p => (.array p.1, p.2) := by
  rw [value, expect_ne (by decide) (by decide), expect_ne (by decide) (by decide),
    expect_self (by decide)]
  simp only [h]

theorem value_array_nil {r : List Char} (h : expect ']' s = some r) (fuel : Nat) :
    value (fuel + 1) ('[' :: s) = some (.array [], r) := by
  rw [value, expect_ne (by decide) (by decide), expect_ne (by decide) (by decide),
    expect_self (by decide)]
  simp only [h]

/-- What begins like a number is no other value. -/
theorem value_number {rest : List Char} (n : Int) (hrest : Stops numberChar rest) (fuel : Nat) :
    value (fuel + 1) (formatD n ++ rest) = some (.number (formatD n), rest) := by
  obtain ⟨c, t, hformat, hc⟩ : ∃ c t, formatD n = c :: t ∧ (c = '-' ∨ c.isDigit = true) := by
    cases hn : formatD n with
    | nil => exact absurd (List.append_eq_nil_iff.mp hn).2 (decimal_ne_nil _)
    | cons c t => exact ⟨c, t, rfl, mem_formatD (hn ▸ List.mem_cons_self)⟩
  have hother : ∀ d, d ≠ '-' → d.isDigit = false → c ≠ d := by
    rintro d hd hdigit rfl
    rcases hc with hc | hc
    · exact hd hc
    · rw [hdigit] at hc
      cases hc
  have hspace : isSpace c = false := by
    simp [isSpace, hother ' ' (by decide) (by decide), hother '\t' (by decide) (by decide),
      hother '\n' (by decide) (by decide), hother '\r' (by decide) (by decide)]
  have hword : ∀ d w, d ≠ '-' → d.isDigit = false → ¬ d :: w <+: c :: (t ++ rest) := by
    intro d w hd hdigit hbegins
    exact hother d hd hdigit (List.cons_prefix_cons.mp hbegins).1.symm
  have htrue : ¬ "true".toList <+: c :: (t ++ rest) := hword 't' _ (by decide) (by decide)
  have hfalse : ¬ "false".toList <+: c :: (t ++ rest) := hword 'f' _ (by decide) (by decide)
  have hnull : ¬ "null".toList <+: c :: (t ++ rest) := hword 'n' _ (by decide) (by decide)
  have hscan := scanNumber_formatD n hrest
  rw [hformat, List.cons_append] at hscan ⊢
  rw [value, expect_ne hspace (hother _ (by decide) (by decide)),
    expect_ne hspace (hother _ (by decide) (by decide)),
    expect_ne hspace (hother _ (by decide) (by decide)), skipSpace_cons hspace]
  simp only
  rw [scanScalar, if_neg htrue, if_neg hfalse, if_neg hnull, hscan]
  rfl

/-! ## Lists of entries -/

section Entries

variable {α : Type} {close : Char} {rest : List Char → Option (List α × List Char)}

theorem after_space (h : isSpace c = true) (a : α) (s : List Char) :
    after close rest a (c :: s) = after close rest a s := by
  rw [after, after, expect_space h, expect_space h]

theorem after_comma (a : α) (s : List Char) :
    after close rest a (',' :: s) = (rest s).map fun p => (a :: p.1, p.2) := by
  rw [after, expect_self (by decide)]

theorem after_close (h : isSpace close = false) (hne : close ≠ ',') (a : α) (s : List Char) :
    after close rest a (close :: s) = some ([a], s) := by
  rw [after, expect_ne h hne, expect_self h]
  rfl

/-- The entry stands first. -/
theorem exists_of_after {a : α} {p : List α × List Char} (h : after close rest a s = some p) :
    ∃ as, p.1 = a :: as := by
  unfold after at h
  split at h
  · obtain ⟨q, -, rfl⟩ := Option.map_eq_some_iff.mp h
    exact ⟨q.1, rfl⟩
  · obtain ⟨q, -, rfl⟩ := Option.map_eq_some_iff.mp h
    exact ⟨[], rfl⟩

end Entries

section Members

variable {key : List Char}

/-- A member is read as its value. -/
theorem members_member (hkey : Plain key) (fuel : Nat) (s : List Char) :
    members (fuel + 1) ('"' :: (key ++ '"' :: ':' :: s)) =
      (value fuel s).bind fun v => after '\x7d' (members fuel) (key, v.1) v.2 := by
  rw [members, expect_self (by decide)]
  simp only [Option.bind_eq_bind, Option.bind_some, scanString_plain hkey]
  rw [expect_self (by decide), Option.bind_some]

theorem members_number {rest : List Char} (hkey : Plain key) (n : Int)
    (hrest : Stops numberChar rest) (fuel : Nat) :
    members (fuel + 2) ('"' :: (key ++ '"' :: ':' :: (formatD n ++ rest))) =
      after '\x7d' (members (fuel + 1)) (key, .number (formatD n)) rest := by
  rw [members_member hkey, value_number n hrest, Option.bind_some]

theorem members_string (hkey : Plain key) (fuel : Nat) (s : List Char) :
    members (fuel + 2) ('"' :: (key ++ '"' :: ':' :: '"' :: s)) =
      (scanString s).bind fun p => after '\x7d' (members (fuel + 1)) (key, .string p.1) p.2 := by
  rw [members_member hkey, value_string, Option.bind_map]
  rfl

/-- **A text that is read as the value of its key is plain.** -/
theorem plain_of_members {w rest : List Char} {ms : List (List Char × Value)} {t : List Char}
    (hkey : Plain key) (hrest : EndsPlainly rest) {fuel : Nat}
    (h : members (fuel + 2) ('"' :: (key ++ '"' :: ':' :: '"' :: (w ++ '"' :: rest))) = some (ms, t))
    (hw : (Value.object ms).get? key = some (.string w)) :
    Plain w ∧ after '\x7d' (members (fuel + 1)) (key, .string w) rest = some (ms, t) := by
  rw [members_string hkey] at h
  obtain ⟨⟨v, r⟩, hscan, hafter⟩ := Option.bind_eq_some_iff.mp h
  obtain ⟨as, rfl⟩ : ∃ as, ms = (key, .string v) :: as := exists_of_after hafter
  rw [Value.get?_cons_self] at hw
  obtain rfl : v = w := Value.string.inj (Option.some.inj hw)
  obtain ⟨hplain, rfl⟩ := scanString_exact hrest hscan
  exact ⟨hplain, hafter⟩

end Members

end Values

end Json
