import MiuiserPeruser.Lib.CInt
import MiuiserPeruser.Lib.Quoted

/-!
# Lines of a printed document

A document that is printed line by line, as `key` and value, is a list of
pieces: text without quotes, and text in quotes with what stands behind it.
The search for a key with its quotes and its colon passes over every piece
but that of the key (`strstr_render`), whatever the texts in quotes say.
-/

namespace Lines

open CText

inductive Piece where
  /-- Text without quotes. -/
  | plain (t : List Char)
  /-- A text in quotes, and what follows it. -/
  | quoted (s t : List Char)

def Piece.text : Piece → List Char
  | .plain t => t
  | .quoted s t => '"' :: (s ++ '"' :: t)

def render (ps : List Piece) : List Char := ps.flatMap Piece.text

/-- `"key": value`. -/
def member (indent key : String) (value : List Char) (tail : String) : List Piece :=
  [.plain indent.toList, .quoted key.toList (':' :: ' ' :: (value ++ tail.toList))]

/-- `"key": "value"`. -/
def memberStr (indent key : String) (value : List Char) (tail : String) : List Piece :=
  [.plain indent.toList, .quoted key.toList [':', ' '], .quoted value tail.toList]

/-- `"value"`. -/
def item (indent : String) (value : List Char) (tail : String) : List Piece :=
  [.plain indent.toList, .quoted value tail.toList]

def boolText (b : Bool) : List Char := if b then "true".toList else "false".toList

/-- The comma between two entries. -/
def comma (last : Bool) : List Char := if last then [] else [',']

/-- The entries of an array; the last one is told that it is. -/
def entries {α : Type} (f : α → Bool → List Piece) : List α → List Piece
  | [] => []
  | [a] => f a true
  | a :: b :: as => f a false ++ entries f (b :: as)

@[simp] theorem render_nil : render [] = [] := rfl

@[simp] theorem render_append (ps qs : List Piece) : render (ps ++ qs) = render ps ++ render qs :=
  List.flatMap_append

theorem render_cons (p : Piece) (ps : List Piece) : render (p :: ps) = p.text ++ render ps := rfl

/-! ## Lengths -/

theorem length_boolText_true : (boolText true).length = 4 := rfl

theorem length_boolText_false : (boolText false).length = 5 := rfl

theorem length_comma (last : Bool) : (comma last).length = if last then 0 else 1 := by
  cases last <;> rfl

section Length

variable (indent key : String) (value : List Char) (tail : String)

theorem length_member : (render (member indent key value tail)).length =
    indent.toList.length + key.toList.length + value.length + tail.toList.length + 4 := by
  simp only [member, render, Piece.text, List.flatMap_cons, List.flatMap_nil, List.length_append,
    List.length_cons, List.length_nil]
  omega

theorem length_memberStr : (render (memberStr indent key value tail)).length =
    indent.toList.length + key.toList.length + value.length + tail.toList.length + 6 := by
  simp only [memberStr, render, Piece.text, List.flatMap_cons, List.flatMap_nil, List.length_append,
    List.length_cons, List.length_nil]
  omega

theorem length_item : (render (item indent value tail)).length =
    indent.toList.length + value.length + tail.toList.length + 2 := by
  simp only [item, render, Piece.text, List.flatMap_cons, List.flatMap_nil, List.length_append,
    List.length_cons, List.length_nil]
  omega

/-- One comma less than entries. -/
theorem length_entries {α : Type} {f : α → Bool → List Piece} {len : α → Nat} {as : List α}
    (h : ∀ a last, (render (f a last)).length = len a + if last then 0 else 1) :
    (render (entries f as)).length = (as.map len).sum + (as.length - 1) := by
  induction as with
  | nil => rfl
  | cons a as ih =>
      cases as with
      | nil => simp [entries, h]
      | cons b as =>
          rw [entries, render_append, List.length_append, h, ih]
          simp only [List.map_cons, List.sum_cons, List.length_cons, Bool.false_eq_true, if_false]
          omega

end Length

/-! ## Searching for a key -/

/-- The text that is searched for. -/
def keyNeedle (key : List Char) : List Char := '"' :: (key ++ ['"', ':'])

/-- A key can be searched for if it has none of the characters that are special in a string. -/
def SearchKey (key : List Char) : Prop := key ≠ [] ∧ '"' ∉ key ∧ '\\' ∉ key ∧ '\x00' ∉ key

instance (key : List Char) : Decidable (SearchKey key) := inferInstanceAs (Decidable (_ ∧ _))

/-- Neither a quote nor the end of a string is in the text. -/
def PlainText (t : List Char) : Prop := '"' ∉ t ∧ '\x00' ∉ t

instance (t : List Char) : Decidable (PlainText t) := inferInstanceAs (Decidable (_ ∧ _))

/-- Each quote in the text follows a backslash. -/
def QuotesEscaped (s : List Char) : Prop := ∀ x y, s = x ++ '"' :: y → x.getLast? = some '\\'

theorem quotesEscaped_of_notMem {s : List Char} (h : '"' ∉ s) : QuotesEscaped s := by
  rintro x y rfl
  exact absurd (by simp) h

theorem QuotesEscaped.append {s t : List Char} (hs : QuotesEscaped s) (ht : QuotesEscaped t) :
    QuotesEscaped (s ++ t) := by
  intro x y hxy
  rcases List.append_eq_append_iff.mp hxy with ⟨z, rfl, hz⟩ | ⟨z, rfl, hz⟩
  · have hlast := ht z y hz
    have hne : z ≠ [] := by
      rintro rfl
      cases hlast
    rw [List.getLast?_append_of_ne_nil _ hne, hlast]
  · cases z with
    | nil =>
        rw [List.nil_append] at hz
        have hlast := ht [] y hz.symm
        cases hlast
    | cons c z =>
        obtain rfl : '"' = c := (List.cons.inj hz).1
        exact hs x z rfl

theorem quotesEscaped_flatMap {α : Type} {f : α → List Char} (h : ∀ a, QuotesEscaped (f a))
    (as : List α) : QuotesEscaped (as.flatMap f) := by
  induction as with
  | nil => exact quotesEscaped_of_notMem List.not_mem_nil
  | cons a as ih => exact (h a).append ih

/-- Text that can stand in quotes. -/
def StringText (s : List Char) : Prop := QuotesEscaped s ∧ '\x00' ∉ s

theorem PlainText.string {s : List Char} (h : PlainText s) : StringText s :=
  ⟨quotesEscaped_of_notMem h.1, h.2⟩

/-- The search for a key in a string passes over the piece. -/
def Passed (key : List Char) : Piece → Prop
  | .plain t => PlainText t
  | .quoted s t =>
      StringText s ∧ PlainText t ∧
        ∃ c r, t = c :: r ∧ key.head? ≠ some c ∧ (c = ':' → s ≠ key ∧ '"' ∉ s)

section Search

variable {key s t tail rest : List Char}

/-- In front of a quote that is not escaped a key ends only with the text. -/
theorem eq_of_key_prefix (hkey : SearchKey key) {b r r' : List Char}
    (hb : ∀ x y, b = x ++ '"' :: y → x ≠ [] → x.getLast? = some '\\')
    (h : key ++ '"' :: r <+: b ++ '"' :: r') : b = key ∧ r <+: r' := by
  obtain ⟨hne, hquote, hslash, -⟩ := hkey
  obtain ⟨e, he⟩ := h
  rw [List.append_assoc, List.cons_append, List.append_eq_append_iff] at he
  rcases he with ⟨y, rfl, he⟩ | ⟨y, rfl, he⟩
  · cases y with
    | nil =>
        rw [List.nil_append] at he
        exact ⟨List.append_nil key, ⟨e, (List.cons.inj he).2⟩⟩
    | cons c y =>
        obtain rfl : '"' = c := (List.cons.inj he).1
        exact absurd (List.mem_of_getLast? (hb key y rfl hne)) hslash
  · cases y with
    | nil =>
        rw [List.nil_append] at he
        exact ⟨(List.append_nil b).symm, ⟨e, (List.cons.inj he).2.symm⟩⟩
    | cons c y =>
        obtain rfl : '"' = c := (List.cons.inj he).1
        exact absurd (by simp) hquote

/-- Behind a text in quotes no key begins. -/
theorem not_prefix_behind (hkey : SearchKey key) {c : Char} {r : List Char}
    (hhead : key.head? ≠ some c) : ¬ keyNeedle key ++ tail <+: '"' :: (c :: r ++ rest) := by
  obtain ⟨k, key, rfl⟩ := List.exists_cons_of_ne_nil hkey.1
  rw [keyNeedle, List.cons_append, List.cons_prefix_cons]
  rintro ⟨-, hprefix⟩
  exact hhead (by rw [(List.cons_prefix_cons.mp hprefix).1]; rfl)

/-- Neither the quotes around a text nor those in it begin the key. -/
theorem strstr_quoted_passed (hkey : SearchKey key) (h : Passed key (.quoted s t)) :
    strstr (keyNeedle key ++ tail) ((Piece.quoted s t).text ++ rest) =
      strstr (keyNeedle key ++ tail) rest := by
  obtain ⟨⟨hs, -⟩, ⟨ht, -⟩, c, r, rfl, hhead, hcolon⟩ := h
  have hneedle : keyNeedle key ++ tail = '"' :: (key ++ '"' :: ':' :: tail) := by simp [keyNeedle]
  -- a key that begins in the text or with its quote has the colon behind the text
  have hinside : ∀ b, (∀ x y, b = x ++ '"' :: y → x ≠ [] → x.getLast? = some '\\') →
      (b = key → ':' ≠ c) → ¬ keyNeedle key ++ tail <+: '"' :: (b ++ '"' :: (c :: r ++ rest)) := by
    intro b hb hother hprefix
    rw [hneedle, List.cons_prefix_cons] at hprefix
    obtain ⟨hbkey, hafter⟩ := eq_of_key_prefix hkey hb hprefix.2
    exact hother hbkey (List.cons_prefix_cons.mp hafter).1
  have htext : (Piece.quoted s (c :: r)).text ++ rest =
      ('"' :: s) ++ ('"' :: (c :: r ++ rest)) := by simp [Piece.text]
  rw [htext, strstr_append, strstr, if_neg (not_prefix_behind hkey hhead),
    strstr_append_of_head rfl ht]
  intro x y hxy hy hprefix
  obtain ⟨d, y, rfl⟩ := List.exists_cons_of_ne_nil hy
  obtain rfl : '"' = d := (List.cons_prefix_cons.mp (hneedle ▸ hprefix)).1
  cases x with
  | nil =>
      obtain rfl : s = y := (List.cons.inj hxy).2
      exact hinside s (fun x y hxy _ => hs x y hxy) (fun hkey hc => (hcolon hc.symm).1 hkey) hprefix
  | cons d x =>
      obtain rfl : s = x ++ '"' :: y := (List.cons.inj hxy).2
      apply hinside y ?_ ?_ hprefix
      · rintro u v rfl hu
        have hlast := hs (x ++ '"' :: u) v (by simp)
        rwa [List.getLast?_append_of_ne_nil _ (List.cons_ne_nil _ _), List.getLast?_cons_of_ne_nil hu]
          at hlast
      · intro _ hc
        exact (hcolon hc.symm).2 (by simp)

/-- **The search passes over the pieces in front of the key.** -/
theorem strstr_pieces {ps : List Piece} (hkey : SearchKey key) (h : ∀ p ∈ ps, Passed key p) :
    strstr (keyNeedle key ++ tail) (render ps ++ rest) = strstr (keyNeedle key ++ tail) rest := by
  induction ps with
  | nil => rfl
  | cons p ps ih =>
      have ih := ih fun q hq => h q (List.mem_cons_of_mem p hq)
      have hp := h p List.mem_cons_self
      rw [render_cons, List.append_assoc]
      cases p with
      | plain t => rw [Piece.text, strstr_append_of_head rfl hp.1, ih]
      | quoted s t => rw [strstr_quoted_passed hkey hp, ih]

/-- With nothing asked for behind the colon. -/
theorem strstr_render {ps : List Piece} (hkey : SearchKey key) (h : ∀ p ∈ ps, Passed key p) :
    strstr (keyNeedle key) (render ps ++ rest) = strstr (keyNeedle key) rest := by
  have hpieces : strstr (keyNeedle key ++ []) (render ps ++ rest) = strstr (keyNeedle key ++ []) rest :=
    strstr_pieces hkey h
  rwa [List.append_nil] at hpieces

theorem Passed.nul {p : Piece} (h : Passed key p) : '\x00' ∉ p.text := by
  cases p with
  | plain t => exact h.2
  | quoted s t =>
      obtain ⟨⟨-, hs⟩, ⟨-, ht⟩, -⟩ := h
      simp [Piece.text, hs, ht]

theorem nul_notMem_render {ps : List Piece} (h : ∀ p ∈ ps, '\x00' ∉ p.text) : '\x00' ∉ render ps := by
  intro hmem
  obtain ⟨p, hp, hmem⟩ := List.mem_flatMap.mp hmem
  exact h p hp hmem

/-- The key itself is passed over if the text behind its colon is another one. -/
theorem strstr_own_key (hkey : SearchKey key) (hhead : key.head? ≠ some ':') (ht : '"' ∉ t)
    (hother : ¬ tail <+: t ++ rest) :
    strstr (keyNeedle key ++ tail) ((Piece.quoted key (':' :: t)).text ++ rest) =
      strstr (keyNeedle key ++ tail) rest := by
  have htext : (Piece.quoted key (':' :: t)).text ++ rest =
      '"' :: (key ++ ('"' :: (':' :: t ++ rest))) := by simp [Piece.text]
  have hneedle : keyNeedle key ++ tail = '"' :: (key ++ '"' :: ':' :: tail) := by simp [keyNeedle]
  have hopen : ¬ keyNeedle key ++ tail <+: '"' :: (key ++ ('"' :: (':' :: t ++ rest))) := by
    rw [hneedle, List.cons_prefix_cons, List.prefix_append_right_inj, List.cons_prefix_cons,
      List.cons_append, List.cons_prefix_cons]
    exact fun h => hother h.2.2.2
  have hcolon : '"' ∉ ':' :: t := by simp [ht]
  rw [htext, strstr, if_neg hopen, strstr_append_of_head rfl hkey.2.1, strstr,
    if_neg (not_prefix_behind hkey hhead), strstr_append_of_head rfl hcolon]

end Search

section Reach

/-- The search for a word passes over the pieces. -/
def Skips (needle : List Char) (ps : List Piece) : Prop :=
  ∀ rest, strstr needle (render ps ++ rest) = strstr needle rest

/-- The search for a word stops in the pieces, in front of a text. -/
def Reaches (needle : List Char) (ps : List Piece) (found : List Char) : Prop :=
  ∀ rest, ∃ rest', strstr needle (render ps ++ rest) = some (found ++ rest')

variable {needle found : List Char} {ps qs : List Piece}

theorem skips_of_passed {key tail : List Char} (hkey : SearchKey key) (h : ∀ p ∈ ps, Passed key p) :
    Skips (keyNeedle key ++ tail) ps :=
  fun _ => strstr_pieces hkey h

theorem Skips.append (hp : Skips needle ps) (hq : Skips needle qs) : Skips needle (ps ++ qs) := by
  intro rest
  rw [render_append, List.append_assoc, hp, hq]

theorem Skips.reaches (hp : Skips needle ps) (hq : Reaches needle qs found) :
    Reaches needle (ps ++ qs) found := by
  intro rest
  rw [render_append, List.append_assoc, hp]
  exact hq rest

theorem Reaches.append (hp : Reaches needle ps found) (qs : List Piece) :
    Reaches needle (ps ++ qs) found := by
  intro rest
  rw [render_append, List.append_assoc]
  exact hp _

variable {α : Type} {f : α → Bool → List Piece} {as : List α}

theorem skips_entries (h : ∀ a ∈ as, ∀ last, Skips needle (f a last)) :
    Skips needle (entries f as) := by
  induction as with
  | nil => exact fun _ => rfl
  | cons a as ih =>
      cases as with
      | nil => exact h a List.mem_cons_self true
      | cons b as =>
          exact (h a List.mem_cons_self false).append (ih fun c hc => h c (List.mem_cons_of_mem a hc))

/-- The search stops in the one entry it does not pass over. -/
theorem reaches_entries {a : α} (ha : a ∈ as) (hfound : ∀ last, Reaches needle (f a last) found)
    (hothers : ∀ b ∈ as, b ≠ a → ∀ last, Skips needle (f b last)) :
    Reaches needle (entries f as) found := by
  induction as with
  | nil => cases ha
  | cons b as ih =>
      cases as with
      | nil =>
          rw [← List.mem_singleton.mp ha]
          exact hfound true
      | cons c as =>
          by_cases hb : b = a
          · exact hb ▸ (hfound false).append _
          · have hmem : a ∈ c :: as := List.mem_of_ne_of_mem (Ne.symm hb) ha
            apply (hothers b List.mem_cons_self hb false).reaches
            exact ih hmem fun d hd => hothers d (List.mem_cons_of_mem b hd)

end Reach

section Passed

variable {key : List Char} {indent k tail : String} {value : List Char}

/-- The fixed texts of a line are no obstacle. -/
def Fixed (key : List Char) (indent k tail : String) : Prop :=
  PlainText indent.toList ∧ PlainText k.toList ∧ PlainText tail.toList ∧ k.toList ≠ key ∧
    key.head? ≠ some ':' ∧ tail.toList.head? ≠ none ∧ tail.toList.head? ≠ key.head? ∧
    tail.toList.head? ≠ some ':'

instance (key : List Char) (indent k tail : String) : Decidable (Fixed key indent k tail) :=
  inferInstanceAs (Decidable (_ ∧ _))

theorem passed_plainLine {t : List Char} (h : PlainText t) : ∀ p ∈ [Piece.plain t], Passed key p := by
  intro p hp
  rw [List.mem_singleton.mp hp]
  exact h

theorem passed_member (h : Fixed key indent k tail) (hvalue : PlainText value) :
    ∀ p ∈ member indent k value tail, Passed key p := by
  obtain ⟨hindent, hk, htail, hne, hcolon, -⟩ := h
  simp only [member, List.forall_mem_cons, List.not_mem_nil, false_implies, implies_true, and_true]
  have htext : PlainText (':' :: ' ' :: (value ++ tail.toList)) :=
    ⟨by simp [hvalue.1, htail.1], by simp [hvalue.2, htail.2]⟩
  exact ⟨hindent, hk.string, htext, ':', ' ' :: (value ++ tail.toList), rfl,
    hcolon, fun _ => ⟨hne, hk.1⟩⟩

theorem passed_quoted (h : Fixed key indent k tail) (hvalue : StringText value) :
    Passed key (.quoted value tail.toList) := by
  obtain ⟨-, -, htail, -, -, hsome, hhead, hcolon⟩ := h
  refine ⟨hvalue, htail, ?_⟩
  cases hcs : tail.toList with
  | nil => simp [hcs] at hsome
  | cons c r =>
      rw [hcs] at hhead hcolon
      exact ⟨c, r, rfl, hhead.symm, fun hc => absurd (congrArg some hc) hcolon⟩

theorem passed_memberStr (h : Fixed key indent k tail) (hvalue : StringText value) :
    ∀ p ∈ memberStr indent k value tail, Passed key p := by
  have hquoted := passed_quoted h hvalue
  obtain ⟨hindent, hk, -, hne, hcolon, -⟩ := h
  simp only [memberStr, List.forall_mem_cons, List.not_mem_nil, false_implies, implies_true, and_true]
  exact ⟨hindent, ⟨hk.string, by decide, ':', [' '], rfl, hcolon, fun _ => ⟨hne, hk.1⟩⟩, hquoted⟩

theorem passed_item (h : Fixed key indent k tail) (hvalue : StringText value) :
    ∀ p ∈ item indent value tail, Passed key p := by
  have hquoted := passed_quoted h hvalue
  simp only [item, List.forall_mem_cons, List.not_mem_nil, false_implies, implies_true, and_true]
  exact ⟨h.1, hquoted⟩

theorem forall_mem_entries {α : Type} {f : α → Bool → List Piece} {as : List α} {P : Piece → Prop}
    (h : ∀ a ∈ as, ∀ last, ∀ p ∈ f a last, P p) : ∀ p ∈ entries f as, P p := by
  induction as with
  | nil =>
      intro p hp
      cases hp
  | cons a as ih =>
      cases as with
      | nil => exact h a List.mem_cons_self true
      | cons b as =>
          intro p hp
          rcases List.mem_append.mp hp with hp | hp
          · exact h a List.mem_cons_self false p hp
          · exact ih (fun c hc => h c (List.mem_cons_of_mem a hc)) p hp

end Passed

end Lines
