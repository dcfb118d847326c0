import MiuiserPeruser.Burned.Results
import MiuiserPeruser.Lib.Json

/-!
# json_escape and its copies (`burned.c`, `ratkingd.c`, `leatherheadd.c`)

Three daemons have a `json_escape` of their own. What it prints can stand
between the quotes of a JSON string, whatever the input and the buffer, and is
read back as the beginning of the input that fits, without the control
characters that have no escape of two bytes (`valid_body`). The copies print
the same.
-/

namespace MiuiserPeruser.Ratking

/-- The loop of `json_escape` in `ratkingd.c`. -/
def jsonEscapeFrom (outSize : Nat) : Nat → List Char → List Char
  | _, [] => []
  | j, c :: cs =>
      if c ≠ '\x00' ∧ j + 1 < outSize then
        if c = '"' ∨ c = '\\' then
          if j + 2 ≥ outSize then [] else '\\' :: c :: jsonEscapeFrom outSize (j + 2) cs
        else if c = '\n' then
          if j + 2 ≥ outSize then [] else '\\' :: 'n' :: jsonEscapeFrom outSize (j + 2) cs
        else if c = '\r' then
          if j + 2 ≥ outSize then [] else '\\' :: 'r' :: jsonEscapeFrom outSize (j + 2) cs
        else if c = '\t' then
          if j + 2 ≥ outSize then [] else '\\' :: 't' :: jsonEscapeFrom outSize (j + 2) cs
        else if c.toNat < 0x20 then jsonEscapeFrom outSize j cs
        else c :: jsonEscapeFrom outSize (j + 1) cs
      else []

def jsonEscape (outSize : Nat) (s : List Char) : List Char := jsonEscapeFrom outSize 0 s

end MiuiserPeruser.Ratking

namespace MiuiserPeruser.Leatherhead

/-- The loop of `json_escape` in `leatherheadd.c`. -/
def jsonEscapeFrom (outSize : Nat) : Nat → List Char → List Char
  | _, [] => []
  | j, c :: cs =>
      if c ≠ '\x00' ∧ j + 1 < outSize then
        if c = '"' ∨ c = '\\' then
          if j + 2 ≥ outSize then [] else '\\' :: c :: jsonEscapeFrom outSize (j + 2) cs
        else if c = '\n' then
          if j + 2 ≥ outSize then [] else '\\' :: 'n' :: jsonEscapeFrom outSize (j + 2) cs
        else if c = '\r' then
          if j + 2 ≥ outSize then [] else '\\' :: 'r' :: jsonEscapeFrom outSize (j + 2) cs
        else if c = '\t' then
          if j + 2 ≥ outSize then [] else '\\' :: 't' :: jsonEscapeFrom outSize (j + 2) cs
        else if c.toNat < 0x20 then jsonEscapeFrom outSize j cs
        else c :: jsonEscapeFrom outSize (j + 1) cs
      else []

def jsonEscape (outSize : Nat) (s : List Char) : List Char := jsonEscapeFrom outSize 0 s

end MiuiserPeruser.Leatherhead

namespace MiuiserPeruser.Burned

open CText Json

/-- A character that is printed, as itself or escaped. -/
def Printed (c : Char) : Prop := 0x20 ≤ c.toNat ∨ c = '\n' ∨ c = '\r' ∨ c = '\t'

instance (c : Char) : Decidable (Printed c) := inferInstanceAs (Decidable (_ ∨ _))

/-- An input without the characters that are dropped. -/
def printed (s : List Char) : List Char := s.filter (Printed ·)

/-- The text `out` is the body of a JSON string that stands for `s`. -/
def BodyOf (s out : List Char) : Prop := ∀ rest, scanString (out ++ '"' :: rest) = some (s, rest)

/-- What is promised of an output buffer of `outSize` bytes: the text and its
NUL fit, the text is the body of a string that begins as the input does, and
it stands for all of it if the whole escaped text fits. -/
structure ValidBody (outSize : Nat) (s out : List Char) : Prop where
  terminated : out.length < outSize
  noControl : ∀ c ∈ out, 0x20 ≤ c.toNat
  decoded : ∃ d, BodyOf d out ∧ d <+: printed (cstr s)
  complete : ((cstr s).flatMap escapeChar).length ≤ outSize - 1 → BodyOf (printed (cstr s)) out

section Body

variable {c : Char} {s : List Char}

/-- The escape of a character is read as the character, -/
theorem scanString_escapeChar (hc : Printed c) (s : List Char) :
    scanString (escapeChar c ++ s) = (scanString s).map fun p => (c :: p.1, p.2) := by
  by_cases hspecial : c = '"' ∨ c = '\\'
  · rw [escapeChar, if_pos hspecial]
    rcases hspecial with rfl | rfl
    · exact scanString_escape (by decide) s
    · exact scanString_escape (by decide) s
  by_cases hn : c = '\n'
  · subst hn
    exact scanString_escape (by decide) s
  by_cases hr : c = '\r'
  · subst hr
    exact scanString_escape (by decide) s
  by_cases ht : c = '\t'
  · subst ht
    exact scanString_escape (by decide) s
  obtain ⟨hquote, hslash⟩ := not_or.mp hspecial
  have hlow : 0x20 ≤ c.toNat := by
    rcases hc with hc | hc | hc | hc
    · exact hc
    · exact absurd hc hn
    · exact absurd hc hr
    · exact absurd hc ht
  rw [escapeChar_of_plain ⟨hquote, hslash, hlow⟩]
  exact scanString_char ⟨hquote, hslash, hlow⟩ s

/-- and the others have none. -/
theorem escapeChar_of_not_printed (hc : ¬ Printed c) : escapeChar c = [] := by
  obtain ⟨hlow, hn, hr, ht⟩ : ¬ 0x20 ≤ c.toNat ∧ c ≠ '\n' ∧ c ≠ '\r' ∧ c ≠ '\t' := by
    simpa [Printed] using hc
  have hspecial : ¬ (c = '"' ∨ c = '\\') := by
    rintro (rfl | rfl)
    · exact hlow (by decide)
    · exact hlow (by decide)
  rw [escapeChar, if_neg hspecial, if_neg hn, if_neg hr, if_neg ht, if_pos (by omega)]

theorem printed_cons (hc : Printed c) (s : List Char) : printed (c :: s) = c :: printed s :=
  List.filter_cons_of_pos (decide_eq_true hc)

theorem printed_cons_of_not (hc : ¬ Printed c) (s : List Char) : printed (c :: s) = printed s :=
  List.filter_cons_of_neg (by rwa [decide_eq_true_eq])

theorem length_escapeChar_pos (hc : Printed c) : 0 < (escapeChar c).length := by
  apply List.length_pos_iff.mpr
  intro hnil
  have hread := scanString_escapeChar hc ['"']
  rw [hnil, List.nil_append, scanString_quote] at hread
  exact absurd hread (by simp)

/-- Escapes are the body of a string. -/
theorem bodyOf_flatMap (s : List Char) : BodyOf (printed s) (s.flatMap escapeChar) := by
  intro rest
  induction s with
  | nil => exact scanString_quote rest
  | cons c s ih =>
      rw [List.flatMap_cons, List.append_assoc]
      by_cases hc : Printed c
      · rw [scanString_escapeChar hc, ih, printed_cons hc]
        rfl
      · rw [escapeChar_of_not_printed hc, List.nil_append, ih, printed_cons_of_not hc]

theorem low_escapeChar {d : Char} (hd : d ∈ escapeChar c) : 0x20 ≤ d.toNat := by
  have hletters : ∀ e ∈ ['\\', '"', 'n', 'r', 't'], 0x20 ≤ e.toNat := forall_mem_of_all (by decide)
  unfold escapeChar at hd
  grind

theorem fitting_prefix (room : Nat) (s : List Char) : fitting room s <+: cstr s := by
  induction s generalizing room with
  | nil => exact List.nil_prefix
  | cons c s ih =>
      rw [fitting]
      split
      · next h =>
          rw [cstr, List.takeWhile_cons_of_pos (by simpa using h.1)]
          exact List.cons_prefix_cons.mpr ⟨rfl, ih _⟩
      · exact List.nil_prefix

theorem length_flatMap_fitting_le (room : Nat) (s : List Char) :
    ((fitting room s).flatMap escapeChar).length ≤ room := by
  induction s generalizing room with
  | nil => exact Nat.zero_le _
  | cons c s ih =>
      rw [fitting]
      split
      · next h =>
          have hrest := ih (room - (escapeChar c).length)
          rw [List.flatMap_cons, List.length_append]
          omega
      · exact Nat.zero_le _

/-- If all escapes fit, only characters without one are left out. -/
theorem printed_fitting {room : Nat} (h : ((cstr s).flatMap escapeChar).length ≤ room) :
    printed (fitting room s) = printed (cstr s) := by
  induction s generalizing room with
  | nil => rfl
  | cons c s ih =>
      by_cases hnul : c = '\x00'
      · subst hnul
        rfl
      have hcstr : cstr (c :: s) = c :: cstr s := List.takeWhile_cons_of_pos (by simpa using hnul)
      rw [hcstr] at h ⊢
      rw [List.flatMap_cons, List.length_append] at h
      by_cases hroom : 0 < room
      · have hrest : ((cstr s).flatMap escapeChar).length ≤ room - (escapeChar c).length := by omega
        rw [fitting, if_pos ⟨hnul, hroom, by omega⟩]
        by_cases hc : Printed c
        · rw [printed_cons hc, printed_cons hc, ih hrest]
        · rw [printed_cons_of_not hc, printed_cons_of_not hc, ih hrest]
      · -- Without room nothing more is printed.
        have hnone : ∀ d ∈ c :: cstr s, ¬ Printed d := by
          intro d hd hprinted
          have hpos := length_escapeChar_pos hprinted
          have hle : (escapeChar d).length ≤ ((c :: cstr s).flatMap escapeChar).length :=
            (List.sublist_flatten_of_mem (List.mem_map_of_mem hd)).length_le
          rw [List.flatMap_cons, List.length_append] at hle
          omega
        rw [fitting, if_neg fun h => hroom h.2.1]
        exact (List.filter_eq_nil_iff.mpr fun d hd => by simpa using hnone d hd).symm

end Body

/-- The copies have the same text. -/
theorem jsonEscapeFrom_copies (outSize j : Nat) (s : List Char) :
    Ratking.jsonEscapeFrom outSize j s = jsonEscapeFrom outSize j s ∧
      Leatherhead.jsonEscapeFrom outSize j s = jsonEscapeFrom outSize j s := by
  induction s generalizing j with
  | nil => exact ⟨rfl, rfl⟩
  | cons c s ih =>
      obtain ⟨hr, hl⟩ := forall_and.mp ih
      rw [Ratking.jsonEscapeFrom, Leatherhead.jsonEscapeFrom, jsonEscapeFrom]
      simp only [hr, hl, and_self]

theorem validBody_jsonEscape (n : Nat) (s : List Char) :
    ValidBody (n + 1) s (jsonEscape (n + 1) s) := by
  rw [jsonEscape_eq, Nat.add_sub_cancel]
  constructor
  case terminated => exact Nat.lt_succ_of_le (length_flatMap_fitting_le n s)
  case noControl =>
    intro d hd
    obtain ⟨c, -, hc⟩ := List.mem_flatMap.mp hd
    exact low_escapeChar hc
  case decoded =>
    have hkept := fitting_prefix n s
    exact ⟨printed (fitting n s), bodyOf_flatMap (fitting n s), hkept.filter _⟩
  case complete =>
    intro hfits
    rw [← printed_fitting hfits]
    exact bodyOf_flatMap (fitting n s)

/-- **What `json_escape` prints is the body of a JSON string, and the three copies agree.** -/
theorem valid_body (n : Nat) (s : List Char) :
    ValidBody (n + 1) s (jsonEscape (n + 1) s) ∧
      ∀ outSize, Ratking.jsonEscape outSize s = jsonEscape outSize s ∧
        Leatherhead.jsonEscape outSize s = jsonEscape outSize s :=
  ⟨validBody_jsonEscape n s, fun outSize => jsonEscapeFrom_copies outSize 0 s⟩

end MiuiserPeruser.Burned
