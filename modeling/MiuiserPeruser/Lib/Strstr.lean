import MiuiserPeruser.Lib.CText

/-!
# strstr

The first occurrence of a word in a text, as the rest of the text from
there on. What its users rely on: a word without newline is not found
across the end of a line (`strstr_append_of_last`), so a text that is put
together from whole lines can be searched piece by piece. Between other
pieces it may be found where it overlaps itself (`prefix_append_overlap`).
-/

namespace CText

section Strstr

variable {α : Type} [DecidableEq α] {needle a b s : List α}

/-- `strstr(haystack, needle)`. -/
def strstr (needle : List α) : List α → Option (List α)
  | [] => if needle = [] then some [] else none
  | c :: cs => if needle <+: c :: cs then some (c :: cs) else strstr needle cs

theorem strstr_of_prefix (h : needle <+: s) : strstr needle s = some s := by
  cases s with
  | nil => exact if_pos (List.prefix_nil.mp h)
  | cons c s => exact if_pos h

theorem strstr_suffix {e : List α} (h : strstr needle s = some e) : e <:+ s := by
  induction s with
  | nil =>
      rw [strstr] at h
      split at h
      · exact (Option.some.inj h) ▸ List.suffix_refl []
      · cases h
  | cons c s ih =>
      rw [strstr] at h
      split at h
      · exact (Option.some.inj h) ▸ List.suffix_refl _
      · exact (ih h).trans (List.suffix_cons c s)

/-- What is found begins with the word. -/
theorem strstr_prefix {e : List α} (h : strstr needle s = some e) : needle <+: e := by
  induction s with
  | nil =>
      rw [strstr] at h
      split at h
      · next hnil =>
          rw [hnil]
          exact List.nil_prefix
      · cases h
  | cons c s ih =>
      rw [strstr] at h
      split at h
      · next hprefix => exact (Option.some.inj h) ▸ hprefix
      · exact ih h

/-- Nothing is found in a text that does not hold the word. -/
theorem strstr_eq_none_iff : strstr needle s = none ↔ ¬ needle <:+: s := by
  induction s with
  | nil => simp [strstr]
  | cons c s ih =>
      rw [strstr, List.infix_cons_iff]
      split
      · rename_i h
        simp [h]
      · rename_i h
        simp [h, ih]

/-- What is found in the beginning of a text is found in the text. -/
theorem strstr_append_found {e : List α} (h : strstr needle a = some e) (b : List α) :
    strstr needle (a ++ b) = some (e ++ b) := by
  induction a with
  | nil =>
      rw [strstr] at h
      split at h
      · next hnil =>
          obtain rfl := Option.some.inj h
          rw [hnil]
          exact strstr_of_prefix List.nil_prefix
      · cases h
  | cons c a ih =>
      rw [strstr] at h
      split at h
      · next hbegins =>
          obtain rfl := Option.some.inj h
          exact strstr_of_prefix (hbegins.trans (List.prefix_append _ b))
      · next hno =>
          by_cases hacross : needle <+: c :: (a ++ b)
          · -- the word is there in `a`, so it is short enough for the front
            have hin : needle.length ≤ (c :: a).length := by
              have hbegins := strstr_prefix h
              have hlen := hbegins.length_le.trans (strstr_suffix h).length_le
              rw [List.length_cons]
              omega
            exact absurd (List.prefix_of_prefix_length_le hacross (List.prefix_append (c :: a) b) hin) hno
          · rw [List.cons_append, strstr, if_neg hacross]
            exact ih h

/-- Where the word does not begin, the search goes on. -/
theorem strstr_append (h : ∀ x y, a = x ++ y → y ≠ [] → ¬ needle <+: y ++ b) :
    strstr needle (a ++ b) = strstr needle b := by
  induction a with
  | nil => rfl
  | cons c a ih =>
      have hhead : ¬ needle <+: c :: (a ++ b) := h [] (c :: a) rfl (List.cons_ne_nil c a)
      rw [List.cons_append, strstr, if_neg hhead]
      exact ih fun x y hxy hy => h (c :: x) y (by rw [hxy]; rfl) hy

/-- A word does not begin where its first letter is missing. -/
theorem strstr_append_of_head {d : α} (hd : needle.head? = some d) (ha : d ∉ a) :
    strstr needle (a ++ b) = strstr needle b := by
  apply strstr_append
  rintro x y rfl hy hprefix
  obtain ⟨c, y, rfl⟩ := List.exists_cons_of_ne_nil hy
  cases needle with
  | nil => cases hd
  | cons e needle =>
      obtain rfl : e = d := Option.some.inj hd
      obtain rfl : e = c := (List.cons_prefix_cons.mp hprefix).1
      exact ha (by simp)

/-- Nor where its first two letters do not follow each other. -/
theorem strstr_append_of_pair {c d : α} (hpair : [c, d] <+: needle) (ha : ¬ [c, d] <:+: a)
    (hlast : a.getLast? ≠ some c) : strstr needle (a ++ b) = strstr needle b := by
  apply strstr_append
  rintro x y rfl hy hprefix
  have hbegins : [c, d] <+: y ++ b := hpair.trans hprefix
  obtain ⟨e, y, rfl⟩ := List.exists_cons_of_ne_nil hy
  obtain ⟨rfl, hrest⟩ := List.cons_prefix_cons.mp hbegins
  cases y with
  | nil => exact hlast List.getLast?_concat
  | cons e y =>
      obtain ⟨rfl, -⟩ := List.cons_prefix_cons.mp hrest
      exact ha ⟨x, y, by simp⟩

/-- A word that is not in the first part, and has no letter the first part
ends with, is not found across its end. -/
theorem strstr_append_of_last {d : α} (hd : d ∉ needle) (hlast : a = [] ∨ a.getLast? = some d)
    (h : ¬ needle <:+: a) : strstr needle (a ++ b) = strstr needle b := by
  apply strstr_append
  rintro x y rfl hy hprefix
  -- the word ends before the last letter, or covers it
  by_cases hlen : needle.length ≤ y.length
  · have hin : needle <+: y := List.prefix_of_prefix_length_le hprefix (List.prefix_append y b) hlen
    exact h (List.infix_append_of_infix_right hin.isInfix)
  · have hcover : y <+: needle :=
      List.prefix_of_prefix_length_le (List.prefix_append y b) hprefix (by omega)
    have hmem : d ∈ y := by
      rcases hlast with hnil | hlast
      · exact absurd (List.append_eq_nil_iff.mp hnil).2 hy
      · rw [List.getLast?_append_of_ne_nil _ hy] at hlast
        exact List.mem_of_getLast? hlast
    exact hd (hcover.subset hmem)

/-- The search in the beginning of a text finds what it finds in the whole
text, as far as the word is still there. -/
theorem strstr_take {front e : List α} (h : strstr needle (front ++ e) = some e) (hne : needle ≠ [])
    (n : Nat) : strstr needle ((front ++ e).take n) =
      if front.length + needle.length ≤ n then some (e.take (n - front.length)) else none := by
  have hbegins : needle <+: e := strstr_prefix h
  induction front generalizing n with
  | nil =>
      rw [List.nil_append, List.length_nil, Nat.zero_add, Nat.sub_zero]
      split
      · next hn => exact strstr_of_prefix (List.prefix_take_iff.mpr ⟨hbegins, hn⟩)
      · next hn =>
          rw [strstr_eq_none_iff]
          intro hinfix
          have hle := hinfix.length_le
          rw [List.length_take] at hle
          omega
  | cons c front ih =>
      have hskip : ¬ needle <+: c :: (front ++ e) ∧ strstr needle (front ++ e) = some e := by
        rw [List.cons_append, strstr] at h
        split at h
        · have hlen := congrArg List.length (Option.some.inj h)
          rw [List.length_cons, List.length_append] at hlen
          omega
        · next hno => exact ⟨hno, h⟩
      cases n with
      | zero =>
          rw [List.take_zero, if_neg (by rw [List.length_cons]; omega), strstr, if_neg hne]
      | succ n =>
          have hno : ¬ needle <+: c :: (front ++ e).take n := by
            intro hcut
            exact hskip.1 (hcut.trans (List.cons_prefix_cons.mpr ⟨rfl, List.take_prefix n _⟩))
          rw [List.cons_append, List.take_succ_cons, strstr, if_neg hno, ih hskip.2, List.length_cons]
          have hiff : front.length + 1 + needle.length ≤ n + 1 ↔ front.length + needle.length ≤ n := by
            omega
          rw [Nat.add_sub_add_right]
          exact if_congr hiff.symm rfl rfl

/-- Where the word stands, it is found, there or before. -/
theorem strstr_found (h : needle <+: b) (a : List α) :
    ∃ e, strstr needle (a ++ b) = some e ∧ b.length ≤ e.length := by
  induction a with
  | nil => exact ⟨b, strstr_of_prefix h, Nat.le_refl _⟩
  | cons c a ih =>
      rw [List.cons_append, strstr]
      split
      · refine ⟨_, rfl, ?_⟩
        rw [List.length_cons, List.length_append]
        omega
      · exact ih

/-- What is found is not behind the end of a place where the word stands. -/
theorem strstr_found_before (hne : needle ≠ []) (a b : List α) :
    ∃ e, strstr needle (a ++ (needle ++ b)) = some e ∧ b <:+ e.tail := by
  obtain ⟨e, he, hle⟩ := strstr_found (List.prefix_append needle b) a
  have hb : b <:+ a ++ (needle ++ b) :=
    (List.suffix_append needle b).trans (List.suffix_append a _)
  have htail : e.tail <:+ a ++ (needle ++ b) := (List.tail_suffix e).trans (strstr_suffix he)
  have hpos : 0 < needle.length := List.length_pos_iff.mpr hne
  rw [List.length_append] at hle
  exact ⟨e, he, List.suffix_of_suffix_length_le hb htail (by rw [List.length_tail]; omega)⟩

end Strstr

section Overlap

variable {α : Type} {b x t r y z : List α} {d : α}

/-! ## Words that overlap themselves

A word can begin in one part of a text and end in the next. Where the next
part begins with the word too, its end is a beginning of the word. -/

/-- A word with a letter that does not come again overlaps itself only
before that letter. -/
theorem border_le (hd : d ∉ t) (hbegin : z <+: x ++ d :: t)
    (hend : z <:+ x ++ d :: t) (hne : z ≠ x ++ d :: t) : z.length ≤ x.length := by
  by_contra hlong
  obtain ⟨u, hu⟩ := hend
  have hunil : u ≠ [] := by
    rintro rfl
    exact hne hu
  -- the letter stands in the beginning, and once more further on
  have hletter : x ++ [d] <+: z := by
    refine List.prefix_of_prefix_length_le ?_ hbegin ?_
    · exact ⟨t, by rw [List.append_assoc, List.singleton_append]⟩
    · rw [List.length_append, List.length_singleton]
      omega
  obtain ⟨v, rfl⟩ := hletter
  have hlength := congrArg List.length hu
  simp only [List.length_append, List.length_cons, List.length_nil] at hlength
  have hupos := List.length_pos_iff.mpr hunil
  have hagain : (u ++ (x ++ [d] ++ v))[u.length + x.length]? = some d := by
    rw [List.getElem?_append_right (by omega), List.append_assoc,
      List.getElem?_append_right (by omega)]
    simp
  rw [hu, List.getElem?_append_right (by omega)] at hagain
  obtain ⟨n, hn⟩ := Nat.exists_eq_add_of_lt hupos
  have hindex : u.length + x.length - x.length = n + 1 := by omega
  rw [hindex, List.getElem?_cons_succ] at hagain
  exact hd (List.mem_of_getElem? hagain)

/-- Such a word is not found across the end of a part, unless the part ends
in nearly all of it. -/
theorem prefix_append_overlap (hd : d ∉ t) (hy : y ≠ [])
    (hb : b <+: x ++ d :: t ++ r) (h : x ++ d :: t <+: y ++ b) :
    x ++ d :: t <+: y ∨ ∃ z, x ++ d :: t = y ++ z ∧ z.length ≤ x.length := by
  by_cases hlen : (x ++ d :: t).length ≤ y.length
  · exact .inl (List.prefix_of_prefix_length_le h (List.prefix_append y b) hlen)
  · have hcover : y <+: x ++ d :: t :=
      List.prefix_of_prefix_length_le (List.prefix_append y b) h (by omega)
    obtain ⟨z, hz⟩ := hcover
    refine .inr ⟨z, hz.symm, border_le hd ?_ ⟨y, hz⟩ ?_⟩
    · have hzb : z <+: x ++ d :: t ++ r := by
        rw [← hz, List.prefix_append_right_inj] at h
        exact h.trans hb
      refine List.prefix_of_prefix_length_le hzb (List.prefix_append _ r) ?_
      rw [← hz, List.length_append]
      omega
    · rintro rfl
      have hlength := congrArg List.length hz
      rw [List.length_append] at hlength
      have := List.length_pos_iff.mpr hy
      omega

/-- A word whose first letter does not come again is found where it stands
first. -/
theorem strstr_append_word [DecidableEq α] {a : List α} (hd : d ∉ t) (ha : ¬ d :: t <:+: a) (r : List α) :
    strstr (d :: t) (a ++ (d :: t ++ r)) = some (d :: t ++ r) := by
  have hskip : strstr (d :: t) (a ++ (d :: t ++ r)) = strstr (d :: t) (d :: t ++ r) := by
    apply strstr_append
    rintro u y rfl hy hprefix
    have hinfix : ¬ d :: t <+: y := fun hy => ha (List.infix_append_of_infix_right hy.isInfix)
    have hb : d :: t ++ r <+: [] ++ d :: t ++ r := List.prefix_rfl
    rcases prefix_append_overlap hd hy hb hprefix with hy' | ⟨z, hz, hlen⟩
    · exact hinfix hy'
    · obtain rfl := List.eq_nil_of_length_eq_zero (Nat.le_zero.mp hlen)
      rw [List.append_nil] at hz
      exact hinfix (hz ▸ List.prefix_rfl)
  rw [hskip]
  exact strstr_of_prefix (List.prefix_append _ r)

end Overlap

end CText
