import MiuiserPeruser.Lib.Strstr

/-!
# Searching a text by its quotes

A text as the list of its pieces between quotes. A key that is searched for
with its quotes is found where it is a piece of its own and the text behind
it goes on as asked (`strstr_quoted`), whatever stands in the other pieces.
So it is read off the list of pieces where `strstr` arrives.
-/

namespace CText

section Quoted

variable {α : Type}

/-- The pieces with a quote between each two. -/
def joinQuotes (quote : α) : List (List α) → List α
  | [] => []
  | [p] => p
  | p :: q :: ps => p ++ quote :: joinQuotes quote (q :: ps)

/-- What follows the first piece that is `key` and has `tail` behind it. -/
def seek [DecidableEq α] (quote : α) (key tail : List α) : List (List α) → Option (List α)
  | p :: q :: ps =>
      if p = key ∧ tail <+: joinQuotes quote (q :: ps) then
        some ((joinQuotes quote (q :: ps)).drop tail.length)
      else seek quote key tail (q :: ps)
  | _ => none

variable {quote : α} {key tail p : List α} {ps : List (List α)}

theorem joinQuotes_cons_cons (quote : α) (p q : List α) (ps : List (List α)) :
    joinQuotes quote (p :: q :: ps) = p ++ quote :: joinQuotes quote (q :: ps) := rfl

/-- A text begins with its first piece. -/
theorem exists_joinQuotes_cons (quote : α) (p : List α) (ps : List (List α)) :
    ∃ rest, joinQuotes quote (p :: ps) = p ++ rest := by
  cases ps with
  | nil => exact ⟨[], (List.append_nil p).symm⟩
  | cons q ps => exact ⟨_, joinQuotes_cons_cons quote p q ps⟩

/-- Two words in front of a quote. -/
theorem append_quote_prefix_iff (hkey : quote ∉ key) (hp : quote ∉ p) {rest : List α} :
    key ++ quote :: tail <+: p ++ quote :: rest ↔ p = key ∧ tail <+: rest := by
  induction key generalizing p with
  | nil =>
      cases p with
      | nil => simp
      | cons c p =>
          have hc : quote ≠ c := fun h => hp (h ▸ List.mem_cons_self)
          simp [hc]
  | cons k key ih =>
      have hk : k ≠ quote := fun h => hkey (h ▸ List.mem_cons_self)
      cases p with
      | nil => simp [hk]
      | cons c p =>
          have ih := ih (p := p) (fun h => hkey (List.mem_cons_of_mem _ h))
            fun h => hp (List.mem_cons_of_mem _ h)
          simp only [List.cons_append, List.cons_prefix_cons, ih, List.cons.injEq]
          constructor
          · rintro ⟨rfl, rfl, htail⟩
            exact ⟨⟨rfl, rfl⟩, htail⟩
          · rintro ⟨⟨rfl, rfl⟩, htail⟩
            exact ⟨rfl, rfl, htail⟩

/-- A word without quote does not reach one. -/
theorem not_prefix_of_notMem (hp : quote ∉ p) : ¬ key ++ quote :: tail <+: p := by
  intro h
  exact hp (h.subset (by simp))

/-- **A key is found as a piece of its own.** -/
theorem strstr_quoted [DecidableEq α] (hkey : quote ∉ key) (hps : ∀ q ∈ p :: ps, quote ∉ q) :
    (strstr (quote :: (key ++ quote :: tail)) (joinQuotes quote (p :: ps))).map
        (·.drop (quote :: (key ++ quote :: tail)).length) =
      seek quote key tail ps := by
  induction ps generalizing p with
  | nil =>
      have hp : quote ∉ p := hps p List.mem_cons_self
      have hnone : strstr (quote :: (key ++ quote :: tail)) p = none := by
        rw [strstr_eq_none_iff]
        exact fun h => hp (h.subset List.mem_cons_self)
      show (strstr _ p).map _ = _
      rw [hnone]
      rfl
  | cons q ps ih =>
      have hp : quote ∉ p := hps p List.mem_cons_self
      have hq : quote ∉ q := hps q (by simp)
      have ih := ih fun r hr => hps r (List.mem_cons_of_mem p hr)
      -- the word begins with a quote, so not inside the first piece
      have hskip : strstr (quote :: (key ++ quote :: tail)) (joinQuotes quote (p :: q :: ps)) =
          strstr (quote :: (key ++ quote :: tail)) (quote :: joinQuotes quote (q :: ps)) := by
        rw [joinQuotes_cons_cons]
        apply strstr_append
        rintro x y rfl hy hprefix
        obtain ⟨c, y, rfl⟩ := List.exists_cons_of_ne_nil hy
        have hc : quote = c := (List.cons_prefix_cons.mp hprefix).1
        exact hp (by simp [hc])
      rw [hskip, strstr]
      cases ps with
      | nil =>
          have hno : ¬ quote :: (key ++ quote :: tail) <+: quote :: joinQuotes quote [q] := by
            rw [List.cons_prefix_cons]
            exact fun h => not_prefix_of_notMem hq h.2
          rw [if_neg hno, ih]
          rfl
      | cons r ps =>
          have hiff : quote :: (key ++ quote :: tail) <+: quote :: joinQuotes quote (q :: r :: ps) ↔
              q = key ∧ tail <+: joinQuotes quote (r :: ps) := by
            rw [List.cons_prefix_cons, joinQuotes_cons_cons, append_quote_prefix_iff hkey hq]
            simp
          by_cases hfound : q = key ∧ tail <+: joinQuotes quote (r :: ps)
          · have hdrop : (quote :: joinQuotes quote (q :: r :: ps)).drop
                (quote :: (key ++ quote :: tail)).length =
                (joinQuotes quote (r :: ps)).drop tail.length := by
              have hsplit : quote :: joinQuotes quote (q :: r :: ps) =
                  (quote :: (key ++ [quote])) ++ joinQuotes quote (r :: ps) := by
                rw [joinQuotes_cons_cons, hfound.1]
                simp
              have hlen : (quote :: (key ++ quote :: tail)).length =
                  (quote :: (key ++ [quote])).length + tail.length := by
                simp only [List.length_cons, List.length_append, List.length_nil]
                omega
              rw [hsplit, hlen, List.drop_append, List.drop_eq_nil_of_le (by omega),
                Nat.add_sub_cancel_left, List.nil_append]
            rw [if_pos (hiff.mpr hfound), seek, if_pos hfound, Option.map_some, hdrop]
          · rw [if_neg fun h => hfound (hiff.mp h), ih, seek, if_neg hfound]

/-! ## Passing over pieces -/

variable [DecidableEq α]

/-- A piece that is not the key is passed over. -/
theorem seek_cons (h : p ≠ key) (hps : ps ≠ []) :
    seek quote key tail (p :: ps) = seek quote key tail ps := by
  obtain ⟨q, qs, rfl⟩ := List.exists_cons_of_ne_nil hps
  rw [seek, if_neg fun hkey => h hkey.1]

theorem seek_front {front : List (List α)} (h : ∀ r ∈ front, r ≠ key) (hps : ps ≠ []) :
    seek quote key tail (front ++ ps) = seek quote key tail ps := by
  induction front with
  | nil => rfl
  | cons r front ih =>
      rw [List.cons_append, seek_cons (h r List.mem_cons_self) (by simp [hps])]
      exact ih fun q hq => h q (List.mem_cons_of_mem _ hq)

theorem seek_eq_none (h : ∀ r ∈ ps, r ≠ key) : seek quote key tail ps = none := by
  induction ps with
  | nil => rfl
  | cons r ps ih =>
      cases ps with
      | nil => rfl
      | cons q ps =>
          rw [seek_cons (h r List.mem_cons_self) (List.cons_ne_nil _ _)]
          exact ih fun q hq => h q (List.mem_cons_of_mem _ hq)

/-- So is a piece with something else behind it. -/
theorem seek_other {q : List α} (h : ¬ tail <+: joinQuotes quote (q :: ps)) :
    seek quote key tail (p :: q :: ps) = seek quote key tail (q :: ps) := by
  rw [seek, if_neg fun hkey => h hkey.2]

theorem seek_found {q : List α} (h : tail <+: joinQuotes quote (q :: ps)) :
    seek quote key tail (key :: q :: ps) =
      some ((joinQuotes quote (q :: ps)).drop tail.length) := by
  rw [seek, if_pos ⟨rfl, h⟩]

end Quoted

end CText
