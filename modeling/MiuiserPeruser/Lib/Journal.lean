import Mathlib.Data.List.Basic

/-!
# Journals whose entries call for an effect

A program appends to a journal and then does what the entry calls for; the
two are not one transaction. `due` are the effects the journal calls for,
`done` those that were had, and `inFlight` those the program stands before.
A crash forgets what is in flight. So what was done is always what was due,
in its order, with no effect had twice and at most one batch missing for
each crash.
-/

namespace Journal

variable {α : Type}

/-- The effects had keep up with the journal, up to `lost` missing ones. -/
structure Behind (due done inFlight : List α) (lost : Nat) : Prop where
  kept : (done ++ inFlight).Sublist due
  missing : due.length ≤ done.length + inFlight.length + lost

variable {due done inFlight : List α} {lost : Nat}

theorem Behind.nil : Behind ([] : List α) [] [] 0 := ⟨.refl _, Nat.le_refl _⟩

/-- An entry that calls for `xs`. -/
theorem Behind.call (h : Behind due done [] lost) (xs : List α) :
    Behind (due ++ xs) done xs lost := by
  obtain ⟨hkept, hmissing⟩ := h
  rw [List.append_nil] at hkept
  refine ⟨hkept.append_right xs, ?_⟩
  simp only [List.length_append, List.length_nil] at hmissing ⊢
  omega

/-- What was in flight is had. -/
theorem Behind.deliver (h : Behind due done inFlight lost) :
    Behind due (done ++ inFlight) [] lost := by
  obtain ⟨hkept, hmissing⟩ := h
  refine ⟨by rwa [List.append_nil], ?_⟩
  rwa [List.length_append, List.length_nil, Nat.add_zero]

/-- What was in flight, at most `k` effects, is forgotten. -/
theorem Behind.crash (h : Behind due done inFlight lost) {k : Nat} (hk : inFlight.length ≤ k) :
    Behind due done [] (lost + k) := by
  obtain ⟨hkept, hmissing⟩ := h
  refine ⟨?_, ?_⟩
  · rw [List.append_nil]
    exact (List.sublist_append_left _ _).trans hkept
  · rw [List.length_nil]
    omega

/-- What was had was due, in its order. -/
theorem Behind.sublist (h : Behind due done inFlight lost) : done.Sublist due :=
  (List.sublist_append_left _ _).trans h.kept

/-- Without a loss nothing is missing. -/
theorem Behind.exact (h : Behind due done inFlight 0) : due = done ++ inFlight := by
  refine (h.kept.eq_of_length_le ?_).symm
  have hmissing := h.missing
  rwa [List.length_append]

end Journal
