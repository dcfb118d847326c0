import Mathlib.Logic.Function.Basic

/-!
# A small file that many processes write without a lock

Each writer opens the file with `O_TRUNC` and writes its record with one
`write` at the start; a reader takes the file in one `read`. Writers may open
before each other's writes, and then one record lies over another: what is
left of the longer one stays behind it. Still every file begins with a whole
record, or is empty, and a reader that stops at the end of the first record
never sees a mixture (`Whole`).
-/

namespace SharedFile

variable {α : Type}

/-- What a path names, the number of files made so far, and their contents;
a file that has lost its name is still written by those who have it open. -/
structure Files (α : Type) where
  path : Option Nat
  created : Nat
  content : Nat → List α

def Files.none : Files α := ⟨.none, 0, fun _ => []⟩

/-- `open` with `O_CREAT` and `O_TRUNC`, and the file it opened. -/
def Files.create (f : Files α) : Files α × Nat :=
  match f.path with
  | some i => ({ f with content := Function.update f.content i [] }, i)
  | .none =>
      ({ path := some f.created, created := f.created + 1,
         content := Function.update f.content f.created [] }, f.created)

/-- A `write` at the start of an open file. -/
def Files.write (f : Files α) (i : Nat) (text : List α) : Files α :=
  { f with content := Function.update f.content i (text ++ (f.content i).drop text.length) }

def Files.unlink (f : Files α) : Files α := { f with path := .none }

/-- Every file is empty or begins with a record of its own. -/
def Whole (Record : Nat → List α → Prop) (f : Files α) : Prop :=
  ∀ i, f.content i = [] ∨ ∃ text rest, Record i text ∧ f.content i = text ++ rest

variable {Record Record' : Nat → List α → Prop} {f : Files α}

theorem whole_none : Whole Record (.none : Files α) := fun _ => .inl rfl

theorem Whole.mono (h : Whole Record f) (hle : ∀ i text, Record i text → Record' i text) :
    Whole Record' f := fun i =>
  (h i).imp_right fun ⟨text, rest, htext, heq⟩ => ⟨text, rest, hle i text htext, heq⟩

theorem Whole.create (h : Whole Record f) : Whole Record f.create.1 := by
  have emptied : ∀ j, Whole Record { f with content := Function.update f.content j [] } := by
    intro j i
    by_cases hi : i = j
    · exact .inl (by rw [hi]; exact Function.update_self ..)
    · rcases h i with h | h
      · exact .inl ((Function.update_of_ne hi ..).trans h)
      · refine .inr ?_
        simp only [Function.update_of_ne hi]
        exact h
  unfold Files.create
  cases f.path with
  | some j => exact emptied j
  | none => exact emptied f.created

theorem Whole.write (h : Whole Record f) {i : Nat} {text : List α} (htext : Record i text) :
    Whole Record (f.write i text) := by
  intro j
  by_cases hj : j = i
  · subst hj
    refine .inr ⟨text, (f.content j).drop text.length, htext, ?_⟩
    exact Function.update_self ..
  · rcases h j with h | h
    · exact .inl ((Function.update_of_ne hj ..).trans h)
    · refine .inr ?_
      simp only [Files.write, Function.update_of_ne hj]
      exact h

theorem Whole.unlink (h : Whole Record f) : Whole Record f.unlink := h

end SharedFile
