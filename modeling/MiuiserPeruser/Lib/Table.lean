import Mathlib.Data.List.Nodup
import Mathlib.Data.List.Basic
import Mathlib.Algebra.Order.Ring.Nat

/-!
# Tables with a primary key

A relational table as the list of its rows in rowid order, carrying the
PRIMARY KEY constraint as a field: no two rows share a key, so a table
that violates it cannot be built. The operations are the statements a
small SQL store uses on such a table — point select, `ON CONFLICT DO
UPDATE`, `INSERT OR IGNORE`, `INSERT OR REPLACE`, `DELETE` and `UPDATE`
by key — and each keeps the constraint.

`upsert` keeps the row's position (an UPDATE keeps the rowid), while
`insertOrReplace` deletes the conflicting row and appends the new one.
-/

namespace Sql

/-- The rows of a table, in rowid order, with distinct keys. -/
structure Table (α : Type) {κ : Type} (key : α → κ) where
  rows : List α
  nodup : (rows.map key).Nodup

namespace Table

variable {α κ : Type} {key : α → κ}

@[ext] theorem ext {t u : Table α key} (h : t.rows = u.rows) : t = u := by
  cases t; cases u; cases h; rfl

def empty : Table α key := ⟨[], List.nodup_nil⟩

@[simp] theorem rows_empty : (empty : Table α key).rows = [] := rfl

/-- Two rows of one table with the same key are the same row. -/
theorem eq_of_key {t : Table α key} {a b : α} (ha : a ∈ t.rows) (hb : b ∈ t.rows)
    (h : key a = key b) : a = b :=
  List.inj_on_of_nodup_map t.nodup ha hb h

variable [DecidableEq κ]

/-! ## Point select -/

/-- `SELECT … WHERE key = k`. -/
def find? (t : Table α key) (k : κ) : Option α := t.rows.find? fun r => key r = k

theorem find?_eq_some {t : Table α key} {k : κ} {r : α} :
    t.find? k = some r ↔ r ∈ t.rows ∧ key r = k := by
  have sound : ∀ x, t.find? k = some x → x ∈ t.rows ∧ key x = k := fun x h =>
    ⟨List.mem_of_find?_eq_some h, by simpa using List.find?_some h⟩
  refine ⟨sound r, fun ⟨hr, hk⟩ => ?_⟩
  cases h : t.find? k with
  | none => exact absurd hk (by simpa using List.find?_eq_none.mp h r hr)
  | some x =>
      obtain ⟨hx, hxk⟩ := sound x h
      rw [eq_of_key hx hr (hxk.trans hk.symm)]

theorem find?_eq_none {t : Table α key} {k : κ} :
    t.find? k = none ↔ ∀ r ∈ t.rows, key r ≠ k := by
  simp [find?]

theorem key_of_find? {t : Table α key} {k : κ} {r : α} (h : t.find? k = some r) : key r = k :=
  (find?_eq_some.mp h).2

theorem mem_of_find? {t : Table α key} {k : κ} {r : α} (h : t.find? k = some r) : r ∈ t.rows :=
  (find?_eq_some.mp h).1

theorem mem_keys_iff {t : Table α key} {k : κ} :
    k ∈ t.rows.map key ↔ ∃ r, t.find? k = some r := by
  simp only [find?_eq_some, List.mem_map]

/-- The rows are what the point selects find for the keys. -/
theorem map_some_rows (t : Table α key) : t.rows.map some = (t.rows.map key).map t.find? := by
  rw [List.map_map]
  refine List.map_congr_left fun r hr => ?_
  exact (find?_eq_some.mpr ⟨hr, rfl⟩).symm

/-- A table whose keys and point selects are those of another, up to a
function of the row. -/
theorem rows_eq_map {t u : Table α key} {f : α → α} (hkeys : t.rows.map key = u.rows.map key)
    (hfind : ∀ k, t.find? k = (u.find? k).map f) : t.rows = u.rows.map f := by
  refine List.map_injective_iff.mpr (fun _ _ h => Option.some.inj h) ?_
  rw [map_some_rows, hkeys, List.map_map, List.map_map]
  refine List.map_congr_left fun r hr => ?_
  have hr : u.find? (key r) = some r := find?_eq_some.mpr ⟨hr, rfl⟩
  rw [Function.comp, hfind, hr]
  rfl

/-- Replace the row with `r`'s key, or append `r`. -/
def upsertRows (key : α → κ) (r : α) : List α → List α
  | [] => [r]
  | x :: xs => if key x = key r then r :: xs else x :: upsertRows key r xs

theorem map_key_upsertRows (r : α) (l : List α) :
    (upsertRows key r l).map key =
      if key r ∈ l.map key then l.map key else l.map key ++ [key r] := by
  induction l with
  | nil => simp [upsertRows]
  | cons x xs ih =>
      by_cases hx : key x = key r
      · simp [upsertRows, hx]
      · have hx' : ¬ key r = key x := fun h => hx h.symm
        simp only [upsertRows, if_neg hx, List.map_cons, ih, List.mem_cons, hx', false_or]
        split <;> simp

/-- A row with a new key is appended. -/
theorem upsertRows_new {r : α} {l : List α} (h : ∀ x ∈ l, ¬ decide (key x = key r) = true) :
    upsertRows key r l = l ++ [r] := by
  induction l with
  | nil => rfl
  | cons x xs ih =>
      have hx : key x ≠ key r := by simpa using h x List.mem_cons_self
      rw [upsertRows, if_neg hx, ih fun y hy => h y (List.mem_cons_of_mem _ hy)]
      rfl

theorem nodup_upsertRows {l : List α} (h : (l.map key).Nodup) (r : α) :
    ((upsertRows key r l).map key).Nodup := by
  rw [map_key_upsertRows]
  split
  · exact h
  · rename_i hr
    exact List.nodup_append.mpr ⟨h, List.nodup_singleton _, by
      intro a ha b hb hab
      rw [List.mem_singleton] at hb
      exact hr (hb ▸ hab ▸ ha)⟩

def upsert (t : Table α key) (r : α) : Table α key :=
  ⟨upsertRows key r t.rows, nodup_upsertRows t.nodup r⟩

theorem mem_upsertRows {l : List α} {r x : α} (h : x ∈ upsertRows key r l) : x = r ∨ x ∈ l := by
  induction l with
  | nil => exact .inl (by simpa [upsertRows] using h)
  | cons y ys ih =>
      rw [upsertRows] at h
      split at h
      · rcases List.mem_cons.mp h with rfl | h
        · exact .inl rfl
        · exact .inr (List.mem_cons_of_mem _ h)
      · rcases List.mem_cons.mp h with rfl | h
        · exact .inr (by simp)
        · exact (ih h).imp id (List.mem_cons_of_mem _)

theorem mem_upsert {t : Table α key} {r x : α} (h : x ∈ (t.upsert r).rows) :
    x = r ∨ x ∈ t.rows := mem_upsertRows h

theorem find?_upsertRows (r : α) (l : List α) (k : κ) :
    (upsertRows key r l).find? (fun x => key x = k) =
      if key r = k then some r else l.find? fun x => key x = k := by
  induction l with
  | nil => by_cases hk : key r = k <;> simp [upsertRows, hk]
  | cons x xs ih =>
      by_cases hx : key x = key r
      · by_cases hk : key r = k <;> simp [upsertRows, hx, hk]
      · rw [upsertRows, if_neg hx, List.find?_cons, List.find?_cons, ih]
        by_cases hxk : key x = k
        · have hk : ¬ key r = k := fun h => hx (hxk.trans h.symm)
          simp [hxk, hk]
        · simp [hxk]

/-- An upsert changes the row of its own key and no other. -/
theorem find?_upsert (t : Table α key) (r : α) (k : κ) :
    (t.upsert r).find? k = if key r = k then some r else t.find? k :=
  find?_upsertRows r t.rows k

@[simp] theorem find?_upsert_self (t : Table α key) (r : α) :
    (t.upsert r).find? (key r) = some r := by simp [find?_upsert]

theorem find?_upsert_ne {t : Table α key} {r : α} {k : κ} (h : key r ≠ k) :
    (t.upsert r).find? k = t.find? k := by simp [find?_upsert, h]

theorem keys_upsert (t : Table α key) (r : α) :
    (t.upsert r).rows.map key =
      if key r ∈ t.rows.map key then t.rows.map key else t.rows.map key ++ [key r] :=
  map_key_upsertRows r t.rows

theorem sum_upsertRows (f : α → Nat) (r : α) (l : List α) :
    ((upsertRows key r l).map f).sum + ((l.find? fun x => key x = key r).map f).getD 0 =
      (l.map f).sum + f r := by
  induction l with
  | nil => simp [upsertRows]
  | cons x xs ih =>
      by_cases hx : key x = key r
      · simp [upsertRows, hx]
        omega
      · rw [upsertRows, if_neg hx, List.find?_cons_of_neg (by simpa using hx), List.map_cons,
          List.sum_cons, List.map_cons, List.sum_cons]
        omega

/-- An upsert changes the sum of a column by the new value minus the one
it replaces. -/
theorem sum_upsert (t : Table α key) (r : α) (f : α → Nat) :
    ((t.upsert r).rows.map f).sum + ((t.find? (key r)).map f).getD 0 =
      (t.rows.map f).sum + f r :=
  sum_upsertRows f r t.rows

/-! ## `INSERT OR IGNORE`, `INSERT OR REPLACE`, `DELETE`, `UPDATE` -/

def insertOrIgnore (t : Table α key) (r : α) : Table α key :=
  if h : key r ∈ t.rows.map key then t
  else ⟨t.rows ++ [r], by
    rw [List.map_append]
    exact List.nodup_append.mpr ⟨t.nodup, List.nodup_singleton _, by
      intro a ha b hb hab
      rw [List.map_singleton, List.mem_singleton] at hb
      exact h (hb ▸ hab ▸ ha)⟩⟩

theorem mem_insertOrIgnore {t : Table α key} {r x : α} :
    x ∈ (t.insertOrIgnore r).rows ↔ x ∈ t.rows ∨ (x = r ∧ key r ∉ t.rows.map key) := by
  unfold insertOrIgnore
  split <;> rename_i h <;> simp [h]

/-- `DELETE … WHERE key = k`. -/
def delete (t : Table α key) (k : κ) : Table α key :=
  ⟨t.rows.filter fun r => key r ≠ k, (List.filter_sublist.map key).nodup t.nodup⟩

@[simp] theorem mem_delete {t : Table α key} {k : κ} {x : α} :
    x ∈ (t.delete k).rows ↔ x ∈ t.rows ∧ key x ≠ k := by
  simp [delete, List.mem_filter]

/-- The conflicting row is deleted, then the new row is appended. -/
def insertOrReplace (t : Table α key) (r : α) : Table α key :=
  ⟨(t.delete (key r)).rows ++ [r], by
    rw [List.map_append]
    refine List.nodup_append.mpr ⟨(t.delete (key r)).nodup, List.nodup_singleton _, ?_⟩
    intro a ha b hb hab
    rw [List.map_singleton, List.mem_singleton] at hb
    obtain ⟨x, hx, rfl⟩ := List.mem_map.mp ha
    exact (mem_delete.mp hx).2 (hab.trans hb)⟩

@[simp] theorem mem_insertOrReplace {t : Table α key} {r x : α} :
    x ∈ (t.insertOrReplace r).rows ↔ (x ∈ t.rows ∧ key x ≠ key r) ∨ x = r := by
  simp [insertOrReplace]

/-- `UPDATE … SET f WHERE key = k`, for an `f` that leaves the key alone. -/
def update (t : Table α key) (k : κ) (f : α → α) (hf : ∀ r, key (f r) = key r) : Table α key :=
  ⟨t.rows.map fun r => if key r = k then f r else r, by
    have : (t.rows.map fun r => if key r = k then f r else r).map key = t.rows.map key := by
      rw [List.map_map]
      refine List.map_congr_left fun r _ => ?_
      simp only [Function.comp]
      split <;> simp [hf]
    rw [this]
    exact t.nodup⟩

theorem mem_update {t : Table α key} {k : κ} (f : α → α) (hf : ∀ r, key (f r) = key r) {x : α} :
    x ∈ (t.update k f hf).rows ↔ ∃ r ∈ t.rows, x = if key r = k then f r else r := by
  simp only [update, List.mem_map]
  exact ⟨fun ⟨r, hr, h⟩ => ⟨r, hr, h.symm⟩, fun ⟨r, hr, h⟩ => ⟨r, hr, h.symm⟩⟩

end Table

end Sql
