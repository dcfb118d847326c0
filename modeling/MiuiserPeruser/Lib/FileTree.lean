import Mathlib.Data.List.Nodup
import MiuiserPeruser.Lib.CText

/-!
# File trees

Regular files and directories by their path, a text that starts with a
slash, or is empty for the root. `unlink` and `readdir` as the system calls
do it: a directory cannot be unlinked, and the names of a directory are
those of its own entries, the dots included.
-/

namespace FileTree

open CText

inductive Kind where
  | file
  | dir
  deriving DecidableEq

abbrev Path := List Char

/-- The directory of a path, and the name behind it. -/
def dirname (p : Path) : Path := (p.rdropWhile (· ≠ '/')).dropLast
def basename (p : Path) : List Char := afterLast '/' p

/-- The path of the entry `n` of `d`. -/
def child (d : Path) (n : List Char) : Path := d ++ '/' :: n

/-- A path is in use once, names are no longer than `NAME_MAX`, and every
entry is in a directory. -/
structure Tree where
  entries : List (Path × Kind)
  nodup : (entries.map Prod.fst).Nodup
  names : ∀ e ∈ entries, (basename e.1).length ≤ 255
  parents : ∀ e ∈ entries, e.1 ≠ [] →
    e.1 = child (dirname e.1) (basename e.1) ∧ (dirname e.1, Kind.dir) ∈ entries

/-- `unlink`, of a file. -/
def Tree.unlink (t : Tree) (p : Path) : Tree where
  entries := t.entries.filter fun e => ¬ (e.1 = p ∧ e.2 = .file)
  nodup := t.nodup.sublist (List.filter_sublist.map _)
  names := fun e he => t.names e (List.mem_of_mem_filter he)
  parents := by
    intro e he hroot
    obtain ⟨hpath, hdir⟩ := t.parents e (List.mem_of_mem_filter he) hroot
    exact ⟨hpath, List.mem_filter.mpr ⟨hdir, by simp⟩⟩

/-- The names `readdir` returns. -/
def Tree.readdir (t : Tree) (d : Path) : List (List Char) :=
  ['.'] :: ['.', '.'] :: t.entries.filterMap fun e =>
    if e.1 ≠ [] ∧ dirname e.1 = d then some (basename e.1) else none

/-- The path is `d` or leads through it. -/
def Below (d p : Path) : Prop := p = d ∨ (d ++ ['/']) <+: p

instance (d p : Path) : Decidable (Below d p) := inferInstanceAs (Decidable (_ ∨ _))

section Paths

variable {d p q : Path} {n : List Char}

theorem below_child (d : Path) (n : List Char) : Below d (child d n) := by
  refine .inr ⟨n, ?_⟩
  simp [child]

/-- Of two paths above a third, one is above the other. -/
theorem below_or_below (hp : Below p d) (hq : Below q d) : Below p q ∨ Below q p := by
  have hcut : ∀ {p q : Path}, (p ++ ['/']) <+: (q ++ ['/']) → Below p q := by
    intro p q h
    rcases List.prefix_concat_iff.mp h with heq | hpre
    · exact .inl (List.append_cancel_right heq).symm
    · exact .inr hpre
  rcases hp with rfl | hp
  · exact .inr hq
  · rcases hq with rfl | hq
    · exact .inl (.inr hp)
    · exact (List.prefix_or_prefix_of_prefix hp hq).imp hcut hcut

theorem basename_child (hn : '/' ∉ n) : basename (child d n) = n := afterLast_append hn d

theorem dirname_child (hn : '/' ∉ n) : dirname (child d n) = d := by
  have hreverse : (child d n).reverse = n.reverse ++ '/' :: d.reverse := by simp [child]
  rw [dirname, List.rdropWhile, hreverse, dropWhile_append_of_stop]
  · simp
  · intro c hc
    simpa using ne_of_mem_of_not_mem (List.mem_reverse.mp hc) hn
  · intro c r h
    simp [(List.cons.inj h).1.symm]

theorem slash_notMem_basename (p : Path) : '/' ∉ basename p := by
  intro h
  have hne := List.mem_rtakeWhile_imp h
  simp at hne

end Paths

section Entries

variable {t : Tree} {d p : Path} {e : Path × Kind} {n : List Char}

theorem mem_unlink : e ∈ (t.unlink p).entries ↔ e ∈ t.entries ∧ ¬ (e.1 = p ∧ e.2 = .file) := by
  rw [Tree.unlink, List.mem_filter, decide_eq_true_iff]

theorem mem_foldl_unlink {ps : List Path} :
    e ∈ (ps.foldl Tree.unlink t).entries ↔ e ∈ t.entries ∧ ¬ (e.1 ∈ ps ∧ e.2 = .file) := by
  induction ps generalizing t with
  | nil => simp
  | cons p ps ih =>
      rw [List.foldl_cons, ih, mem_unlink, List.mem_cons]
      tauto

/-- The names of an entry of a directory. -/
theorem mem_readdir : n ∈ t.readdir d ↔
    n = ['.'] ∨ n = ['.', '.'] ∨ '/' ∉ n ∧ ∃ k, (child d n, k) ∈ t.entries := by
  unfold Tree.readdir
  rw [List.mem_cons, List.mem_cons, List.mem_filterMap]
  refine or_congr_right (or_congr_right ?_)
  constructor
  · rintro ⟨⟨p, k⟩, he, hn⟩
    split at hn
    · next h =>
        obtain ⟨hroot, rfl⟩ := h
        cases hn
        refine ⟨slash_notMem_basename p, k, ?_⟩
        rw [← (t.parents _ he hroot).1]
        exact he
    · cases hn
  · rintro ⟨hn, k, he⟩
    refine ⟨_, he, ?_⟩
    rw [if_pos ⟨by simp [child], dirname_child hn⟩, basename_child hn]

end Entries

end FileTree
