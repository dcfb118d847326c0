import Mathlib.Data.List.Basic
import Mathlib.Combinatorics.Enumerative.DoubleCounting

/-!
# Past-time properties of a trace

A trace lists events oldest first. Two operators carry the safety
properties of a run:

* `Always P tr` — every event of `tr` satisfies `P` at the prefix it was
  emitted after (`P pre e` reads "`e` was legitimate, given `pre`");
* `Since hold e tr` — `e` was emitted, and every later event satisfies
  `hold` (the past-time *since*).

Both are compositional in the trace, which only ever grows at its end:
the lemmas say what appending events does to them.
-/

namespace History

variable {ε : Type}

/-! ## Always -/

def Always (P : List ε → ε → Prop) (tr : List ε) : Prop :=
  ∀ pre e post, tr = pre ++ e :: post → P pre e

theorem Always.nil {P : List ε → ε → Prop} : Always P [] := by
  intro pre e post h
  simp at h

/-- The splits of an appended trace: inside the old part, or inside the new. -/
theorem split_append {tr es pre post : List ε} {e : ε} (h : tr ++ es = pre ++ e :: post) :
    (∃ post', tr = pre ++ e :: post') ∨ ∃ pre', pre = tr ++ pre' ∧ es = pre' ++ e :: post := by
  rcases List.append_eq_append_iff.mp h with ⟨as, h1, h2⟩ | ⟨bs, h1, h2⟩
  · exact .inr ⟨as, h1, h2⟩
  · cases bs with
    | nil => exact .inr ⟨[], by simpa using h1.symm, by simpa using h2.symm⟩
    | cons b bs =>
        obtain ⟨rfl, h2⟩ := List.cons.inj h2
        exact .inl ⟨bs, h1⟩

theorem Always.append {P : List ε → ε → Prop} {tr es : List ε} (h : Always P tr)
    (hes : ∀ pre e post, es = pre ++ e :: post → P (tr ++ pre) e) : Always P (tr ++ es) := by
  intro pre e post heq
  rcases split_append heq with ⟨post', h'⟩ | ⟨pre', rfl, h'⟩
  · exact h pre e post' h'
  · exact hes pre' e post h'

theorem Always.snoc {P : List ε → ε → Prop} {tr : List ε} {e : ε} (h : Always P tr)
    (he : P tr e) : Always P (tr ++ [e]) := by
  refine h.append fun pre x post hx => ?_
  cases pre with
  | nil =>
      obtain ⟨rfl, -⟩ := List.cons.inj hx
      simpa using he
  | cons p pre => simp at hx

theorem always_concat_iff {P : List ε → ε → Prop} {tr : List ε} {e : ε} :
    Always P (tr ++ [e]) ↔ Always P tr ∧ P tr e := by
  constructor
  · intro h
    refine ⟨fun pre x post hx => h pre x (post ++ [e]) ?_, h tr e [] rfl⟩
    rw [hx, List.append_assoc, List.cons_append]
  · rintro ⟨h, he⟩
    exact h.snoc he

/-- Events about which `P` says nothing keep `Always P`. -/
theorem Always.append_irrelevant {P : List ε → ε → Prop} {tr es : List ε} (h : Always P tr)
    (hes : ∀ e ∈ es, ∀ pre, P pre e) : Always P (tr ++ es) :=
  h.append fun _ e _ hx => hes e (by rw [hx]; simp) _

/-- `Always`, at a position of the trace. -/
theorem Always.at {P : List ε → ε → Prop} {tr : List ε} (h : Always P tr) {k : Nat} {e : ε}
    (hk : tr[k]? = some e) : P (tr.take k) e := by
  obtain ⟨hlt, he⟩ := List.getElem?_eq_some_iff.mp hk
  refine h (tr.take k) e (tr.drop (k + 1)) ?_
  rw [← he, List.getElem_cons_drop, List.take_append_drop]

/-- An event before position `k`, as a position. -/
theorem exists_position {tr : List ε} {k : Nat} {e : ε} (h : e ∈ tr.take k) :
    ∃ j, j < k ∧ tr[j]? = some e := by
  obtain ⟨j, hj⟩ := List.mem_iff_getElem?.mp h
  rw [List.getElem?_take] at hj
  split at hj
  · exact ⟨j, ‹_›, hj⟩
  · cases hj

/-! ## Since -/

def Since (hold : ε → Prop) (e : ε) (tr : List ε) : Prop :=
  ∃ mid, e :: mid <:+ tr ∧ ∀ x ∈ mid, hold x

/-- What is emitted next extends the suffix that starts at `e`. -/
theorem suffix_append {e : ε} {mid tr : List ε} (h : e :: mid <:+ tr) (es : List ε) :
    e :: (mid ++ es) <:+ tr ++ es := by
  obtain ⟨pre, rfl⟩ := h
  exact ⟨pre, by simp⟩

theorem Since.append {hold : ε → Prop} {e : ε} {tr es : List ε} (h : Since hold e tr)
    (hes : ∀ x ∈ es, hold x) : Since hold e (tr ++ es) := by
  obtain ⟨mid, hsuf, hmid⟩ := h
  exact ⟨mid ++ es, suffix_append hsuf es,
    fun x hx => (List.mem_append.mp hx).elim (hmid x) (hes x)⟩

/-- The newest event is `e`. -/
theorem Since.now {hold : ε → Prop} {e : ε} {tr : List ε} : Since hold e (tr ++ [e]) :=
  ⟨[], ⟨tr, rfl⟩, by simp⟩

theorem Since.mem {hold : ε → Prop} {e : ε} {tr : List ε} (h : Since hold e tr) : e ∈ tr := by
  obtain ⟨mid, hsuf, -⟩ := h
  exact hsuf.subset List.mem_cons_self

/-- What does not hold came before. -/
theorem Since.behind {hold : ε → Prop} {e x : ε} {pre post : List ε}
    (h : Since hold e (pre ++ x :: post)) (hx : ¬ hold x) (hne : x ≠ e) : e ∈ post := by
  obtain ⟨mid, hsuf, hmid⟩ := h
  rcases List.suffix_or_suffix_of_suffix hsuf (List.suffix_append pre (x :: post)) with hs | hs
  · exact (List.mem_cons.mp (hs.subset List.mem_cons_self)).resolve_left (Ne.symm hne)
  · rcases List.mem_cons.mp (hs.subset List.mem_cons_self) with heq | hmem
    · exact absurd heq hne
    · exact absurd (hmid x hmem) hx

/-- `hold` at every position strictly between `j` and `k`. -/
def Between (hold : ε → Prop) (tr : List ε) (j k : Nat) : Prop :=
  ∀ n e, j < n → n < k → tr[n]? = some e → hold e

/-- `Since` on the trace before position `k`, as a position. -/
theorem Since.position {hold : ε → Prop} {e : ε} {tr : List ε} {k : Nat} (hk : k ≤ tr.length)
    (h : Since hold e (tr.take k)) : ∃ j, j < k ∧ tr[j]? = some e ∧ Between hold tr j k := by
  obtain ⟨mid, ⟨pre, hsplit⟩, hmid⟩ := h
  have hlen : pre.length + (mid.length + 1) = k := by
    have := congrArg List.length hsplit
    simpa [hk] using this
  have get : ∀ n, n < k → tr[n]? = (pre ++ e :: mid)[n]? := fun n hn => by
    rw [hsplit, List.getElem?_take_of_lt hn]
  refine ⟨pre.length, by omega, ?_, fun n x hj hn hx => ?_⟩
  · rw [get _ (by omega), List.getElem?_append_right (Nat.le_refl _), Nat.sub_self]
    rfl
  · rw [get n hn, List.getElem?_append_right (Nat.le_of_lt hj)] at hx
    obtain ⟨m, hm⟩ : ∃ m, n - pre.length = m + 1 := ⟨n - pre.length - 1, by omega⟩
    rw [hm, List.getElem?_cons_succ] at hx
    exact hmid x (List.mem_of_getElem? hx)

/-! ## Counting events -/

theorem countP_eq_card (p : ε → Bool) (tr : List ε) :
    tr.countP p = ((Finset.range tr.length).filter fun k => tr[k]?.any p = true).card := by
  induction tr using List.reverseRecOn with
  | nil => rfl
  | append_singleton tr e ih =>
      have old : ((Finset.range tr.length).filter fun k => (tr ++ [e])[k]?.any p = true) =
          (Finset.range tr.length).filter fun k => tr[k]?.any p = true := by
        refine Finset.filter_congr fun k hk => ?_
        rw [List.getElem?_append_left (Finset.mem_range.mp hk)]
      rw [List.countP_append, List.length_append, List.length_singleton, Finset.range_add_one,
        Finset.filter_insert, old, ih, List.countP_singleton, List.getElem?_concat_length]
      cases hp : p e with
      | true => simp [hp]
      | false => simp [hp]

/-- A matching that sends every `p` to a `q`, and no two to the same. -/
theorem countP_le_of_matching {p q : ε → Bool} {tr : List ε} {r : Nat → Nat → Prop}
    (hex : ∀ k e, tr[k]? = some e → p e = true → ∃ j e', tr[j]? = some e' ∧ q e' = true ∧ r j k)
    (hinj : ∀ j k k', r j k → r j k' → k = k') : tr.countP p ≤ tr.countP q := by
  rw [countP_eq_card, countP_eq_card]
  refine Finset.card_le_card_of_forall_subsingleton (fun k j => r j k) ?_ ?_
  · intro k hk
    have hany := (Finset.mem_filter.mp hk).2
    cases he : tr[k]? with
    | none => simp [he] at hany
    | some e =>
        obtain ⟨j, e', he', hq, hr⟩ := hex k e he (by simpa [he] using hany)
        have hj : j < tr.length := (List.getElem?_eq_some_iff.mp he').1
        exact ⟨j, Finset.mem_filter.mpr ⟨Finset.mem_range.mpr hj, by simp [he', hq]⟩, hr⟩
  · intro j _ k hk k' hk'
    exact hinj j k k' hk.2 hk'.2

end History
