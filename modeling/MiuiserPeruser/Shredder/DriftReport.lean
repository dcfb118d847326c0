import MiuiserPeruser.Shredder.ModuleList

/-!
# shredderd — what a drift report says

`detect_drift` reports from the second of two polls on that find the same
count, if the count is off from the baseline's. What it lists are the names it
reads that are not in the baseline, and those of the baseline it does not read,
as far as 4096 bytes go. So it reports exactly the real drift under two
conditions (`drift_exact_iff`): a drift moves the count, and the names are read
and kept as they are. A backend that has awk print whole rows meets the second
one for no real list (`rows_hide_drift`), and reports no real drift right
(`wrapped_never_exact`).
-/

namespace MiuiserPeruser.Shredder

open CText Shell Bexec Probe Splinter

/-! ## Lists of entries -/

/-- An entry of `new_json` or `removed_json`. -/
def entryText (field : String) (name : List Char) (time : Nat) : List Char :=
  "\x7b\"name\":\"".toList ++ name ++ "\",\"".toList ++ field.toList ++ "\":\"".toList ++
    decimal time ++ "\"\x7d,".toList

/-- The list of these modules, and nothing else. -/
def listing (field : String) (now : List Char → Nat) (names : List (List Char)) : List Char :=
  names.flatMap fun name => entryText field name (now name)

/-- The modules whose entries find room, behind `used` bytes. -/
def listed (field : String) (now : List Char → Nat) : Nat → List (List Char) → List (List Char)
  | _, [] => []
  | used, name :: names =>
      let size := (entryText field name (now name)).length
      if used + size < 4095 then name :: listed field now (used + size) names
      else listed field now used names

section Listing

variable {field : String} {now : List Char → Nat}

theorem length_entryText (hfield : field.toList.length ≤ 11) {name : List Char}
    (hname : name.length ≤ 63) {time : Nat} (htime : time < 2 ^ 63) :
    (entryText field name time).length < 512 := by
  have hdecimal : (decimal time).length ≤ 19 :=
    (Nat.length_toDigits_le_iff (by decide) (by decide)).mpr (by omega)
  have hopen : "\x7b\"name\":\"".toList.length = 9 := by decide
  have hmiddle : "\",\"".toList.length = 3 := by decide
  have hcolon : "\":\"".toList.length = 3 := by decide
  have hclose : "\"\x7d,".toList.length = 3 := by decide
  have hlength : (entryText field name time).length =
      9 + name.length + 3 + field.toList.length + 3 + (decimal time).length + 3 := by
    unfold entryText
    simp only [List.length_append, hopen, hmiddle, hcolon, hclose]
  rw [hlength]
  omega

theorem driftEntry_eq (hfield : field.toList.length ≤ 11) {name : List Char}
    (hname : name.length ≤ 63) {time : Nat} (htime : time < 2 ^ 63) :
    driftEntry field (name, time) = entryText field name time :=
  snprintf_fits (length_entryText hfield hname htime)

/-- What the loop appends to a list of `json.length` bytes. -/
theorem foldl_appendEntry (hfield : field.toList.length ≤ 11) (hnow : ∀ name, now name < 2 ^ 63)
    {names : List (List Char)} (hnames : ∀ name ∈ names, name.length ≤ 63) (json : List Char) :
    (names.map fun name => (name, now name)).foldl
        (fun json f => appendEntry 4096 json (driftEntry field f)) json =
      json ++ listing field now (listed field now json.length names) := by
  induction names generalizing json with
  | nil => exact (List.append_nil json).symm
  | cons name names ih =>
      have hrest := ih fun n hn => hnames n (List.mem_cons_of_mem _ hn)
      rw [List.map_cons, List.foldl_cons, driftEntry_eq hfield (hnames name List.mem_cons_self)
        (hnow name), appendEntry, listed]
      by_cases hroom : json.length + (entryText field name (now name)).length < 4095
      · rw [if_pos hroom, List.take_of_length_le (by omega), hrest, List.length_append]
        simp only [if_pos hroom, listing, List.flatMap_cons, List.append_assoc]
      · rw [if_neg hroom, hrest]
        simp only [if_neg hroom]

theorem driftJson_eq (hfield : field.toList.length ≤ 11) (hnow : ∀ name, now name < 2 ^ 63)
    {names : List (List Char)} (hnames : ∀ name ∈ names, name.length ≤ 63) :
    driftJson field 4096 (names.map fun name => (name, now name)) =
      listing field now (listed field now 0 names) :=
  foldl_appendEntry hfield hnow hnames []

/-- Up to the first quote. -/
theorem append_quote_inj {u v x y : List Char} (hu : '"' ∉ u) (hv : '"' ∉ v)
    (h : u ++ '"' :: x = v ++ '"' :: y) : u = v := by
  have word : ∀ {w z : List Char}, '"' ∉ w → (w ++ '"' :: z).takeWhile (· ≠ '"') = w := by
    intro w z hw
    refine takeWhile_append_of_stop (fun c hc => ?_) fun c r hc => ?_
    · have hne : c ≠ '"' := fun heq => hw (heq ▸ hc)
      simpa using hne
    · rw [← (List.cons.inj hc).1]
      decide
  rw [← word (z := x) hu, h, word hv]

theorem listing_cons (name : List Char) (names : List (List Char)) :
    listing field now (name :: names) =
      entryText field name (now name) ++ listing field now names := rfl

/-- The name of an entry ends with the first quote after its beginning. -/
theorem entryText_quote (field : String) :
    ∃ tail : Nat → List Char, ∀ name time, entryText field name time =
      "\x7b\"name\":\"".toList ++ (name ++ '"' :: tail time) := by
  refine ⟨fun time => ",\"".toList ++ field.toList ++ "\":\"".toList ++ decimal time ++
    "\"\x7d,".toList, fun name time => ?_⟩
  unfold entryText
  rw [show "\",\"".toList = '"' :: ",\"".toList from rfl]
  simp only [List.append_assoc, List.cons_append]

/-- A list says which modules it is of. -/
theorem listing_injective {names names' : List (List Char)} (hnames : ∀ name ∈ names, '"' ∉ name)
    (hnames' : ∀ name ∈ names', '"' ∉ name) (h : listing field now names = listing field now names') :
    names = names' := by
  obtain ⟨tail, hentry⟩ := entryText_quote field
  have hcons : ∀ name rest, listing field now (name :: rest) =
      "\x7b\"name\":\"".toList ++ (name ++ '"' :: (tail (now name) ++ listing field now rest)) := by
    intro name rest
    rw [listing_cons, hentry, List.append_assoc, List.append_assoc, List.cons_append]
  have hne : ∀ name rest, listing field now (name :: rest) ≠ [] := by
    intro name rest
    rw [hcons]
    exact List.append_ne_nil_of_right_ne_nil _ (by simp)
  induction names generalizing names' with
  | nil =>
      cases names' with
      | nil => rfl
      | cons name' names' => exact absurd h.symm (hne name' names')
  | cons name names ih =>
      cases names' with
      | nil => exact absurd h (hne name names)
      | cons name' names' =>
          have hname : name = name' := by
            have heq := h
            rw [hcons, hcons] at heq
            exact append_quote_inj (hnames name List.mem_cons_self)
              (hnames' name' List.mem_cons_self) (List.append_cancel_left heq)
          rw [listing_cons, listing_cons] at h
          subst hname
          rw [ih (fun n hn => hnames n (List.mem_cons_of_mem _ hn))
            (fun n hn => hnames' n (List.mem_cons_of_mem _ hn)) (List.append_cancel_left h)]

theorem listing_append (xs ys : List (List Char)) :
    listing field now (xs ++ ys) = listing field now xs ++ listing field now ys := List.flatMap_append

/-- What is listed of a text's end, behind what is listed of its beginning. -/
theorem listed_append (used : Nat) (xs ys : List (List Char)) :
    listed field now used (xs ++ ys) = listed field now used xs ++
      listed field now (used + (listing field now (listed field now used xs)).length) ys := by
  induction xs generalizing used with
  | nil => simp [listed, listing]
  | cons name xs ih =>
      rw [List.cons_append, listed, listed]
      by_cases hroom : used + (entryText field name (now name)).length < 4095
      · rw [if_pos hroom, if_pos hroom, ih, listing_cons, List.length_append, List.cons_append, Nat.add_assoc]
      · rw [if_neg hroom, if_neg hroom, ih]

theorem listed_sublist (used : Nat) (names : List (List Char)) :
    (listed field now used names).Sublist names := by
  induction names generalizing used with
  | nil => exact List.Sublist.refl []
  | cons name names ih =>
      rw [listed]
      split
      · exact (ih _).cons_cons name
      · exact (ih _).cons name

/-- What is listed found room. -/
theorem length_listing_listed {used : Nat} (h : used < 4095) (names : List (List Char)) :
    used + (listing field now (listed field now used names)).length < 4095 := by
  induction names generalizing used with
  | nil => exact h
  | cons name names ih =>
      rw [listed]
      split
      · rename_i hroom
        have hrest := ih hroom
        rw [listing_cons, List.length_append]
        omega
      · exact ih h

end Listing

/-! ## When a list is right -/

theorem mem_notIn {names others : List (List Char)} {name : List Char} :
    name ∈ notIn names others ↔ name ∈ names ∧ name ∉ others := by
  simp [notIn]

theorem notIn_eq (names others : List (List Char)) :
    notIn names others = names.filter fun name => name ∉ others := by
  unfold notIn
  apply List.filter_congr
  intro name _
  rw [List.contains_eq_mem, decide_not]

/-- When the list of the lines that are not known is that of `names`: the names
find room, each is read as it is and is not known, and any other line is known
or finds no room behind the names in front of it. -/
structure ListsExactly (field : String) (now : List Char → Nat) (lines known names : List (List Char)) :
    Prop where
  room : (listing field now names).length < 4095
  whole : lines.filter (· ∈ names) = names
  unknown : ∀ name ∈ names, name ∉ known
  others : ∀ front line back, lines = front ++ line :: back → line ∉ names → line ∈ known ∨
    4095 ≤ (listing field now (front.filter (· ∈ names))).length + (entryText field line (now line)).length

section Exact

variable {field : String} {now : List Char → Nat} {lines known names : List (List Char)}

/-- From some line on, what is listed are the names among the rest. -/
theorem ListsExactly.listed_from (h : ListsExactly field now lines known names) {front rest : List (List Char)}
    (hsplit : lines = front ++ rest) :
    listed field now (listing field now (front.filter (· ∈ names))).length (notIn rest known) =
      rest.filter (· ∈ names) := by
  induction rest generalizing front with
  | nil => rfl
  | cons line rest ih =>
      have hnext := @ih (front ++ [line]) (by rw [hsplit, List.append_assoc]; rfl)
      rw [List.filter_append, listing_append, List.length_append] at hnext
      rw [notIn_eq] at hnext ⊢
      by_cases hname : line ∈ names
      · have hroom : (listing field now (front.filter (· ∈ names))).length +
            (entryText field line (now line)).length < 4095 := by
          have hall := h.room
          rw [← h.whole, hsplit, List.filter_append, List.filter_cons_of_pos (by simpa using hname),
            listing_append, listing_cons, List.length_append, List.length_append] at hall
          omega
        rw [List.filter_cons_of_pos (by simpa using hname), List.filter_nil, listing_cons] at hnext
        simp only [listing, List.flatMap_nil, List.append_nil] at hnext
        rw [List.filter_cons_of_pos (by simpa using h.unknown line hname),
          List.filter_cons_of_pos (by simpa using hname), listed]
        rw [if_pos hroom]
        exact congrArg (line :: ·) hnext
      · rw [List.filter_cons_of_neg (by simpa using hname), List.filter_nil] at hnext
        rw [List.filter_cons_of_neg (l := rest) (p := (· ∈ names)) (by simpa using hname)]
        rcases h.others front line rest hsplit hname with hknown | hfull
        · rw [List.filter_cons_of_neg (by simpa using hknown)]
          exact hnext
        · by_cases hknown : line ∈ known
          · rw [List.filter_cons_of_neg (by simpa using hknown)]
            exact hnext
          · rw [List.filter_cons_of_pos (by simpa using hknown), listed]
            rw [if_neg (by omega)]
            exact hnext

theorem ListsExactly.listed_eq (h : ListsExactly field now lines known names) :
    listed field now 0 (notIn lines known) = names :=
  (h.listed_from (List.nil_append lines).symm).trans h.whole

/-- The other way round, a list can be right by a line that is cut to the name
of another module, but only where this name is read twice. -/
theorem listsExactly_of_listed (hlisted : listed field now 0 (notIn lines known) = names)
    (honce : (lines.filter (· ∈ names)).Nodup) : ListsExactly field now lines known names := by
  have hpart : ∀ used part, (∀ name ∈ listed field now used (notIn part known), name ∈ names) →
      (listed field now used (notIn part known)).Sublist (part.filter (· ∈ names)) := by
    intro used part hall
    have hsub : (listed field now used (notIn part known)).Sublist part :=
      (listed_sublist used _).trans List.filter_sublist
    have hfilter := hsub.filter (· ∈ names)
    rwa [List.filter_eq_self.mpr fun name hname => decide_eq_true (hall name hname)] at hfilter
  have hwhole : lines.filter (· ∈ names) = names := by
    have hsub := hpart 0 lines fun name hname => hlisted ▸ hname
    rw [hlisted] at hsub
    have hlen : (lines.filter (· ∈ names)).length ≤ names.length := by
      apply (List.subperm_of_subset honce fun name hname => ?_).length_le
      exact of_decide_eq_true (List.mem_filter.mp hname).2
    exact (hsub.eq_of_length_le hlen).symm
  refine ⟨?_, hwhole, ?_, ?_⟩
  · have hfits : 0 + (listing field now (listed field now 0 (notIn lines known))).length < 4095 :=
      length_listing_listed (by decide) _
    rw [hlisted] at hfits
    omega
  · intro name hname
    rw [← hlisted] at hname
    exact (mem_notIn.mp ((listed_sublist _ _).subset hname)).2
  · intro front line back hsplit hline
    by_contra hneither
    rw [not_or, not_le] at hneither
    obtain ⟨hknown, hroom⟩ := hneither
    -- the two parts of the list are the names of the two parts of the lines
    have hparts := hlisted
    rw [hsplit, notIn_eq, List.filter_append, ← notIn_eq, ← notIn_eq, listed_append] at hparts
    have hnames := hwhole
    rw [hsplit, List.filter_append] at hnames
    have hfront := hpart 0 front fun name hname => by
      rw [← hparts]
      exact List.mem_append_left _ hname
    have hback := hpart _ (line :: back) fun name hname => by
      rw [← hparts]
      exact List.mem_append_right _ hname
    have hlen := congrArg List.length (hparts.trans hnames.symm)
    rw [List.length_append, List.length_append] at hlen
    have hfrontEq : listed field now 0 (notIn front known) = front.filter (· ∈ names) := by
      refine hfront.eq_of_length_le ?_
      have hle := hback.length_le
      omega
    rw [hfrontEq, Nat.zero_add, notIn_eq, List.filter_cons_of_pos (by simpa using hknown), listed] at hparts
    rw [if_pos hroom] at hparts
    exact hline (by rw [← hparts]; simp)

end Exact

/-! ## The second of two polls -/

/-- The globals at the start, with a baseline of what `bexec` returned. -/
def boot (result : Option (List Char)) (since : List Char → Nat) : DriftState :=
  establishBaseline .initial result since

/-- The state after some polls. -/
def afterPolls (result : Option (List Char)) (since : List Char → Nat) (ps : List Poll) : DriftState :=
  (Machine.run pollStep (boot result since) ps).1

/-- What polls do not change, and the sign of a counter. -/
structure Steady (st₀ st : DriftState) : Prop where
  baseline : st.baseline = st₀.baseline
  established : st.established = st₀.established
  driftPolls : 0 ≤ st.driftPolls

theorem Steady.detectDrift {st₀ st : DriftState} (h : Steady st₀ st) (nmod : Int)
    (result : Option (List Char)) (now : List Char → Nat) :
    Steady st₀ (detectDrift st nmod result now).2 := by
  have hcount : 0 ≤ if nmod - st.baseline.length = st.lastNmod - st.baseline.length
      then st.driftPolls + 1 else 1 := by
    have hpolls := h.driftPolls
    split <;> omega
  unfold Shredder.detectDrift
  simp only
  generalize (if nmod - st.baseline.length = st.lastNmod - st.baseline.length
    then st.driftPolls + 1 else 1) = polls at hcount ⊢
  split
  · exact ⟨h.baseline, h.established, le_rfl⟩
  · split
    · exact ⟨h.baseline, h.established, hcount⟩
    · split <;> exact ⟨h.baseline, h.established, hcount⟩

theorem Steady.pollDrift {st₀ st : DriftState} (h : Steady st₀ st) (p : Poll) :
    Steady st₀ (pollDrift st p).2 := by
  unfold Shredder.pollDrift
  split
  · exact h
  · split
    · exact h.detectDrift p.nmod p.mods p.now
    · exact h

theorem steady_run {st₀ : DriftState} (h : 0 ≤ st₀.driftPolls) (ps : List Poll) :
    Steady st₀ (Machine.run pollStep st₀ ps).1 := by
  refine Machine.run_invariant (P := fun st _ => Steady st₀ st) ⟨rfl, rfl, h⟩ ?_ ps
  intro st _ p hst
  exact hst.pollDrift p

/-- The count is off from the baseline's. -/
def CountOff (st : DriftState) (nmod : Int) : Prop :=
  st.established = true ∧ 0 < nmod ∧ nmod ≠ st.baseline.length

/-- A poll that finds the count in order reports nothing. -/
theorem pollDrift_of_not_countOff {st : DriftState} {p : Poll} (h : ¬ CountOff st p.nmod) :
    (pollDrift st p).1 = .none := by
  unfold pollDrift
  split
  · rfl
  · split
    · rename_i hpos hest
      have heq : p.nmod = st.baseline.length := by
        by_contra hne
        exact h ⟨hest, by omega, hne⟩
      unfold detectDrift
      rw [if_pos (by omega)]
    · rfl

/-- One that finds it off remembers the count, and that it was off. -/
theorem pollDrift_marks {st : DriftState} {p : Poll} (h : CountOff st p.nmod)
    (hpolls : 0 ≤ st.driftPolls) :
    (pollDrift st p).2.lastNmod = p.nmod ∧ 1 ≤ (pollDrift st p).2.driftPolls := by
  obtain ⟨hest, hpos, hne⟩ := h
  have hcount : 1 ≤ if p.nmod - st.baseline.length = st.lastNmod - st.baseline.length
      then st.driftPolls + 1 else 1 := by
    split <;> omega
  unfold pollDrift detectDrift
  rw [if_neg (by omega), if_pos hest, if_neg (by omega)]
  simp only
  generalize (if p.nmod - st.baseline.length = st.lastNmod - st.baseline.length
    then st.driftPolls + 1 else 1) = polls at hcount ⊢
  split
  · exact ⟨rfl, hcount⟩
  · split <;> exact ⟨rfl, hcount⟩

/-- The next one with the same count looks at the names. -/
theorem pollDrift_confirms {st : DriftState} {p : Poll} (h : CountOff st p.nmod)
    (hlast : st.lastNmod = p.nmod) (hpolls : 1 ≤ st.driftPolls) :
    (pollDrift st p).1 =
      if rishRead p.mods 8192 = [] then .none
      else ⟨p.nmod - st.baseline.length, newMods st.names (rishRead p.mods 8192) p.now,
        removedMods st.names (currentNames (rishRead p.mods 8192)) p.now⟩ := by
  obtain ⟨hest, hpos, hne⟩ := h
  unfold pollDrift detectDrift
  rw [if_neg (by omega), if_pos hest, if_neg (by omega)]
  simp only
  rw [hlast, if_pos rfl, if_neg (by simp only [driftConfirm]; omega)]
  split <;> rfl

/-- **The report of the second poll.** -/
theorem second_poll {st : DriftState} (hpolls : 0 ≤ st.driftPolls) {p q : Poll}
    (hcount : q.nmod = p.nmod) :
    (CountOff st q.nmod ∧ rishRead q.mods 8192 ≠ [] →
      (pollDrift (pollDrift st p).2 q).1 =
        ⟨q.nmod - st.baseline.length, newMods st.names (rishRead q.mods 8192) q.now,
          removedMods st.names (currentNames (rishRead q.mods 8192)) q.now⟩) ∧
    (¬ (CountOff st q.nmod ∧ rishRead q.mods 8192 ≠ []) →
      (pollDrift (pollDrift st p).2 q).1 = .none) := by
  have hsteady : Steady st (pollDrift st p).2 := Steady.pollDrift ⟨rfl, rfl, hpolls⟩ p
  have hnames : (pollDrift st p).2.names = st.names := by
    unfold DriftState.names
    rw [hsteady.baseline]
  have hoff : CountOff (pollDrift st p).2 q.nmod ↔ CountOff st q.nmod := by
    unfold CountOff
    rw [hsteady.baseline, hsteady.established]
  have confirms : CountOff st q.nmod → (pollDrift (pollDrift st p).2 q).1 =
      if rishRead q.mods 8192 = [] then .none
      else ⟨q.nmod - st.baseline.length, newMods st.names (rishRead q.mods 8192) q.now,
        removedMods st.names (currentNames (rishRead q.mods 8192)) q.now⟩ := by
    intro h
    obtain ⟨hlast, hmarked⟩ := pollDrift_marks (hcount ▸ h) hpolls
    rw [pollDrift_confirms (hoff.mpr h) (hlast.trans hcount.symm) hmarked, hnames, hsteady.baseline]
  constructor
  · rintro ⟨h, hread⟩
    rw [confirms h, if_neg hread]
  · intro h
    by_cases hc : CountOff st q.nmod
    · have hread : rishRead q.mods 8192 = [] := by
        by_contra hne
        exact h ⟨hc, hne⟩
      rw [confirms hc, if_pos hread]
    · exact pollDrift_of_not_countOff (mt hoff.mp hc)

/-! ## Real drift -/

/-- The same modules, whatever the order. -/
def SameNames (base loaded : List ModuleName) : Prop := base ⊆ loaded ∧ loaded ⊆ base

instance (base loaded : List ModuleName) : Decidable (SameNames base loaded) :=
  inferInstanceAs (Decidable (_ ∧ _))

/-- The names of the modules of `xs` that are not in `ys`. -/
def without (xs ys : List ModuleName) : List (List Char) :=
  (xs.filter fun x => x ∉ ys).map ModuleName.text

/-- The report is of the real drift: there is one exactly if the sets of
names differ, and then it lists the new and the missing modules. -/
structure DriftExact (base loaded : List ModuleName) (now : List Char → Nat) (d : Drift) : Prop where
  reported : d.delta ≠ 0 ↔ ¬ SameNames base loaded
  lists : ¬ SameNames base loaded →
    d.newJson = listing "detected_at" now (without loaded base) ∧
      d.removedJson = listing "removed_at" now (without base loaded)

def namesOf (rows : List ModuleRow) : List ModuleName := rows.map ModuleRow.name

/-- There is a baseline, the poll goes through, and its count is off. -/
def Counted (base loaded : List ModuleRow) (known : List (List Char)) (nmod : Int) : Prop :=
  base ≠ [] ∧ loaded ≠ [] ∧ 0 < nmod ∧ nmod ≠ known.length

/-- What a drift, and a device without drift, have to look like, to a backend
and a daemon that knows these names. -/
structure DriftVisible (b : BackendType) (known : List (List Char)) (base loaded : List ModuleRow)
    (nmod : Int) (now : List Char → Nat) : Prop where
  still : SameNames (namesOf base) (namesOf loaded) → ¬ Counted base loaded known nmod
  moved : ¬ SameNames (namesOf base) (namesOf loaded) → Counted base loaded known nmod
  new : ¬ SameNames (namesOf base) (namesOf loaded) →
    ListsExactly "detected_at" now (seen b loaded) known (without (namesOf loaded) (namesOf base))
  removed : ¬ SameNames (namesOf base) (namesOf loaded) →
    ListsExactly "removed_at" now known (seen b loaded) (without (namesOf base) (namesOf loaded))

/-- No name of a new or a missing module is read or kept twice. -/
structure ReadOnce (b : BackendType) (known : List (List Char)) (base loaded : List ModuleRow) : Prop where
  new : ((seen b loaded).filter (· ∈ without (namesOf loaded) (namesOf base))).Nodup
  missing : (known.filter (· ∈ without (namesOf base) (namesOf loaded))).Nodup

/-! ## The report -/

theorem quote_without {xs ys : List ModuleName} {name : List Char} (h : name ∈ without xs ys) :
    '"' ∉ name := by
  obtain ⟨x, -, rfl⟩ := List.mem_map.mp h
  exact fun hq => (x.word _ hq).2.2 rfl

section Report

variable {b₀ b : BackendType} {base loaded : List ModuleRow} {result mods : Option (List Char)}
  {since now : List Char → Nat}

variable (since) in
/-- The two lists of a report, from what was read and what is known. -/
theorem drift_lists (hbase : Reads base b₀ result) (hloaded : Reads loaded b mods)
    (hnow : ∀ name, now name < 2 ^ 63) :
    let known := (boot result since).names
    newMods known (rishRead mods 8192) now =
        listing "detected_at" now (listed "detected_at" now 0 (notIn (seen b loaded) known)) ∧
      removedMods known (currentNames (rishRead mods 8192)) now =
        listing "removed_at" now (listed "removed_at" now 0 (notIn known (seen b loaded))) := by
  intro known
  unfold newMods removedMods
  rw [hloaded.currentNames, ← notIn_eq]
  constructor
  · exact driftJson_eq (by decide) hnow fun name hname => (mem_seen (mem_notIn.mp hname).1).1
  · refine driftJson_eq (by decide) hnow fun name hname => ?_
    have hfield := (hbase.mem_names (mem_notIn.mp hname).1).1
    exact Nat.lt_succ_iff.mp hfield.short

variable (since) in
/-- The two lists are right exactly if they are of the right names. -/
theorem lists_right_iff (hbase : Reads base b₀ result) (hloaded : Reads loaded b mods)
    (hnow : ∀ name, now name < 2 ^ 63) {news missing : List (List Char)}
    (hnews : ∀ name ∈ news, '"' ∉ name) (hmissing : ∀ name ∈ missing, '"' ∉ name) :
    let known := (boot result since).names
    (newMods known (rishRead mods 8192) now = listing "detected_at" now news ∧
        removedMods known (currentNames (rishRead mods 8192)) now = listing "removed_at" now missing) ↔
      listed "detected_at" now 0 (notIn (seen b loaded) known) = news ∧
        listed "removed_at" now 0 (notIn known (seen b loaded)) = missing := by
  intro known
  obtain ⟨hnew, hremoved⟩ := drift_lists since hbase hloaded hnow
  rw [hnew, hremoved]
  constructor
  · rintro ⟨hnew, hremoved⟩
    constructor
    · refine listing_injective (fun name hname => ?_) hnews hnew
      exact (mem_seen (mem_notIn.mp ((listed_sublist _ _).subset hname)).1).2
    · refine listing_injective (fun name hname => ?_) hmissing hremoved
      exact (hbase.mem_names (mem_notIn.mp ((listed_sublist _ _).subset hname)).1).2
  · rintro ⟨hnew, hremoved⟩
    rw [hnew, hremoved]
    exact ⟨rfl, rfl⟩

/-- What the second of two polls with the same count reports, whatever was polled before. -/
theorem report_cases (since : List Char → Nat) (ps : List Poll) {p q : Poll}
    (hbase : Reads base b₀ result) (hloaded : Reads loaded b q.mods) (hcount : q.nmod = p.nmod) :
    let known := (boot result since).names
    let report := (pollDrift (afterPolls result since (ps ++ [p])) q).1
    (Counted base loaded known q.nmod →
        report = ⟨q.nmod - known.length, newMods known (rishRead q.mods 8192) q.now,
          removedMods known (currentNames (rishRead q.mods 8192)) q.now⟩) ∧
      (¬ Counted base loaded known q.nmod → report = .none) := by
  intro known report
  have hlast : afterPolls result since (ps ++ [p]) = (pollDrift (afterPolls result since ps) p).2 :=
    Machine.run_concat _ ps p
  obtain ⟨hest, hzero⟩ := hbase.established since
  have hsteady : Steady (boot result since) (afterPolls result since ps) := by
    refine steady_run ?_ ps
    rw [boot, hzero]
  have hknown : (afterPolls result since ps).names = known :=
    congrArg (List.map ModBaseline.name) hsteady.baseline
  have hlength : (afterPolls result since ps).baseline.length = known.length := by
    rw [← hknown, DriftState.names, List.length_map]
  have hread : rishRead q.mods 8192 ≠ [] ↔ loaded ≠ [] := by
    rw [hloaded.rishRead_check]
    refine not_congr ((shown_eq_nil_iff (printed_lines b loaded)).trans ?_)
    simp
  have hcounted : CountOff (afterPolls result since ps) q.nmod ∧ rishRead q.mods 8192 ≠ [] ↔
      Counted base loaded known q.nmod := by
    unfold CountOff Counted
    rw [hread, hlength, hsteady.established, boot, hest]
    tauto
  obtain ⟨hreport, hsilent⟩ := second_poll hsteady.driftPolls hcount
  rw [hcounted, hknown, hlength, ← hlast] at hreport
  rw [hcounted, ← hlast] at hsilent
  exact ⟨hreport, hsilent⟩

/-- **shredderd reports exactly the real drift if it is visible.** Whatever
was polled before, the second of two polls on the same modules with the
same count reports that the loaded names differ from the baseline exactly
when they do, and lists the differences, if the count is off exactly when the
names differ, and the names are read and known as they are; and only then, but
for lists in which the name of one module is read twice. -/
theorem drift_exact_iff (since : List Char → Nat) (ps : List Poll) {p q : Poll}
    (hbase : Reads base b₀ result) (hloaded : Reads loaded b q.mods) (hcount : q.nmod = p.nmod) :
    let known := (boot result since).names
    let report := (pollDrift (afterPolls result since (ps ++ [p])) q).1
    (DriftVisible b known base loaded q.nmod q.now →
        DriftExact (namesOf base) (namesOf loaded) q.now report) ∧
      (ReadOnce b known base loaded → DriftExact (namesOf base) (namesOf loaded) q.now report →
        DriftVisible b known base loaded q.nmod q.now) := by
  intro known report
  have hnews : ∀ name ∈ without (namesOf loaded) (namesOf base), '"' ∉ name := fun name => quote_without
  have hmissing : ∀ name ∈ without (namesOf base) (namesOf loaded), '"' ∉ name := fun name => quote_without
  have hlists := lists_right_iff since hbase hloaded q.now_lt hnews hmissing
  obtain ⟨hreport, hsilent⟩ := report_cases since ps hbase hloaded hcount
  by_cases hc : Counted base loaded known q.nmod
  · -- a report: the names must differ, and the lists must be right
    have hdelta : report.delta ≠ 0 := by
      have hne := hc.2.2.2
      have heq : report.delta = q.nmod - known.length := congrArg Drift.delta (hreport hc)
      omega
    have hright : report.newJson = listing "detected_at" q.now (without (namesOf loaded) (namesOf base)) ∧
          report.removedJson = listing "removed_at" q.now (without (namesOf base) (namesOf loaded)) ↔
        listed "detected_at" q.now 0 (notIn (seen b loaded) known) = without (namesOf loaded) (namesOf base) ∧
          listed "removed_at" q.now 0 (notIn known (seen b loaded)) =
            without (namesOf base) (namesOf loaded) := by
      have hr : report = _ := hreport hc
      rw [hr]
      exact hlists
    constructor
    · intro h
      have hdiffer : ¬ SameNames (namesOf base) (namesOf loaded) := fun hsame => h.still hsame hc
      refine ⟨⟨fun _ => hdiffer, fun _ => hdelta⟩, fun _ => ?_⟩
      exact hright.mpr ⟨(h.new hdiffer).listed_eq, (h.removed hdiffer).listed_eq⟩
    · intro honce h
      have hdiffer := h.reported.mp hdelta
      obtain ⟨hnew, hremoved⟩ := hright.mp (h.lists hdiffer)
      exact ⟨fun hsame => absurd hsame hdiffer, fun _ => hc,
        fun _ => listsExactly_of_listed hnew honce.new, fun _ => listsExactly_of_listed hremoved honce.missing⟩
  · -- no report: the names must be the same
    have hnone : report.delta = 0 := congrArg Drift.delta (hsilent hc)
    constructor
    · intro h
      have hsame : SameNames (namesOf base) (namesOf loaded) := by
        by_contra hdiffer
        exact hc (h.moved hdiffer)
      exact ⟨⟨fun hne => absurd hnone hne, fun hdiffer => absurd hsame hdiffer⟩,
        fun hdiffer => absurd hsame hdiffer⟩
    · intro _ h
      have hsame : SameNames (namesOf base) (namesOf loaded) := by
        by_contra hdiffer
        exact h.reported.mpr hdiffer hnone
      exact ⟨fun _ => hc, fun hdiffer => absurd hsame hdiffer, fun hdiffer => absurd hsame hdiffer,
        fun hdiffer => absurd hsame hdiffer⟩

theorem blank_without {xs ys : List ModuleName} {name : List Char} (h : name ∈ without xs ys) :
    ' ' ∉ name := by
  obtain ⟨x, -, rfl⟩ := List.mem_map.mp h
  exact fun hblank => absurd (x.word _ hblank).1 (by decide)

variable (since) in
/-- Of whole rows the first one is listed, with a blank in it. -/
theorem listed_wholeRow (hbase : Reads base b₀ result) (hb : b ≠ .direct) {r : ModuleRow}
    (hshort : r.name.text.length < 63) (hnow : ∀ name, now name < 2 ^ 63) :
    ∃ line ∈ listed "detected_at" now 0 (notIn (seen b (r :: loaded)) (boot result since).names),
      ' ' ∈ line := by
  obtain ⟨line, more, hseen, hblank⟩ : ∃ line more, seen b (r :: loaded) = line :: more ∧ ' ' ∈ line :=
    seen_wholeRow hb hshort
  have hmem : line ∈ seen b (r :: loaded) := hseen ▸ List.mem_cons_self
  have hunknown : line ∉ (boot result since).names := by
    intro hknown
    exact absurd ((hbase.mem_names hknown).1.word ' ' hblank).1 (by decide)
  have hroom : 0 + (entryText "detected_at" line (now line)).length < 4095 := by
    have hentry : (entryText "detected_at" line (now line)).length < 512 :=
      length_entryText (by decide) (mem_seen hmem).1 (hnow line)
    omega
  refine ⟨line, ?_, hblank⟩
  rw [hseen, notIn_eq, List.filter_cons_of_pos (by simpa using hunknown), listed, if_pos hroom]
  exact List.mem_cons_self

/-- **Whole rows hide every drift.** Names in `/proc/modules` have at most 55 bytes. -/
theorem rows_hide_drift (hbase : Reads base b₀ result) (hb : b ≠ .direct)
    (hshort : ∀ r ∈ loaded, r.name.text.length < 63) (hnow : ∀ name, now name < 2 ^ 63) {nmod : Int}
    (h : DriftVisible b (boot result since).names base loaded nmod now) :
    SameNames (namesOf base) (namesOf loaded) := by
  by_contra hdiffer
  cases loaded with
  | nil => exact (h.moved hdiffer).2.1 rfl
  | cons r loaded =>
      obtain ⟨line, hlisted, hblank⟩ := listed_wholeRow since hbase hb (hshort r List.mem_cons_self) hnow
      rw [(h.new hdiffer).listed_eq] at hlisted
      exact blank_without hlisted hblank

end Report

/-! ## Where the limits are not reached -/

/-- A baseline and a list of first fields within all limits: names of 2 to 63
bytes, at most 512 of them, 65536 and 8192 bytes, and lists of at most 4094
bytes. -/
structure Within (base loaded : List ModuleRow) (now : List Char → Nat) : Prop where
  long : ∀ r ∈ base, 1 < r.name.text.length
  short : ∀ r ∈ base ++ loaded, r.name.text.length ≤ 63
  base_count : base.length ≤ maxModules
  loaded_count : loaded.length ≤ maxModules
  base_bytes : (output .direct base).length ≤ 65536
  loaded_bytes : (output .direct loaded).length ≤ 8192
  new_bytes : (listing "detected_at" now (without (namesOf loaded) (namesOf base))).length < 4095
  removed_bytes : (listing "removed_at" now (without (namesOf base) (namesOf loaded))).length < 4095

section Within

variable {base loaded : List ModuleRow} {now since : List Char → Nat} {result : Option (List Char)}

/-- A reading that no limit cuts is of the names. -/
theorem cutLines_names {rows : List ModuleRow} {room : Nat} (hbytes : (output .direct rows).length ≤ room + 1) :
    cutLines room (rows.map (printedLine .direct)) = (namesOf rows).map ModuleName.text := by
  have hlines : rows.map (printedLine .direct) = (namesOf rows).map ModuleName.text := by
    rw [namesOf, List.map_map]
    exact List.map_congr_left fun r _ => printedLine_direct r
  rw [cutLines_all (fun l hl => ?_) hbytes, hlines]
  rw [hlines] at hl
  obtain ⟨x, -, rfl⟩ := List.mem_map.mp hl
  exact ⟨x.ne_nil, x.not_eol⟩

theorem map_take_text {rows : List ModuleRow} (h : ∀ r ∈ rows, r.name.text.length ≤ 63) :
    ((namesOf rows).map ModuleName.text).map (List.take 63) = (namesOf rows).map ModuleName.text := by
  rw [List.map_map, namesOf, List.map_map, List.map_map]
  exact List.map_congr_left fun r hr => List.take_of_length_le (h r hr)

theorem Within.kept (h : Within base loaded now) : kept base = (namesOf base).map ModuleName.text := by
  have hlong : ∀ name ∈ (namesOf base).map ModuleName.text, decide (1 < name.length) = true := by
    intro name hname
    obtain ⟨x, hx, rfl⟩ := List.mem_map.mp hname
    obtain ⟨r, hr, rfl⟩ := List.mem_map.mp hx
    exact decide_eq_true (h.long r hr)
  have hcount : ((namesOf base).map ModuleName.text).length ≤ maxModules := by
    rw [List.length_map, namesOf, List.length_map]
    exact h.base_count
  unfold Shredder.kept
  rw [cutLines_names h.base_bytes, map_take_text fun r hr => h.short r (List.mem_append_left _ hr),
    List.filter_eq_self.mpr hlong, List.take_of_length_le hcount]

theorem Within.seen (h : Within base loaded now) :
    seen .direct loaded = (namesOf loaded).map ModuleName.text := by
  have hcount : ((namesOf loaded).map ModuleName.text).length ≤ maxModules := by
    rw [List.length_map, namesOf, List.length_map]
    exact h.loaded_count
  unfold Shredder.seen
  rw [cutLines_names h.loaded_bytes, List.take_of_length_le hcount,
    map_take_text fun r hr => h.short r (List.mem_append_right _ hr)]

theorem text_mem_without {xs ys : List ModuleName} {x : ModuleName} (hx : x ∈ xs) :
    x.text ∈ without xs ys ↔ x ∉ ys := by
  rw [without, List.mem_map_of_injective ModuleName.text_injective]
  simp [hx]

/-- Where the lines are the names of one list and the other one is known, the
list is right if it finds room. -/
theorem listsExactly_of_texts {field : String} {xs ys : List ModuleName}
    (hroom : (listing field now (without xs ys)).length < 4095) :
    ListsExactly field now (xs.map ModuleName.text) (ys.map ModuleName.text) (without xs ys) where
  room := hroom
  whole := by
    rw [List.filter_map, without]
    congr 1
    apply List.filter_congr
    intro x hx
    exact decide_eq_decide.mpr (text_mem_without hx)
  unknown := by
    intro name hname hknown
    obtain ⟨x, hx, rfl⟩ := List.mem_map.mp hname
    obtain ⟨hmem, hnot⟩ := List.mem_filter.mp hx
    exact of_decide_eq_true hnot ((List.mem_map_of_injective ModuleName.text_injective).mp hknown)
  others := by
    intro front line back hsplit hline
    have hmem : line ∈ xs.map ModuleName.text := by simp [hsplit]
    obtain ⟨x, hx, rfl⟩ := List.mem_map.mp hmem
    have hy : x ∈ ys := by
      by_contra hnot
      exact hline ((text_mem_without hx).mpr hnot)
    exact .inl (List.mem_map_of_mem hy)

/-- **Within the limits, what decides is the count**: a drift is visible
exactly if it changes the number of modules. -/
theorem driftVisible_within_iff (hread : Reads base .direct result) (h : Within base loaded now)
    (hbase : base ≠ []) (hloaded : loaded ≠ []) :
    DriftVisible .direct (boot result since).names base loaded loaded.length now ↔
      (SameNames (namesOf base) (namesOf loaded) ↔ loaded.length = base.length) := by
  have hknown : (boot result since).names = (namesOf base).map ModuleName.text :=
    (hread.names_direct since).trans h.kept
  have hcounted : Counted base loaded (boot result since).names loaded.length ↔
      ¬ loaded.length = base.length := by
    have hpos := List.length_pos_of_ne_nil hloaded
    unfold Counted
    rw [hknown, List.length_map, namesOf, List.length_map]
    constructor
    · rintro ⟨-, -, -, hne⟩ heq
      exact hne (by rw [heq])
    · intro hne
      exact ⟨hbase, hloaded, by omega, by omega⟩
  constructor
  · intro hv
    constructor
    · intro hsame
      by_contra hne
      exact hv.still hsame (hcounted.mpr hne)
    · intro heq
      by_contra hdiffer
      exact hcounted.mp (hv.moved hdiffer) heq
  · intro hiff
    refine ⟨fun hsame => mt hcounted.mp (not_not.mpr (hiff.mp hsame)),
      fun hdiffer => hcounted.mpr (mt hiff.mpr hdiffer), fun _ => ?_, fun _ => ?_⟩
    · rw [hknown, h.seen]
      exact listsExactly_of_texts h.new_bytes
    · rw [hknown, h.seen]
      exact listsExactly_of_texts h.removed_bytes

end Within

def row (name : ModuleName) : ModuleRow :=
  ⟨name, " 4096 0 - Live 0x0".toList, rfl, forall_mem_of_all (by decide)⟩

def wlan : ModuleRow := row ⟨"wlan".toList, by decide, forall_mem_of_all (by decide)⟩
def gps : ModuleRow := row ⟨"gps".toList, by decide, forall_mem_of_all (by decide)⟩
def evil : ModuleRow := row ⟨"evil".toList, by decide, forall_mem_of_all (by decide)⟩

/-- What the DIRECT backend returns for some modules. -/
def readDirect (rows : List ModuleRow) : Option (List Char) := some (popenText 65537 (output .direct rows))

/-- A poll at one time that finds so many lines, and these modules. -/
def pollOf (count : String) (loaded : List ModuleRow) : Poll where
  probe := ⟨("==MODCOUNT==\n" ++ count ++ "\n").toList, true, []⟩
  mods := readDirect loaded
  now := fun _ => 1700000000
  now_lt := fun _ => by decide

theorem within_third : Within [wlan, gps] [wlan, gps, evil] fun _ => 1700000000 := by
  constructor <;> decide +kernel

/-- A third module is reported. -/
theorem drift_exact_iff_third :
    let p := pollOf "3" [wlan, gps, evil]
    let known := (boot (readDirect [wlan, gps]) fun _ => 0).names
    p.nmod = 3 ∧ ReadOnce .direct known [wlan, gps] [wlan, gps, evil] ∧
      DriftVisible .direct known [wlan, gps] [wlan, gps, evil] p.nmod p.now ∧
      DriftExact (namesOf [wlan, gps]) (namesOf [wlan, gps, evil]) p.now
        (pollDrift (afterPolls (readDirect [wlan, gps]) (fun _ => 0) ([] ++ [p])) p).1 := by
  intro p known
  have hnmod : p.nmod = 3 := by decide +kernel
  have hbase : Reads [wlan, gps] .direct (readDirect [wlan, gps]) := Reads.pipe (by decide)
  have hloaded : Reads [wlan, gps, evil] .direct p.mods := Reads.pipe (by decide)
  have hsame : SameNames (namesOf [wlan, gps]) (namesOf [wlan, gps, evil]) ↔
      [wlan, gps, evil].length = [wlan, gps].length := by decide +kernel
  have hvisible : DriftVisible .direct known [wlan, gps] [wlan, gps, evil] p.nmod p.now := by
    rw [hnmod]
    exact (driftVisible_within_iff hbase within_third (by simp) (by simp)).mpr hsame
  have honce : ReadOnce .direct known [wlan, gps] [wlan, gps, evil] := ⟨by decide +kernel, by decide +kernel⟩
  obtain ⟨hexact, -⟩ := drift_exact_iff (p := p) (q := p) (fun _ => 0) [] hbase hloaded rfl
  exact ⟨hnmod, honce, hvisible, hexact hvisible⟩

/-- One module is unloaded and another one loaded: the count stays, and
nothing is reported. -/
theorem swap_not_reported :
    ¬ ∀ (base : List ModuleRow) (result : Option (List Char)) (since : List Char → Nat) (ps : List Poll)
      (p q : Poll) (loaded : List ModuleRow), Reads base .direct result → Reads loaded .direct p.mods →
      Reads loaded .direct q.mods → p.nmod = loaded.length → q.nmod = loaded.length →
      DriftExact (namesOf base) (namesOf loaded) q.now
        (pollDrift (afterPolls result since (ps ++ [p])) q).1 := by
  intro h
  have hcount : (pollOf "2" [wlan, evil]).nmod = [wlan, evil].length := by decide +kernel
  have hread : Reads [wlan, evil] .direct (pollOf "2" [wlan, evil]).mods := Reads.pipe (by decide)
  have hexact := h [wlan, gps] (readDirect [wlan, gps]) (fun _ => 0) [] (pollOf "2" [wlan, evil])
    (pollOf "2" [wlan, evil]) [wlan, evil] (Reads.pipe (by decide)) hread hread hcount hcount
  have hdiffer : ¬ SameNames (namesOf [wlan, gps]) (namesOf [wlan, evil]) := by decide +kernel
  have hsilent : (pollDrift (afterPolls (readDirect [wlan, gps]) (fun _ => 0)
      ([] ++ [pollOf "2" [wlan, evil]])) (pollOf "2" [wlan, evil])).1.delta = 0 := by decide +kernel
  exact hexact.reported.mpr hdiffer hsilent

/-! ## Through the other backends -/

/-- **Through a wrapped command line no real drift is ever reported right**: what is left of
the awk program prints whole rows, and a row is listed where a name should be. -/
theorem wrapped_never_exact (t : Transport) (hpath : t.rishPath.length < 256) {b : BackendType}
    (hb : b ≠ .direct) :
    (Expands t (listCommand .firstField) (listCommand .wholeRow) b ∧
      Expands t (baselineCommand .firstField) (baselineCommand .wholeRow) b) ∧
    ∀ (b₀ : BackendType) (base loaded : List ModuleRow) (result : Option (List Char))
      (since : List Char → Nat) (ps : List Poll) (p q : Poll),
      Reads base b₀ result → Reads loaded b q.mods → q.nmod = p.nmod →
      (∀ r ∈ loaded, r.name.text.length < 63) →
      DriftExact (namesOf base) (namesOf loaded) q.now
        (pollDrift (afterPolls result since (ps ++ [p])) q).1 →
      SameNames (namesOf base) (namesOf loaded) := by
  constructor
  · have hexpands := expands_commands t hpath b
    rwa [awkProgram_wrapped hb] at hexpands
  · intro b₀ base loaded result since ps p q hbase hloaded hcount hshort h
    by_contra hdiffer
    obtain ⟨hreport, hsilent⟩ := report_cases since ps hbase hloaded hcount
    by_cases hc : Counted base loaded (boot result since).names q.nmod
    · rw [hreport hc] at h
      have hright := (lists_right_iff since hbase hloaded q.now_lt (fun name => quote_without)
        (fun name => quote_without)).mp (h.lists hdiffer)
      cases loaded with
      | nil => exact hc.2.1 rfl
      | cons r loaded =>
          obtain ⟨line, hlisted, hblank⟩ := listed_wholeRow since hbase hb (hshort r List.mem_cons_self) q.now_lt
          rw [hright.1] at hlisted
          exact blank_without hlisted hblank
    · rw [hsilent hc] at h
      exact h.reported.mpr hdiffer rfl

/-- Through ADB the new module is not reported as it should be. -/
theorem wrapped_never_exact_adb :
    let p := { pollOf "3" [wlan, gps, evil] with mods := some (popenText 65537 (output .adb [wlan, gps, evil])) }
    ¬ DriftExact (namesOf [wlan, gps]) (namesOf [wlan, gps, evil]) p.now
      (pollDrift (afterPolls (readDirect [wlan, gps]) (fun _ => 0) ([] ++ [p])) p).1 := by
  intro p h
  have hdiffer : ¬ SameNames (namesOf [wlan, gps]) (namesOf [wlan, gps, evil]) := by decide +kernel
  obtain ⟨-, hnever⟩ := wrapped_never_exact ⟨"/data/rish".toList, by decide, 5555, by decide⟩ (by decide)
    (show BackendType.adb ≠ .direct by decide)
  exact hdiffer (hnever .direct _ _ _ _ [] p p (Reads.pipe (by decide)) (Reads.pipe (by decide)) rfl
    (by decide) h)

end MiuiserPeruser.Shredder
