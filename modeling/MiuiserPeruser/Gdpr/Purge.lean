import MiuiserPeruser.Lib.FileTree

/-!
# gdpr — purging the data stores (`sar_engine.c`)

`cmd_purge` has a list of its own next to the inventory, `STORES`: other
category names, other files, and of a directory only the entries whose
names do not start with a dot. It touches nothing but the files of the
category it is given; that it leaves none of them holds exactly for the
trees whose only data are files it knows (`erasure_complete_iff`).
-/

namespace MiuiserPeruser.Gdpr

open CText FileTree

/-! ## The inventory -/

/-- `BASE`. -/
def base : String := "/data/data/com.termux/files/home/MiuiserPeruser"

/-- A path `BASE "..."`. -/
def inBase (p : String) : Path := base.toList ++ p.toList

/-- `DataStore`, without its description. -/
structure DataStore where
  path : Path
  category : String
  deriving DecidableEq

/-- `STORES`. -/
def stores : List DataStore :=
  [⟨inBase "/Registry/daemon_results", "daemon_results"⟩,
    ⟨inBase "/Registry/daemon_state.json", "registry"⟩,
    ⟨inBase "/Registry/daemon_allowlist.json", "registry"⟩,
    ⟨inBase "/Registry/system_registry.json", "registry"⟩,
    ⟨inBase "/data/granitord_baseline.json", "baseline"⟩,
    ⟨inBase "/data/shredderd_baseline.json", "baseline"⟩,
    ⟨inBase "/data/tigerclawd_baseline.json", "baseline"⟩,
    ⟨inBase "/data/nulld_baseline.json", "baseline"⟩,
    ⟨inBase "/data/rahzerd_baseline.json", "baseline"⟩,
    ⟨inBase "/data/syndicate_config.json", "config"⟩,
    ⟨inBase "/data/last_scan.json", "config"⟩,
    ⟨inBase "/data/profiles/peruse_profile.json", "profile"⟩,
    ⟨inBase "/data/exodus_trackers.csv", "reference"⟩,
    ⟨inBase "/data/ssl_ja3.csv", "reference"⟩,
    ⟨inBase "/data/.syndicate_consent.lock", "consent"⟩,
    ⟨inBase "/data/.sensei_consent.lock", "consent"⟩,
    ⟨inBase "/data/training_complete.lock", "consent"⟩,
    ⟨inBase "/logs", "logs"⟩,
    ⟨inBase "/data/april.bin", "database"⟩,
    ⟨inBase "/data/superhero.db", "database"⟩]

/-! ## Purging -/

/-- The loop of `purge_dir` over the names `readdir` returned. -/
def purgeNames (path : Path) (names : List (List Char)) (t : Tree) : Tree :=
  names.foldl (fun t name =>
    if name.head? = some '.' then t else t.unlink (snprintf 512 (path ++ '/' :: name))) t

/-- `purge_dir`. -/
def purgeDir (path : Path) (t : Tree) : Tree :=
  if (path, Kind.dir) ∈ t.entries then purgeNames path (t.readdir path) t else t

/-- The first line of the input is `DELETE`. -/
def confirmed (input : List Char) : Bool :=
  match (fgetsLines 32 input).head? with
  | none => false
  | some line => (cstr line).takeWhile (· ≠ '\n') = "DELETE".toList

def baselineFiles : List Path :=
  [inBase "/data/granitord_baseline.json", inBase "/data/shredderd_baseline.json",
    inBase "/data/tigerclawd_baseline.json", inBase "/data/nulld_baseline.json",
    inBase "/data/rahzerd_baseline.json"]

def consentFiles : List Path :=
  [inBase "/data/.syndicate_consent.lock", inBase "/data/.sensei_consent.lock",
    inBase "/data/training_complete.lock"]

/-- `cmd_purge`, of what it does to the files. -/
def cmdPurge (input : List Char) (category : Option String) (t : Tree) : Tree :=
  if ¬ confirmed input then t
  else
    let all := category = none ∨ category = some "all"
    let t := if all ∨ category = some "daemon_results" then
      purgeDir (inBase "/Registry/daemon_results") t else t
    let t := if all ∨ category = some "logs" then purgeDir (inBase "/logs") t else t
    let t := if all ∨ category = some "baselines" then baselineFiles.foldl Tree.unlink t else t
    let t := if all ∨ category = some "consent" then consentFiles.foldl Tree.unlink t else t
    if all then t.unlink (inBase "/data/last_scan.json") else t

/-! ## What is purged -/

/-- An entry of `d` itself whose name does not start with a dot. -/
def VisibleChild (d p : Path) : Prop := ∃ n, '/' ∉ n ∧ n.head? ≠ some '.' ∧ p = child d n

/-- The files `cmd_purge` unlinks. -/
def Purged (category : Option String) (p : Path) : Prop :=
  let all := category = none ∨ category = some "all"
  (all ∨ category = some "daemon_results") ∧ VisibleChild (inBase "/Registry/daemon_results") p ∨
    (all ∨ category = some "logs") ∧ VisibleChild (inBase "/logs") p ∨
    (all ∨ category = some "baselines") ∧ p ∈ baselineFiles ∨
    (all ∨ category = some "consent") ∧ p ∈ consentFiles ∨
    all ∧ p = inBase "/data/last_scan.json"

section Purge

variable {t : Tree} {e : Path × Kind} {path : Path} {input : List Char} {category : Option String}

theorem mem_purgeNames {names : List (List Char)} :
    e ∈ (purgeNames path names t).entries ↔
      e ∈ t.entries ∧ ¬ (e.2 = .file ∧ ∃ name ∈ names, name.head? ≠ some '.' ∧
        e.1 = snprintf 512 (path ++ '/' :: name)) := by
  unfold purgeNames
  induction names generalizing t with
  | nil => simp
  | cons name names ih =>
      rw [List.foldl_cons, ih]
      simp only [List.exists_mem_cons_iff]
      split
      · next hdot => simp [hdot]
      · next hdot =>
          rw [mem_unlink]
          simp only [ne_eq, hdot, not_false_eq_true, true_and]
          rw [and_assoc, ← not_or, and_comm (b := e.2 = .file), ← and_or_left]

/-- **`purge_dir` unlinks the visible files of the directory itself.** -/
theorem mem_purgeDir (hpath : path.length ≤ 255) :
    e ∈ (purgeDir path t).entries ↔
      e ∈ t.entries ∧ ¬ (e.2 = .file ∧ VisibleChild path e.1) := by
  -- a name fits the buffer, so it is the entry itself that is unlinked
  have hfits : ∀ n k, '/' ∉ n → (child path n, k) ∈ t.entries →
      snprintf 512 (path ++ '/' :: n) = child path n := by
    intro n k hn hmem
    have hlen := t.names _ hmem
    rw [basename_child hn] at hlen
    apply snprintf_fits
    rw [List.length_append, List.length_cons]
    omega
  unfold purgeDir
  split
  · rw [mem_purgeNames]
    refine and_congr_right fun he => not_congr (and_congr_right fun _ => ?_)
    constructor
    · rintro ⟨n, hn, hdot, hpath⟩
      rcases mem_readdir.mp hn with rfl | rfl | ⟨hslash, k, hmem⟩
      · exact absurd rfl hdot
      · exact absurd rfl hdot
      · exact ⟨n, hslash, hdot, hpath.trans (hfits n k hslash hmem)⟩
    · rintro ⟨n, hslash, hdot, hpath⟩
      have hmem : (child path n, e.2) ∈ t.entries := by
        rw [← hpath]
        exact he
      exact ⟨n, mem_readdir.mpr (.inr (.inr ⟨hslash, _, hmem⟩)), hdot,
        hpath.trans (hfits n _ hslash hmem).symm⟩
  · next hclosed =>
    refine ⟨fun he => ⟨he, ?_⟩, And.left⟩
    rintro ⟨-, n, hslash, -, hpath⟩
    have hdir := (t.parents e he (by simp [hpath, child])).2
    rw [hpath, dirname_child hslash] at hdir
    exact hclosed hdir

theorem mem_ite_purge {t' : Tree} {c q : Prop} [Decidable c]
    (h : e ∈ t'.entries ↔ e ∈ t.entries ∧ ¬ (e.2 = .file ∧ q)) :
    e ∈ (if c then t' else t).entries ↔ e ∈ t.entries ∧ ¬ (e.2 = .file ∧ c ∧ q) := by
  split
  · next hc => simpa [hc] using h
  · next hc => simp [hc]

/-- **`cmd_purge` unlinks the files of the category it is given**, and no other. -/
theorem mem_cmdPurge (hinput : confirmed input = true) :
    e ∈ (cmdPurge input category t).entries ↔
      e ∈ t.entries ∧ ¬ (e.2 = .file ∧ Purged category e.1) := by
  have hdir : ∀ {t : Tree} {path}, path ∈ [inBase "/Registry/daemon_results", inBase "/logs"] →
      (e ∈ (purgeDir path t).entries ↔
        e ∈ t.entries ∧ ¬ (e.2 = .file ∧ VisibleChild path e.1)) := by
    intro t path hpath
    apply mem_purgeDir
    simp only [List.mem_cons, List.not_mem_nil, or_false] at hpath
    rcases hpath with rfl | rfl <;> decide +kernel
  have hfiles : ∀ {t : Tree} {ps : List Path}, e ∈ (ps.foldl Tree.unlink t).entries ↔
      e ∈ t.entries ∧ ¬ (e.2 = .file ∧ e.1 ∈ ps) := by
    intro t ps
    rw [mem_foldl_unlink, and_comm (b := e.2 = .file)]
  have hfile : ∀ {t : Tree} {p : Path}, e ∈ (t.unlink p).entries ↔
      e ∈ t.entries ∧ ¬ (e.2 = .file ∧ e.1 = p) := by
    intro t p
    rw [mem_unlink, and_comm (b := e.2 = .file)]
  unfold cmdPurge Purged
  rw [if_neg (by simp [hinput])]
  simp only
  rw [mem_ite_purge hfile, mem_ite_purge hfiles, mem_ite_purge hfiles,
    mem_ite_purge (hdir (List.mem_cons_of_mem _ List.mem_cons_self)),
    mem_ite_purge (hdir List.mem_cons_self)]
  simp only [and_assoc, ← not_or, ← and_or_left, or_assoc]

end Purge

/-! ## Erasure -/

/-- The files of the tree. -/
def IsFile (t : Tree) (p : Path) : Prop := (p, Kind.file) ∈ t.entries

/-- No regular file is left at the path of a store, or below it. -/
def Erased (t : Tree) (s : DataStore) : Prop := ∀ p, IsFile t p → ¬ Below s.path p

/-- The stores with collected data: all but the reference data and two
configuration files. -/
def Collected (s : DataStore) : Prop :=
  s.category ≠ "reference" ∧ s.path ≠ inBase "/data/syndicate_config.json" ∧
    s.path ≠ inBase "/Registry/daemon_allowlist.json"

/-- What erasing the data of a tree means, of all the data and of each
category of the inventory. -/
structure ErasureComplete (t : Tree) : Prop where
  all : ∀ input, confirmed input = true → ∀ s ∈ stores, Collected s →
    Erased (cmdPurge input (some "all") t) s
  category : ∀ input, confirmed input = true → ∀ s ∈ stores,
    Erased (cmdPurge input (some s.category) t) s
  confined : ∀ input, confirmed input = true → ∀ s ∈ stores, ∀ e ∈ t.entries,
    (∀ s' ∈ stores, s'.category = s.category → ¬ Below s'.path e.1) →
    e ∈ (cmdPurge input (some s.category) t).entries

/-- The files every purge that should unlink them does unlink. -/
def Covered (p : Path) : Prop :=
  VisibleChild (inBase "/Registry/daemon_results") p ∨ VisibleChild (inBase "/logs") p ∨
    p ∈ consentFiles

theorem VisibleChild.below {d p : Path} (h : VisibleChild d p) : Below d p := by
  obtain ⟨n, -, -, rfl⟩ := h
  exact below_child d n

theorem erased_iff {t : Tree} {input : List Char} {category : Option String} {s : DataStore}
    (hinput : confirmed input = true) :
    Erased (cmdPurge input category t) s ↔ ∀ p, IsFile t p → Below s.path p → Purged category p := by
  refine forall_congr' fun p => ?_
  unfold IsFile
  rw [mem_cmdPurge hinput]
  simp only [true_and]
  constructor
  · intro h hfile hbelow
    by_contra hpurged
    exact h ⟨hfile, hpurged⟩ hbelow
  · rintro h ⟨hfile, hpurged⟩ hbelow
    exact hpurged (h hfile hbelow)

/-- Purging everything leaves none of the collected data exactly if there is
none but what it unlinks. -/
theorem purge_all_iff {t : Tree} {input : List Char} (hinput : confirmed input = true) :
    (∀ s ∈ stores, Collected s → Erased (cmdPurge input (some "all") t) s) ↔
      ∀ s ∈ stores, Collected s → ∀ p, IsFile t p → Below s.path p →
        VisibleChild (inBase "/Registry/daemon_results") p ∨ VisibleChild (inBase "/logs") p ∨
          p ∈ baselineFiles ∨ p ∈ consentFiles ∨ p = inBase "/data/last_scan.json" := by
  refine forall_congr' fun s => forall_congr' fun _ => forall_congr' fun _ => ?_
  rw [erased_iff hinput]
  simp [Purged]

section Stores

variable {s s' : DataStore} {p : Path}

theorem below_base {p q : Path} : Below (base.toList ++ p) (base.toList ++ q) ↔ Below p q := by
  unfold Below
  rw [List.append_right_inj, List.append_assoc, List.prefix_append_right_inj]

theorem stores_inBase : ∀ s ∈ stores, ∃ p, s.path = base.toList ++ p := by
  simp only [stores, inBase, List.forall_mem_cons, List.append_right_inj, exists_eq', List.not_mem_nil,
    IsEmpty.forall_iff, implies_true, and_self]

/-- No store is inside a store of another category. -/
theorem stores_apart (hs : s ∈ stores) (hs' : s' ∈ stores) (h : Below s.path s'.path) :
    s.category = s'.category := by
  have hall : ∀ s ∈ stores, ∀ s' ∈ stores,
      Below (s.path.drop base.toList.length) (s'.path.drop base.toList.length) →
        s.category = s'.category := by
    unfold stores inBase base
    repeat rw [String.toList_ofList]
    decide +kernel
  obtain ⟨p, hp⟩ := stores_inBase s hs
  obtain ⟨p', hp'⟩ := stores_inBase s' hs'
  apply hall s hs s' hs'
  rw [hp, hp'] at h ⊢
  rw [List.drop_left, List.drop_left]
  exact below_base.mp h

theorem category_eq_of_below (hs : s ∈ stores) (hs' : s' ∈ stores) (h : Below s.path p)
    (h' : Below s'.path p) : s.category = s'.category := by
  rcases below_or_below h h' with hbelow | hbelow
  · exact stores_apart hs hs' hbelow
  · exact (stores_apart hs' hs hbelow).symm

theorem daemonResults_stores : ⟨inBase "/Registry/daemon_results", "daemon_results"⟩ ∈ stores :=
  List.mem_cons_self

theorem logs_stores : ⟨inBase "/logs", "logs"⟩ ∈ stores := by simp [stores]

theorem consentFiles_stores : ∀ p ∈ consentFiles, ⟨p, "consent"⟩ ∈ stores := by
  simp [consentFiles, stores]

/-- No category of the inventory is called `all` or `baselines`. -/
theorem category_ne : ∀ s ∈ stores, s.category ≠ "all" ∧ s.category ≠ "baselines" := by
  decide +kernel

/-- What purging a category of the inventory unlinks. -/
theorem purged_category (hs : s ∈ stores) : Purged (some s.category) p ↔
    s.category = "daemon_results" ∧ VisibleChild (inBase "/Registry/daemon_results") p ∨
      s.category = "logs" ∧ VisibleChild (inBase "/logs") p ∨
      s.category = "consent" ∧ p ∈ consentFiles := by
  obtain ⟨hall, hbaselines⟩ := category_ne s hs
  simp [Purged, hall, hbaselines]

/-- What is purged belongs to a store of the category. -/
theorem exists_store_of_purged (hs : s ∈ stores) (h : Purged (some s.category) p) :
    ∃ s' ∈ stores, s'.category = s.category ∧ Below s'.path p := by
  rcases (purged_category hs).mp h with ⟨hcat, hp⟩ | ⟨hcat, hp⟩ | ⟨hcat, hp⟩
  · exact ⟨_, daemonResults_stores, hcat.symm, hp.below⟩
  · exact ⟨_, logs_stores, hcat.symm, hp.below⟩
  · exact ⟨⟨p, "consent"⟩, consentFiles_stores p hp, hcat.symm, .inl rfl⟩

/-- A covered file of a store is purged with the store's category. -/
theorem purged_of_covered (hs : s ∈ stores) (hbelow : Below s.path p) (h : Covered p) :
    Purged (some s.category) p := by
  rw [purged_category hs]
  rcases h with hp | hp | hp
  · exact .inl ⟨category_eq_of_below hs daemonResults_stores hbelow hp.below, hp⟩
  · exact .inr (.inl ⟨category_eq_of_below hs logs_stores hbelow hp.below, hp⟩)
  · exact .inr (.inr ⟨category_eq_of_below hs (consentFiles_stores p hp) hbelow (.inl rfl), hp⟩)

end Stores

/-- The input of someone who confirms. -/
def confirmation : List Char := "DELETE\n".toList

theorem confirmed_confirmation : confirmed confirmation = true := by decide +kernel

/-- **Erasure is complete exactly if no store has a file but those covered**:
visible entries of the two directories, and the consent records. -/
theorem erasure_complete_iff (t : Tree) :
    ErasureComplete t ↔ ∀ s ∈ stores, ∀ p, IsFile t p → Below s.path p → Covered p := by
  constructor
  · intro h s hs p hfile hbelow
    have herased := h.category confirmation confirmed_confirmation s hs
    have hpurged := (erased_iff confirmed_confirmation).mp herased p hfile hbelow
    rcases (purged_category hs).mp hpurged with ⟨-, hp⟩ | ⟨-, hp⟩ | ⟨-, hp⟩
    · exact .inl hp
    · exact .inr (.inl hp)
    · exact .inr (.inr hp)
  · intro h
    constructor
    case all =>
      intro input hinput s hs _
      rw [erased_iff hinput]
      intro p hfile hbelow
      have hall : (some "all" = none ∨ some "all" = some "all") := .inr rfl
      rcases h s hs p hfile hbelow with hp | hp | hp
      · exact .inl ⟨.inl hall, hp⟩
      · exact .inr (.inl ⟨.inl hall, hp⟩)
      · exact .inr (.inr (.inr (.inl ⟨.inl hall, hp⟩)))
    case category =>
      intro input hinput s hs
      rw [erased_iff hinput]
      intro p hfile hbelow
      exact purged_of_covered hs hbelow (h s hs p hfile hbelow)
    case confined =>
      intro input hinput s hs e he hother
      rw [mem_cmdPurge hinput]
      refine ⟨he, ?_⟩
      rintro ⟨-, hpurged⟩
      obtain ⟨s', hs', hcat, hbelow⟩ := exists_store_of_purged hs hpurged
      exact hother s' hs' hcat hbelow

/-- A tree with April's database. -/
def withDatabase : Tree where
  entries :=
    [([], .dir), ("/data".toList, .dir), ("/data/data".toList, .dir),
      ("/data/data/com.termux".toList, .dir), ("/data/data/com.termux/files".toList, .dir),
      ("/data/data/com.termux/files/home".toList, .dir), (inBase "", .dir), (inBase "/data", .dir),
      (inBase "/data/april.bin", .file)]
  nodup := by decide +kernel
  names := by decide +kernel
  parents := by decide +kernel

/-- Purging everything, and purging the category `database`, leave the database. -/
theorem database_survives : ¬ ErasureComplete withDatabase ∧
    IsFile (cmdPurge confirmation (some "all") withDatabase) (inBase "/data/april.bin") ∧
    IsFile (cmdPurge confirmation (some "database") withDatabase) (inBase "/data/april.bin") := by
  have hleft : IsFile (cmdPurge confirmation (some "all") withDatabase) (inBase "/data/april.bin") := by
    unfold IsFile
    decide +kernel
  refine ⟨?_, hleft, ?_⟩
  · intro h
    have herased := h.all confirmation confirmed_confirmation
      ⟨inBase "/data/april.bin", "database"⟩ (by simp [stores])
      ⟨by decide, by decide +kernel, by decide +kernel⟩
    exact herased _ hleft (.inl rfl)
  · unfold IsFile
    decide +kernel

end MiuiserPeruser.Gdpr
