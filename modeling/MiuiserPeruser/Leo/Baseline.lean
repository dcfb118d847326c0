import Mathlib.Data.Char
import Mathlib.Data.List.Infix
import Mathlib.Data.List.Lex
import Mathlib.Data.List.Sort
import MiuiserPeruser.Lib.JoinedText

/-!
# leo — the baseline of the finding types (`leo_detection.c`)

After the learning scans leo writes the types it has seen into one text of
2048 bytes, and from then on counts the types of a scan that the text does not
hold. A type that is part of another one is no news (`counted_by_name_iff`),
and the type that no longer fits is news for ever.
-/

namespace MiuiserPeruser.Leo

open CText

/-- A row of `detections`, as far as the baseline reads it. -/
structure Finding where
  scanId : Int32
  type : Option (List Char)

/-- `SELECT DISTINCT type`; the code passes over NULL. -/
def distinctTypes (rows : List Finding) : List (List Char) := (rows.filterMap (·.type)).eraseDups

/-- `ORDER BY type`. -/
def orderedTypes (rows : List Finding) : List (List Char) :=
  (distinctTypes rows).insertionSort (· ≤ ·)

/-- `normal_types` with one more type, before its last byte is set. -/
def writeType (normalTypes t : List Char) : List Char :=
  normalTypes ++ t.take (space 2048 2 normalTypes) ++ [','].take 1

/-- The loop of `establish_baseline`. -/
def buildTypes (types : List (List Char)) : List Char :=
  types.foldl (fun normalTypes t => (writeType normalTypes t).take 2047) []

/-- `normal_finding_types` of the row `establish_baseline` inserts. -/
def establishBaseline (rows : List Finding) : List Char := buildTypes (orderedTypes rows)

/-- `count_new_findings` with the types of the last baseline. -/
def countNewFindings (normalFindingTypes : List Char) (rows : List Finding) (currentScanId : Int32) : Nat :=
  let baselineTypes := normalFindingTypes.take 2047
  ((distinctTypes (rows.filter (·.scanId = currentScanId))).filter fun t =>
    (strstr t baselineTypes).isNone).length

/-- The number is that of the types not in the set, and while the text of the
set is built no length reaches 2048 and no size wraps. -/
structure CountedByName (types current : List (List Char)) (count : Nat) : Prop where
  counted : count = (current.filter (· ∉ types)).length
  built : ∀ front t, front ++ [t] <+: types →
    (buildTypes front).length + 2 ≤ 2048 ∧ (writeType (buildTypes front) t).length < 2048

/-- The text of the set, as long as it fits. -/
def typesText (types : List (List Char)) : List Char := clipped ',' 2048 types

theorem length_typesText_le (types : List (List Char)) : (typesText types).length ≤ 2047 :=
  Nat.le_of_lt_succ (length_clipped_lt (by decide))

/-- The types outside of the set that are part of its text. -/
def hidden (types current : List (List Char)) : List (List Char) :=
  current.filter fun t => !types.contains t && decide (t <:+: typesText types)

/-- The types of the set that its text does not hold any more. -/
def cutOff (types current : List (List Char)) : List (List Char) :=
  current.filter fun t => types.contains t && !decide (t <:+: typesText types)

section Text

variable {types front current : List (List Char)} {t : List Char}

theorem buildTypes_concat (front : List (List Char)) (t : List Char) :
    buildTypes (front ++ [t]) = (writeType (buildTypes front) t).take 2047 := by
  rw [buildTypes, List.foldl_append]
  rfl

/-- A type the text has room for. -/
theorem writeType_room (h : (joined ',' front).length ≤ 2046) :
    writeType (joined ',' front) t = clipped ',' 2048 (front ++ [t]) := by
  rw [writeType, space_eq (by show _ + 2 ≤ 2048; omega), clipped_concat (by omega), joined_concat,
    Nat.sub_right_comm, List.append_assoc]
  rfl

theorem buildTypes_eq (h : (joined ',' types.dropLast).length ≤ 2046) :
    buildTypes types = typesText types := by
  induction types using List.reverseRecOn with
  | nil => rfl
  | append_singleton front t ih =>
      rw [List.dropLast_concat] at h
      have hfront := ih (length_joined_dropLast_le.trans h)
      rw [typesText, clipped_of_le (by decide) h] at hfront
      rw [buildTypes_concat, hfront, writeType_room h, typesText]
      exact List.take_of_length_le (length_typesText_le (front ++ [t]))

/-- The text is built without a wrap exactly if all types but the last fit. -/
theorem built_iff : (∀ front t, front ++ [t] <+: types →
      (buildTypes front).length + 2 ≤ 2048 ∧ (writeType (buildTypes front) t).length < 2048) ↔
    (joined ',' types.dropLast).length ≤ 2046 := by
  constructor
  · intro h
    induction types using List.reverseRecOn with
    | nil => exact Nat.zero_le _
    | append_singleton front t ih =>
        have hfront := ih fun f s hf => h f s (hf.trans (List.prefix_append front [t]))
        have hlen := (h front t (List.prefix_refl _)).1
        rw [buildTypes_eq hfront, typesText] at hlen
        rw [List.dropLast_concat]
        exact (length_clipped_le_iff (show 2 ≤ 2048 by decide)).mp (by omega)
  · intro h front t hprefix
    have hroom : (joined ',' front).length ≤ 2046 := by
      obtain ⟨back, rfl⟩ := hprefix
      rw [List.append_assoc, List.singleton_append, List.dropLast_append_of_ne_nil (by simp)] at h
      simp only [joined, List.flatMap_append, List.length_append] at h ⊢
      omega
    rw [buildTypes_eq (length_joined_dropLast_le.trans hroom), typesText, clipped_of_le (by decide) hroom,
      writeType_room hroom]
    exact ⟨by omega, length_clipped_lt (by decide)⟩

theorem hidden_eq (types current : List (List Char)) : hidden types current =
    current.filter fun t => decide (t ∉ types ∧ t <:+: typesText types) := by
  simp [hidden, List.contains_eq_mem]

theorem cutOff_eq (types current : List (List Char)) : cutOff types current =
    current.filter fun t => decide (t ∈ types ∧ ¬ t <:+: typesText types) := by
  simp [cutOff, List.contains_eq_mem]

theorem strstr_isNone : (strstr t (typesText types)).isNone = decide (¬ t <:+: typesText types) := by
  rw [← Bool.coe_iff_coe, decide_eq_true_iff, Option.isNone_iff_eq_none, strstr_eq_none_iff]

/-- What is missing in the count of the types that are not found, and what is
too much in it. -/
theorem count_hidden (types current : List (List Char)) :
    (current.filter fun t => decide (¬ t <:+: typesText types)).length + (hidden types current).length =
      (current.filter (· ∉ types)).length + (cutOff types current).length := by
  have hmissed := List.length_eq_length_filter_add (l := current.filter fun t => decide (¬ t <:+: typesText types))
    (fun t => decide (t ∈ types))
  have hnew := List.length_eq_length_filter_add (l := current.filter (· ∉ types))
    (fun t => decide (t <:+: typesText types))
  simp only [List.filter_filter, ← Bool.decide_and, ← decide_not] at hmissed hnew
  have hcut : (current.filter fun t => decide (t ∈ types ∧ ¬ t <:+: typesText types)) =
      cutOff types current := (cutOff_eq types current).symm
  have hhidden : (current.filter fun t => decide (t <:+: typesText types ∧ t ∉ types)) =
      hidden types current := by
    simp only [hidden_eq, and_comm]
  have hboth : (current.filter fun t => decide (t ∉ types ∧ ¬ t <:+: typesText types)) =
      current.filter fun t => decide (¬ t <:+: typesText types ∧ t ∉ types) := by
    simp only [and_comm]
  rw [hmissed, hnew, hcut, hhidden, hboth]
  omega

end Text

/-- **New types are counted by name exactly if all types of the set but the
last fit, and as many types are hidden as are cut off.** -/
theorem counted_by_name_iff (baselineRows rows : List Finding) (currentScanId : Int32) :
    CountedByName (orderedTypes baselineRows) (distinctTypes (rows.filter (·.scanId = currentScanId)))
        (countNewFindings (establishBaseline baselineRows) rows currentScanId) ↔
      (joined ',' (orderedTypes baselineRows).dropLast).length ≤ 2046 ∧
      (hidden (orderedTypes baselineRows)
          (distinctTypes (rows.filter (·.scanId = currentScanId)))).length =
        (cutOff (orderedTypes baselineRows)
          (distinctTypes (rows.filter (·.scanId = currentScanId)))).length := by
  have hcount : (joined ',' (orderedTypes baselineRows).dropLast).length ≤ 2046 →
      countNewFindings (establishBaseline baselineRows) rows currentScanId =
        ((distinctTypes (rows.filter (·.scanId = currentScanId))).filter fun t =>
          decide (¬ t <:+: typesText (orderedTypes baselineRows))).length := by
    intro hfit
    rw [countNewFindings, establishBaseline, buildTypes_eq hfit]
    simp only [List.take_of_length_le (length_typesText_le _), strstr_isNone]
  have hsum := count_hidden (orderedTypes baselineRows)
    (distinctTypes (rows.filter (·.scanId = currentScanId)))
  constructor
  · rintro ⟨hcounted, hbuilt⟩
    have hfit := built_iff.mp hbuilt
    rw [hcount hfit] at hcounted
    exact ⟨hfit, by omega⟩
  · rintro ⟨hfit, hsame⟩
    exact ⟨by rw [hcount hfit]; omega, built_iff.mpr hfit⟩

/-- A detection of KernelSU. -/
def kernelsuRows : List Finding := [⟨1, some "KERNELSU_DAEMON".toList⟩]

/-- The kernel finding that is named like the beginning of the daemon's is no
news. -/
theorem kernelsu_hidden :
    ¬ CountedByName (orderedTypes kernelsuRows) (distinctTypes
          ([(⟨2, some "KERNELSU".toList⟩ : Finding)].filter (·.scanId = 2)))
        (countNewFindings (establishBaseline kernelsuRows) [⟨2, some "KERNELSU".toList⟩] 2) := by
  intro h
  have hcounted := h.counted
  revert hcounted
  decide +kernel

end MiuiserPeruser.Leo
