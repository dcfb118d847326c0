import MiuiserPeruser.Krang.Poll

/-!
# krangd — the name of a package (`krangd_uid.c`)

`krang_parse_package_output` walks over the text with a cursor: it notes the
end of the line, skips blanks and compares. It never gets beyond the end it
noted, since nothing it skips or compares with holds a newline, so it reads
line by line (`scanPackage_eq`), and what it returns is what the first line
says that names a package (`package_output_exact`).
-/

namespace MiuiserPeruser.Krang

open CText

/-! ## The scan -/

/-- What is skipped in front of `package:`, and behind it. -/
def isIndent (c : Char) : Bool := c ∈ [' ', '\t', '\r']
def isGap (c : Char) : Bool := c ∈ [' ', '\t']

/-- From `strchr(cursor, '\n')` on; nothing where it returns NULL. -/
def lineEnd (cursor : List Char) : List Char := cursor.dropWhile (· ≠ '\n')

/-- The part of the loop behind `package:`: what is returned, and the string
in `package`. -/
def takePackage (package_size : Nat) (cursor : List Char) : ParseStatus × List Char :=
  let name := (cursor.drop 8).dropWhile isGap
  let length := (name.takeWhile fun c => !isspace c).length
  if length = 0 ∨ length ≥ package_size then (.error, [])
  else if (name.take length).all packageCharacterOk then (.found, name.take length)
  else (.error, [])

/-- The cursor moves on. -/
theorem length_lineEnd_lt {c newline : Char} {cs next : List Char}
    (h : lineEnd (c :: cs) = newline :: next) : next.length < (c :: cs).length := by
  have hshort := (List.dropWhile_suffix (l := c :: cs) (· ≠ '\n')).length_le
  rw [← lineEnd, h, List.length_cons] at hshort
  exact hshort

/-- The loop of `krang_parse_package_output`. -/
def scanPackage (package_size : Nat) : List Char → ParseStatus × List Char
  | [] => (.notFound, [])
  | c :: cs =>
      let cursor := (c :: cs).dropWhile isIndent
      if "package:".toList <+: cursor then takePackage package_size cursor
      else
        match _hend : lineEnd (c :: cs) with
        | [] => (.notFound, [])
        | _ :: next => scanPackage package_size next
termination_by cursor => cursor.length
decreasing_by exact length_lineEnd_lt ‹_›

/-- `krang_parse_package_output`: what it returns, and the string in `package`
behind it. -/
def parsePackageOutput (package output : List Char) (package_size : Nat) : ParseStatus × List Char :=
  if package_size < 2 then (.error, package) else scanPackage package_size output

/-! ## Lines -/

/-- The line names a package. -/
def IsPackageLine (line : List Char) : Prop := "package:".toList <+: line.dropWhile isIndent

instance : DecidablePred IsPackageLine :=
  fun line => inferInstanceAs (Decidable ("package:".toList <+: line.dropWhile isIndent))

/-- The name in such a line. -/
def packageName (line : List Char) : List Char :=
  (((line.dropWhile isIndent).drop 8).dropWhile isGap).takeWhile fun c => !isspace c

def firstPackageLine (text : List Char) : Option (List Char) :=
  (textLines text).find? fun line => IsPackageLine line

/-- A name that fits the buffer, with its NUL, and has no other characters
than it may have. -/
def GoodName (package_size : Nat) (name : List Char) : Prop :=
  1 ≤ name.length ∧ name.length ≤ package_size - 1 ∧
    ∀ c ∈ name, c.isAlphanum = true ∨ c = '.' ∨ c = '_' ∨ c = '-'

instance (package_size : Nat) (name : List Char) : Decidable (GoodName package_size name) :=
  @instDecidableAnd _ _ _ (@instDecidableAnd _ _ _ (List.decidableBAll _ name))

/-- What a line says about the package. -/
def answer (package_size : Nat) : Option (List Char) → ParseStatus × List Char
  | none => (.notFound, [])
  | some line =>
      if GoodName package_size (packageName line) then (.found, packageName line) else (.error, [])

section Line

variable {line rest text : List Char} {p : Char → Bool}

/-- The rest of a text behind a line. -/
def IsBehindLine (rest : List Char) : Prop := ∀ c r, rest = c :: r → c = '\n'

theorem IsBehindLine.stops (hp : p '\n' = false) (hrest : IsBehindLine rest) :
    ∀ c r, rest = c :: r → p c = false := by
  intro c r heq
  rw [hrest c r heq]
  exact hp

theorem dropWhile_line (hp : p '\n' = false) (hrest : IsBehindLine rest) :
    (line ++ rest).dropWhile p = line.dropWhile p ++ rest := dropWhile_append_rest (hrest.stops hp) line

theorem takeWhile_line (hp : p '\n' = false) (hrest : IsBehindLine rest) :
    (line ++ rest).takeWhile p = line.takeWhile p := takeWhile_append_rest (hrest.stops hp) line

/-- `package:` is not found across the end of a line. -/
theorem prefix_line_iff {word : List Char} (hword : '\n' ∉ word) (hrest : IsBehindLine rest) :
    word <+: line ++ rest ↔ word <+: line := by
  refine ⟨fun h => ?_, fun h => h.trans (List.prefix_append line rest)⟩
  rcases prefix_append_cases h with h | ⟨q, hq, hsplit⟩
  · exact h
  · cases q with
    | nil =>
        have hall : word = line := hsplit.trans (List.append_nil line)
        exact hall ▸ List.prefix_refl word
    | cons c q =>
        obtain ⟨r, rfl⟩ := hq
        obtain rfl := hrest c (q ++ r) rfl
        rw [hsplit] at hword
        exact absurd (List.mem_append_right line List.mem_cons_self) hword

theorem goodName_iff {package_size : Nat} {name : List Char} :
    GoodName package_size name ↔ ¬ (name.length = 0 ∨ name.length ≥ package_size) ∧
      name.all packageCharacterOk = true := by
  have hall : name.all packageCharacterOk = true ↔
      ∀ c ∈ name, c.isAlphanum = true ∨ c = '.' ∨ c = '_' ∨ c = '-' := by
    simp [packageCharacterOk]
  rw [hall, GoodName]
  constructor
  · rintro ⟨hpos, hfits, hchars⟩
    exact ⟨by omega, hchars⟩
  · rintro ⟨hlength, hchars⟩
    exact ⟨by omega, by omega, hchars⟩

/-- The answer, in the order of the checks. -/
theorem answer_some (package_size : Nat) (line : List Char) :
    answer package_size (some line) =
      if (packageName line).length = 0 ∨ (packageName line).length ≥ package_size then (.error, [])
      else if (packageName line).all packageCharacterOk then (.found, packageName line)
      else (.error, []) := by
  rw [answer]
  by_cases hlength : (packageName line).length = 0 ∨ (packageName line).length ≥ package_size
  · rw [if_pos hlength, if_neg fun hgood => (goodName_iff.mp hgood).1 hlength]
  · by_cases hall : (packageName line).all packageCharacterOk = true
    · rw [if_neg hlength, if_pos hall, if_pos (goodName_iff.mpr ⟨hlength, hall⟩)]
    · rw [if_neg hlength, if_neg hall, if_neg fun hgood => hall (goodName_iff.mp hgood).2]

/-- What is taken from the cursor is what its line says. -/
theorem takePackage_line {package_size : Nat} (h : IsPackageLine line) (hrest : IsBehindLine rest) :
    takePackage package_size (line.dropWhile isIndent ++ rest) = answer package_size (some line) := by
  have hlong : 8 ≤ (line.dropWhile isIndent).length := List.IsPrefix.length_le h
  have hname : (line.dropWhile isIndent ++ rest).drop 8 =
      (line.dropWhile isIndent).drop 8 ++ rest := List.drop_append_of_le_length hlong
  have htaken : (((line.dropWhile isIndent).drop 8).dropWhile isGap ++ rest).takeWhile
      (fun c => !isspace c) = packageName line := takeWhile_line (by decide) hrest
  have htake : (((line.dropWhile isIndent).drop 8).dropWhile isGap ++ rest).take
      (packageName line).length = packageName line := by
    have hprefix := List.takeWhile_prefix (l := ((line.dropWhile isIndent).drop 8).dropWhile isGap ++ rest)
      fun c => !isspace c
    rw [htaken] at hprefix
    exact (List.prefix_iff_eq_take.mp hprefix).symm
  unfold takePackage
  rw [hname, dropWhile_line (by decide) hrest]
  simp only [htaken, htake]
  exact (answer_some package_size line).symm

theorem scanPackage_cons (package_size : Nat) (c : Char) (cs : List Char) :
    scanPackage package_size (c :: cs) =
      if "package:".toList <+: (c :: cs).dropWhile isIndent
      then takePackage package_size ((c :: cs).dropWhile isIndent)
      else scanPackage package_size (lineEnd (c :: cs)).tail := by
  rw [scanPackage]
  split
  · rfl
  · split
    · rename_i hend
      rw [hend, List.tail_nil, scanPackage]
    · rename_i hend
      rw [hend, List.tail_cons]

/-- A turn of the loop, on a line and what is behind it. -/
theorem scanPackage_line {package_size : Nat} (hnl : '\n' ∉ line) (hrest : IsBehindLine rest)
    (hne : line ++ rest ≠ []) :
    scanPackage package_size (line ++ rest) =
      if IsPackageLine line then answer package_size (some line)
      else scanPackage package_size rest.tail := by
  have hcursor : (line ++ rest).dropWhile isIndent = line.dropWhile isIndent ++ rest :=
    dropWhile_line (by decide) hrest
  have hend : lineEnd (line ++ rest) = rest := by
    refine dropWhile_append_of_stop (fun c hc => ?_) fun c r h => ?_
    · exact decide_eq_true fun h => hnl (h ▸ hc)
    · rw [hrest c r h]
      rfl
  obtain ⟨c, cs, hcons⟩ := List.exists_cons_of_ne_nil hne
  rw [hcons, scanPackage_cons, ← hcons, hcursor, hend]
  by_cases hpackage : IsPackageLine line
  · rw [if_pos hpackage, if_pos ((prefix_line_iff (by decide) hrest).mpr hpackage),
      takePackage_line hpackage hrest]
  · rw [if_neg hpackage, if_neg fun h => hpackage ((prefix_line_iff (by decide) hrest).mp h)]

/-- The first line of a text, and what is behind it. -/
theorem exists_line (text : List Char) :
    ∃ line rest, text = line ++ rest ∧ '\n' ∉ line ∧ IsBehindLine rest := by
  refine ⟨text.takeWhile (· ≠ '\n'), text.dropWhile (· ≠ '\n'),
    List.takeWhile_append_dropWhile.symm, fun hmem => ?_, fun c r hrest => ?_⟩
  · have hstop := List.mem_takeWhile_imp hmem
    simp at hstop
  · have hhead := List.head?_dropWhile_not (· ≠ '\n') text
    rw [hrest] at hhead
    simpa using hhead

/-- **The scan goes line by line.** -/
theorem scanPackage_eq (package_size : Nat) (text : List Char) :
    scanPackage package_size text = answer package_size (firstPackageLine text) := by
  induction hlength : text.length using Nat.strong_induction_on generalizing text with
  | _ n ih =>
      by_cases hne : text = []
      · rw [hne, scanPackage]
        rfl
      · obtain ⟨line, rest, rfl, hnl, hrest⟩ := exists_line text
        rw [scanPackage_line hnl hrest hne, firstPackageLine]
        cases rest with
        | nil =>
            rw [List.append_nil] at hne ⊢
            rw [textLines_line hnl hne, List.tail_nil, scanPackage, List.find?_singleton]
            split
            · rename_i h
              rw [if_pos (decide_eq_true h)]
            · rename_i h
              rw [if_neg (by simpa using h)]
              rfl
        | cons c next =>
            obtain rfl := hrest c next rfl
            rw [List.length_append, List.length_cons] at hlength
            rw [textLines_append hnl, List.tail_cons, List.find?_cons, ih next.length (by omega) next rfl]
            split
            · rename_i h
              rw [decide_eq_true h]
            · rename_i h
              rw [decide_eq_false h]
              rfl

end Line

/-- What is returned to the poll. -/
def Package.returned : Package → ParseStatus × List Char
  | .found name => (.found, name)
  | .error => (.error, [])
  | .notFound => (.notFound, [])

/-- The poll reads the lines of the answer in the same way. -/
theorem returned_packageOfLines (package_size : Nat) (lines : List (List Char)) :
    (packageOfLines package_size lines).returned =
      answer package_size (lines.find? fun line => IsPackageLine line) := by
  induction lines with
  | nil => rfl
  | cons line lines ih =>
      have hline : (line.dropWhile (· ∈ [' ', '\t', '\r'])).take 8 = "package:".toList ↔
          IsPackageLine line := by
        rw [IsPackageLine, List.prefix_iff_eq_take, eq_comm]
        exact Iff.rfl
      rw [packageOfLines, List.find?_cons]
      simp only [hline]
      by_cases h : IsPackageLine line
      · have hname : (((line.dropWhile (· ∈ [' ', '\t', '\r'])).drop 8).dropWhile
            (· ∈ [' ', '\t'])).takeWhile (fun c => !isspace c) = packageName line := rfl
        rw [if_pos h, decide_eq_true h, hname]
        simp only [apply_ite Package.returned]
        exact (answer_some package_size line).symm
      · rw [if_neg h, decide_eq_false h]
        exact ih

theorem returned_krangParsePackageOutput {package_size : Nat} (hsize : 2 ≤ package_size)
    (package text : List Char) :
    (krangParsePackageOutput text package_size).returned =
      parsePackageOutput package text package_size := by
  rw [krangParsePackageOutput, if_neg (by omega), parsePackageOutput, if_neg (by omega),
    scanPackage_eq]
  exact returned_packageOfLines package_size (textLines text)

/-- **What the scan returns.** For every text: whether a line names a package,
whether the name in the first such line is a good one, and that name. -/
theorem package_output_exact {package_size : Nat} (hsize : 2 ≤ package_size)
    (package text : List Char) :
    let r := parsePackageOutput package text package_size
    (r.1 = .notFound ↔ ∀ line ∈ textLines text, ¬ IsPackageLine line) ∧
    (r.1 = .found ↔
      ∃ line, firstPackageLine text = some line ∧ GoodName package_size (packageName line)) ∧
    (r.1 = .error ↔
      ∃ line, firstPackageLine text = some line ∧ ¬ GoodName package_size (packageName line)) ∧
    (∀ line, r.1 = .found → firstPackageLine text = some line → r.2 = packageName line) ∧
    (r.1 ≠ .found → r.2 = []) := by
  intro r
  have hr : r = answer package_size (firstPackageLine text) := by
    rw [← scanPackage_eq]
    exact if_neg (by omega)
  have hnone : firstPackageLine text = none ↔ ∀ line ∈ textLines text, ¬ IsPackageLine line := by
    rw [firstPackageLine, List.find?_eq_none]
    simp only [decide_eq_true_eq]
  rw [hr, ← hnone]
  cases hfirst : firstPackageLine text with
  | none => simp [answer]
  | some line =>
      by_cases hgood : GoodName package_size (packageName line)
      · simp [answer, hgood]
      · simp [answer, hgood]

/-- A name that just fits, behind a line of something else. -/
theorem package_of_exact_size :
    (parsePackageOutput "old".toList "WARNING: linker\n\t package: com.a uid:10123\r\n".toList 6) =
      (.found, "com.a".toList) := by
  obtain ⟨-, hfound, -, hname, -⟩ := package_output_exact (show 2 ≤ 6 by decide)
    "old".toList "WARNING: linker\n\t package: com.a uid:10123\r\n".toList
  have hfirst : firstPackageLine "WARNING: linker\n\t package: com.a uid:10123\r\n".toList =
      some "\t package: com.a uid:10123\r".toList := by decide
  have hpackage : packageName "\t package: com.a uid:10123\r".toList = "com.a".toList := by decide
  have hgood : GoodName 6 "com.a".toList := by decide
  have hstatus := hfound.mpr ⟨_, hfirst, hpackage ▸ hgood⟩
  exact Prod.ext hstatus ((hname _ hstatus hfirst).trans hpackage)

end MiuiserPeruser.Krang
