import MiuiserPeruser.Lib.LineTokens
import MiuiserPeruser.Tigerclaw.Baseline
import MiuiserPeruser.Tigerclaw.Probe

/-!
# tigerclawd — the certificate sections (`tigerclawd.c`)

`parse_cert_section` reads a listing of `sha256sum` from a copy of 32767
bytes, half of what the section reader delivers and less than 512 lines
with the paths of the two directories take. A line is read if its digits and
the first byte of its path are in the copy (`readLines`); what is behind it
is overlooked. So a listing gives an entry for each line the array has room
for just if the last of these lines begins early enough
(`overlooksNone_iff`).
-/

namespace MiuiserPeruser.Tigerclaw

open CText Probe

/-! ## Reading a section -/

/-- The format of the lines. -/
def certFields : List Directive := percentS 127 ++ .space :: percentS 511

/-- What a line is parsed to. -/
def certOf (isSystem : Bool) (line : List Char) : Option CertEntry :=
  let values := scanf certFields line
  let hash := textAt values 0
  if values.length = 2 ∧ 64 ≤ hash.length then
    some {
      fingerprint := hash.take 64
      subject := snprintf 256 (afterLast '/' (textAt values 1))
      isSystem := isSystem
      isNew := false }
  else none

theorem certs_fit_concat {certs : List CertEntry} (c : CertEntry) (h : certs.length < maxCerts) :
    (certs ++ [c]).length ≤ maxCerts := by
  rw [List.length_append, List.length_singleton]
  exact h

/-- A pass of the loop of `parse_cert_section`, which ends once the array is
full. -/
def certLine (isSystem : Bool) (rpt : Report) (line : List Char) : Report :=
  if h : rpt.certs.length < maxCerts then
    match certOf isSystem line with
    | some c => { rpt with certs := rpt.certs ++ [c], certs_fit := certs_fit_concat c h }
    | none => rpt
  else rpt

/-- The bytes of a section that are copied. -/
def certBufSize : Nat := 32768

/-- `parse_cert_section`. -/
def parseCertSection (raw : Option (List Char)) (isSystem : Bool) (rpt : Report) : Report :=
  match raw with
  | none => rpt
  | some [] => rpt
  | some raw => (lineTokens (raw.take (certBufSize - 1))).foldl (certLine isSystem) rpt

theorem no_certs_fit : ([] : List CertEntry).length ≤ maxCerts := Nat.zero_le _

/-- `probe_certs`. -/
def probeCerts (p : ProbeState) (rpt : Report) : Report × ProbeState :=
  let rpt := { rpt with
    certs := []
    certs_fit := no_certs_fit
    delta := { rpt.delta with certDeltaNew := 0, certDeltaRemoved := 0 } }
  let (system, p) := probeSection p "SYSCERTS".toList
  let rpt := parseCertSection system true rpt
  let (user, p) := probeSection p "USERCERTS".toList
  (parseCertSection user false rpt, p)

/-! ## Listings -/

/-- A line of `sha256sum`. The paths are those `find` prints, which begin
with the directory. -/
structure CertLine where
  hash : List Char
  path : List Char
  hex : hash.length = 64 ∧ ∀ c ∈ hash, isxdigit c = true
  named : ∃ c rest, path = c :: rest ∧ isspace c = false
  line : '\n' ∉ path ∧ '\x00' ∉ path

def CertLine.text (l : CertLine) : List Char := l.hash ++ ' ' :: ' ' :: l.path

/-- What `sha256sum` prints. -/
def listing (lines : List CertLine) : List Char := textLines (lines.map CertLine.text)

/-- Where a line begins. -/
def lineStart (lines : List CertLine) (i : Nat) : Nat := (listing (lines.take i)).length

/-- The text is what the probe holds for the tag; the scratch area takes in
65535 bytes of it. -/
def Delivers (p : ProbeState) (tag : String) (text : List Char) : Prop :=
  (probeSection p tag.toList).1 = some ((text.take (sectionScratchSize - 1)).rdropWhile isEol)

/-- The lines whose digits and whose first byte of the path are in the first
`room` bytes. -/
def readLines : Nat → List CertLine → List CertLine
  | _, [] => []
  | room, l :: lines =>
      if l.text.length < room then l :: readLines (room - l.text.length - 1) lines
      else if 66 < room then [l]
      else []

section Lines

variable {isSystem : Bool} {lines : List CertLine} {room : Nat}

theorem CertLine.isLine (l : CertLine) : IsLine l.text := by
  obtain ⟨hlen, hhex⟩ := l.hex
  have hne : l.hash ≠ [] := List.ne_nil_of_length_eq_add_one hlen
  have hno : '\n' ∉ l.hash := fun h => absurd (hhex _ h) (by decide)
  refine ⟨List.append_ne_nil_of_left_ne_nil hne _, ?_⟩
  simp [CertLine.text, hno, l.line.1]

theorem CertLine.length_text (l : CertLine) : l.text.length = 66 + l.path.length := by
  simp only [CertLine.text, List.length_append, List.length_cons, l.hex.1]
  omega

theorem certFields_words : ∀ d ∈ certFields, d.IsWord := by
  simp [certFields, percentS, Directive.IsWord]

/-- A line with a part of its path is read. -/
theorem certOf_read (l : CertLine) (h : 66 < room) :
    (certOf isSystem (l.text.take room)).map CertEntry.fingerprint = some l.hash := by
  obtain ⟨c, rest, hpath, hc⟩ := l.named
  obtain ⟨hlen, hhex⟩ := l.hex
  obtain ⟨k, rfl⟩ : ∃ k, room = l.hash.length + (k + 3) := ⟨room - 67, by omega⟩
  have htake : l.text.take (l.hash.length + (k + 3)) = l.hash ++ ([' ', ' '] ++ c :: rest.take k) := by
    rw [CertLine.text, List.take_length_add_append, hpath]
    rfl
  have hhash : scanf certFields (l.hash ++ ([' ', ' '] ++ c :: rest.take k)) =
      .text l.hash :: scanf (.space :: percentS 511) ([' ', ' '] ++ c :: rest.take k) :=
    scanf_word (List.ne_nil_of_length_eq_add_one hlen) (fun c hc => isspace_of_isxdigit (hhex c hc))
      (by omega) (stops_cons.mpr (by decide))
  have hblanks : scanf (.space :: percentS 511) ([' ', ' '] ++ c :: rest.take k) =
      scanf (percentS 511) (c :: rest.take k) := scanf_blanks (forall_mem_of_all (by decide)) (stops_cons.mpr hc)
  have hword : ∃ word, scanf (percentS 511) (c :: rest.take k) = [.text word] := by
    have hstart : scanf (percentS 511) ([] ++ c :: rest.take k) =
        scanf [.chars 511 fun c => !isspace c] (c :: rest.take k) := scanf_blanks (by simp) (stops_cons.mpr hc)
    refine ⟨((c :: rest.take k).takeWhile fun c => !isspace c).take 511, hstart.trans ?_⟩
    show (if _ = [] then _ else _) = _
    rw [if_neg]
    · rfl
    · rw [List.takeWhile_cons_of_pos (by simp [hc])]
      exact List.cons_ne_nil _ _
  obtain ⟨word, hword⟩ := hword
  have hvalues : scanf certFields (l.text.take (l.hash.length + (k + 3))) = [.text l.hash, .text word] := by
    rw [htake, hhash, hblanks, hword]
  have htext : textAt [.text l.hash, .text word] 0 = l.hash := rfl
  rw [certOf, hvalues, htext, if_pos ⟨rfl, by omega⟩]
  exact congrArg some (List.take_of_length_le (by omega))

/-- One that is cut off in front of it is not. -/
theorem certOf_unread (l : CertLine) (h : room ≤ 66) : certOf isSystem (l.text.take room) = none := by
  obtain ⟨hlen, hhex⟩ := l.hex
  have htake : l.text.take room = l.hash.take room ++ [' ', ' '].take (room - 64) := by
    have hsplit : l.text = (l.hash ++ [' ', ' ']) ++ l.path := by simp [CertLine.text]
    rw [hsplit, List.take_append_of_le_length (by simp; omega), List.take_append, hlen]
  have hblanks : ∀ c ∈ [' ', ' '].take (room - 64), isspace c = true := fun c hc =>
    forall_mem_of_all (p := fun c => isspace c = true) (by decide) c (List.mem_of_mem_take hc)
  have hvalues : (scanf certFields (l.hash.take room)).length ≤ 1 := by
    by_cases hnil : l.hash.take room = []
    · rw [hnil]
      decide
    · have hhash : scanf certFields (l.hash.take room ++ []) =
          .text (l.hash.take room) :: scanf (.space :: percentS 511) [] :=
        scanf_word hnil (fun c hc => isspace_of_isxdigit (hhex c (List.mem_of_mem_take hc)))
          (by rw [List.length_take]; omega) (stops_nil _)
      rw [List.append_nil] at hhash
      rw [hhash]
      exact le_rfl
  rw [certOf, htake, scanf_blanks_behind certFields_words hblanks, if_neg]
  exact fun h => absurd h.1 (by omega)

/-- What is read of a listing that is cut. -/
theorem filterMap_certOf_cut : ((cutTextLines room (lines.map CertLine.text)).filterMap (certOf isSystem)).map
    CertEntry.fingerprint = (readLines room lines).map CertLine.hash := by
  induction lines generalizing room with
  | nil => rfl
  | cons l lines ih =>
      have hread : ∀ {room}, 66 < room → ∃ c, certOf isSystem (l.text.take room) = some c ∧
          c.fingerprint = l.hash := fun h => Option.map_eq_some_iff.mp (certOf_read l h)
      rw [List.map_cons, cutTextLines, readLines]
      by_cases hlt : l.text.length < room
      · have hlen := l.length_text
        obtain ⟨c, hc, hhash⟩ := hread (by omega : 66 < room)
        rw [List.take_of_length_le (by omega)] at hc
        rw [if_pos hlt, if_pos hlt, List.filterMap_cons_some hc, List.map_cons, List.map_cons, hhash, ih]
      · rw [if_neg hlt, if_neg hlt]
        by_cases hroom : 66 < room
        · obtain ⟨c, hc, hhash⟩ := hread hroom
          rw [if_neg (by omega), if_pos hroom, List.filterMap_cons_some hc]
          exact congrArg ([·]) hhash
        · rw [if_neg hroom]
          by_cases hzero : room = 0
          · rw [if_pos hzero]
            rfl
          · rw [if_neg hzero, List.filterMap_cons_none (certOf_unread l (by omega))]
            rfl

theorem readLines_prefix : readLines room lines <+: lines := by
  induction lines generalizing room with
  | nil => exact List.prefix_rfl
  | cons l lines ih =>
      rw [readLines]
      split
      · exact List.cons_prefix_cons.mpr ⟨rfl, ih⟩
      · split
        · exact List.cons_prefix_cons.mpr ⟨rfl, List.nil_prefix⟩
        · exact List.nil_prefix

/-- **Which lines are read.** -/
theorem lt_length_readLines {i : Nat} :
    i < (readLines room lines).length ↔ i < lines.length ∧ lineStart lines i + 66 < room := by
  induction lines generalizing room i with
  | nil => simp [readLines]
  | cons l lines ih =>
      have hlen := l.length_text
      have hstart : ∀ i, lineStart (l :: lines) (i + 1) = l.text.length + 1 + lineStart lines i := by
        intro i
        simp only [lineStart, listing, textLines, List.take_succ_cons, List.map_cons, List.flatMap_cons,
          List.length_append, List.length_singleton]
      have hpath : 0 < l.path.length := by
        obtain ⟨c, rest, h, -⟩ := l.named
        rw [h]
        exact Nat.succ_pos _
      rw [readLines]
      cases i with
      | zero =>
          have hfirst : lineStart (l :: lines) 0 = 0 := rfl
          rw [hfirst, List.length_cons]
          split
          · rw [List.length_cons]
            omega
          · split
            · rw [List.length_singleton]
              omega
            · rw [List.length_nil]
              omega
      | succ i =>
          rw [hstart, List.length_cons]
          split
          · rw [List.length_cons, Nat.add_lt_add_iff_right, ih]
            omega
          · split
            · rw [List.length_singleton]
              omega
            · rw [List.length_nil]
              omega

end Lines

/-! ## The certificates of a listing -/

section Parse

variable {isSystem : Bool} {lines : List CertLine}

/-- The loop appends what it reads, as far as there is room. -/
theorem foldl_certLine (tokens : List (List Char)) (rpt : Report) :
    (tokens.foldl (certLine isSystem) rpt).certs =
      rpt.certs ++ (tokens.filterMap (certOf isSystem)).take (maxCerts - rpt.certs.length) := by
  induction tokens generalizing rpt with
  | nil => simp
  | cons line tokens ih =>
      rw [List.foldl_cons, ih, certLine]
      by_cases hroom : rpt.certs.length < maxCerts
      · rw [dif_pos hroom]
        cases hc : certOf isSystem line with
        | none => rw [List.filterMap_cons_none hc]
        | some c =>
            obtain ⟨k, hk⟩ : ∃ k, maxCerts - rpt.certs.length = k + 1 := ⟨_, (Nat.succ_pred (by omega)).symm⟩
            rw [List.filterMap_cons_some hc, hk, List.take_succ_cons, List.length_append, List.length_singleton,
              Nat.sub_add_eq, hk, List.append_assoc]
            rfl
      · have hfull : maxCerts - rpt.certs.length = 0 := by omega
        rw [dif_neg hroom, hfull, List.take_zero, List.take_zero]

/-- Line ends behind a text make no certificates. -/
theorem filterMap_certOf_eols {w : List Char} (hw : ∀ c ∈ w, isEol c = true) (s : List Char) :
    (lineTokens (s ++ w)).filterMap (certOf isSystem) = (lineTokens s).filterMap (certOf isSystem) := by
  have hreturn : ∀ s, certOf isSystem (s ++ ['\r']) = certOf isSystem s := by
    intro s
    rw [certOf, scanf_blanks_behind certFields_words (forall_mem_of_all (by decide))]
    rfl
  -- a carriage return is at the end of the last line, or a line of its own
  have hlast : ∀ {l}, '\n' ∉ l →
      (lineTokens (l ++ ['\r'])).filterMap (certOf isSystem) = (lineTokens l).filterMap (certOf isSystem) := by
    intro l hl
    have hline : IsLine (l ++ ['\r']) := ⟨by simp, by simp [hl]⟩
    rw [lineTokens_line hline]
    by_cases hnil : l = []
    · have hnone : certOf isSystem ([] ++ ['\r']) = none := (hreturn []).trans rfl
      rw [hnil, List.filterMap_cons_none hnone]
      rfl
    · rw [lineTokens_line ⟨hnil, hl⟩]
      simp only [List.filterMap_cons, hreturn]
  have hsplit : ∀ s : List Char, '\n' ∉ s ∨ ∃ u v, s = u ++ '\n' :: v ∧ '\n' ∉ v := by
    intro s
    induction s with
    | nil => exact .inl List.not_mem_nil
    | cons c s ih =>
        rcases ih with ih | ⟨u, v, rfl, hv⟩
        · by_cases hc : c = '\n'
          · exact .inr ⟨[], s, by rw [hc]; rfl, ih⟩
          · exact .inl (by simp [ih, Ne.symm hc])
        · exact .inr ⟨c :: u, v, rfl, hv⟩
  induction w using List.reverseRecOn with
  | nil => rw [List.append_nil]
  | append_singleton w c ih =>
      rw [← ih fun c hc => hw c (List.mem_append_left _ hc), ← List.append_assoc]
      have hc : c = '\r' ∨ c = '\n' := by simpa [isEol] using hw c (by simp)
      rcases hc with rfl | rfl
      · rcases hsplit (s ++ w) with hno | ⟨u, v, htext, hv⟩
        · exact hlast hno
        · rw [htext, List.append_assoc, List.cons_append, lineTokens_append, lineTokens_append,
            List.filterMap_append, List.filterMap_append, hlast hv]
      · rw [lineTokens_newlines (by simp)]

/-- **What a listing adds to the report.** -/
theorem parseCertSection_certs (isSystem : Bool) (rpt : Report) {p : ProbeState} {tag : String}
    (h : Delivers p tag (listing lines)) :
    ∃ added, (parseCertSection (probeSection p tag.toList).1 isSystem rpt).certs = rpt.certs ++ added ∧
      added.map CertEntry.fingerprint =
        ((readLines (certBufSize - 1) lines).map CertLine.hash).take (maxCerts - rpt.certs.length) := by
  have hparse : ∀ raw, parseCertSection (some raw) isSystem rpt =
      (lineTokens (raw.take (certBufSize - 1))).foldl (certLine isSystem) rpt := by
    intro raw
    cases raw with
    | nil => rfl
    | cons c raw => rfl
  generalize hraw : ((listing lines).take (sectionScratchSize - 1)).rdropWhile isEol = raw
  -- what is stripped are line ends, and the copy has none of them or some
  obtain ⟨w, hw, hsplit⟩ : ∃ w : List Char, (∀ c ∈ w, isEol c = true) ∧
      raw ++ w = (listing lines).take (sectionScratchSize - 1) := by
    refine ⟨((listing lines).take (sectionScratchSize - 1)).rtakeWhile isEol,
      fun c hc => List.mem_rtakeWhile_imp hc, ?_⟩
    rw [← hraw]
    exact List.rdropWhile_append_rtakeWhile
  have hcopy : (listing lines).take (certBufSize - 1) =
      raw.take (certBufSize - 1) ++ w.take (certBufSize - 1 - raw.length) := by
    rw [← List.take_append, hsplit, List.take_take]
    rfl
  have hlines : ∀ l ∈ lines.map CertLine.text, IsLine l := by
    intro l hl
    obtain ⟨l, -, rfl⟩ := List.mem_map.mp hl
    exact l.isLine
  have htokens : (lineTokens (raw.take (certBufSize - 1))).filterMap (certOf isSystem) =
      (cutTextLines (certBufSize - 1) (lines.map CertLine.text)).filterMap (certOf isSystem) := by
    rw [← lineTokens_take hlines, ← filterMap_certOf_eols fun c hc => hw c (List.mem_of_mem_take hc), ← hcopy]
    rfl
  rw [Delivers, hraw] at h
  refine ⟨_, by rw [h, hparse, foldl_certLine], ?_⟩
  rw [List.map_take, htokens, filterMap_certOf_cut]

end Parse

/-! ## When no line is overlooked -/

/-- What the report has of the section: an entry for each line the array has
room for. And another listing, in which one of these lines has other digits,
gives other certificates, in whatever order. -/
structure OverlooksNone (isSystem : Bool) (rpt : Report) (p : ProbeState) (tag : String) (lines : List CertLine) :
    Prop where
  added : ∃ added, (parseCertSection (probeSection p tag.toList).1 isSystem rpt).certs = rpt.certs ++ added ∧
    added.map CertEntry.fingerprint = (lines.map CertLine.hash).take (maxCerts - rpt.certs.length)
  distinguished : ∀ (p' : ProbeState) (front back : List CertLine) (l l' : CertLine),
    lines = front ++ l :: back → front.length < maxCerts - rpt.certs.length → l.hash ≠ l'.hash →
    Delivers p' tag (listing (front ++ l' :: back)) →
    ¬ ((parseCertSection (probeSection p' tag.toList).1 isSystem rpt).certs.map CertEntry.fingerprint).Perm
      ((parseCertSection (probeSection p tag.toList).1 isSystem rpt).certs.map CertEntry.fingerprint)

/-- Every line the array has room for has its digits, the blanks and the
first byte of its path in the first 32767 bytes. -/
def Fits (rpt : Report) (lines : List CertLine) : Prop :=
  ∀ i < min lines.length (maxCerts - rpt.certs.length), lineStart lines i + 66 < certBufSize - 1

instance (rpt : Report) (lines : List CertLine) : Decidable (Fits rpt lines) := by
  unfold Fits
  infer_instance

section Fits

variable {rpt : Report} {lines : List CertLine}

theorem fits_iff_length : Fits rpt lines ↔
    min (readLines (certBufSize - 1) lines).length (maxCerts - rpt.certs.length) =
      min lines.length (maxCerts - rpt.certs.length) := by
  have hle : (readLines (certBufSize - 1) lines).length ≤ lines.length := readLines_prefix.length_le
  constructor
  · intro h
    by_contra hne
    have hlast : (readLines (certBufSize - 1) lines).length < (readLines (certBufSize - 1) lines).length :=
      lt_length_readLines.mpr ⟨by omega, h _ (by omega)⟩
    exact absurd hlast (Nat.lt_irrefl _)
  · intro h i hi
    exact (lt_length_readLines.mp (by omega : i < (readLines (certBufSize - 1) lines).length)).2

theorem take_readLines (n : Nat) : (readLines (certBufSize - 1) lines).take n =
    lines.take (min (readLines (certBufSize - 1) lines).length n) := by
  rw [List.prefix_iff_eq_take.mp readLines_prefix, List.take_take, List.length_take,
    min_eq_left readLines_prefix.length_le, min_comm]

/-- If every line fits, each has its entry. -/
theorem Fits.take_eq (h : Fits rpt lines) : (readLines (certBufSize - 1) lines).take (maxCerts - rpt.certs.length) =
    lines.take (maxCerts - rpt.certs.length) := by
  rw [take_readLines, fits_iff_length.mp h, min_comm, ← List.take_take, List.take_length]

/-- **No certificate is overlooked** if and only if every line the array has
room for begins early enough. -/
theorem overlooksNone_iff (isSystem : Bool) (rpt : Report) (p : ProbeState) (tag : String) (lines : List CertLine)
    (h : Delivers p tag (listing lines)) : OverlooksNone isSystem rpt p tag lines ↔ Fits rpt lines := by
  obtain ⟨added, hcerts, hadded⟩ := parseCertSection_certs isSystem rpt h
  constructor
  · rintro ⟨⟨added', hcerts', hadded'⟩, -⟩
    have hsame : added = added' := List.append_cancel_left (hcerts.symm.trans hcerts')
    rw [← hsame, hadded] at hadded'
    have hlen := congrArg List.length hadded'
    simp only [List.length_take, List.length_map] at hlen
    rw [fits_iff_length]
    omega
  · intro hfits
    have hexact : added.map CertEntry.fingerprint = (lines.map CertLine.hash).take (maxCerts - rpt.certs.length) := by
      rw [hadded, ← List.map_take, hfits.take_eq, List.map_take]
    refine ⟨⟨added, hcerts, hexact⟩, ?_⟩
    intro p' front back l l' hsplit hfront hne h' hperm
    obtain ⟨added', hcerts', hadded'⟩ := parseCertSection_certs isSystem rpt h'
    rw [hcerts, hcerts', List.map_append, List.map_append, List.perm_append_left_iff, hadded', hexact] at hperm
    obtain ⟨k, hk⟩ : ∃ k, maxCerts - rpt.certs.length = front.length + (k + 1) :=
      ⟨maxCerts - rpt.certs.length - front.length - 1, by omega⟩
    -- as many entries as lines, so the other listing has lost none either
    have hlen := hperm.length_eq
    simp only [List.length_take, List.length_map, hsplit, List.length_append, List.length_cons] at hlen
    have hother : (readLines (certBufSize - 1) (front ++ l' :: back)).take (maxCerts - rpt.certs.length) =
        (front ++ l' :: back).take (maxCerts - rpt.certs.length) := by
      have hlength : (front ++ l' :: back).length = front.length + (back.length + 1) := by simp
      rw [take_readLines, min_comm, hlen, ← hlength, ← List.take_take, List.take_length]
    rw [← List.map_take, hother, hsplit, hk, List.take_length_add_append, List.take_succ_cons, ← List.map_take,
      List.take_length_add_append, List.take_succ_cons, List.map_append, List.map_append,
      List.perm_append_left_iff, List.map_cons, List.map_cons] at hperm
    have hcount := hperm.count_eq l.hash
    rw [List.count_cons_self, List.count_cons_of_ne (Ne.symm hne)] at hcount
    omega

/-! ## Two listings -/

/-- The section of a tag is delivered, however long it is. -/
theorem delivers_of_sections {st : ProbeState} (hloaded : st.loaded = true) {pre post : List Section}
    {s : Section} (hbuf : st.buf = sectionsText (pre ++ s :: post)) (hpre : ∀ s' ∈ pre, s.tag ≠ s'.tag)
    {tag : String} (htag : s.tag.name = tag.toList) {c : Char} {rest : List Char}
    (houtput : s.output = c :: rest) (hc : isEol c = false) : Delivers st tag s.output := by
  have hbody : s.output.dropWhile isEol = s.output := by
    rw [houtput]
    exact List.dropWhile_cons_of_neg (by simp [hc])
  have hne : s.output.dropWhile isEol ≠ [] := by
    rw [hbody, houtput]
    exact List.cons_ne_nil _ _
  have hcut := copySection_cut hne (by decide : 0 < sectionScratchSize) (isRest_sectionsText post)
  rw [hbody] at hcut
  unfold Delivers probeSection
  rw [hloaded, hbuf, ← htag, sectionStart_present hpre, if_neg hne, hbody]
  simp only [Bool.not_true, Bool.false_eq_true, if_false, hcut]

theorem sysCerts_word : ∀ c ∈ "SYSCERTS".toList, c ≠ '=' ∧ c ≠ '\r' ∧ c ≠ '\n' := forall_mem_of_all (by decide)

theorem sysCerts_short : "SYSCERTS".toList.length ≤ 59 := by decide

def sysCertsTag : Tag := ⟨"SYSCERTS".toList, sysCerts_word, sysCerts_short⟩

/-- A probe with this listing in it. -/
def certProbe (lines : List CertLine) : ProbeState := ⟨"==SYSCERTS==\n".toList ++ listing lines, true, []⟩

theorem certProbe_delivers {l : CertLine} {lines : List CertLine} (hplain : '=' ∉ listing (l :: lines)) :
    Delivers (certProbe (l :: lines)) "SYSCERTS" (listing (l :: lines)) := by
  have hended : (listing (l :: lines)).getLast? = some '\n' := getLast?_textLines (List.cons_ne_nil _ _)
  obtain ⟨hlen, hhex⟩ := l.hex
  obtain ⟨c, rest, hhash⟩ := List.exists_cons_of_length_eq_add_one hlen
  have hc : isEol c = false := by
    have hdigit : isxdigit c = true := hhex c (by rw [hhash]; exact List.mem_cons_self)
    exact forall_mem_of_all (p := fun c => isEol c = false) (by decide) c (mem_xdigits hdigit)
  have htext : listing (l :: lines) = c :: (rest ++ ' ' :: ' ' :: l.path ++ '\n' :: listing lines) := by
    simp [listing, textLines, CertLine.text, hhash]
  have hbuf : (certProbe (l :: lines)).buf =
      sectionsText ([] ++ Section.plain sysCertsTag false (listing (l :: lines)) (.inr hended) hplain :: []) := by
    simp only [sectionsText, List.nil_append, List.flatMap_cons, List.flatMap_nil, List.append_nil]
    rfl
  exact delivers_of_sections rfl hbuf (fun s' h => absurd h List.not_mem_nil) rfl htext hc

def rootHash : List Char := List.replicate 64 'a'
def rootPath : List Char := "/system/etc/security/cacerts/00673b5b.0".toList

theorem rootHash_hex : rootHash.length = 64 ∧ ∀ c ∈ rootHash, isxdigit c = true := by
  refine ⟨List.length_replicate, fun c hc => ?_⟩
  rw [List.eq_of_mem_replicate hc]
  decide

theorem rootPath_named : ∃ c rest, rootPath = c :: rest ∧ isspace c = false :=
  ⟨'/', rootPath.tail, rfl, by decide⟩

theorem rootPath_line : '\n' ∉ rootPath ∧ '\x00' ∉ rootPath := by decide

/-- A certificate of the system. -/
def rootLine : CertLine := ⟨rootHash, rootPath, rootHash_hex, rootPath_named, rootPath_line⟩

theorem rootLines_plain (n : Nat) : '=' ∉ listing (List.replicate n rootLine) := by
  intro h
  obtain ⟨text, htext, hmem⟩ := List.mem_flatMap.mp h
  obtain ⟨l, hl, rfl⟩ := List.mem_map.mp htext
  obtain rfl : l = rootLine := List.eq_of_mem_replicate hl
  exact absurd hmem (by decide)

def noReport : Report := ⟨0, [], [], ⟨0, 0, 0, []⟩, no_certs_fit, Nat.zero_le _⟩

theorem overlooksNone_iff_two : OverlooksNone true noReport (certProbe [rootLine, rootLine]) "SYSCERTS"
    [rootLine, rootLine] :=
  (overlooksNone_iff true noReport _ "SYSCERTS" [rootLine, rootLine]
    (certProbe_delivers (rootLines_plain 2))).mpr (by decide +kernel)

theorem lineStart_rootLines {n i : Nat} (h : i ≤ n) : lineStart (List.replicate n rootLine) i = 106 * i := by
  have hlen : rootLine.text.length = 105 := by decide
  rw [lineStart, List.take_replicate, min_eq_left h]
  clear h
  induction i with
  | zero => rfl
  | succ i ih =>
      have hstep : listing (List.replicate (i + 1) rootLine) =
          (rootLine.text ++ ['\n']) ++ listing (List.replicate i rootLine) := by
        simp [listing, textLines, List.replicate_succ]
      rw [hstep, List.length_append, List.length_append, hlen, ih, List.length_singleton]
      omega

/-- Of 400 certificates the last 91 are overlooked. -/
theorem certs_overlooked : Delivers (certProbe (List.replicate 400 rootLine)) "SYSCERTS"
      (listing (List.replicate 400 rootLine)) ∧
    (parseCertSection (probeSection (certProbe (List.replicate 400 rootLine)) "SYSCERTS".toList).1 true
      noReport).certs.length = 309 ∧
    ¬ OverlooksNone true noReport (certProbe (List.replicate 400 rootLine)) "SYSCERTS"
      (List.replicate 400 rootLine) := by
  have hdelivers : Delivers (certProbe (List.replicate 400 rootLine)) "SYSCERTS"
      (listing (List.replicate 400 rootLine)) := certProbe_delivers (rootLines_plain 400)
  obtain ⟨added, hcerts, hadded⟩ := parseCertSection_certs true noReport hdelivers
  have hread : (readLines (certBufSize - 1) (List.replicate 400 rootLine)).length = 309 := by
    have hlt : ∀ i, i < (readLines (certBufSize - 1) (List.replicate 400 rootLine)).length ↔
        i < 400 ∧ lineStart (List.replicate 400 rootLine) i + 66 < 32767 := by
      intro i
      rw [lt_length_readLines, List.length_replicate]
      exact Iff.rfl
    have hno : ¬ 309 < (readLines (certBufSize - 1) (List.replicate 400 rootLine)).length := by
      rw [hlt, lineStart_rootLines (by decide)]
      decide
    have hyes : 308 < (readLines (certBufSize - 1) (List.replicate 400 rootLine)).length := by
      rw [hlt, lineStart_rootLines (by decide)]
      decide
    omega
  have hlen := congrArg List.length hadded
  rw [List.length_map, List.length_take, List.length_map, hread] at hlen
  have hcount : (parseCertSection (probeSection (certProbe (List.replicate 400 rootLine)) "SYSCERTS".toList).1 true
      noReport).certs.length = 309 := by
    rw [hcerts, List.length_append, hlen]
    decide
  refine ⟨hdelivers, hcount, ?_⟩
  rintro ⟨⟨added', hcerts', hadded'⟩, -⟩
  have hlen' := congrArg List.length hadded'
  rw [List.length_map, List.length_take, List.length_map, List.length_replicate] at hlen'
  rw [hcerts', List.length_append, hlen'] at hcount
  exact absurd hcount (by decide)

end Fits

end MiuiserPeruser.Tigerclaw
