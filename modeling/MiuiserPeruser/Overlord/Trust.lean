import MiuiserPeruser.Overlord.Documents
import MiuiserPeruser.Tigerclaw.Document

/-!
# overlordd — what it reads of tigerclawd's document (`tigerclawd.c`, `overlordd.c`)

`read_daemon` takes the first 65535 bytes of a document. The drift stands in
front of everything that grows, and is always read; the trust score stands
behind the certificates, the admins and the kill policies, and is read
exactly if its digits end within the buffer (`reads_back_iff`). Of a score
that is cut, overlordd reads another one, or none.
-/

namespace MiuiserPeruser.Overlord

open CText Lines Tigerclaw

/-! ## A number of a document in lines -/

section Number

variable {front back : List Piece} {indent key : String} {n : Int}

/-- The rest of the document from a key on. -/
def fromKey (key : String) (n : Int) (back : List Piece) : List Char :=
  keyNeedle key.toList ++ ' ' :: (formatD n ++ (',' :: '\n' :: render back))

theorem render_member (front back : List Piece) (indent key : String) (n : Int) :
    render (front ++ member indent key (formatD n) ",\n" ++ back) =
      (render front ++ indent.toList) ++ fromKey key n back := by
  simp [member, fromKey, keyNeedle, render_cons, Piece.text]

/-- The number behind a key, in a document of which the first `size` bytes are read. -/
theorem valueOf_take (hneedle : needle key "\":" = keyNeedle key.toList) (hkey : SearchKey key.toList)
    (hfront : ∀ p ∈ front, Passed key.toList p) (hindent : PlainText indent.toList) (size : Nat) :
    valueOf ((render (front ++ member indent key (formatD n) ",\n" ++ back)).take size) key =
      if (render front).length + indent.toList.length + key.toList.length + 3 ≤ size then
        some (((' ' :: (formatD n ++ (',' :: '\n' :: render back))).take
          (size - ((render front).length + indent.toList.length + key.toList.length + 3))).dropWhile
            (· = ' '))
      else none := by
  have hfirst : strstr (keyNeedle key.toList) ((render front ++ indent.toList) ++ fromKey key n back) =
      some (fromKey key n back) := by
    rw [List.append_assoc, strstr_render hkey hfront, strstr_append_of_head rfl hindent.1]
    exact strstr_of_prefix (List.prefix_append _ _)
  have hlen : (keyNeedle key.toList).length = key.toList.length + 3 := by simp [keyNeedle]
  rw [render_member, valueOf, hneedle, strstr_take hfirst (by simp [keyNeedle]),
    List.length_append, hlen]
  split
  · next hsize =>
      have hsub : size - (render front).length.add indent.toList.length - (key.toList.length + 3) =
          size - ((render front).length + indent.toList.length + key.toList.length + 3) := by
        show size - ((render front).length + indent.toList.length) - _ = _
        omega
      rw [if_pos (by omega), Option.map_some, List.drop_take, fromKey, List.drop_left' hlen]
      exact congrArg (fun j => some ((List.take j _).dropWhile (· = ' '))) hsub
  · next hsize => rw [if_neg (by omega), Option.map_none]

/-- Digits and a sign are no spaces. -/
theorem dropWhile_formatD_take (rest : List Char) (k : Nat) :
    ((formatD n ++ rest).take k).dropWhile (· = ' ') = (formatD n ++ rest).take k := by
  obtain ⟨c, r, hformat⟩ := List.exists_cons_of_ne_nil (formatD_ne_nil n)
  have hc : c ≠ ' ' := by
    rintro rfl
    exact notMem_formatD (by decide) (by decide) n (hformat ▸ List.mem_cons_self)
  cases k with
  | zero => rfl
  | succ k =>
      rw [hformat, List.cons_append, List.take_succ_cons]
      exact List.dropWhile_cons_of_neg (by simpa using hc)

/-- A whole number is not cut. -/
theorem eq_of_getInt {json : Text} {j m : Int} (hdouble : Document.getDouble json key = some (.finite j))
    (h : getInt json key = some m) : m = j := by
  rw [getInt, hdouble] at h
  simp only at h
  split at h
  · cases h
  · simpa [truncate] using (Option.some.inj h).symm

/-- What `strtod` makes of the text of a number that is still `k` bytes long. -/
theorem getInt_of_take {json : Text} {rest : List Char} {k : Nat} (hn : IsInt n)
    (hrest : Stops continuesNumber rest)
    (hdouble : Document.getDouble json key = strtod ((formatD n ++ rest).take k)) :
    getInt json key = some n ↔ (formatD n).length ≤ k := by
  constructor
  · intro h
    by_contra hshort
    have hcut : strtod ((formatD n ++ rest).take k) = none ∨
        ∃ j : Int, j ≠ n ∧ strtod ((formatD n ++ rest).take k) = some (.finite j) :=
      strtod_take_cut (Nat.not_le.mp hshort)
    rcases hcut with hnone | ⟨j, hj, hsome⟩
    · rw [getInt, hdouble, hnone] at h
      cases h
    · rw [hsome] at hdouble
      exact hj (eq_of_getInt hdouble h).symm
  · intro hk
    rw [strtod_take hrest hk] at hdouble
    exact getInt_of_isInt hdouble hn

/-- **A number is read exactly if its digits end within the buffer.** -/
theorem getInt_readDaemon_iff (hn : IsInt n) (hneedle : needle key "\":" = keyNeedle key.toList)
    (hkey : SearchKey key.toList) (hfront : ∀ p ∈ front, Passed key.toList p)
    (hindent : PlainText indent.toList) (hback : '\x00' ∉ render back) :
    (∃ doc, readDaemon (some (render (front ++ member indent key (formatD n) ",\n" ++ back))) =
      some doc ∧ getInt doc key = some n) ↔
      (render front).length + indent.toList.length + key.toList.length + 4 + (formatD n).length ≤
        65535 := by
  have hformat : '\x00' ∉ formatD n := notMem_formatD (by decide) (by decide) n
  have hnul : '\x00' ∉ render (front ++ member indent key (formatD n) ",\n" ++ back) := by
    rw [render_member]
    simp [fromKey, keyNeedle, nul_notMem_render fun p hp => (hfront p hp).nul, hindent.2, hkey.2.2.2, hformat, hback]
  have hread : readDaemon (some (render (front ++ member indent key (formatD n) ",\n" ++ back))) =
      some ⟨(render (front ++ member indent key (formatD n) ",\n" ++ back)).take 65535⟩ := by
    rw [readDaemon, Option.map_some, cstr_eq_self fun h => hnul (List.mem_of_mem_take h)]
  have hstop : Stops continuesNumber (',' :: '\n' :: render back) := stops_cons.mpr (by decide)
  rw [hread]
  simp only [Option.some.injEq, exists_eq_left']
  have hvalue := @valueOf_take front back indent key n hneedle hkey hfront hindent 65535
  generalize hdoc : (render (front ++ member indent key (formatD n) ",\n" ++ back)).take 65535 = text
    at hvalue
  have hempty : strtod [] = none := by decide
  -- with no room for a digit nothing is read
  have hno : Document.getDouble (Text.mk text) key = none → ¬ getInt (Text.mk text) key = some n := by
    intro hnone h
    rw [getInt, hnone] at h
    cases h
  generalize hstart : (render front).length + indent.toList.length + key.toList.length + 3 = start
    at hvalue
  split at hvalue
  · next hsize =>
      cases hj : 65535 - start with
      | zero =>
          rw [hj, List.take_zero, List.dropWhile_nil] at hvalue
          have hnone : Document.getDouble (Text.mk text) key = none := by
            show (valueOf text key).bind strtod = none
            rw [hvalue, Option.bind_some, hempty]
          have hlen := List.length_pos_iff.mpr (formatD_ne_nil n)
          exact iff_of_false (hno hnone) (by omega)
      | succ j =>
          rw [hj, List.take_succ_cons, List.dropWhile_cons_of_pos (by simp),
            dropWhile_formatD_take] at hvalue
          have hdouble : Document.getDouble (Text.mk text) key =
              strtod ((formatD n ++ (',' :: '\n' :: render back)).take j) := by
            show (valueOf text key).bind strtod = _
            rw [hvalue, Option.bind_some]
          rw [getInt_of_take hn hstop hdouble]
          omega
  · next hsize =>
      have hnone : Document.getDouble (Text.mk text) key = none := by
        show (valueOf text key).bind strtod = none
        rw [hvalue, Option.bind_none]
      exact iff_of_false (hno hnone) (by omega)

end Number

/-! ## The lines of tigerclawd -/

/-- The texts of the report have neither quotes nor NULs. -/
structure PlainReport (rpt : FullReport) : Prop where
  timestamp : PlainText rpt.timestamp.text
  codename : PlainText rpt.codename.text
  board : PlainText rpt.board.text
  hardware : PlainText rpt.hardware.text
  hyperos : PlainText rpt.hyperos.text
  secPatch : PlainText rpt.secPatch.text
  certs : ∀ c ∈ rpt.certs, PlainText c.fingerprint ∧ PlainText c.subject
  admins : ∀ a ∈ rpt.admins, PlainText a.package ∧ PlainText a.adminClass
  selinuxMode : PlainText rpt.miui.selinuxMode
  verifiedBoot : PlainText rpt.miui.verifiedBoot
  targets : ∀ t ∈ rpt.miui.killTargets, PlainText t
  anomalies : ∀ a ∈ rpt.anomalies, PlainText a.type ∧ PlainText a.code ∧ PlainText a.detail

theorem plainText_sanitizeField (s : List Char) : PlainText (sanitizeField s) := by
  have hnot : ∀ {c : Char}, c ∈ sanitizeField s → c = '"' ∨ c = '\x00' → False := by
    intro c hc hbad
    obtain ⟨d, -, rfl⟩ := List.mem_map.mp hc
    split at hbad
    · rcases hbad with h | h <;> exact absurd h (by decide)
    · next hkept =>
        rcases hbad with rfl | rfl
        · exact hkept (.inl rfl)
        · exact hkept (.inr (.inr (.inr (by decide))))
  exact ⟨fun h => hnot h (.inl rfl), fun h => hnot h (.inr rfl)⟩

theorem plainText_printInt (n : Int32) : PlainText (printInt n) :=
  ⟨notMem_formatD (by decide) (by decide) _, notMem_formatD (by decide) (by decide) _⟩

theorem plainText_decimal (n : Nat) : PlainText (decimal n) :=
  ⟨fun h => absurd (isDigit_decimal h) (by decide), fun h => absurd (isDigit_decimal h) (by decide)⟩

theorem plainText_boolText (b : Bool) : PlainText (boolText b) := by
  cases b <;> decide +kernel

/-- After `sanitize_report_strings` all texts are plain. -/
theorem plainReport_sanitize (rpt : FullReport) : PlainReport (sanitizeReportStrings rpt) := by
  have hmap : ∀ {α : Type} {as : List α} {f : α → α} {P : α → Prop}, (∀ a, P (f a)) →
      ∀ b ∈ as.map f, P b := by
    intro α as f P h b hb
    obtain ⟨a, -, rfl⟩ := List.mem_map.mp hb
    exact h a
  constructor
  case timestamp =>
    have hchars := rpt.timestamp_chars
    constructor
    · intro h
      exact absurd (hchars _ h) (by decide)
    · intro h
      exact absurd (hchars _ h) (by decide)
  case certs => exact hmap fun c => ⟨plainText_sanitizeField _, plainText_sanitizeField _⟩
  case admins => exact hmap fun a => ⟨plainText_sanitizeField _, plainText_sanitizeField _⟩
  case targets => exact hmap plainText_sanitizeField
  case anomalies =>
    exact hmap fun a => ⟨plainText_sanitizeField _, plainText_sanitizeField _,
      plainText_sanitizeField _⟩
  all_goals exact plainText_sanitizeField _

/-- The keys that are searched for. -/
def keys : List (List Char) := ["drift".toList, "trust_score".toList]

section Passed

variable {key : List Char} {baselineSvc : Int32} {rpt : FullReport}

theorem passed_line {indent k tail : String} {value : List Char} (hkey : key ∈ keys)
    (hfixed : ∀ key ∈ keys, Fixed key indent k tail) (hvalue : PlainText value) :
    ∀ p ∈ member indent k value tail, Passed key p :=
  passed_member (hfixed key hkey) hvalue

theorem passed_lineStr {indent k tail : String} {value : List Char} (hkey : key ∈ keys)
    (hfixed : ∀ key ∈ keys, Fixed key indent k tail) (hvalue : PlainText value) :
    ∀ p ∈ memberStr indent k value tail, Passed key p :=
  passed_memberStr (hfixed key hkey) hvalue.string

/-- The brace behind an entry. -/
theorem passed_closing {t : List Char} (last : Bool) (h : PlainText t) :
    ∀ p ∈ [Piece.plain (t ++ comma last ++ ['\n'])], Passed key p := by
  apply passed_plainLine
  cases last <;> exact ⟨by simp [comma, h.1], by simp [comma, h.2]⟩

theorem passed_headLines (hkey : key ∈ keys) (h : PlainReport rpt) :
    ∀ p ∈ headLines baselineSvc rpt, Passed key p := by
  unfold headLines
  simp only [List.forall_mem_append]
  and_intros
  · exact passed_plainLine (by decide)
  · exact passed_lineStr hkey (by decide) (by decide)
  · exact passed_lineStr hkey (by decide) (by decide)
  · exact passed_line hkey (by decide) (plainText_decimal _)
  · exact passed_lineStr hkey (by decide) h.timestamp
  · exact passed_line hkey (by decide) (plainText_printInt _)
  · exact passed_line hkey (by decide) (plainText_printInt _)
  · exact passed_line hkey (by decide) (by decide)
  · exact passed_lineStr hkey (by decide) h.codename
  · exact passed_lineStr hkey (by decide) h.board
  · exact passed_lineStr hkey (by decide) h.hardware
  · exact passed_lineStr hkey (by decide) h.hyperos
  · exact passed_lineStr hkey (by decide) h.secPatch
  · exact passed_line hkey (by decide) (plainText_boolText _)
  · exact passed_plainLine (by decide)
  · exact passed_line hkey (by decide) (by decide)
  · exact passed_line hkey (by decide) (plainText_printInt _)
  · exact passed_line hkey (by decide) (plainText_printInt _)

theorem passed_integrityLines (hkey : key ∈ keys) :
    ∀ p ∈ integrityLines rpt, Passed key p := by
  unfold integrityLines
  simp only [List.forall_mem_append]
  and_intros
  · exact passed_line hkey (by decide) (plainText_printInt _)
  · exact passed_plainLine (by decide)
  · exact passed_line hkey (by decide) (by decide)
  · exact passed_line hkey (by decide) (plainText_boolText _)
  · exact passed_line hkey (by decide) (plainText_boolText _)
  · exact passed_line hkey (by decide) (plainText_boolText _)
  · exact passed_line hkey (by decide) (plainText_boolText _)
  · exact passed_line hkey (by decide) (plainText_boolText _)
  · exact passed_line hkey (by decide) (plainText_boolText _)
  · exact passed_line hkey (by decide) (plainText_boolText _)
  · exact passed_plainLine (by decide)
  · exact passed_line hkey (by decide) (by decide)
  · exact passed_line hkey (by decide) (plainText_decimal _)
  · exact passed_line hkey (by decide) (plainText_printInt _)
  · exact passed_line hkey (by decide) (plainText_printInt _)
  · exact passed_line hkey (by decide) (by decide)

theorem passed_certLines (hkey : key ∈ keys) {c : CertEntry}
    (h : PlainText c.fingerprint ∧ PlainText c.subject) (last : Bool) :
    ∀ p ∈ certLines c last, Passed key p := by
  unfold certLines
  simp only [List.forall_mem_append]
  and_intros
  · exact passed_plainLine (by decide)
  · exact passed_lineStr hkey (by decide) h.1
  · exact passed_lineStr hkey (by decide) h.2
  · exact passed_line hkey (by decide) (plainText_boolText _)
  · exact passed_line hkey (by decide) (plainText_boolText _)
  · exact passed_closing last (by decide)

theorem passed_adminHead (hkey : key ∈ keys) : ∀ p ∈ adminHead rpt, Passed key p := by
  unfold adminHead
  simp only [List.forall_mem_append]
  and_intros
  · exact passed_plainLine (by decide)
  · exact passed_line hkey (by decide) (by decide)
  · exact passed_line hkey (by decide) (plainText_decimal _)
  · exact passed_line hkey (by decide) (plainText_printInt _)
  · exact passed_line hkey (by decide) (by decide)

theorem passed_adminLines (hkey : key ∈ keys) {a : AdminEntry}
    (h : PlainText a.package ∧ PlainText a.adminClass) (last : Bool) :
    ∀ p ∈ adminLines a last, Passed key p := by
  unfold adminLines
  simp only [List.forall_mem_append]
  and_intros
  · exact passed_plainLine (by decide)
  · exact passed_lineStr hkey (by decide) h.1
  · exact passed_lineStr hkey (by decide) h.2
  · exact passed_line hkey (by decide) (plainText_boolText _)
  · exact passed_line hkey (by decide) (plainText_boolText _)
  · exact passed_line hkey (by decide) (plainText_boolText _)
  · exact passed_closing last (by decide)

theorem passed_miuiHead (hkey : key ∈ keys) (h : PlainReport rpt) :
    ∀ p ∈ miuiHead rpt.miui, Passed key p := by
  unfold miuiHead
  simp only [List.forall_mem_append]
  and_intros
  · exact passed_plainLine (by decide)
  · exact passed_line hkey (by decide) (by decide)
  · exact passed_lineStr hkey (by decide) h.selinuxMode
  · exact passed_lineStr hkey (by decide) h.verifiedBoot
  · exact passed_line hkey (by decide) (plainText_boolText _)
  · exact passed_line hkey (by decide) (plainText_boolText _)
  · exact passed_line hkey (by decide) (by decide)
  · exact passed_line hkey (by decide) (plainText_decimal _)
  · exact passed_line hkey (by decide) (by decide)

theorem passed_targetLines (hkey : key ∈ keys) {target : List Char} (h : PlainText target)
    (last : Bool) : ∀ p ∈ targetLines target last, Passed key p := by
  have hfixed : ∀ last, ∀ key ∈ keys, Fixed key "        " "" (if last = true then "\n" else ",\n") := by
    decide +kernel
  exact passed_item (hfixed last key hkey) h.string

theorem passed_anomalyLines (hkey : key ∈ keys) {a : Anomaly}
    (h : PlainText a.type ∧ PlainText a.code ∧ PlainText a.detail) (last : Bool) :
    ∀ p ∈ anomalyLines a last, Passed key p := by
  unfold anomalyLines
  simp only [List.forall_mem_append]
  and_intros
  · exact passed_plainLine (by decide)
  · exact passed_lineStr hkey (by decide) h.1
  · exact passed_lineStr hkey (by decide) h.2.1
  · exact passed_lineStr hkey (by decide) h.2.2
  · exact passed_closing last (by decide)

theorem passed_middleLines (hkey : key ∈ keys) (h : PlainReport rpt) :
    ∀ p ∈ middleLines rpt, Passed key p := by
  unfold middleLines
  simp only [List.forall_mem_append]
  and_intros
  · exact passed_integrityLines hkey
  · exact forall_mem_entries fun c hc => passed_certLines hkey (h.certs c hc)
  · exact passed_adminHead hkey
  · exact forall_mem_entries fun a ha => passed_adminLines hkey (h.admins a ha)
  · exact passed_miuiHead hkey h
  · exact forall_mem_entries fun t ht => passed_targetLines hkey (h.targets t ht)
  · exact passed_plainLine (by decide)

theorem passed_tailLines (hkey : key ∈ keys) (h : PlainReport rpt) :
    ∀ p ∈ tailLines rpt, Passed key p := by
  unfold tailLines
  simp only [List.forall_mem_append]
  and_intros
  · exact passed_line hkey (by decide) (by decide)
  · exact forall_mem_entries fun a ha => passed_anomalyLines hkey (h.anomalies a ha)
  · exact passed_plainLine (by decide)

end Passed

/-! ## Reading the document back -/

/-- The number read from tigerclawd's document. -/
def Reads (content : List Char) (key : String) (n : Int) : Prop :=
  ∃ doc, readDaemon (some content) = some doc ∧ getInt doc key = some n

/-- overlordd reads what tigerclawd wrote. -/
structure TrustReadsBack (baselineSvc : Int32) (rpt : FullReport) : Prop where
  score : Reads (document baselineSvc rpt) "trust_score" rpt.trustScore.toInt
  drift : Reads (document baselineSvc rpt) "drift" rpt.svcDrift.toInt

section Document

variable {baselineSvc : Int32} {rpt : FullReport}

theorem isInt_toInt (n : Int32) : IsInt n.toInt := ⟨n.le_toInt, n.toInt_lt⟩

theorem length_decimal_le {n k : Nat} (hk : 0 < k) (h : n < 10 ^ k) : (decimal n).length ≤ k :=
  (Nat.length_toDigits_le_iff (by decide) hk).mpr h

theorem length_printInt_le (n : Int32) : (printInt n).length ≤ 11 := by
  have hdigits : (decimal n.toInt.natAbs).length ≤ 10 := by
    apply length_decimal_le (by decide)
    have hlow := n.le_toInt
    have hhigh := n.toInt_lt
    omega
  rw [printInt, formatD, List.length_append]
  split
  · rw [List.length_singleton]
    omega
  · rw [List.length_nil]
    omega

theorem length_boolText_le (b : Bool) : (boolText b).length ≤ 5 := by
  cases b <;> decide

/-- The drift is read from every document. -/
theorem reads_drift (h : PlainReport rpt) :
    Reads (writeJson baselineSvc rpt) "drift" rpt.svcDrift.toInt := by
  have hkey : "drift".toList ∈ keys := by decide
  have hback : '\x00' ∉ render (middleLines rpt ++
      member "  " "trust_score" (printInt rpt.trustScore) ",\n" ++ tailLines rpt) := by
    have hscore : '\x00' ∉ render (member "  " "trust_score" (printInt rpt.trustScore) ",\n") := by
      simp [member, render_cons, Piece.text, (plainText_printInt rpt.trustScore).2]
    simp only [render_append, List.mem_append, not_or]
    exact ⟨⟨nul_notMem_render fun p hp => (passed_middleLines hkey h p hp).nul, hscore⟩,
      nul_notMem_render fun p hp => (passed_tailLines hkey h p hp).nul⟩
  have hindent : PlainText "    ".toList := by decide
  have hfront : ∀ p ∈ headLines baselineSvc rpt, Passed "drift".toList p := passed_headLines hkey h
  have hiff := getInt_readDaemon_iff (isInt_toInt rpt.svcDrift) (by decide) (by decide) hfront hindent
    hback
  have htext : writeJson baselineSvc rpt = render (headLines baselineSvc rpt ++
      member "    " "drift" (formatD rpt.svcDrift.toInt) ",\n" ++ (middleLines rpt ++
        member "  " "trust_score" (printInt rpt.trustScore) ",\n" ++ tailLines rpt)) := by
    simp only [writeJson, printInt, List.append_assoc]
  rw [Reads, htext, hiff, length_headLines]
  have hsequence : (decimal rpt.sequence.toNat).length ≤ 20 :=
    length_decimal_le (by decide) (lt_trans rpt.sequence.toNat_lt (by decide))
  have htimestamp := rpt.timestamp.fits
  have hcodename := rpt.codename.fits
  have hboard := rpt.board.fits
  have hhardware := rpt.hardware.fits
  have hhyperos := rpt.hyperos.fits
  have hsecPatch := rpt.secPatch.fits
  have hpollMs := length_printInt_le rpt.pollMs
  have hlocked := length_boolText_le (isLocked rpt)
  have hcount := length_printInt_le rpt.svcCount
  have hbaseline := length_printInt_le baselineSvc
  have hdrift : (formatD rpt.svcDrift.toInt).length ≤ 11 := length_printInt_le rpt.svcDrift
  have hindent : "    ".toList.length = 4 := rfl
  have hlength : "drift".toList.length = 5 := rfl
  omega

/-- The trust score is read exactly if it ends within the buffer. -/
theorem reads_score_iff (h : PlainReport rpt) :
    Reads (writeJson baselineSvc rpt) "trust_score" rpt.trustScore.toInt ↔
      scoreStart baselineSvc rpt + (printInt rpt.trustScore).length ≤ 65535 := by
  have hkey : "trust_score".toList ∈ keys := by decide
  have hfront : ∀ p ∈ headLines baselineSvc rpt ++ member "    " "drift" (printInt rpt.svcDrift) ",\n" ++
      middleLines rpt, Passed "trust_score".toList p := by
    simp only [List.forall_mem_append]
    refine ⟨⟨passed_headLines hkey h, ?_⟩, passed_middleLines hkey h⟩
    exact passed_member (by decide) (plainText_printInt _)
  have hindent : PlainText "  ".toList := by decide
  have hiff := getInt_readDaemon_iff (isInt_toInt rpt.trustScore) (by decide) (by decide) hfront
    hindent (nul_notMem_render fun p hp => (passed_tailLines hkey h p hp).nul)
  have hlength : "  \"trust_score\": ".toList.length =
      "  ".toList.length + "trust_score".toList.length + 4 := rfl
  have hstart := length_front baselineSvc rpt
  rw [hlength] at hstart
  apply Iff.trans hiff
  rw [← hstart]
  simp only [printInt, Nat.add_assoc]

end Document

/-- **overlordd reads trust score and drift back exactly if the score's digits
end within the first 65535 bytes** of the document. -/
theorem reads_back_iff (baselineSvc : Int32) (rpt : FullReport) :
    TrustReadsBack baselineSvc rpt ↔
      scoreStart baselineSvc (sanitizeReportStrings rpt) + (printInt rpt.trustScore).length ≤ 65535 := by
  have hplain := plainReport_sanitize rpt
  have hiff : Reads (document baselineSvc rpt) "trust_score" rpt.trustScore.toInt ↔ _ :=
    reads_score_iff hplain
  constructor
  · intro h
    exact hiff.mp h.score
  · intro h
    exact ⟨hiff.mpr h, reads_drift hplain⟩

/-- A certificate, in a store of the system or of the user. -/
def crowdedCert (isSystem : Bool) : CertEntry :=
  ⟨List.replicate 64 'a', "5ed36f99.0".toList, isSystem, false⟩

/-- As many lines as a section of the probe has room for, and the rest from the other one. -/
def crowdedCerts : List CertEntry :=
  List.replicate 309 (crowdedCert true) ++ List.replicate 203 (crowdedCert false)

theorem length_crowdedCerts : crowdedCerts.length ≤ maxCerts := by
  rw [crowdedCerts, List.length_append, List.length_replicate, List.length_replicate]
  decide

theorem length_nil_lt : ([] : List Char).length < 32 := by decide

def crowdedTime : List Char := "2026-01-01T00:00:00".toList

theorem length_crowdedTime : crowdedTime.length < 32 := by decide

theorem crowdedTime_chars : ∀ c ∈ crowdedTime, c.isDigit = true ∨ c ∈ ['-', 'T', ':'] :=
  forall_mem_of_all (by decide)

/-- 512 certificates are too long. -/
def crowdedReport : FullReport where
  codename := ⟨[], length_nil_lt⟩
  board := ⟨[], length_nil_lt⟩
  hardware := ⟨[], length_nil_lt⟩
  hyperos := ⟨[], length_nil_lt⟩
  secPatch := ⟨[], length_nil_lt⟩
  bootloader := ⟨[], length_nil_lt⟩
  svcCount := 0
  svcDrift := 0
  suspiciousServices := 0
  propDrift := 0
  trustScore := 100
  anomalies := []
  certDeltaNew := 0
  certDeltaRemoved := 0
  certs := crowdedCerts
  adminDeltaNew := 0
  admins := []
  miui := ⟨[], [], true, false, [], Nat.zero_le maxKillPolicies⟩
  sequence := 1
  timestamp := ⟨crowdedTime, length_crowdedTime⟩
  pollMs := 0
  anomalies_fit := Nat.zero_le maxAnomalies
  certs_fit := length_crowdedCerts
  admins_fit := Nat.zero_le maxAdmins
  timestamp_chars := crowdedTime_chars

/-- Of the certificates of a full store overlordd reads too many bytes to reach the score. -/
theorem crowded_score_unread : ¬ TrustReadsBack 0 crowdedReport := by
  intro h
  have hscore := (reads_score_iff (plainReport_sanitize crowdedReport)).mp h.score
  have hlength : ∀ isSystem, certLength (crowdedCert isSystem).sanitize = if isSystem then 185 else 186 := by
    decide +kernel
  have hcerts : ((sanitizeReportStrings crowdedReport).certs.map certLength).sum = 309 * 185 + 203 * 186 := by
    show ((crowdedCerts.map CertEntry.sanitize).map certLength).sum = _
    rw [crowdedCerts, List.map_append, List.map_append, List.sum_append, List.map_replicate, List.map_replicate,
      List.map_replicate, List.map_replicate, List.sum_replicate_nat, List.sum_replicate_nat, hlength, hlength]
    rfl
  rw [scoreStart, hcerts] at hscore
  omega

end MiuiserPeruser.Overlord
