import MiuiserPeruser.Burned.Props
import MiuiserPeruser.Overlord.Documents

/-!
# overlordd — what it reads of burned's disclosures (`burned.c`, `overlordd.c`)

`burned_prop_fired` finds a property by its key in quotes, which stands
nowhere else in the document, whatever the values say. The object then ends
for it with the next closing brace, so the flag is found exactly if no
brace stands in the key, the label or the value (`disclosed_iff`).
-/

namespace MiuiserPeruser.Overlord

open CText Lines Burned

/-! ## The needle -/

/-- The needle for a property. -/
def propNeedle (key : List Char) : List Char :=
  keyNeedle "key".toList ++ '"' :: (key ++ ['"']).take 120

theorem snprintf_propNeedle (key : String) :
    snprintf 128 ("\"key\":\"".toList ++ key.toList ++ "\"".toList) = propNeedle key.toList := by
  show List.take 127 (("\"key\":\"".toList ++ key.toList) ++ "\"".toList) = _
  rw [List.append_assoc]
  rfl

theorem searchKey_key : SearchKey "key".toList := by decide

theorem searchKey_fired : SearchKey "fired".toList := by decide

/-- A short key is found only as itself. -/
theorem eq_of_take_needle {key k rest : List Char} (hkey : '"' ∉ key) (hk : '"' ∉ k)
    (hshort : k.length ≤ 119) (h : (key ++ ['"']).take 120 <+: k ++ '"' :: rest) : k = key := by
  by_cases hlen : key.length ≤ 119
  · rw [List.take_of_length_le (by simp only [List.length_append, List.length_singleton]; omega)] at h
    have hmatch := (append_quote_prefix_iff hkey hk).mp h
    exact hmatch.1
  · rw [List.take_append_of_le_length (by omega)] at h
    have hquoted : k ++ ['"'] <+: k ++ '"' :: rest := ⟨rest, by simp⟩
    have hcover : k ++ ['"'] <+: key.take 120 := by
      apply List.prefix_of_prefix_length_le hquoted h
      simp only [List.length_append, List.length_singleton, List.length_take]
      omega
    have hmem : '"' ∈ key.take 120 := hcover.subset (by simp)
    exact absurd (List.mem_of_mem_take hmem) hkey

section Needle

variable {key k : List Char}

/-- The field of another key is passed over. -/
theorem skips_keyField (hkey : '"' ∉ key) (hk : '"' ∉ k) (hnul : '\x00' ∉ k) (hshort : k.length ≤ 119)
    (hne : k ≠ key) : Skips (propNeedle key) (field "key" k) := by
  intro rest
  have hvalue : Passed "key".toList (.quoted k [',']) :=
    ⟨⟨quotesEscaped_of_notMem hk, hnul⟩, by decide, ',', [], rfl, by decide, fun h => absurd h (by decide)⟩
  have hother : ¬ '"' :: (key ++ ['"']).take 120 <+:
      [] ++ ((Piece.quoted k [',']).text ++ rest) := by
    rw [List.nil_append, Piece.text, List.cons_append, List.cons_prefix_cons, List.append_assoc]
    exact fun h => hne (eq_of_take_needle hkey hk hshort h.2)
  have htext : render (field "key" k) ++ rest =
      (Piece.quoted "key".toList [':']).text ++ ((Piece.quoted k [',']).text ++ rest) := by
    simp [field, render, Piece.text]
  rw [htext, propNeedle, strstr_own_key searchKey_key (by decide) List.not_mem_nil hother,
    strstr_quoted_passed searchKey_key hvalue]

/-- The field of the key is found. -/
theorem reaches_keyField (hshort : key.length ≤ 119) (ps : List Piece) (found : List Char)
    (hfound : ∃ rest, render ps = found ++ rest) :
    Reaches (propNeedle key) (field "key" key ++ ps) (render (field "key" key) ++ found) := by
  obtain ⟨back, hback⟩ := hfound
  intro rest
  refine ⟨back ++ rest, ?_⟩
  have htext : render (field "key" key ++ ps) ++ rest = render (field "key" key) ++ found ++ (back ++ rest) := by
    rw [render_append, hback]
    simp
  rw [htext]
  apply strstr_of_prefix
  rw [propNeedle, List.take_of_length_le (by simp only [List.length_append, List.length_singleton]; omega)]
  refine ⟨',' :: (found ++ (back ++ rest)), ?_⟩
  simp [field, render, Piece.text, keyNeedle]

end Needle

/-! ## The flag -/

/-- The flag with the brace behind it. -/
def flagText (fired : Bool) : List Char := keyNeedle "fired".toList ++ (boolText fired ++ ['\x7d'])

theorem readBool_boolText (fired : Bool) (rest : List Char) :
    readBool ((boolText fired ++ rest).dropWhile (· = ' ')) = some fired := by
  cases fired with
  | false =>
      have hno : ¬ "true".toList <+: "false".toList ++ rest := fun h =>
        absurd (List.cons_prefix_cons.mp h).1 (by decide)
      show readBool ("false".toList ++ rest) = _
      rw [readBool, if_neg hno, if_pos (List.prefix_append _ _)]
  | true =>
      show readBool ("true".toList ++ rest) = _
      rw [readBool, if_pos (List.prefix_append _ _)]

/-- Behind the key of a property the next flag is its own, if no brace stands in front of it. -/
theorem burnedPropFired_found {json rest : List Char} {key : String} {pre : List Piece} {fired : Bool}
    (hpre : ∀ p ∈ pre, Passed "fired".toList p)
    (hfound : strstr (propNeedle key.toList) json = some (render pre ++ (flagText fired ++ rest))) :
    burnedPropFired json key = if '\x7d' ∈ render pre then none else some fired := by
  have hflag : strstr "\"fired\":".toList (render pre ++ (flagText fired ++ rest)) =
      some (flagText fired ++ rest) := by
    show strstr (keyNeedle "fired".toList) _ = _
    rw [strstr_render searchKey_fired hpre]
    apply strstr_of_prefix
    rw [flagText, List.append_assoc]
    exact List.prefix_append _ _
  have hvalue : readBool (((flagText fired ++ rest).drop "\"fired\":".toList.length).dropWhile
      (· = ' ')) = some fired := by
    have hdrop : (flagText fired ++ rest).drop "\"fired\":".toList.length =
        boolText fired ++ ('\x7d' :: rest) := by
      rw [flagText, List.append_assoc, List.append_assoc]
      rfl
    rw [hdrop, readBool_boolText]
  rw [burnedPropFired, snprintf_propNeedle, hfound]
  simp only
  rw [hflag]
  simp only
  rw [hvalue]
  by_cases hbrace : '\x7d' ∈ render pre
  · obtain ⟨x, y, hsplit, hx⟩ := List.eq_append_cons_of_mem hbrace
    have hend : (render pre ++ (flagText fired ++ rest)).dropWhile (· ≠ '\x7d') =
        '\x7d' :: (y ++ (flagText fired ++ rest)) := by
      rw [hsplit, List.append_assoc, List.dropWhile_append_of_pos]
      · exact List.dropWhile_cons_of_neg (by simp)
      · intro c hc
        have hne : c ≠ '\x7d' := fun h => hx (h ▸ hc)
        simpa using hne
    rw [hend, if_pos hbrace, if_pos]
    refine ⟨List.cons_ne_nil _ _, ?_⟩
    simp only [List.length_cons, List.length_append]
    omega
  · have hend : (render pre ++ (flagText fired ++ rest)).dropWhile (· ≠ '\x7d') =
        (flagText fired ++ rest).dropWhile (· ≠ '\x7d') := by
      apply List.dropWhile_append_of_pos
      intro c hc
      have hne : c ≠ '\x7d' := fun h => hbrace (h ▸ hc)
      simpa using hne
    rw [hend, if_neg hbrace, if_neg]
    rintro ⟨-, hlt⟩
    have hle := (List.dropWhile_suffix (fun c => decide (c ≠ '\x7d')) (l := flagText fired ++ rest)).length_le
    omega

/-! ## Entries -/

section Passed

variable {key : List Char}

/-- The words that are searched for. -/
def words : List (List Char) := ["key".toList, "fired".toList]

theorem passed_field {k : String} {value : List Char} (hkey : key ∈ words)
    (hk : PlainText k.toList) (hne : k.toList ≠ key) (hvalue : StringText value) :
    ∀ p ∈ field k value, Passed key p := by
  have hhead : ∀ key ∈ words, key.head? ≠ some ':' ∧ key.head? ≠ some ',' := by decide
  obtain ⟨hcolon, hcomma⟩ := hhead key hkey
  simp only [field, List.forall_mem_cons, List.not_mem_nil, false_implies, implies_true, and_true]
  exact ⟨⟨hk.string, by decide, ':', [], rfl, hcolon, fun _ => ⟨hne, hk.1⟩⟩,
    hvalue, by decide, ',', [], rfl, hcomma, fun h => absurd h (by decide)⟩

theorem passed_policyBetween (hkey : key ∈ words) (p : PolicyEntry) :
    ∀ q ∈ p.between, Passed key q := by
  have hne : ∀ key ∈ words, "label".toList ≠ key ∧ "value".toList ≠ key := by decide
  obtain ⟨hlabel, hvalue⟩ := hne key hkey
  rw [PolicyEntry.between, List.forall_mem_append]
  constructor
  · exact passed_field hkey (by decide) hlabel (stringText_jsonEscape _ _)
  · exact passed_field hkey (by decide) hvalue (stringText_jsonEscape _ _)

theorem plainText_formatD (n : Int) : PlainText (formatD n) :=
  ⟨notMem_formatD (by decide) (by decide) n, notMem_formatD (by decide) (by decide) n⟩

theorem passed_partnerBetween (hkey : key ∈ words) (p : PartnerEntry) :
    ∀ q ∈ p.between, Passed key q := by
  have hne : ∀ key ∈ words, "value".toList ≠ key ∧ "priority".toList ≠ key ∧ key.head? ≠ some ':' := by
    decide +kernel
  obtain ⟨hvalue, hpriority, hcolon⟩ := hne key hkey
  have hnumber := plainText_formatD p.priority.toInt
  simp only [PartnerEntry.between, List.forall_mem_append, List.forall_mem_cons, List.not_mem_nil,
    false_implies, implies_true, and_true]
  refine ⟨passed_field hkey (by decide) hvalue (stringText_jsonEscape _ _),
    PlainText.string (by decide), ?_, ':', _, rfl, hcolon, fun _ => ⟨hpriority, by decide⟩⟩
  exact ⟨by simp [hnumber.1], by simp [hnumber.2]⟩

theorem passed_firedField (fired last : Bool) : ∀ q ∈ firedField fired last, Passed "key".toList q := by
  simp only [firedField, List.forall_mem_cons, List.not_mem_nil, false_implies, implies_true, and_true]
  have htail : PlainText (':' :: (boolText fired ++ '\x7d' :: (comma last ++ ['\n']))) := by
    cases fired <;> cases last <;> decide +kernel
  exact ⟨PlainText.string (by decide), htail, ':', _, rfl, by decide,
    fun _ => by decide⟩

end Passed

section Entry

theorem passed_open : ∀ q ∈ [Piece.plain "    \x7b".toList], Passed "key".toList q :=
  passed_plainLine (by decide)

theorem passed_signal (p : PartnerEntry) : ∀ q ∈ [Piece.plain "    \x7b".toList] ++
    field "signal" (jsonEscape 128 p.signal), Passed "key".toList q := by
  rw [List.forall_mem_append]
  exact ⟨passed_open, passed_field (by decide) (by decide) (by decide)
    (stringText_jsonEscape _ _)⟩

variable {front between : List Piece} {k : PropKey} {fired : Bool}

theorem quote_notMem_name (k : PropKey) : '"' ∉ k.name.toList :=
  fun h => (k.plain '"' h).1 rfl

theorem escaped_eq (h : k.name.toList.length ≤ 119) : k.escaped = k.name.toList :=
  jsonEscape_of_plain k.plain (by omega)

/-- The entry of another property is passed over. -/
theorem skips_entry (hfront : ∀ p ∈ front, Passed "key".toList p)
    (hbetween : ∀ p ∈ between, Passed "key".toList p) (hshort : k.name.toList.length ≤ 119)
    {key : PropKey} (hne : k ≠ key) (last : Bool) :
    Skips (propNeedle key.name.toList)
      (front ++ field "key" k.escaped ++ between ++ firedField fired last) := by
  have hname : k.name.toList ≠ key.name.toList := by
    intro h
    apply hne
    cases k
    cases key
    simpa [String.toList_inj] using h
  have hnul : '\x00' ∉ k.name.toList := fun h => absurd (k.plain '\x00' h).2.2 (by decide)
  have hskips := skips_keyField (quote_notMem_name key) (quote_notMem_name k) hnul hshort hname
  rw [escaped_eq hshort]
  exact (((skips_of_passed searchKey_key hfront).append hskips).append
    (skips_of_passed searchKey_key hbetween)).append
      (skips_of_passed searchKey_key (passed_firedField fired last))

/-- The entry of the property is found. -/
theorem reaches_entry (hfront : ∀ p ∈ front, Passed "key".toList p)
    (hshort : k.name.toList.length ≤ 119) (last : Bool) :
    Reaches (propNeedle k.name.toList)
      (front ++ field "key" k.escaped ++ between ++ firedField fired last)
      (render (field "key" k.name.toList ++ between) ++ flagText fired) := by
  rw [escaped_eq hshort, List.append_assoc, List.append_assoc]
  apply (skips_of_passed searchKey_key hfront).reaches
  rw [render_append, List.append_assoc]
  apply reaches_keyField hshort
  refine ⟨comma last ++ ['\n'], ?_⟩
  simp [firedField, flagText, keyNeedle, render, Piece.text]

/-- A string does not end in an entry. -/
theorem nul_entry (hfront : ∀ p ∈ front, Passed "key".toList p)
    (hbetween : ∀ p ∈ between, Passed "key".toList p) (last : Bool) :
    ∀ q ∈ front ++ field "key" k.escaped ++ between ++ firedField fired last, '\x00' ∉ q.text := by
  have hescaped : '\x00' ∉ k.escaped := (stringText_jsonEscape 128 k.name.toList).2
  have hkey : ∀ q ∈ field "key" k.escaped, '\x00' ∉ q.text := by
    simp only [field, List.forall_mem_cons, List.not_mem_nil, false_implies, implies_true, and_true]
    constructor
    · decide +kernel
    · simp [Piece.text, hescaped]
  simp only [List.forall_mem_append]
  exact ⟨⟨⟨fun q hq => (hfront q hq).nul, hkey⟩, fun q hq => (hbetween q hq).nul⟩,
    fun q hq => (passed_firedField fired last q hq).nul⟩

end Entry

/-! ## The document -/

section Document

variable {r : ScanResults} {key : PropKey}

theorem passed_headLines_key (r : ScanResults) : ∀ q ∈ Burned.headLines r, Passed "key".toList q := by
  have hline : ∀ {indent k tail : String} {value : List Char}, Fixed "key".toList indent k tail →
      StringText value → ∀ q ∈ memberStr indent k value tail, Passed "key".toList q :=
    fun hfixed hvalue => passed_memberStr hfixed hvalue
  have hnumber : ∀ {indent k tail : String} (n : Int), Fixed "key".toList indent k tail →
      ∀ q ∈ member indent k (formatD n) tail, Passed "key".toList q :=
    fun n hfixed => passed_member hfixed (plainText_formatD n)
  have htimestamp : PlainText r.timestamp :=
    ⟨fun h => absurd (r.timestamp_chars _ h) (by decide),
      fun h => absurd (r.timestamp_chars _ h) (by decide)⟩
  unfold Burned.headLines
  simp only [List.forall_mem_append]
  and_intros
  · exact passed_plainLine (by decide)
  · exact hline (by decide) (PlainText.string (by decide))
  · exact hline (by decide) htimestamp.string
  · exact hnumber _ (by decide)
  · exact hline (by decide) (stringText_jsonEscape _ _)
  · exact hnumber _ (by decide)
  · exact hnumber _ (by decide)
  · exact hnumber _ (by decide)
  · exact hline (by decide) (stringText_jsonEscape _ _)
  · exact hline (by decide) (stringText_jsonEscape _ _)
  · exact passed_member (by decide) (by decide)

theorem passed_nextTable {name : String} (h : Fixed "key".toList "  " name "\n") :
    ∀ q ∈ nextTable name, Passed "key".toList q := by
  rw [nextTable, List.forall_mem_append]
  constructor
  · exact passed_plainLine (by decide)
  · exact passed_member h (by decide)

/-- A document is a string. -/
theorem nul_notMem_writeResults (r : ScanResults) : '\x00' ∉ writeResults r := by
  have hnul : ∀ {ps : List Piece}, (∀ q ∈ ps, Passed "key".toList q) → ∀ q ∈ ps, '\x00' ∉ q.text :=
    fun h q hq => (h q hq).nul
  have hpolicy : ∀ p : PolicyEntry, ∀ last, ∀ q ∈ p.pieces last, '\x00' ∉ q.text :=
    fun p => nul_entry passed_open (passed_policyBetween (by decide) p)
  have hpartner : ∀ p : PartnerEntry, ∀ last, ∀ q ∈ p.pieces last, '\x00' ∉ q.text :=
    fun p => nul_entry (passed_signal p) (passed_partnerBetween (by decide) p)
  apply nul_notMem_render
  unfold ScanResults.pieces
  simp only [List.forall_mem_append]
  and_intros
  · exact hnul (passed_headLines_key r)
  · exact forall_mem_entries fun p _ => hpolicy p
  · exact hnul (passed_nextTable (by decide))
  · exact forall_mem_entries fun p _ => hpolicy p
  · exact hnul (passed_nextTable (by decide))
  · exact forall_mem_entries fun p _ => hpartner p
  · exact hnul (passed_plainLine (by decide))

/-- What fits is read as it is. -/
theorem readDaemon_writeResults (hfits : (writeResults r).length ≤ 65535) :
    readDaemon (some (writeResults r)) = some ⟨writeResults r⟩ := by
  rw [readDaemon, Option.map_some, List.take_of_length_le hfits,
    cstr_eq_self (nul_notMem_writeResults r)]

theorem skips_headLines (key : PropKey) (r : ScanResults) :
    Skips (propNeedle key.name.toList) (Burned.headLines r) :=
  skips_of_passed searchKey_key (passed_headLines_key r)

theorem skips_privacyTable (key : PropKey) :
    Skips (propNeedle key.name.toList) (nextTable "privacy_props") :=
  skips_of_passed searchKey_key (passed_nextTable (by decide))

theorem skips_partnerTable (key : PropKey) :
    Skips (propNeedle key.name.toList) (nextTable "partner_props") :=
  skips_of_passed searchKey_key (passed_nextTable (by decide))

section Search

variable (hshort : ∀ k ∈ r.keys, k.name.toList.length ≤ 119)

include hshort

theorem skips_policies {ps : List PolicyEntry}
    (hps : ∀ p ∈ ps, p ∈ r.binary ++ r.privacy ∧ p.key ≠ key) :
    Skips (propNeedle key.name.toList) (entries PolicyEntry.pieces ps) := by
  apply skips_entries
  intro p hp last
  obtain ⟨hmem, hne⟩ := hps p hp
  exact skips_entry passed_open (passed_policyBetween (by decide) p)
    (hshort _ (policyKey_mem hmem)) hne last

theorem skips_partners (hps : ∀ p ∈ r.partners, p.key ≠ key) :
    Skips (propNeedle key.name.toList) (entries PartnerEntry.pieces r.partners) := by
  apply skips_entries
  intro p hp last
  exact skips_entry (passed_signal p) (passed_partnerBetween (by decide) p)
    (hshort _ (partnerKey_mem hp)) (hps p hp) last

theorem reaches_policies {ps : List PolicyEntry} {p : PolicyEntry} (hp : p ∈ ps)
    (hps : ∀ p ∈ ps, p ∈ r.binary ++ r.privacy) :
    Reaches (propNeedle p.key.name.toList) (entries PolicyEntry.pieces ps)
      (render (field "key" p.key.name.toList ++ p.between) ++ flagText p.fired) := by
  apply reaches_entries hp
  · intro last
    exact reaches_entry passed_open (hshort _ (policyKey_mem (hps p hp))) last
  · intro b hb hne last
    have hkey : b.key ≠ p.key := fun h => hne (policy_eq_of_key (hps b hb) (hps p hp) h)
    exact skips_entry passed_open (passed_policyBetween (by decide) b)
      (hshort _ (policyKey_mem (hps b hb))) hkey last

theorem reaches_partners {p : PartnerEntry} (hp : p ∈ r.partners) :
    Reaches (propNeedle p.key.name.toList) (entries PartnerEntry.pieces r.partners)
      (render (field "key" p.key.name.toList ++ p.between) ++ flagText p.fired) := by
  apply reaches_entries hp
  · intro last
    exact reaches_entry (passed_signal p) (hshort _ (partnerKey_mem hp)) last
  · intro b hb hne last
    have hkey : b.key ≠ p.key := fun h => hne (partner_eq_of_key hb hp h)
    exact skips_entry (passed_signal b) (passed_partnerBetween (by decide) b)
      (hshort _ (partnerKey_mem hb)) hkey last

/-- Where the search for a property of burned's tables arrives. -/
theorem reaches_policy {p : PolicyEntry} (hp : p ∈ r.binary ++ r.privacy) :
    Reaches (propNeedle p.key.name.toList) r.pieces
      (render (field "key" p.key.name.toList ++ p.between) ++ flagText p.fired) := by
  have hbinary : ∀ b ∈ r.binary, b ∈ r.binary ++ r.privacy := fun b hb => List.mem_append_left _ hb
  have hprivacy : ∀ b ∈ r.privacy, b ∈ r.binary ++ r.privacy := fun b hb => List.mem_append_right _ hb
  have hhead := skips_headLines p.key r
  unfold ScanResults.pieces
  rcases List.mem_append.mp hp with hp | hp
  · have hreaches := hhead.reaches (reaches_policies hshort hp hbinary)
    exact ((((hreaches.append _).append _).append _).append _).append _
  · have hskips : Skips (propNeedle p.key.name.toList) (entries PolicyEntry.pieces r.binary) :=
      skips_policies hshort fun b hb => ⟨hbinary b hb, policyKey_ne hb hp⟩
    have hreaches := ((hhead.append hskips).append (skips_privacyTable p.key)).reaches
      (reaches_policies hshort hp hprivacy)
    exact ((hreaches.append _).append _).append _

/-- Everything in front of the partners is passed over. -/
theorem skips_front (hne : ∀ p ∈ r.binary ++ r.privacy, p.key ≠ key) :
    Skips (propNeedle key.name.toList)
      (Burned.headLines r ++ entries PolicyEntry.pieces r.binary ++ nextTable "privacy_props" ++
        entries PolicyEntry.pieces r.privacy ++ nextTable "partner_props") := by
  have hbinary : Skips (propNeedle key.name.toList) (entries PolicyEntry.pieces r.binary) :=
    skips_policies hshort fun b hb => ⟨List.mem_append_left _ hb, hne b (List.mem_append_left _ hb)⟩
  have hprivacy : Skips (propNeedle key.name.toList) (entries PolicyEntry.pieces r.privacy) :=
    skips_policies hshort fun b hb => ⟨List.mem_append_right _ hb, hne b (List.mem_append_right _ hb)⟩
  exact ((((skips_headLines key r).append hbinary).append (skips_privacyTable key)).append
    hprivacy).append (skips_partnerTable key)

theorem reaches_partner {p : PartnerEntry} (hp : p ∈ r.partners) :
    Reaches (propNeedle p.key.name.toList) r.pieces
      (render (field "key" p.key.name.toList ++ p.between) ++ flagText p.fired) := by
  have hfront := skips_front hshort fun q hq => policyKey_ne_partnerKey hq hp
  exact (hfront.reaches (reaches_partners hshort hp)).append _

/-- A property that is not disclosed is not found. -/
theorem burnedPropFired_other (hkey : key ∉ r.keys) :
    burnedPropFired (writeResults r) key.name = none := by
  have hne : ∀ k ∈ r.keys, k ≠ key := by
    rintro k hk rfl
    exact hkey hk
  have hfront := skips_front hshort fun p hp => hne _ (policyKey_mem hp)
  have hpartners := skips_partners hshort fun p hp => hne _ (partnerKey_mem hp)
  have hclose : Skips (propNeedle key.name.toList) [Piece.plain "  ]\n\x7d\n".toList] :=
    skips_of_passed searchKey_key (passed_plainLine (by decide))
  have hskips : Skips (propNeedle key.name.toList) r.pieces := (hfront.append hpartners).append hclose
  have hnone : strstr (propNeedle key.name.toList) (writeResults r) = none := by
    have hrest := hskips []
    rw [List.append_nil] at hrest
    rw [writeResults, hrest]
    rfl
  rw [burnedPropFired, snprintf_propNeedle, hnone]

end Search

/-- What is found of a property that is disclosed. -/
theorem burnedPropFired_reached {between : List Piece} {fired : Bool}
    (hbetween : ∀ q ∈ between, Passed "fired".toList q)
    (h : Reaches (propNeedle key.name.toList) r.pieces
      (render (field "key" key.name.toList ++ between) ++ flagText fired)) :
    burnedPropFired (writeResults r) key.name =
      if '\x7d' ∈ key.name.toList ∨ '\x7d' ∈ render between then none else some fired := by
  obtain ⟨rest, hrest⟩ := h []
  rw [List.append_nil, List.append_assoc] at hrest
  have hname : StringText key.name.toList :=
    ⟨quotesEscaped_of_notMem (quote_notMem_name key),
      fun h => absurd (key.plain '\x00' h).2.2 (by decide)⟩
  have hpre : ∀ q ∈ field "key" key.name.toList ++ between, Passed "fired".toList q := by
    rw [List.forall_mem_append]
    exact ⟨passed_field (by decide) (by decide) (by decide) hname, hbetween⟩
  rw [writeResults, burnedPropFired_found hpre hrest]
  apply if_congr _ rfl rfl
  simp [field, render, Piece.text]

theorem burnedPropFired_policy (hshort : ∀ k ∈ r.keys, k.name.toList.length ≤ 119) {p : PolicyEntry}
    (hp : p ∈ r.binary ++ r.privacy) :
    burnedPropFired (writeResults r) p.key.name =
      if '\x7d' ∈ p.key.name.toList ∨ '\x7d' ∈ fitting 127 p.label ∨ '\x7d' ∈ fitting 511 p.value then
        none
      else some p.fired := by
  have hbetween : '\x7d' ∈ render p.between ↔
      '\x7d' ∈ fitting 127 p.label ∨ '\x7d' ∈ fitting 511 p.value := by
    have hlabel : '\x7d' ∈ jsonEscape 128 p.label ↔ '\x7d' ∈ fitting 127 p.label := brace_mem_jsonEscape
    have hvalue : '\x7d' ∈ jsonEscape 512 p.value ↔ '\x7d' ∈ fitting 511 p.value := brace_mem_jsonEscape
    rw [← hlabel, ← hvalue]
    simp [PolicyEntry.between, field, render, Piece.text]
  rw [burnedPropFired_reached (passed_policyBetween (by decide) p) (reaches_policy hshort hp)]
  exact if_congr (or_congr_right hbetween) rfl rfl

theorem burnedPropFired_partner (hshort : ∀ k ∈ r.keys, k.name.toList.length ≤ 119) {p : PartnerEntry}
    (hp : p ∈ r.partners) :
    burnedPropFired (writeResults r) p.key.name =
      if '\x7d' ∈ p.key.name.toList ∨ '\x7d' ∈ fitting 511 p.value then none else some p.fired := by
  have hnumber : '\x7d' ∉ formatD p.priority.toInt := notMem_formatD (by decide) (by decide) _
  have hbetween : '\x7d' ∈ render p.between ↔ '\x7d' ∈ fitting 511 p.value := by
    have hvalue : '\x7d' ∈ jsonEscape 512 p.value ↔ '\x7d' ∈ fitting 511 p.value := brace_mem_jsonEscape
    rw [← hvalue]
    simp [PartnerEntry.between, field, render, Piece.text, hnumber]
  rw [burnedPropFired_reached (passed_partnerBetween (by decide) p) (reaches_partner hshort hp)]
  exact if_congr (or_congr_right hbetween) rfl rfl

end Document

/-! ## What reaches overlordd -/

/-- The answer overlordd gets for a property from burned's document. -/
def Answers (r : ScanResults) (key : PropKey) (answer : Option Bool) : Prop :=
  ∃ doc, readDaemon (some (writeResults r)) = some doc ∧ Document.propFired doc key.name = answer

/-- The disclosures reach overlordd. -/
structure Disclosed (r : ScanResults) : Prop where
  policy : ∀ p ∈ r.binary ++ r.privacy, Answers r p.key (some p.fired)
  partner : ∀ p ∈ r.partners, Answers r p.key (some p.fired)
  other : ∀ key, key ∉ r.keys → Answers r key none

/-- No key is too long for the needle, and no brace is printed in front of a flag. -/
structure Unbraced (r : ScanResults) : Prop where
  keys : ∀ key ∈ r.keys, key.name.toList.length ≤ 119 ∧ '\x7d' ∉ key.name.toList
  policy : ∀ p ∈ r.binary ++ r.privacy, '\x7d' ∉ fitting 127 p.label ∧ '\x7d' ∉ fitting 511 p.value
  partner : ∀ p ∈ r.partners, '\x7d' ∉ fitting 511 p.value

theorem propFired_text (json : List Char) (key : String) :
    Document.propFired (Text.mk json) key = burnedPropFired json key := rfl

theorem answers_iff {r : ScanResults} (hfits : (writeResults r).length ≤ 65535) {key : PropKey}
    {answer : Option Bool} :
    Answers r key answer ↔ burnedPropFired (writeResults r) key.name = answer := by
  rw [Answers, readDaemon_writeResults hfits]
  constructor
  · rintro ⟨doc, hdoc, h⟩
    rwa [← Option.some.inj hdoc, propFired_text] at h
  · intro h
    exact ⟨_, rfl, by rwa [propFired_text]⟩

/-- Of a long key only the first 120 characters are searched for. -/
theorem burnedPropFired_long {json : List Char} {key key' : String} (hlong : 119 < key.toList.length)
    (h : key.toList <+: key'.toList) : burnedPropFired json key' = burnedPropFired json key := by
  obtain ⟨t, ht⟩ := h
  have hneedle : propNeedle key'.toList = propNeedle key.toList := by
    rw [propNeedle, propNeedle, ← ht, List.append_assoc, List.take_append_of_le_length (by omega),
      List.take_append_of_le_length (by omega)]
  rw [burnedPropFired, burnedPropFired, snprintf_propNeedle, snprintf_propNeedle, hneedle]

theorem exists_length_le (keys : List PropKey) :
    ∃ n, ∀ key ∈ keys, key.name.toList.length ≤ n := by
  induction keys with
  | nil =>
      refine ⟨0, ?_⟩
      intro key hkey
      cases hkey
  | cons k keys ih =>
      obtain ⟨n, hn⟩ := ih
      refine ⟨k.name.toList.length + n, ?_⟩
      intro key hkey
      rcases List.mem_cons.mp hkey with rfl | hkey
      · omega
      · exact le_trans (hn key hkey) (Nat.le_add_left _ _)

/-- Every name begins the name of a property that is not disclosed. -/
theorem exists_longer_key (r : ScanResults) (k : PropKey) :
    ∃ key : PropKey, key ∉ r.keys ∧ k.name.toList <+: key.name.toList := by
  obtain ⟨n, hn⟩ := exists_length_le r.keys
  have hplain : ∀ c ∈ (String.ofList (k.name.toList ++ List.replicate (n + 1) 'a')).toList,
      c ≠ '"' ∧ c ≠ '\\' ∧ 0x20 ≤ c.toNat := by
    intro c hc
    rw [String.toList_ofList] at hc
    rcases List.mem_append.mp hc with hc | hc
    · exact k.plain c hc
    · rw [List.eq_of_mem_replicate hc]
      decide
  refine ⟨⟨_, hplain⟩, ?_, ?_⟩
  · intro hmem
    have hle := hn _ hmem
    rw [String.toList_ofList, List.length_append, List.length_replicate] at hle
    omega
  · rw [String.toList_ofList]
    exact List.prefix_append _ _

/-- A key that is too long is found under other names. -/
theorem Disclosed.keys_short {r : ScanResults} (h : Disclosed r) (hfits : (writeResults r).length ≤ 65535) :
    ∀ k ∈ r.keys, k.name.toList.length ≤ 119 := by
  intro k hk
  by_contra hlong
  have hsome : ∃ fired, Answers r k (some fired) := by
    rcases List.mem_append.mp hk with hk | hk
    · obtain ⟨p, hp, rfl⟩ := List.mem_map.mp hk
      exact ⟨_, h.policy p hp⟩
    · obtain ⟨p, hp, rfl⟩ := List.mem_map.mp hk
      exact ⟨_, h.partner p hp⟩
  obtain ⟨fired, hfired⟩ := hsome
  obtain ⟨key, hkey, hprefix⟩ := exists_longer_key r k
  have hnone := (answers_iff hfits).mp (h.other key hkey)
  rw [burnedPropFired_long (by omega) hprefix, (answers_iff hfits).mp hfired] at hnone
  cases hnone

theorem Disclosed.unbraced {r : ScanResults} (h : Disclosed r) (hfits : (writeResults r).length ≤ 65535) :
    Unbraced r := by
  have hshort := h.keys_short hfits
  have hpolicy : ∀ p ∈ r.binary ++ r.privacy, ¬ ('\x7d' ∈ p.key.name.toList ∨
      '\x7d' ∈ fitting 127 p.label ∨ '\x7d' ∈ fitting 511 p.value) := by
    intro p hp hbrace
    have hanswer := (answers_iff hfits).mp (h.policy p hp)
    rw [burnedPropFired_policy hshort hp, if_pos hbrace] at hanswer
    cases hanswer
  have hpartner : ∀ p ∈ r.partners, ¬ ('\x7d' ∈ p.key.name.toList ∨
      '\x7d' ∈ fitting 511 p.value) := by
    intro p hp hbrace
    have hanswer := (answers_iff hfits).mp (h.partner p hp)
    rw [burnedPropFired_partner hshort hp, if_pos hbrace] at hanswer
    cases hanswer
  constructor
  case keys =>
    intro k hk
    refine ⟨hshort k hk, fun hbrace => ?_⟩
    rcases List.mem_append.mp hk with hk | hk
    · obtain ⟨p, hp, rfl⟩ := List.mem_map.mp hk
      exact hpolicy p hp (.inl hbrace)
    · obtain ⟨p, hp, rfl⟩ := List.mem_map.mp hk
      exact hpartner p hp (.inl hbrace)
  case policy =>
    intro p hp
    exact (not_or.mp (not_or.mp (hpolicy p hp)).2)
  case partner =>
    intro p hp
    exact (not_or.mp (hpartner p hp)).2

theorem Unbraced.disclosed {r : ScanResults} (h : Unbraced r) (hfits : (writeResults r).length ≤ 65535) :
    Disclosed r := by
  have hshort : ∀ k ∈ r.keys, k.name.toList.length ≤ 119 := fun k hk => (h.keys k hk).1
  constructor
  case policy =>
    intro p hp
    have hkey := (h.keys _ (policyKey_mem hp)).2
    obtain ⟨hlabel, hvalue⟩ := h.policy p hp
    rw [answers_iff hfits, burnedPropFired_policy hshort hp,
      if_neg (not_or.mpr ⟨hkey, not_or.mpr ⟨hlabel, hvalue⟩⟩)]
  case partner =>
    intro p hp
    have hkey := (h.keys _ (partnerKey_mem hp)).2
    rw [answers_iff hfits, burnedPropFired_partner hshort hp,
      if_neg (not_or.mpr ⟨hkey, h.partner p hp⟩)]
  case other =>
    intro key hkey
    rw [answers_iff hfits, burnedPropFired_other hshort hkey]

/-- **burned's disclosures reach overlordd exactly if no brace stands in front of a flag.** -/
theorem disclosed_iff (r : ScanResults) (hfits : (writeResults r).length ≤ 65535) :
    Disclosed r ↔ Unbraced r := by
  constructor
  · intro h
    exact h.unbraced hfits
  · intro h
    exact h.disclosed hfits

/-- `persist.sys.cleaner_level`, as burned's table has it. -/
def cleanerLevel : PProp := ⟨⟨"persist.sys.cleaner_level", forall_mem_of_all (by decide)⟩, "Cleaner Level", none, false⟩

/-- A poll that finds one property. -/
def cleanerResults (value : List Char) : ScanResults where
  timestamp := "2026-01-01T00:00:00".toList
  scanNum := 1
  region := "Global".toList
  nInvasive := 0
  nPrivacy := 1
  nChange := 0
  invList := []
  privList := "CLEANER_AGGRESSIVE".toList
  binary := []
  privacy := [cleanerLevel.entry value]
  partners := []
  timestamp_chars := forall_mem_of_all (by decide)
  distinct := List.nodup_singleton _

/-- A plain value is disclosed. -/
theorem disclosed_cleaner : Disclosed (cleanerResults "2".toList) :=
  (disclosed_iff (cleanerResults "2".toList) (by decide +kernel)).mpr
    ⟨by decide +kernel, by decide +kernel, by decide +kernel⟩

/-- The flag of a value with a brace is not found. -/
theorem braced_value_unread :
    (writeResults (cleanerResults "2\x7d".toList)).length ≤ 65535 ∧
      ¬ Disclosed (cleanerResults "2\x7d".toList) := by
  have hfits : (writeResults (cleanerResults "2\x7d".toList)).length ≤ 65535 := by decide +kernel
  refine ⟨hfits, fun h => ?_⟩
  have hmem : cleanerLevel.entry "2\x7d".toList ∈ (cleanerResults "2\x7d".toList).binary ++
      (cleanerResults "2\x7d".toList).privacy := List.mem_singleton_self _
  have hshort : ∀ k ∈ (cleanerResults "2\x7d".toList).keys, k.name.toList.length ≤ 119 := by
    decide +kernel
  have hanswer := (answers_iff hfits).mp (h.policy _ hmem)
  rw [burnedPropFired_policy hshort hmem, if_pos (by decide +kernel)] at hanswer
  cases hanswer

end MiuiserPeruser.Overlord
