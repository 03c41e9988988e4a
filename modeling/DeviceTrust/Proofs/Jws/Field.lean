import DeviceTrust.Jws.Scratch
import DeviceTrust.Proofs.Json.Writing

/-!
# Text fields

A field is read iff the document is an object whose first member of that name is a text. What the
document holds besides that member is checked for its form and has no part in the result.

Results:
* `readField_eq_ok_iff`: the documents that have the field, and its text.
* `of_readField_error`: why a field is not read.
* `readField_congr`: only the first member of the name counts.
* `readField_exact`: what is read of every document.
-/

namespace DeviceTrust.Jws

open Json (IsObject IsQuoted IsValue Members Spells)

variable {name : String} {document : Bytes}

/-! ## The member -/

/-- The document is an object whose first member of that name is `value`, in valid UTF-8. -/
def Holds (document : Bytes) (name : String) (value : Bytes) : Prop :=
  ∃ members, IsObject document members ∧ members.first? name = some value ∧ value.isText = true

/-- The document is an object without a member of that name. -/
def Lacks (document : Bytes) (name : String) : Prop :=
  ∃ members, IsObject document members ∧ members.first? name = none

theorem hasText_iff {text : String} :
    Json.HasText document name text ↔
      ∃ source, Holds document name (34 :: (source ++ [34])) ∧ Spells source (utf8 text) := by
  constructor
  · rintro ⟨members, source, hobject, hfirst, hutf8, hsource⟩
    exact ⟨source, ⟨members, hobject, hfirst, hutf8⟩, hsource⟩
  · rintro ⟨source, ⟨members, hobject, hfirst, hutf8⟩, hsource⟩
    exact ⟨members, source, hobject, hfirst, hutf8, hsource⟩

theorem firstMember_eq_some_iff {value : Bytes} :
    Json.firstMember name document = .ok (some value) ↔ Holds document name value := by
  simp only [Json.firstMember_eq_ok_iff, Holds, Option.mem_def, Option.some.injEq, forall_eq']

theorem firstMember_eq_none_iff :
    Json.firstMember name document = .ok none ↔ Lacks document name := by
  simp only [Json.firstMember_eq_ok_iff, Lacks, Option.mem_def, reduceCtorEq, false_implies,
    implies_true, and_true]

theorem Holds.isValue {value : Bytes} (h : Holds document name value) : IsValue value := by
  obtain ⟨members, hobject, hfirst, -⟩ := h
  exact hobject.isValue_of_first? hfirst

/-! ## Reading -/

theorem readField_of_spells {source : Bytes} {text : String}
    (h : Holds document name (34 :: (source ++ [34]))) (hsource : Spells source (utf8 text)) :
    readField name document = .ok ⟨text, !source.contains 92⟩ := by
  simp only [readField, firstMember_eq_some_iff.mpr h, Json.readText_append hsource]
  simp

theorem of_readField {field : FieldText} (h : readField name document = .ok field) :
    ∃ source, Holds document name (34 :: (source ++ [34])) ∧
      Spells source (utf8 field.text) := by
  unfold readField at h
  split at h
  next => simp at h
  next => simp at h
  next rest hfound =>
    split at h
    next => simp at h
    next text tail htext =>
      have hholds := firstMember_eq_some_iff.mp hfound
      obtain ⟨t, ht, hvalue⟩ := hholds.isValue.isQuoted
      obtain rfl := (List.cons.inj hvalue).2
      obtain ⟨source, hsource, hrest⟩ := Json.of_readText htext
      obtain ⟨rfl, -⟩ := ht.append_inj hsource.isQuotable hrest
      rw [Except.ok.injEq] at h
      exact ⟨t, hholds, h ▸ hsource⟩
  next => simp at h

theorem hasText_of_readField {field : FieldText} (h : readField name document = .ok field) :
    Json.HasText document name field.text :=
  hasText_iff.mpr (of_readField h)

theorem readField_of_hasText {text : String} (h : Json.HasText document name text) :
    ∃ field, readField name document = .ok field ∧ field.text = text := by
  obtain ⟨source, hholds, hsource⟩ := hasText_iff.mp h
  exact ⟨_, readField_of_spells hholds hsource, rfl⟩

theorem readField_eq_ok_iff {text : String} :
    (readField name document).map (·.text) = .ok text ↔ Json.HasText document name text := by
  constructor
  · intro h
    cases hfield : readField name document with
    | error e => simp [hfield, Except.map] at h
    | ok field =>
      rw [hfield] at h
      exact Except.ok.inj h ▸ hasText_of_readField hfield
  · intro h
    obtain ⟨field, hfield, htext⟩ := readField_of_hasText h
    rw [hfield, ← htext]
    rfl

/-- Besides faults of the document, only the field that is asked for is named. -/
theorem of_readField_error {e : Error} (h : readField name document = .error e) :
    (∃ fault, e = .json fault) ∨ e = .missingField name ∨ e = .wrongTokenType name := by
  unfold readField at h
  split at h
  next fault _ => exact .inl ⟨fault, (Except.error.inj h).symm⟩
  next => exact .inr (.inl (Except.error.inj h).symm)
  next =>
    split at h
    next fault _ => exact .inl ⟨fault, (Except.error.inj h).symm⟩
    next => simp at h
  next => exact .inr (.inr (Except.error.inj h).symm)

theorem readField_eq_missingField_iff :
    readField name document = .error (.missingField name) ↔ Lacks document name := by
  rw [← firstMember_eq_none_iff]
  constructor
  · intro h
    unfold readField at h
    split at h
    next => simp at h
    next hfound => exact hfound
    next => split at h <;> simp at h
    next => simp at h
  · intro h
    simp only [readField, h]

theorem readField_eq_wrongTokenType_iff :
    readField name document = .error (.wrongTokenType name) ↔
      ∃ value, Holds document name value ∧ ¬ IsQuoted value := by
  constructor
  · intro h
    unfold readField at h
    split at h
    next => simp at h
    next => simp at h
    next => split at h <;> simp at h
    next value hquote hfound =>
      refine ⟨value, firstMember_eq_some_iff.mp hfound, ?_⟩
      rintro ⟨source, -, rfl⟩
      exact hquote _ rfl
  · rintro ⟨value, hholds, hquoted⟩
    unfold readField
    rw [firstMember_eq_some_iff.mpr hholds]
    split
    next => simp_all
    next => simp_all
    next rest hfound =>
      obtain rfl := Option.some.inj (Except.ok.inj hfound)
      exact absurd hholds.isValue.isQuoted hquoted
    next => rfl

theorem readField_eq_json_iff :
    (∃ fault, readField name document = .error (.json fault)) ↔
      ¬ Lacks document name ∧ (∀ value, Holds document name value → IsQuoted value) ∧
        ∀ text, ¬ Json.HasText document name text := by
  constructor
  · rintro ⟨fault, h⟩
    refine ⟨fun hlacks => ?_, fun value hholds => ?_, fun text htext => ?_⟩
    · rw [readField_eq_missingField_iff.mpr hlacks] at h
      cases h
    · by_contra hquoted
      rw [readField_eq_wrongTokenType_iff.mpr ⟨value, hholds, hquoted⟩] at h
      cases h
    · rw [← readField_eq_ok_iff, h] at htext
      cases htext
  · rintro ⟨hlacks, hquoted, htext⟩
    cases h : readField name document with
    | ok field => exact absurd (hasText_of_readField h) (htext field.text)
    | error e =>
      rcases of_readField_error h with ⟨fault, rfl⟩ | rfl | rfl
      · exact ⟨fault, rfl⟩
      · exact absurd (readField_eq_missingField_iff.mp h) hlacks
      · obtain ⟨value, hholds, hnot⟩ := readField_eq_wrongTokenType_iff.mp h
        exact absurd (hquoted value hholds) hnot

/-- Only the first member of the name counts. -/
theorem readField_congr {document' : Bytes} {members members' : Members}
    (h : IsObject document members) (h' : IsObject document' members')
    (hfirst : members.first? name = members'.first? name) :
    readField name document = readField name document' := by
  have hfound : Json.firstMember name document = Json.firstMember name document' := by
    rw [Json.firstMember_of_isObject h, Json.firstMember_of_isObject h', hfirst]
  unfold readField
  rw [hfound]

/-- What is read of every document: the text of the first member of that name of an object, as it
stands iff it has no escapes, and which fault it is otherwise. -/
theorem readField_exact (name : String) (document : Bytes) :
    (∀ field, readField name document = .ok field ↔
      ∃ source, Holds document name (34 :: (source ++ [34])) ∧ Spells source (utf8 field.text) ∧
        (field.isVerbatim = true ↔ 92 ∉ source)) ∧
    (∀ field source, readField name document = .ok field →
      Holds document name (34 :: (source ++ [34])) → field.isVerbatim = true →
      utf8 field.text = source) ∧
    (readField name document = .error (.missingField name) ↔ Lacks document name) ∧
    (readField name document = .error (.wrongTokenType name) ↔
      ∃ value, Holds document name value ∧ ¬ IsQuoted value) ∧
    ((∃ fault, readField name document = .error (.json fault)) ↔
      ¬ Lacks document name ∧ (∀ value, Holds document name value → IsQuoted value) ∧
        ∀ text, ¬ Json.HasText document name text) ∧
    (∀ members document' members', IsObject document members → IsObject document' members' →
      members.first? name = members'.first? name →
      readField name document = readField name document') := by
  have hverbatim : ∀ source : Bytes, (!source.contains 92) = true ↔ 92 ∉ source := by simp
  refine ⟨fun field => ⟨fun h => ?_, ?_⟩, fun field source h hholds hfield => ?_,
    readField_eq_missingField_iff, readField_eq_wrongTokenType_iff, readField_eq_json_iff,
    fun members document' members' h h' hfirst => readField_congr h h' hfirst⟩
  · obtain ⟨source, hholds, hsource⟩ := of_readField h
    rw [readField_of_spells hholds hsource, Except.ok.injEq] at h
    refine ⟨source, hholds, hsource, ?_⟩
    rw [← h]
    exact hverbatim source
  · rintro ⟨source, hholds, hsource, hflag⟩
    rw [readField_of_spells hholds hsource]
    have hflag' : field.isVerbatim = !source.contains 92 :=
      Bool.eq_iff_iff.mpr (hflag.trans (hverbatim source).symm)
    rw [← hflag']
  · obtain ⟨source', hholds', hsource⟩ := of_readField h
    have hfound := firstMember_eq_some_iff.mpr hholds
    rw [firstMember_eq_some_iff.mpr hholds'] at hfound
    obtain rfl := Json.quoted_inj.mp (Option.some.inj (Except.ok.inj hfound))
    rw [readField_of_spells hholds' hsource, Except.ok.injEq] at h
    rw [← h] at hfield
    exact hsource.eq_of_notMem ((hverbatim source').mp hfield)

/-- Two documents with the same first member of the name, which one of them repeats. -/
theorem readField_exact_repeated : ∃ document document' : Bytes,
    document ≠ document' ∧ readField "kid" document = .ok ⟨"a", true⟩ ∧
    readField "kid" document' = .ok ⟨"a", true⟩ := by
  let texts := [("kid", "a"), ("kid", "b")]
  let texts' := [("x", "kid"), ("kid", "a")]
  let document := utf8 (Json.writeObject texts)
  let document' := utf8 (Json.writeObject texts')
  have hobject := Json.isObject_writeObject (by decide : Json.AreUnescaped texts) (by decide)
  have hobject' := Json.isObject_writeObject (by decide : Json.AreUnescaped texts') (by decide)
  have hfirst := Json.first?_quoted texts "kid"
  have hfirst' := Json.first?_quoted texts' "kid"
  have hholds : Holds document "kid" (34 :: (utf8 "a" ++ [34])) :=
    ⟨_, hobject, hfirst, Json.isText_quoted "a"⟩
  obtain ⟨hok, -, -, -, -, hsame⟩ := readField_exact "kid" document
  have hread : readField "kid" document = .ok ⟨"a", true⟩ :=
    (hok ⟨"a", true⟩).mpr ⟨utf8 "a", hholds, Json.spells_utf8 (by decide), by decide⟩
  have hsame := hsame _ document' _ hobject hobject' (hfirst.trans hfirst'.symm)
  exact ⟨document, document', by decide, hread, hsame ▸ hread⟩

end DeviceTrust.Jws
