import DeviceTrust.Proofs.Json.List
import DeviceTrust.Proofs.Json.Record
import DeviceTrust.Proofs.Json.Writing
import DeviceTrust.Proofs.Sequence

/-!
# The two forms of a record

A record is read from an object, which names its fields, and also from a list with one element for
each field, in their order. It is not read from anything else: whatever is read is one of the two,
and what the record holds is what their members give, those of a list by position.

Results:
* `Schema.readElements_reads`: what all elements of a list do.
* `Schema.reads_record`, `Schema.readDocument_record`: a record in either form.
* `Schema.reader_sound`, `Schema.of_readDocument`: what can be read at all.
* `Schema.Determined.readDocument_iff`: the members decide what is read.
-/

namespace DeviceTrust.Json

variable {α ρ : Type} {s rest : Bytes} {members : Members}

/-- What a record with fields of these names can be written as: an object, or a list with one element
for each field. -/
inductive IsRecord (names : List String) (document : Bytes) : Members → Prop where
  | object {members : Members} (h : IsObject document members) : IsRecord names document members
  | list {elements : List Bytes} (h : IsList document elements)
      (hlength : elements.length = names.length) : IsRecord names document (names.zip elements)

theorem IsObject.head?_skipSpace {document : Bytes} (h : IsObject document members) :
    (skipSpace document).head? = some 123 := by
  obtain ⟨u, inside, w, hu, -, rfl, -⟩ := h
  rw [skipSpace_append hu, skipSpace_cons rfl]
  rfl

theorem IsList.head?_skipSpace {document : Bytes} {elements : List Bytes}
    (h : IsList document elements) : (skipSpace document).head? = some 91 := by
  obtain ⟨u, inside, w, hu, -, rfl, -⟩ := h
  rw [skipSpace_append hu, skipSpace_cons rfl]
  rfl

theorem IsObject.not_isList {document : Bytes} {elements : List Bytes}
    (h : IsObject document members) : ¬ IsList document elements := by
  intro hlist
  have hstart := h.head?_skipSpace.symm.trans hlist.head?_skipSpace
  exact absurd (Option.some.inj hstart) (by decide)

/-- A record is written with one list of members. -/
theorem IsRecord.unique {names : List String} {document : Bytes} {members' : Members}
    (h : IsRecord names document members) (h' : IsRecord names document members') :
    members = members' := by
  cases h with
  | object h =>
    cases h' with
    | object h' => exact h.unique h'
    | list h' => exact absurd h' h.not_isList
  | list h =>
    cases h' with
    | object h' => exact absurd h h'.not_isList
    | list h' => rw [h.unique h']

/-! ## Reading the elements -/

/-- The names of the fields, in order. -/
def Schema.names (schema : Schema ρ) : List String :=
  schema.slots.map Slot.name

/-- The fields that are left once those in `seen` have been filled. -/
structure Schema.Left (schema : Schema ρ) (slots : List (Slot ρ)) (seen : List String) : Prop where
  apart : slots.Pairwise Slot.Apart
  mem : ∀ slot ∈ slots, slot ∈ schema.slots
  fresh : ∀ slot ∈ slots, slot.name ∉ seen

section Schema

variable {schema : Schema ρ} {slots : List (Slot ρ)} {slot : Slot ρ} {seen : List String}
  {done : Members} {record : ρ} {isFirst : Bool} {elements : List Bytes}

theorem Schema.left_slots (schema : Schema ρ) : schema.Left schema.slots [] :=
  ⟨schema.apart, fun _ => id, fun _ _ => List.not_mem_nil⟩

theorem Schema.Left.tail (h : schema.Left (slot :: slots) seen) :
    schema.Left slots (slot.name :: seen) := by
  obtain ⟨hapart, hrest⟩ := List.pairwise_cons.mp h.apart
  refine ⟨hrest, fun slot' hmem => h.mem slot' (List.mem_cons_of_mem _ hmem), ?_⟩
  intro slot' hmem
  rw [List.mem_cons, not_or]
  exact ⟨(hapart slot' hmem).name_ne.symm, h.fresh slot' (List.mem_cons_of_mem _ hmem)⟩

theorem readElements_cons (slot : Slot ρ) (slots : List (Slot ρ)) (record : ρ) (isFirst : Bool)
    (s : Bytes) : readElements ((slot :: slots).map Slot.field) record isFirst s = (do
      let s ← nextElement isFirst s
      let (x, s) ← slot.reader.optional.run s
      readElements (slots.map Slot.field) (slot.set x record) false s) := by
  rw [List.map_cons, readElements]
  cases nextElement isFirst s with
  | error e => rfl
  | ok s =>
    simp only [Slot.run_field, bind, Except.bind]
    cases slot.reader.optional.run s <;> rfl

theorem readElements_nil {w : Bytes} (hw : IsBlank w) (record : ρ) (isFirst : Bool)
    (rest : Bytes) : readElements [] record isFirst (w ++ 93 :: rest) = .ok (record, rest) := by
  simp only [readElements, skipSpace_append hw, skipSpace_cons (b := 93) rfl, ite_true]

/-- An element for which there is no field. -/
theorem readElements_nil_element {front u v t : Bytes} (hfront : IsSeparator isFirst front)
    (hu : IsBlank u) (hv : IsValue v) (record : ρ) :
    readElements [] record isFirst (front ++ (u ++ (v ++ t))) = .error .malformed := by
  cases hfront with
  | first =>
    have hstart := skipSpace_value hu hv t
    obtain ⟨b, tail, rfl, -, hb, -⟩ := hv.cons_of_value
    rw [List.cons_append] at hstart
    simp only [readElements, List.nil_append, List.cons_append, hstart, if_neg hb]
  | later hw =>
    simp only [readElements, List.append_assoc, List.cons_append, List.nil_append,
      skipSpace_append hw, skipSpace_cons (b := 44) rfl]
    rfl

/-- The elements up to the closing bracket fill the record, or one of them does not fit, or there are
too few or too many of them. -/
theorem Schema.readElements_reads {inside : Bytes} (hleft : schema.Left slots seen)
    (hinside : IsElements isFirst inside elements)
    (hcovers : schema.Covers ((slots.map Slot.name).zip elements))
    (hfilled : schema.Filled done seen record) (rest : Bytes) :
    (∃ record', (elements.length = slots.length ∧
        schema.Fits (done ++ (slots.map Slot.name).zip elements) ∧
        schema.Holds (done ++ (slots.map Slot.name).zip elements) record') ∧
      readElements (slots.map Slot.field) record isFirst (inside ++ 93 :: rest) =
        .ok (record', rest)) ∨
    (¬(elements.length = slots.length ∧
        schema.Fits (done ++ (slots.map Slot.name).zip elements)) ∧
      ∃ e, readElements (slots.map Slot.field) record isFirst (inside ++ 93 :: rest) =
        .error e) := by
  -- the fields that are left grow fewer, and `done` takes up what has been read
  induction slots generalizing isFirst inside elements done seen record with
  | nil =>
    cases hinside with
    | stop hw =>
      refine .inl ⟨record, ?_, readElements_nil hw record isFirst rest⟩
      simp only [List.map_nil, List.zip_nil_right, List.append_nil]
      exact ⟨rfl, fun slot hslot => (hfilled slot hslot).fits,
        fun slot hslot => (hfilled slot hslot).gives⟩
    | element hfront hu hv =>
      refine .inr ⟨by simp, .malformed, ?_⟩
      simp only [List.append_assoc]
      exact readElements_nil_element hfront hu hv record
  | cons slot slots ih =>
    rw [readElements_cons]
    cases hinside with
    | stop hw =>
      refine .inr ⟨by simp, .mismatch, ?_⟩
      rw [nextElement_stop hw]
      rfl
    | @element _ front u v s elements hfront hu hv hs =>
      have hslot := hleft.mem slot List.mem_cons_self
      have hseen := hleft.fresh slot List.mem_cons_self
      have hread := slot.reads.optional isBlank_nil hv
        (hcovers slot hslot v List.mem_cons_self) (hs.ends rest)
      have hcovers' : schema.Covers ((slots.map Slot.name).zip elements) :=
        fun slot' hslot' value hmem => hcovers slot' hslot' value (List.mem_cons_of_mem _ hmem)
      simp only [List.append_assoc, nextElement_append hfront hu hv, List.map_cons,
        List.zip_cons_cons, List.length_cons, Nat.add_right_cancel_iff]
      rw [List.nil_append] at hread
      rw [List.append_cons done]
      rcases hread with ⟨x, hx, hread⟩ | ⟨hnone, e, hread⟩
      · have hnext := ih hleft.tail hs hcovers' (hfilled.fill hslot hseen hx)
        simp only [hread, bind, Except.bind]
        exact hnext
      · refine .inr ⟨fun hfits => hnone ?_, e, ?_⟩
        · exact (hfits.2 slot hslot).means v (by simp)
        · simp only [hread, bind, Except.bind]

/-! ## Records in either form -/

theorem Schema.reader_run_list (schema : Schema ρ) {u : Bytes} (hu : IsBlank u) (s : Bytes) :
    schema.reader.run (u ++ 91 :: s) = readElements schema.fields schema.empty true s := by
  simp only [Schema.reader, Reader.record, skipSpace_append hu, skipSpace_cons (b := 91) rfl]

/-- A record that is a value. -/
theorem Schema.reads_record (schema : Schema ρ) :
    schema.reader.Reads
      (fun v => ∃ members, IsRecord schema.names v members ∧ schema.Covers members)
      (fun v record => ∃ members, IsRecord schema.names v members ∧ schema.Fits members ∧
        schema.Holds members record) := by
  rintro u v t hu hv ⟨members, hrecord, hcovers⟩ ht
  cases hrecord with
  | object hobject =>
    rcases schema.reads hu hv ⟨members, hobject, hcovers⟩ ht with
      ⟨record, ⟨members', hobject', hfits⟩, hread⟩ | ⟨hnone, hread⟩
    · exact .inl ⟨record, ⟨members', .object hobject', hfits⟩, hread⟩
    · refine .inr ⟨?_, hread⟩
      rintro ⟨record, members', hrecord', hfits⟩
      obtain rfl := (IsRecord.object hobject).unique hrecord'
      exact hnone ⟨record, members, hobject, hfits⟩
  | list hlist hlength =>
    obtain ⟨inside, rfl, hinside⟩ := hlist.of_isValue hv
    have hread := readElements_reads schema.left_slots hinside hcovers schema.filled_nil t
    rw [List.cons_append, List.append_assoc, List.singleton_append, schema.reader_run_list hu]
    rcases hread with ⟨record, ⟨-, hfits, hholds⟩, hread⟩ | ⟨hmisfits, hread⟩
    · exact .inl ⟨record, ⟨_, .list hlist hlength, hfits, hholds⟩, hread⟩
    · refine .inr ⟨?_, hread⟩
      rintro ⟨record, members', hrecord', hfits, -⟩
      obtain rfl := (IsRecord.list hlist hlength).unique hrecord'
      exact hmisfits ⟨hlength.trans (List.length_map _), hfits⟩

/-- A record that is a whole document. -/
theorem Schema.readDocument_record {document : Bytes}
    (hrecord : IsRecord schema.names document members) (hcovers : schema.Covers members) :
    (∃ record, schema.Fits members ∧ schema.Holds members record ∧
      schema.reader.readDocument document = .ok record) ∨
    (¬ schema.Fits members ∧ ∃ e, schema.reader.readDocument document = .error e) := by
  cases hrecord with
  | object hobject => exact readDocument_reads hobject hcovers
  | list hlist hlength =>
    obtain ⟨u, inside, w, hu, hw, rfl, hinside⟩ := hlist
    have hread := readElements_reads schema.left_slots hinside hcovers schema.filled_nil w
    have hrun := schema.reader_run_list hu (inside ++ 93 :: w)
    rcases hread with ⟨record, ⟨-, hfits, hholds⟩, hread⟩ | ⟨hmisfits, e, hread⟩
    · refine .inl ⟨record, hfits, hholds, ?_⟩
      simp only [Reader.readDocument, hrun.trans hread, checkEnd_eq_ok_iff.mpr hw, bind, Except.bind]
    · refine .inr ⟨fun hfits => hmisfits ⟨hlength.trans (List.length_map _), hfits⟩, e, ?_⟩
      simp only [Reader.readDocument, hrun.trans hread, bind, Except.bind]

end Schema

/-! ## What single values can be -/

/-- Whatever is read is one value behind white space, and the value means what has been read. -/
def Reader.Sound (reader : Reader α) (Means : Bytes → α → Prop) : Prop :=
  ∀ ⦃s : Bytes⦄ ⦃a : α⦄ ⦃rest : Bytes⦄, reader.run s = .ok (a, rest) →
    ∃ u v, IsBlank u ∧ IsValue v ∧ s = u ++ (v ++ rest) ∧ Means v a

theorem Reader.text_sound : Reader.text.Sound Quotes := by
  intro s text rest h
  simp only [Reader.text] at h
  split at h
  next tail hs =>
    obtain ⟨u, hu, rfl⟩ := exists_isBlank_cons hs
    obtain ⟨source, hsource, rfl⟩ := of_readText h
    have hquotes : Quotes (34 :: (source ++ [34])) text := ⟨source, hsource, rfl⟩
    exact ⟨u, _, hu, hquotes.isValue, by simp, hquotes⟩
  next => cases h

/-- The digits that a code has been read from. -/
theorem isCode_of_readNumeral {x : Numeral} {code : UInt32}
    (hx : readNumeral .truncated s = .ok (x, rest)) (hcode : x.code? = some code) :
    ∃ v, IsValue v ∧ s = v ++ rest ∧ IsCode v code := by
  obtain ⟨hsign, hfraction, hexponent, hvalue⟩ := code?_eq_some_iff.mp hcode
  obtain ⟨negative, integer, fraction, exponent⟩ := x
  subst hsign hfraction hexponent
  obtain ⟨t, ht, hs⟩ := isNumber_of_readNumeral hx
  obtain ⟨hinteger, hs'⟩ := eq_integer_of_readNumeral hx
  obtain rfl := List.append_cancel_right (hs.symm.trans hs')
  exact ⟨t, .number ht, hs, hinteger.1, hvalue⟩

theorem Reader.code_sound : Reader.code.Sound IsCode := by
  intro s code rest h
  cases hs : skipSpace s with
  | nil => simp [Reader.code, hs] at h
  | cons b tail =>
    by_cases hb : b = 45 ∨ isDigit b = true
    · cases hx : readNumeral .truncated (b :: tail) with
      | error e => simp [Reader.code, hs, hb, readNumber, hx, bind, Except.bind] at h
      | ok p =>
        rw [Reader.code_run hs hb hx] at h
        split at h
        next =>
          split at h
          next hcode =>
            obtain ⟨rfl, rfl⟩ := Prod.mk.inj (Except.ok.inj h)
            obtain ⟨u, hu, rfl⟩ := exists_isBlank_cons hs
            obtain ⟨v, hv, hvalue, hmeans⟩ := isCode_of_readNumeral hx hcode
            exact ⟨u, v, hu, hv, by rw [hvalue], hmeans⟩
          next => cases h
        next => cases h
    · rw [Reader.code_run_other hs hb] at h
      cases h

theorem Reader.Sound.optional {reader : Reader α} {Means : Bytes → α → Prop}
    (h : reader.Sound Means) : reader.optional.Sound (OrNull Means) := by
  intro s x rest hread
  simp only [Reader.optional] at hread
  split at hread
  next tail hs =>
    obtain ⟨u, hu, rfl⟩ := exists_isBlank_cons hs
    obtain ⟨rest', hword, heq⟩ := map_eq_ok_iff.mp hread
    obtain ⟨rfl, rfl⟩ := Prod.mk.inj heq
    exact ⟨u, nullValue, hu, .word (by decide), by rw [of_readWord hword]; rfl, rfl⟩
  next hs =>
    obtain ⟨⟨a, rest'⟩, hvalue, heq⟩ := map_eq_ok_iff.mp hread
    obtain ⟨rfl, rfl⟩ := Prod.mk.inj heq
    obtain ⟨u, v, hu, hv, rfl, hmeans⟩ := h hvalue
    refine ⟨u, v, hu, hv, rfl, ?_, hmeans⟩
    rintro rfl
    exact hs _ (skipSpace_value hu hv rest')

/-! ## What records can be read from -/

section Sound

variable {schema : Schema ρ} {slots : List (Slot ρ)} {seen : List String} {done : Members}
  {record record' : ρ} {isFirst : Bool} {name : String} {field : Field ρ}

theorem IsTail.isValue {inside : Bytes} (h : IsTail true inside members) :
    IsValue (123 :: (inside ++ [125])) := by
  rcases isTail_first_iff.mp h with ⟨hw, -⟩ | h
  · exact .emptyObject hw
  · exact .object h.matches

/-- White space around a record makes no difference. -/
theorem IsRecord.around {names : List String} {u v w : Bytes} (h : IsRecord names v members)
    (hu : IsBlank u) (hw : IsBlank w) : IsRecord names (u ++ (v ++ w)) members := by
  cases h with
  | object h =>
    obtain ⟨u', inside, w', hu', hw', rfl, hinside⟩ := h
    exact .object ⟨u ++ u', inside, w' ++ w, hu.append hu', hw'.append hw, by simp, hinside⟩
  | list h hlength =>
    obtain ⟨u', inside, w', hu', hw', rfl, hinside⟩ := h
    exact .list ⟨u ++ u', inside, w' ++ w, hu.append hu', hw'.append hw, by simp, hinside⟩ hlength

theorem Schema.exists_slot_of_find? (h : schema.fields.find? (·.name == name) = some field) :
    ∃ slot ∈ schema.slots, slot.name = name ∧ slot.field = field := by
  obtain ⟨slot, hslot, rfl⟩ := List.mem_map.mp (List.mem_of_find?_eq_some h)
  have hname := List.find?_some h
  exact ⟨slot, hslot, by simpa [Slot.field] using hname, rfl⟩

theorem Schema.ne_of_find? (h : schema.fields.find? (·.name == name) = none) :
    ∀ slot ∈ schema.slots, slot.name ≠ name := by
  rintro slot hslot rfl
  rw [schema.find?_of_mem hslot] at h
  cases h

/-- What the members are that a record has been read from. -/
theorem Schema.of_readMembers (hsound : ∀ slot ∈ schema.slots, slot.reader.Sound slot.Means)
    (hfilled : schema.Filled done seen record) {s : Bytes}
    (h : readMembers schema.fields seen record isFirst s = .ok (record', rest)) :
    ∃ inside members, s = inside ++ 125 :: rest ∧ IsTail isFirst inside members ∧
      schema.Fits (done ++ members) ∧ schema.Holds (done ++ members) record' := by
  generalize hfields : schema.fields = fields at h
  -- by the loop: `done` takes up each member as it is read
  fun_induction readMembers fields seen record isFirst s generalizing done with
  | case1 => cases h
  | case2 seen record isFirst s tail hn =>
    obtain ⟨rfl, rfl⟩ := Prod.mk.inj (Except.ok.inj h)
    obtain ⟨w, hs, htail⟩ := of_nextName_none hn
    refine ⟨w, [], hs, htail, ?_⟩
    rw [List.append_nil]
    exact ⟨fun slot hslot => (hfilled slot hslot).fits,
      fun slot hslot => (hfilled slot hslot).gives⟩
  | case3 => cases h
  | case4 => cases h
  | case5 seen record isFirst s name tail hn hfind tail' hc tail'' hv ih =>
    subst hfields
    obtain ⟨before, rfl, hmember⟩ := of_nextName_some hn hc
    obtain ⟨v, value, hv', hvalue, rfl⟩ := of_skipValue hv
    have hother := hfilled.other (schema.ne_of_find? hfind) value
    obtain ⟨inside, members, rfl, htail, hrecord⟩ := ih hother h
    rw [← List.append_cons] at hrecord
    exact ⟨_, (name, value) :: members, by simp only [List.append_assoc],
      hmember hv' hvalue htail, hrecord⟩
  | case6 => cases h
  | case7 => cases h
  | case8 => cases h
  | case9 seen record isFirst s name tail hn field hfind hseen tail' hc update tail'' hv ih =>
    subst hfields
    obtain ⟨before, rfl, hmember⟩ := of_nextName_some hn hc
    obtain ⟨slot, hslot, rfl, rfl⟩ := schema.exists_slot_of_find? hfind
    obtain ⟨⟨x, rest'⟩, hread, heq⟩ := map_eq_ok_iff.mp hv
    obtain ⟨rfl, rfl⟩ := Prod.mk.inj heq
    obtain ⟨v, value, hv', hvalue, rfl, hx⟩ := (hsound slot hslot).optional hread
    have hfill := hfilled.fill hslot (by simpa using hseen) hx
    obtain ⟨inside, members, rfl, htail, hrecord⟩ := ih hfill h
    rw [← List.append_cons] at hrecord
    exact ⟨_, (slot.name, value) :: members, by simp only [List.append_assoc],
      hmember hv' hvalue htail, hrecord⟩

/-- What the elements are that a record has been read from. -/
theorem Schema.of_readElements (hsound : ∀ slot ∈ schema.slots, slot.reader.Sound slot.Means)
    (hleft : schema.Left slots seen) (hfilled : schema.Filled done seen record) {s : Bytes}
    (h : readElements (slots.map Slot.field) record isFirst s = .ok (record', rest)) :
    ∃ inside elements, s = inside ++ 93 :: rest ∧ IsElements isFirst inside elements ∧
      elements.length = slots.length ∧
      schema.Fits (done ++ (slots.map Slot.name).zip elements) ∧
      schema.Holds (done ++ (slots.map Slot.name).zip elements) record' := by
  induction slots generalizing isFirst done seen record s with
  | nil =>
    simp only [List.map_nil, readElements] at h
    split at h
    next => cases h
    next b tail hs =>
    obtain ⟨w, hw, rfl⟩ := exists_isBlank_cons hs
    split at h
    next hb =>
      obtain ⟨rfl, rfl⟩ := Prod.mk.inj (Except.ok.inj h)
      refine ⟨w, [], by rw [hb], .stop hw, rfl, ?_⟩
      rw [List.map_nil, List.zip_nil_left, List.append_nil]
      exact ⟨fun slot hslot => (hfilled slot hslot).fits,
        fun slot hslot => (hfilled slot hslot).gives⟩
    next => cases h
  | cons slot slots ih =>
    have hslot := hleft.mem slot List.mem_cons_self
    rw [readElements_cons] at h
    obtain ⟨s', hnext, htail⟩ := bind_eq_ok_iff.mp h
    obtain ⟨⟨x, rest'⟩, hread, hrest⟩ := bind_eq_ok_iff.mp htail
    obtain ⟨front, u, hfront, hu, rfl⟩ := of_nextElement hnext
    obtain ⟨v, value, hv, hvalue, rfl, hx⟩ := (hsound slot hslot).optional hread
    have hfill := hfilled.fill hslot (hleft.fresh slot List.mem_cons_self) hx
    obtain ⟨inside, elements, rfl, hinside, hlength, hrecord⟩ := ih hleft.tail hfill hrest
    rw [← List.append_cons] at hrecord
    refine ⟨front ++ ((u ++ v) ++ (value ++ inside)), value :: elements, ?_,
      .element hfront (hu.append hv) hvalue hinside, congrArg (· + 1) hlength, hrecord⟩
    simp only [List.append_assoc]

/-- A record is read from an object or a list. -/
theorem Schema.reader_sound (hsound : ∀ slot ∈ schema.slots, slot.reader.Sound slot.Means) :
    schema.reader.Sound fun v record => ∃ members, IsRecord schema.names v members ∧
      schema.Fits members ∧ schema.Holds members record := by
  intro s record rest h
  simp only [Schema.reader, Reader.record] at h
  split at h
  next tail hs =>
    obtain ⟨u, hu, rfl⟩ := exists_isBlank_cons hs
    obtain ⟨inside, elements, rfl, hinside, hlength, hrecord⟩ :=
      schema.of_readElements hsound schema.left_slots schema.filled_nil h
    have hlist : IsList (91 :: (inside ++ [93])) elements :=
      ⟨[], inside, [], isBlank_nil, isBlank_nil, rfl, hinside⟩
    exact ⟨u, _, hu, hinside.isValue, by simp, _,
      .list hlist (hlength.trans (List.length_map _).symm), hrecord⟩
  next tail hs =>
    obtain ⟨u, hu, rfl⟩ := exists_isBlank_cons hs
    obtain ⟨inside, members, rfl, hinside, hrecord⟩ :=
      schema.of_readMembers hsound schema.filled_nil h
    have hobject : IsObject (123 :: (inside ++ [125])) members :=
      ⟨[], inside, [], isBlank_nil, isBlank_nil, rfl, isTail_first_iff.mp hinside⟩
    exact ⟨u, _, hu, hinside.isValue, by simp, members, .object hobject, hrecord⟩
  next => cases h

/-- What a document is that a record has been read from. -/
theorem Schema.of_readDocument (hsound : ∀ slot ∈ schema.slots, slot.reader.Sound slot.Means)
    {document : Bytes} (h : schema.reader.readDocument document = .ok record) :
    ∃ members, IsRecord schema.names document members ∧ schema.Fits members ∧
      schema.Holds members record := by
  obtain ⟨⟨record', rest⟩, hread, h⟩ := bind_eq_ok_iff.mp h
  obtain ⟨⟨⟩, hend, h⟩ := bind_eq_ok_iff.mp h
  obtain rfl := Except.ok.inj h
  obtain ⟨u, v, hu, -, rfl, members, hmembers, hrecord⟩ := schema.reader_sound hsound hread
  exact ⟨members, hmembers.around hu (checkEnd_eq_ok_iff.mp hend), hrecord⟩

/-! ## What members determine -/

/-- A record is given by its fields, and each of their values has one meaning. -/
structure Schema.Determined (schema : Schema ρ) : Prop where
  ext : ∀ record record' : ρ,
    (∀ slot ∈ schema.slots, slot.get record = slot.get record') → record = record'
  means : ∀ slot ∈ schema.slots, ∀ value (a b : slot.Contents), slot.Means value a →
    slot.Means value b → a = b

theorem Schema.Determined.holds_unique (h : schema.Determined) (hfits : schema.Fits members)
    (hrecord : schema.Holds members record) (hrecord' : schema.Holds members record') :
    record = record' := by
  refine h.ext record record' fun slot hslot => ?_
  exact (hrecord slot hslot).unique (hfits slot hslot).once
    (fun value a b _ => h.means slot hslot value a b) (hrecord' slot hslot)

/-- What is read of a document depends on its members alone, and not on its form. -/
theorem Schema.Determined.readDocument_iff (h : schema.Determined) {document : Bytes}
    (hrecord : IsRecord schema.names document members) (hcovers : schema.Covers members) :
    schema.reader.readDocument document = .ok record ↔
      schema.Fits members ∧ schema.Holds members record := by
  rcases schema.readDocument_record hrecord hcovers with
    ⟨record', hfits, hholds, hread⟩ | ⟨hmisfits, e, hread⟩
  · rw [hread, Except.ok.injEq]
    refine ⟨?_, fun hboth => h.holds_unique hfits hholds hboth.2⟩
    rintro rfl
    exact ⟨hfits, hholds⟩
  · rw [hread]
    exact ⟨fun herror => (by cases herror), fun hboth => absurd hboth.1 hmisfits⟩

end Sound

end DeviceTrust.Json
