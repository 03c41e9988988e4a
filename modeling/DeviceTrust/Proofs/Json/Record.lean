import DeviceTrust.Json.Record
import DeviceTrust.Proofs.Json.Object
import Mathlib.Data.List.Pairwise

/-!
# Reading records

What a record is filled with depends on the members of the object alone, and not on where they
stand: each field takes the value of the one member with its name. A value that is null leaves the
field empty, as a member that is absent does.

Results:
* `Reader.text_reads`, `Reader.code_reads`, `Reader.Reads.optional`: the readers of single values.
* `Schema.Filled.other`, `Schema.Filled.fill`: what one member does to the fields.
* `Schema.readMembers_reads`: what all members of an object do.
* `Schema.reads`, `Schema.readDocument_reads`: a record as a value and as a whole document.
-/

namespace DeviceTrust.Json

variable {α ρ : Type} {s rest : Bytes} {members : Members}

/-! ## Single values -/

/-- The word null as a value. -/
def nullValue : Bytes := [110, 117, 108, 108]

/-- What a reader makes of the values in a domain. It reads what the value means and stops behind
it, or the value means nothing and is refused. -/
def Reader.Reads (reader : Reader α) (Domain : Bytes → Prop) (Means : Bytes → α → Prop) : Prop :=
  ∀ ⦃u v t : Bytes⦄, IsBlank u → IsValue v → Domain v → Bytes.Ends extendsNumber t →
    (∃ a, Means v a ∧ reader.run (u ++ (v ++ t)) = .ok (a, t)) ∨
      (¬∃ a, Means v a) ∧ ∃ e, reader.run (u ++ (v ++ t)) = .error e

theorem Quotes.unique {value : Bytes} {text text' : String} (h : Quotes value text)
    (h' : Quotes value text') : text = text' := by
  obtain ⟨source, hsource, rfl⟩ := h
  obtain ⟨source', hsource', heq⟩ := h'
  obtain rfl := quoted_inj.mp heq
  have hread := readText_append hsource []
  rw [readText_append hsource', Except.ok.injEq, Prod.mk.injEq] at hread
  exact hread.1.symm

theorem IsCode.unique {value : Bytes} {code code' : UInt32} (h : IsCode value code)
    (h' : IsCode value code') : code = code' :=
  UInt32.toNat_inj.mp (h.2.symm.trans h'.2)

theorem not_isObject_nullValue : ¬ IsObject nullValue members := by
  rintro ⟨u, inside, w, -, -, h, -⟩
  have hmem : 123 ∈ nullValue := h ▸ List.mem_append_right _ List.mem_cons_self
  exact absurd hmem (by decide)

theorem Reader.text_run (h : skipSpace s = 34 :: rest) : Reader.text.run s = readText rest := by
  simp only [Reader.text, h]

theorem Reader.text_run_other {b : UInt8} (h : skipSpace s = b :: rest) (hb : b ≠ 34) :
    Reader.text.run s = .error (unexpectedValue (b :: rest)) := by
  simp only [Reader.text, h]
  split
  next heq => exact absurd (List.cons.inj heq).1 hb
  next => rfl

theorem Reader.text_reads : Reader.text.Reads (fun _ => True) Quotes := by
  intro u v t hu hv _ ht
  have hstart := skipSpace_value hu hv t
  obtain ⟨b, tail, rfl, -⟩ := hv.cons_of_value
  by_cases hb : b = 34
  · subst hb
    obtain ⟨source, hsource, hquoted⟩ := hv.isQuoted
    obtain rfl := (List.cons.inj hquoted).2
    rw [List.cons_append, List.append_assoc, List.singleton_append] at hstart ⊢
    have hrun := Reader.text_run hstart
    cases hread : readText (source ++ 34 :: t) with
    | ok p =>
      obtain ⟨source', hspells, heq⟩ := of_readText hread
      obtain ⟨rfl, hrest⟩ := hsource.append_inj hspells.isQuotable heq
      exact .inl ⟨p.1, ⟨source, hspells, rfl⟩, by rw [hrun, hread, hrest]⟩
    | error e =>
      refine .inr ⟨?_, e, hrun.trans hread⟩
      rintro ⟨text, source', hspells, heq⟩
      obtain rfl := quoted_inj.mp heq
      rw [readText_append hspells] at hread
      cases hread
  · refine .inr ⟨?_, _, Reader.text_run_other hstart hb⟩
    rintro ⟨text, source, -, heq⟩
    exact hb (List.cons.inj heq).1

theorem Reader.code_run {b : UInt8} {x : Numeral} (h : skipSpace s = b :: rest)
    (hb : b = 45 ∨ isDigit b = true) {t : Bytes}
    (hx : readNumeral .truncated (b :: rest) = .ok (x, t)) :
    Reader.code.run s =
      if x.scaled.inRange then
        match x.code? with
        | some code => .ok (code, t)
        | none => .error .mismatch
      else .error .malformed := by
  simp only [Reader.code, h, if_pos hb, readNumber, hx, bind, Except.bind]
  cases x.scaled.inRange <;> rfl

theorem Reader.code_run_other {b : UInt8} (h : skipSpace s = b :: rest)
    (hb : ¬(b = 45 ∨ isDigit b = true)) :
    Reader.code.run s = .error (unexpectedValue (b :: rest)) := by
  simp only [Reader.code, h, if_neg hb]

theorem Reader.code_reads : Reader.code.Reads (fun _ => True) IsCode := by
  intro u v t hu hv _ ht
  have hstart := skipSpace_value hu hv t
  obtain ⟨b, tail, rfl, -⟩ := hv.cons_of_value
  by_cases hb : b = 45 ∨ isDigit b = true
  · have hnumber := hv.isNumber hb
    obtain ⟨x, hx⟩ := readNumeral_append .truncated hnumber ht
    have hrun := Reader.code_run hstart hb hx
    cases hcode : x.code? with
    | some code =>
      obtain ⟨hsign, hfraction, hexponent, hvalue⟩ := code?_eq_some_iff.mp hcode
      obtain ⟨negative, integer, fraction, exponent⟩ := x
      subst hsign hfraction hexponent
      obtain ⟨hinteger, heq⟩ := eq_integer_of_readNumeral hx
      obtain rfl := List.append_cancel_right heq
      have hrange := inRange_of_code (hvalue ▸ code.toNat_lt)
      rw [hcode, if_pos hrange] at hrun
      exact .inl ⟨code, ⟨hinteger.1, hvalue⟩, hrun⟩
    | none =>
      refine .inr ⟨?_, ?_⟩
      · rintro ⟨code, hdigits, hvalue⟩
        rw [readNumeral_digits (hnumber.isInteger hdigits.2) ht] at hx
        obtain ⟨rfl, -⟩ := Prod.mk.inj (Except.ok.inj hx)
        rw [code?_eq_some_iff.mpr ⟨rfl, rfl, rfl, hvalue⟩] at hcode
        cases hcode
      · rw [hrun, hcode]
        split <;> exact ⟨_, rfl⟩
  · refine .inr ⟨?_, _, Reader.code_run_other hstart hb⟩
    rintro ⟨code, hdigits, -⟩
    exact hb (.inr (hdigits.2 b List.mem_cons_self))

/-! ## Values that may be null -/

/-- What a value that may be null stands for. -/
def OrNull (Means : Bytes → α → Prop) (value : Bytes) : Option α → Prop
  | none => value = nullValue
  | some a => value ≠ nullValue ∧ Means value a

theorem exists_orNull_iff {Means : Bytes → α → Prop} {value : Bytes} :
    (∃ x, OrNull Means value x) ↔ value = nullValue ∨ ∃ a, Means value a := by
  by_cases hnull : value = nullValue
  · exact ⟨fun _ => .inl hnull, fun _ => ⟨none, hnull⟩⟩
  · constructor
    · rintro ⟨x | a, hx⟩
      · exact absurd hx hnull
      · exact .inr ⟨a, hx.2⟩
    · rintro (h | ⟨a, ha⟩)
      · exact absurd h hnull
      · exact ⟨some a, hnull, ha⟩

theorem Reader.optional_run_null (reader : Reader α) (h : skipSpace s = nullValue ++ rest) :
    reader.optional.run s = .ok (none, rest) := by
  have h' : skipSpace s = 110 :: ([117, 108, 108] ++ rest) := h
  simp only [Reader.optional, h', readWord_append, Except.map]

theorem Reader.optional_run_other (reader : Reader α) {b : UInt8} (h : skipSpace s = b :: rest)
    (hb : b ≠ 110) :
    reader.optional.run s = (reader.run s).map fun (a, rest) => (some a, rest) := by
  simp only [Reader.optional, h]
  split
  next heq => exact absurd (List.cons.inj heq).1 hb
  next => rfl

theorem Reader.Reads.optional {reader : Reader α} {Domain : Bytes → Prop}
    {Means : Bytes → α → Prop} (h : reader.Reads Domain Means) :
    reader.optional.Reads (fun v => v ≠ nullValue → Domain v) (OrNull Means) := by
  intro u v t hu hv hdomain ht
  have hstart := skipSpace_value hu hv t
  by_cases hnull : v = nullValue
  · exact .inl ⟨none, hnull, Reader.optional_run_null reader (hnull ▸ hstart)⟩
  · obtain ⟨b, tail, rfl, -⟩ := hv.cons_of_value
    have hb : b ≠ 110 := by
      rintro rfl
      exact hnull (congrArg _ hv.eq_null)
    have hrun := Reader.optional_run_other reader hstart hb
    rcases h hu hv (hdomain hnull) ht with ⟨a, ha, hread⟩ | ⟨hnone, e, hread⟩
    · exact .inl ⟨some a, ⟨hnull, ha⟩, by rw [hrun, hread]; rfl⟩
    · refine .inr ⟨?_, e, by rw [hrun, hread]; rfl⟩
      rw [exists_orNull_iff]
      exact not_or.mpr ⟨hnull, hnone⟩

/-! ## What members give -/

/-- How many members have the name. -/
def Members.occurrences (members : Members) (name : String) : Nat :=
  members.countP (·.1 = name)

/-- What the member with the name gives, wherever it stands; a member that is null gives as little
as one that is absent. -/
def Members.Gives (members : Members) (name : String) (Means : Bytes → α → Prop) :
    Option α → Prop
  | none => ∀ value, (name, value) ∈ members → value = nullValue
  | some a => ∃ value, (name, value) ∈ members ∧ value ≠ nullValue ∧ Means value a

/-- The member with the name is neither null nor of its kind. -/
def Members.Spoils (members : Members) (name : String) (Means : Bytes → α → Prop) : Prop :=
  ∃ value, (name, value) ∈ members ∧ value ≠ nullValue ∧ ¬∃ a, Means value a

section Gives

variable {name key : String} {value : Bytes} {Means : Bytes → α → Prop} {x : Option α}

theorem occurrences_append (members members' : Members) (key : String) :
    Members.occurrences (members ++ members') key =
      members.occurrences key + members'.occurrences key :=
  List.countP_append

theorem occurrences_singleton_self (key : String) (value : Bytes) :
    Members.occurrences [(key, value)] key = 1 := by
  simp [Members.occurrences]

theorem occurrences_singleton_of_ne (h : name ≠ key) (value : Bytes) :
    Members.occurrences [(name, value)] key = 0 := by
  simp [Members.occurrences, h]

theorem occurrences_pos (h : (key, value) ∈ members) : 0 < members.occurrences key :=
  List.countP_pos_iff.mpr ⟨_, h, by simp⟩

theorem notMem_of_occurrences (h : members.occurrences key = 0) : (key, value) ∉ members := by
  intro hmem
  have := occurrences_pos hmem
  omega

theorem gives_concat_of_ne (h : name ≠ key) :
    Members.Gives (members ++ [(name, value)]) key Means x ↔ members.Gives key Means x := by
  have hmem : ∀ v, (key, v) ∈ members ++ [(name, value)] ↔ (key, v) ∈ members := by
    intro v
    simp [Ne.symm h]
  cases x <;> simp only [Members.Gives, hmem]

theorem gives_concat_self (h : members.occurrences key = 0) (hx : OrNull Means value x) :
    Members.Gives (members ++ [(key, value)]) key Means x := by
  cases x with
  | none =>
    intro v hv
    rcases List.mem_append.mp hv with hv | hv
    · exact absurd hv (notMem_of_occurrences h)
    · obtain ⟨-, rfl⟩ := Prod.mk.inj (List.mem_singleton.mp hv)
      exact hx
  | some a => exact ⟨value, by simp, hx⟩

theorem eq_of_occurrences_le {value' : Bytes} (h : members.occurrences key ≤ 1)
    (hmem : (key, value) ∈ members) (hmem' : (key, value') ∈ members) : value = value' := by
  obtain ⟨front, back, rfl⟩ := List.append_of_mem hmem
  have hself := occurrences_singleton_self key value
  rw [List.append_cons, occurrences_append, occurrences_append] at h
  rw [List.append_cons, List.mem_append, List.mem_append, List.mem_singleton] at hmem'
  rcases hmem' with (hfront | heq) | hback
  · have := occurrences_pos hfront
    omega
  · exact (Prod.mk.inj heq).2.symm
  · have := occurrences_pos hback
    omega

/-- A member that is not repeated gives one thing. -/
theorem Members.Gives.unique {y : Option α} (hx : members.Gives key Means x)
    (honce : members.occurrences key ≤ 1)
    (hmeans : ∀ v a b, (key, v) ∈ members → Means v a → Means v b → a = b)
    (hy : members.Gives key Means y) : x = y := by
  cases x with
  | none =>
    cases y with
    | none => rfl
    | some b =>
      obtain ⟨v, hv, hne, -⟩ := hy
      exact absurd (hx v hv) hne
  | some a =>
    obtain ⟨v, hv, hne, ha⟩ := hx
    cases y with
    | none => exact absurd (hy v hv) hne
    | some b =>
      obtain ⟨w, hw, -, hb⟩ := hy
      obtain rfl := eq_of_occurrences_le honce hv hw
      rw [hmeans v a b hv ha hb]

theorem Members.Gives.text_unique {x y : Option String} (hx : members.Gives key Quotes x)
    (honce : members.occurrences key ≤ 1) (hy : members.Gives key Quotes y) : x = y :=
  hx.unique honce (fun _ _ _ _ h h' => h.unique h') hy

theorem Members.Gives.code_unique {x y : Option UInt32} (hx : members.Gives key IsCode x)
    (honce : members.occurrences key ≤ 1) (hy : members.Gives key IsCode y) : x = y :=
  hx.unique honce (fun _ _ _ _ h h' => h.unique h') hy

theorem Members.Gives.mono {Means' : Bytes → α → Prop} (h : members.Gives key Means x)
    (himp : ∀ v a, Means v a → Means' v a) : members.Gives key Means' x := by
  cases x with
  | none => exact h
  | some a =>
    obtain ⟨v, hv, hne, ha⟩ := h
    exact ⟨v, hv, hne, himp v a ha⟩

theorem not_spoils_iff : ¬ members.Spoils key Means ↔
    ∀ value, (key, value) ∈ members → ∃ x, OrNull Means value x := by
  constructor
  · intro h value hmem
    rw [exists_orNull_iff, or_iff_not_imp_left]
    intro hne
    by_contra hnone
    exact h ⟨value, hmem, hne, hnone⟩
  · rintro h ⟨value, hmem, hne, hnone⟩
    exact hnone ((exists_orNull_iff.mp (h value hmem)).resolve_left hne)

end Gives

/-! ## Records -/

/-- A field of the record type `ρ` that stays empty where its member is absent or null. -/
structure Slot (ρ : Type) where
  name : String
  Contents : Type
  reader : Reader Contents
  get : ρ → Option Contents
  set : Option Contents → ρ → ρ
  /-- The values that `reads` speaks of, and what they mean. -/
  Domain : Bytes → Prop
  Means : Bytes → Contents → Prop
  reads : reader.Reads Domain Means
  get_set : ∀ x record, get (set x record) = x

/-- How the field is read. -/
def Slot.field (slot : Slot ρ) : Field ρ :=
  ⟨slot.name, slot.reader.optional.map slot.set⟩

/-- Two fields with names and places of their own. -/
structure Slot.Apart (slot slot' : Slot ρ) : Prop where
  name_ne : slot.name ≠ slot'.name
  left : ∀ x record, slot.get (slot'.set x record) = slot.get record
  right : ∀ x record, slot'.get (slot.set x record) = slot'.get record

/-- The fields of a record and the record that they are read into. -/
structure Schema (ρ : Type) where
  slots : List (Slot ρ)
  empty : ρ
  apart : slots.Pairwise Slot.Apart
  get_empty : ∀ slot ∈ slots, slot.get empty = none

/-- How the fields are read. -/
def Schema.fields (schema : Schema ρ) : List (Field ρ) :=
  schema.slots.map Slot.field

/-- How the record is read. -/
def Schema.reader (schema : Schema ρ) : Reader ρ :=
  .record schema.fields schema.empty

/-- The members hold values that the fields have been proved for. -/
def Schema.Covers (schema : Schema ρ) (members : Members) : Prop :=
  ∀ slot ∈ schema.slots, ∀ value, (slot.name, value) ∈ members → value ≠ nullValue →
    slot.Domain value

/-- The member of the field is not repeated, and it is null or has a meaning. -/
structure Slot.Fits (slot : Slot ρ) (members : Members) : Prop where
  once : members.occurrences slot.name ≤ 1
  means : ∀ value, (slot.name, value) ∈ members → ∃ x, OrNull slot.Means value x

/-- The members of all fields fit. -/
def Schema.Fits (schema : Schema ρ) (members : Members) : Prop :=
  ∀ slot ∈ schema.slots, slot.Fits members

/-- The record holds what the members give. -/
def Schema.Holds (schema : Schema ρ) (members : Members) (record : ρ) : Prop :=
  ∀ slot ∈ schema.slots, members.Gives slot.name slot.Means (slot.get record)

/-- Where the reading of a field stands after the members `done`. -/
structure Slot.Filled (slot : Slot ρ) (done : Members) (seen : List String) (record : ρ) :
    Prop where
  fits : slot.Fits done
  gives : done.Gives slot.name slot.Means (slot.get record)
  seen_iff : slot.name ∈ seen ↔ 0 < done.occurrences slot.name

/-- Where the reading of the record stands after the members `done`. -/
def Schema.Filled (schema : Schema ρ) (done : Members) (seen : List String) (record : ρ) : Prop :=
  ∀ slot ∈ schema.slots, slot.Filled done seen record

section Schema

variable {schema : Schema ρ} {done : Members} {seen : List String} {record : ρ} {slot : Slot ρ}
  {name : String} {value : Bytes}

instance : Std.Symm (@Slot.Apart ρ) where
  symm _ _ h := ⟨h.name_ne.symm, h.right, h.left⟩

theorem Schema.apart_of_ne {slot' : Slot ρ} (h : slot ∈ schema.slots) (h' : slot' ∈ schema.slots)
    (hne : slot ≠ slot') : slot.Apart slot' :=
  schema.apart.forall h h' hne

theorem Schema.eq_of_name_eq {slot' : Slot ρ} (h : slot ∈ schema.slots)
    (h' : slot' ∈ schema.slots) (hname : slot.name = slot'.name) : slot = slot' := by
  by_contra hne
  exact (schema.apart_of_ne h h' hne).name_ne hname

theorem Schema.find?_of_mem (h : slot ∈ schema.slots) :
    schema.fields.find? (·.name == slot.name) = some slot.field := by
  cases hfind : schema.fields.find? (·.name == slot.name) with
  | none =>
    have hnot := List.find?_eq_none.mp hfind slot.field (List.mem_map_of_mem h)
    exact absurd (beq_self_eq_true slot.name) hnot
  | some field =>
    obtain ⟨slot', hslot', rfl⟩ := List.mem_map.mp (List.mem_of_find?_eq_some hfind)
    have hname : slot'.name = slot.name := by simpa [Slot.field] using List.find?_some hfind
    rw [schema.eq_of_name_eq hslot' h hname]

theorem Schema.find?_of_ne (h : ∀ slot ∈ schema.slots, slot.name ≠ name) :
    schema.fields.find? (·.name == name) = none := by
  rw [List.find?_eq_none]
  intro field hfield
  obtain ⟨slot, hslot, rfl⟩ := List.mem_map.mp hfield
  simpa [Slot.field] using h slot hslot

theorem Schema.fits_iff : schema.Fits members ↔
    (∀ slot ∈ schema.slots, ¬ 1 < members.occurrences slot.name) ∧
      ∀ slot ∈ schema.slots, ¬ members.Spoils slot.name slot.Means := by
  simp only [not_spoils_iff, Nat.not_lt]
  exact ⟨fun h => ⟨fun slot hslot => (h slot hslot).once, fun slot hslot => (h slot hslot).means⟩,
    fun h slot hslot => ⟨h.1 slot hslot, h.2 slot hslot⟩⟩

/-! ## One member -/

/-- A member with another name leaves the field as it is. -/
theorem Slot.Filled.keep {seen' : List String} {record' : ρ} (h : slot.Filled done seen record)
    (hname : name ≠ slot.name) (value : Bytes) (hget : slot.get record' = slot.get record)
    (hseen : slot.name ∈ seen' ↔ slot.name ∈ seen) :
    slot.Filled (done ++ [(name, value)]) seen' record' := by
  have hoccurs : Members.occurrences (done ++ [(name, value)]) slot.name =
      done.occurrences slot.name := by
    rw [occurrences_append, occurrences_singleton_of_ne hname, Nat.add_zero]
  refine ⟨⟨?_, fun value' hmem => ?_⟩, ?_, ?_⟩
  · rw [hoccurs]
    exact h.fits.once
  · rcases List.mem_append.mp hmem with hmem | hmem
    · exact h.fits.means value' hmem
    · obtain ⟨heq, -⟩ := Prod.mk.inj (List.mem_singleton.mp hmem)
      exact absurd heq.symm hname
  · rw [hget, gives_concat_of_ne hname]
    exact h.gives
  · rw [hseen, hoccurs]
    exact h.seen_iff

/-- The member of the field fills it. -/
theorem Slot.Filled.fill {x : Option slot.Contents} (h : slot.Filled done seen record)
    (hseen : slot.name ∉ seen) (hx : OrNull slot.Means value x) :
    slot.Filled (done ++ [(slot.name, value)]) (slot.name :: seen) (slot.set x record) := by
  have hnone : done.occurrences slot.name = 0 := Nat.eq_zero_of_not_pos (mt h.seen_iff.mpr hseen)
  have hoccurs : Members.occurrences (done ++ [(slot.name, value)]) slot.name = 1 := by
    rw [occurrences_append, hnone, occurrences_singleton_self]
  refine ⟨⟨Nat.le_of_eq hoccurs, fun value' hmem => ?_⟩, ?_, ?_⟩
  · rcases List.mem_append.mp hmem with hmem | hmem
    · exact h.fits.means value' hmem
    · obtain ⟨-, rfl⟩ := Prod.mk.inj (List.mem_singleton.mp hmem)
      exact ⟨x, hx⟩
  · rw [slot.get_set]
    exact gives_concat_self hnone hx
  · simp [hoccurs]

theorem Schema.filled_nil (schema : Schema ρ) : schema.Filled [] [] schema.empty := by
  intro slot hslot
  refine ⟨⟨Nat.zero_le 1, by simp⟩, ?_, by simp [Members.occurrences]⟩
  rw [schema.get_empty slot hslot]
  intro value hvalue
  cases hvalue

/-- A member that the record does not know is passed over. -/
theorem Schema.Filled.other (h : schema.Filled done seen record)
    (hname : ∀ slot ∈ schema.slots, slot.name ≠ name) (value : Bytes) :
    schema.Filled (done ++ [(name, value)]) seen record :=
  fun slot hslot => (h slot hslot).keep (hname slot hslot).symm value rfl Iff.rfl

/-- A member that the record knows fills its field and no other one. -/
theorem Schema.Filled.fill {x : Option slot.Contents} (h : schema.Filled done seen record)
    (hslot : slot ∈ schema.slots) (hseen : slot.name ∉ seen) (hx : OrNull slot.Means value x) :
    schema.Filled (done ++ [(slot.name, value)]) (slot.name :: seen) (slot.set x record) := by
  intro slot' hslot'
  by_cases heq : slot = slot'
  · subst heq
    exact (h slot hslot).fill hseen hx
  · have hapart := schema.apart_of_ne hslot hslot' heq
    refine (h slot' hslot').keep hapart.name_ne value (hapart.right x record) ?_
    rw [List.mem_cons, or_iff_right hapart.name_ne.symm]

/-- A known member that comes again cannot fit, whatever follows. -/
theorem Schema.Filled.not_fits (h : schema.Filled done seen record) (hslot : slot ∈ schema.slots)
    (hseen : slot.name ∈ seen) (members : Members) :
    ¬ schema.Fits (done ++ (slot.name, value) :: members) := by
  intro hfits
  have honce := (hfits slot hslot).once
  have hdone := (h slot hslot).seen_iff.mp hseen
  have hmember : 0 < Members.occurrences ((slot.name, value) :: members) slot.name :=
    occurrences_pos List.mem_cons_self
  rw [occurrences_append] at honce
  omega

/-! ## Reading the members -/

variable {fields : List (Field ρ)} {field : Field ρ} {isFirst : Bool} {s₁ s₂ s₃ : Bytes}

/-- One member after the other, without the proof that the loop ends. -/
theorem readMembers_eq (fields : List (Field ρ)) (seen : List String) (record : ρ)
    (isFirst : Bool) (s : Bytes) :
    readMembers fields seen record isFirst s = (do
      let (found, s) ← nextName isFirst s
      match found with
      | none => .ok (record, s)
      | some name =>
        match fields.find? (·.name == name) with
        | none =>
          let s ← readColon s
          let s ← skipValue s
          readMembers fields seen record false s
        | some field =>
          if seen.contains name then .error .mismatch
          else
            let s ← readColon s
            let (update, s) ← field.reader.run s
            readMembers fields (name :: seen) (update record) false s) := by
  rw [readMembers]
  split
  next hn => simp only [hn, bind, Except.bind]
  next hn => simp only [hn, bind, Except.bind]
  next name rest hn =>
    simp only [hn, bind, Except.bind]
    cases fields.find? (·.name == name) with
    | none =>
      dsimp only
      split
      next hc => simp only [hc]
      next hc =>
        simp only [hc]
        split
        next hv => simp only [hv]
        next hv => simp only [hv]
    | some field =>
      dsimp only
      split
      next => rfl
      next =>
        split
        next hc => simp only [hc]
        next hc =>
          simp only [hc]
          split
          next hv => simp only [hv]
          next hv => simp only [hv]

theorem readMembers_of_stop (hn : nextName isFirst s = .ok (none, rest)) :
    readMembers fields seen record isFirst s = .ok (record, rest) := by
  rw [readMembers_eq, hn]
  rfl

theorem readMembers_of_other (hn : nextName isFirst s = .ok (some name, s₁))
    (hfind : fields.find? (·.name == name) = none) (hc : readColon s₁ = .ok s₂)
    (hv : skipValue s₂ = .ok s₃) :
    readMembers fields seen record isFirst s = readMembers fields seen record false s₃ := by
  rw [readMembers_eq, hn]
  simp only [hfind, hc, hv, bind, Except.bind]

theorem readMembers_of_seen (hn : nextName isFirst s = .ok (some name, s₁))
    (hfind : fields.find? (·.name == name) = some field) (hseen : name ∈ seen) :
    readMembers fields seen record isFirst s = .error .mismatch := by
  rw [readMembers_eq, hn]
  simp only [hfind, List.contains_iff_mem.mpr hseen, ite_true, bind, Except.bind]

theorem readMembers_of_field (record : ρ) (hn : nextName isFirst s = .ok (some name, s₁))
    (hfind : fields.find? (·.name == name) = some field) (hseen : name ∉ seen)
    (hc : readColon s₁ = .ok s₂) :
    readMembers fields seen record isFirst s = (do
      let (update, s₃) ← field.reader.run s₂
      readMembers fields (name :: seen) (update record) false s₃) := by
  rw [readMembers_eq, hn]
  simp only [hfind, mt List.contains_iff_mem.mp hseen, hc, Bool.false_eq_true, ite_false, bind,
    Except.bind]

theorem Slot.run_field (slot : Slot ρ) (s : Bytes) :
    slot.field.reader.run s =
      (slot.reader.optional.run s).map fun (x, rest) => (slot.set x, rest) :=
  rfl

/-- The members up to the closing brace fill the record, or one of them does not fit. -/
theorem Schema.readMembers_reads {inside : Bytes} (htail : IsTail isFirst inside members)
    (hcovers : schema.Covers members) (hfilled : schema.Filled done seen record) (rest : Bytes) :
    (∃ record', (schema.Fits (done ++ members) ∧ schema.Holds (done ++ members) record') ∧
      readMembers schema.fields seen record isFirst (inside ++ 125 :: rest) =
        .ok (record', rest)) ∨
    (¬ schema.Fits (done ++ members) ∧
      ∃ e, readMembers schema.fields seen record isFirst (inside ++ 125 :: rest) = .error e) := by
  -- the members that are left grow shorter, and `done` takes up what has been read
  induction members generalizing isFirst inside done seen record with
  | nil =>
    rw [List.append_nil]
    exact .inl ⟨record, ⟨fun slot hslot => (hfilled slot hslot).fits,
      fun slot hslot => (hfilled slot hslot).gives⟩,
      readMembers_of_stop (nextName_stop htail.isBlank_of_nil rest)⟩
  | cons member members ih =>
    obtain ⟨name, value⟩ := member
    obtain ⟨s₁, v, tail, hnext, hcolon, hv, hvalue, hrest⟩ := htail.exists_of_cons rest
    have hend := hrest.ends rest
    have hcovers' : schema.Covers members := fun slot hslot value' hmem =>
      hcovers slot hslot value' (List.mem_cons_of_mem _ hmem)
    rw [List.append_cons done (name, value) members]
    by_cases hknown : ∃ slot ∈ schema.slots, slot.name = name
    · obtain ⟨slot, hslot, rfl⟩ := hknown
      have hfind := schema.find?_of_mem hslot
      by_cases hseen : slot.name ∈ seen
      · refine .inr ⟨?_, _, readMembers_of_seen hnext hfind hseen⟩
        rw [← List.append_cons]
        exact hfilled.not_fits hslot hseen members
      · have hrun := readMembers_of_field record hnext hfind hseen hcolon
        rw [Slot.run_field] at hrun
        have hread := slot.reads.optional hv hvalue (hcovers slot hslot value List.mem_cons_self)
          hend
        rcases hread with ⟨x, hx, hread⟩ | ⟨hnone, e, hread⟩
        · rw [hread] at hrun
          rw [hrun]
          exact ih hrest hcovers' (hfilled.fill hslot hseen hx)
        · rw [hread] at hrun
          refine .inr ⟨fun hfits => ?_, e, hrun⟩
          exact hnone ((hfits slot hslot).means value (by simp))
    · have hname : ∀ slot ∈ schema.slots, slot.name ≠ name := fun slot hslot heq =>
        hknown ⟨slot, hslot, heq⟩
      rw [readMembers_of_other hnext (schema.find?_of_ne hname) hcolon
        (skipValue_append hv hvalue hend)]
      exact ih hrest hcovers' (hfilled.other hname value)

/-! ## Whole records -/

theorem Schema.reader_run {u : Bytes} (hu : IsBlank u) (s : Bytes) :
    schema.reader.run (u ++ 123 :: s) = readMembers schema.fields [] schema.empty true s := by
  simp only [Schema.reader, Reader.record, skipSpace_append hu, skipSpace_cons (b := 123) rfl]

/-- An object that is a value has no white space around it. -/
theorem IsObject.of_isValue (hvalue : IsValue value)
    (h : IsObject value members) :
    ∃ inside, value = 123 :: (inside ++ [125]) ∧ IsTail true inside members := by
  obtain ⟨u, inside, w, hu, hw, rfl, hinside⟩ := h
  obtain ⟨rfl, rfl⟩ := Matches.eq_nil_around (b := .object) hu hw hvalue
  exact ⟨inside, rfl, isTail_first_iff.mpr hinside⟩

/-- A record that is a value. -/
theorem Schema.reads (schema : Schema ρ) :
    schema.reader.Reads (fun v => ∃ members, IsObject v members ∧ schema.Covers members)
      (fun v record => ∃ members, IsObject v members ∧ schema.Fits members ∧
        schema.Holds members record) := by
  rintro u v t hu hv ⟨members, hobject, hcovers⟩ -
  obtain ⟨inside, rfl, htail⟩ := hobject.of_isValue hv
  have hread := Schema.readMembers_reads htail hcovers schema.filled_nil t
  rw [List.cons_append, List.append_assoc, List.singleton_append, Schema.reader_run hu]
  rcases hread with ⟨record, ⟨hfits, hholds⟩, hread⟩ | ⟨hfits, hread⟩
  · exact .inl ⟨record, ⟨members, hobject, hfits, hholds⟩, hread⟩
  · refine .inr ⟨?_, hread⟩
    rintro ⟨record, members', hobject', hfits', -⟩
    exact hfits (hobject'.unique hobject ▸ hfits')

/-- A record that is a whole document. -/
theorem Schema.readDocument_reads {document : Bytes} (hobject : IsObject document members)
    (hcovers : schema.Covers members) :
    (∃ record, schema.Fits members ∧ schema.Holds members record ∧
      schema.reader.readDocument document = .ok record) ∨
    (¬ schema.Fits members ∧ ∃ e, schema.reader.readDocument document = .error e) := by
  obtain ⟨u, inside, w, hu, hw, rfl, hinside⟩ := hobject
  have hread := Schema.readMembers_reads (isTail_first_iff.mpr hinside) hcovers schema.filled_nil w
  rw [← Schema.reader_run hu] at hread
  rcases hread with ⟨record, ⟨hfits, hholds⟩, hread⟩ | ⟨hfits, e, hread⟩
  · refine .inl ⟨record, hfits, hholds, ?_⟩
    simp only [Reader.readDocument, hread, checkEnd_eq_ok_iff.mpr hw, bind, Except.bind]
  · refine .inr ⟨hfits, e, ?_⟩
    simp only [Reader.readDocument, hread, bind, Except.bind]

/-- Members that fit can be read into a record. -/
theorem Schema.exists_holds {document : Bytes} (hobject : IsObject document members)
    (hcovers : schema.Covers members) (hfits : schema.Fits members) :
    ∃ record, schema.Holds members record := by
  rcases Schema.readDocument_reads hobject hcovers with ⟨record, -, hholds, -⟩ | ⟨hnot, -⟩
  · exact ⟨record, hholds⟩
  · exact absurd hfits hnot

end Schema

end DeviceTrust.Json
