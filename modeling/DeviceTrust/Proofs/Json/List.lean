import DeviceTrust.Json.Record
import DeviceTrust.Proofs.Json.Object

/-!
# The elements of a list

What a document is that is one list, and how the elements up to the closing bracket are gone through
one by one.

Results:
* `nextElement_append`, `of_nextElement`: the way to the next element.
* `IsElements.isValue`: a list is a value of the grammar.
* `IsList.unique`: a document has one list of elements.
-/

namespace DeviceTrust.Json

variable {s rest w : Bytes} {isFirst : Bool} {elements : List Bytes}

/-- What stands up to the closing bracket of a list. -/
inductive IsElements : (isFirst : Bool) → Bytes → List Bytes → Prop where
  | stop {isFirst : Bool} {w : Bytes} (hw : IsBlank w) : IsElements isFirst w []
  | element {isFirst : Bool} {front u v s : Bytes} {elements : List Bytes}
      (hfront : IsSeparator isFirst front) (hu : IsBlank u) (hv : IsValue v)
      (hs : IsElements false s elements) :
      IsElements isFirst (front ++ (u ++ (v ++ s))) (v :: elements)

/-- The document is one list with these elements, and nothing but white space around it. -/
def IsList (document : Bytes) (elements : List Bytes) : Prop :=
  ∃ u inside w, IsBlank u ∧ IsBlank w ∧ document = u ++ 91 :: (inside ++ 93 :: w) ∧
    IsElements true inside elements

theorem IsElements.ends (h : IsElements false s elements) (rest : Bytes) :
    Bytes.Ends extendsNumber (s ++ 93 :: rest) := by
  cases h with
  | stop hw => exact hw.ends (by simp; rfl)
  | element hfront =>
    cases hfront with
    | later hw =>
      rw [List.append_assoc, List.append_assoc]
      exact hw.ends (by simp; rfl)

/-! ## Going to the next element -/

theorem nextElement_stop (hw : IsBlank w) (rest : Bytes) :
    nextElement isFirst (w ++ 93 :: rest) = .error .mismatch := by
  simp only [nextElement, skipSpace_append hw, skipSpace_cons (b := 93) rfl, ite_true]

theorem nextElement_append {front u v : Bytes} (hfront : IsSeparator isFirst front)
    (hu : IsBlank u) (hv : IsValue v) (t : Bytes) :
    nextElement isFirst (front ++ (u ++ (v ++ t))) = .ok (v ++ t) := by
  have hstart := skipSpace_value hu hv t
  obtain ⟨b, tail, rfl, -, hb, -⟩ := hv.cons_of_value
  rw [List.cons_append] at hstart ⊢
  cases hfront with
  | first => simp only [nextElement, List.nil_append, hstart, if_neg hb, ite_true]
  | later hw =>
    simp only [nextElement, List.append_assoc, List.cons_append, List.nil_append,
      skipSpace_append hw, skipSpace_cons (b := 44) rfl, hstart, if_neg hb, ite_true]
    rfl

theorem of_nextElement (h : nextElement isFirst s = .ok rest) :
    ∃ front u, IsSeparator isFirst front ∧ IsBlank u ∧ s = front ++ (u ++ rest) := by
  unfold nextElement at h
  split at h
  next => cases h
  next b tail hs =>
  obtain ⟨w, hw, rfl⟩ := exists_isBlank_cons hs
  split at h
  next => cases h
  next =>
  split at h
  next hfirst =>
    obtain rfl := Except.ok.inj h
    exact ⟨[], w, hfirst ▸ .first, hw, rfl⟩
  next hfirst =>
  split at h
  next hb =>
    split at h
    next => cases h
    next c tail' htail =>
      obtain ⟨u, hu, rfl⟩ := exists_isBlank_cons htail
      split at h
      next => cases h
      next =>
        obtain rfl := Except.ok.inj h
        rw [Bool.not_eq_true] at hfirst
        refine ⟨w ++ [44], u, hfirst ▸ .later hw, hu, ?_⟩
        rw [hb, List.append_assoc]
        rfl
  next => cases h

/-! ## Lists as values -/

theorem IsElements.matches_cons {u v : Bytes} (h : IsElements false s elements) (hu : IsBlank u)
    (hv : IsValue v) : Matches .elements (u ++ (v ++ s)) := by
  induction elements generalizing s u v with
  | nil =>
    cases h with
    | stop hw => exact .lastElement hu hv hw
  | cons element elements ih =>
    cases h with
    | element hfront hu' hv' hs =>
      cases hfront with
      | later hw =>
        have helements := Matches.element hu hv hw (ih hs hu' hv')
        simpa only [List.append_assoc, List.cons_append, List.nil_append] using helements

/-- A list is a value. -/
theorem IsElements.isValue (h : IsElements true s elements) : IsValue (91 :: (s ++ [93])) := by
  cases h with
  | stop hw => exact .emptyList hw
  | element hfront hu hv hs =>
    cases hfront with
    | first => exact .list (hs.matches_cons hu hv)

/-- A list that is a value has no white space around it. -/
theorem IsList.of_isValue {value : Bytes} (hvalue : IsValue value) (h : IsList value elements) :
    ∃ inside, value = 91 :: (inside ++ [93]) ∧ IsElements true inside elements := by
  obtain ⟨u, inside, w, hu, hw, rfl, hinside⟩ := h
  obtain ⟨rfl, rfl⟩ := Matches.eq_nil_around (b := .list) hu hw hvalue
  exact ⟨inside, rfl, hinside⟩

/-! ## Uniqueness -/

/-- The same bytes have the same elements. -/
theorem IsElements.unique {s' rest' : Bytes} {elements' : List Bytes}
    (h : IsElements isFirst s elements) (h' : IsElements isFirst s' elements')
    (heq : s ++ 93 :: rest = s' ++ 93 :: rest') : elements = elements' ∧ rest = rest' := by
  induction h generalizing s' elements' with
  | @stop isFirst w hw =>
    cases h' with
    | stop hw' =>
      have hstart := congrArg skipSpace heq
      rw [skipSpace_append hw, skipSpace_append hw', skipSpace_cons rfl, skipSpace_cons rfl] at hstart
      exact ⟨rfl, (List.cons.inj hstart).2⟩
    | element hfront hu hv hs =>
      have hnext : nextElement isFirst (w ++ 93 :: rest) = .error .mismatch :=
        nextElement_stop hw rest
      simp only [heq, List.append_assoc, nextElement_append hfront hu hv] at hnext
      cases hnext
  | @element isFirst front u v s elements hfront hu hv hs ih =>
    simp only [List.append_assoc] at heq
    have hnext := nextElement_append hfront hu hv (s ++ 93 :: rest)
    cases h' with
    | stop hw' =>
      rw [heq, nextElement_stop hw'] at hnext
      cases hnext
    | @element _ front' u' v' s' elements' hfront' hu' hv' hs' =>
      simp only [heq, List.append_assoc] at hnext
      rw [nextElement_append hfront' hu' hv', Except.ok.injEq] at hnext
      -- the element ends where it can be skipped to
      have hskip := skipValue_append isBlank_nil hv (hs.ends rest)
      have hskip' := skipValue_append isBlank_nil hv' (hs'.ends rest')
      rw [List.nil_append] at hskip hskip'
      rw [hnext, hskip, Except.ok.injEq] at hskip'
      obtain ⟨rfl, rfl⟩ := ih hs' hskip'
      rw [hskip'] at hnext
      rw [List.append_cancel_right hnext]
      exact ⟨rfl, rfl⟩

/-- A document has one list of elements. -/
theorem IsList.unique {document : Bytes} {elements' : List Bytes} (h : IsList document elements)
    (h' : IsList document elements') : elements = elements' := by
  obtain ⟨u, inside, w, hu, -, hs, hinside⟩ := h
  obtain ⟨u', inside', w', hu', -, hs', hinside'⟩ := h'
  have heq : inside ++ 93 :: w = inside' ++ 93 :: w' := by
    have hstart := congrArg skipSpace (hs.symm.trans hs')
    rw [skipSpace_append hu, skipSpace_append hu', skipSpace_cons rfl, skipSpace_cons rfl] at hstart
    exact (List.cons.inj hstart).2
  exact (hinside.unique hinside' heq).1

end DeviceTrust.Json
