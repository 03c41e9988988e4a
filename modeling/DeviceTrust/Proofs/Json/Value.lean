import DeviceTrust.Proofs.Json.Number
import DeviceTrust.Proofs.Json.Text

/-!
# Skipping the values of the grammar

`skipValue` keeps the open brackets on a stack and never returns to the start of a value, while the
grammar derives a value from its parts. The two meet in `Closes`: what must follow a value for the
brackets around it to end.

Results:
* `Matches.skips`: every value is skipped, whatever brackets are open around it.
* `skipNested_sound`: what is skipped is a value, and what follows it closes the brackets.
* `skipValue_append`, `of_skipValue`: the same without brackets around the value.
-/

namespace DeviceTrust.Json

variable {s t rest : Bytes} {around : List Bracket}

/-! ## Brackets -/

/-- The byte that opens a bracket. -/
def Bracket.start : Bracket → UInt8
  | .list => 91
  | .object => 123

/-- The byte that closes a bracket. -/
def Bracket.stop : Bracket → UInt8
  | .list => 93
  | .object => 125

/-- What stands between brackets that are not empty. -/
def Bracket.form : Bracket → Form
  | .list => .elements
  | .object => .members

/-- What stands in front of a value inside a bracket, after the bracket or a comma. -/
inductive IsLead : Bracket → Bytes → Prop where
  | list : IsLead .list []
  | object {t name u : Bytes} (ht : IsBlank t) (hname : IsQuotable name) (hu : IsBlank u) :
      IsLead .object (t ++ 34 :: (name ++ 34 :: (u ++ [58])))

theorem Matches.last {b : Bracket} {lead u v w : Bytes} (hlead : IsLead b lead) (hu : IsBlank u)
    (hv : IsValue v) (hw : IsBlank w) : Matches b.form (lead ++ (u ++ (v ++ w))) := by
  cases hlead with
  | list =>
    rw [List.nil_append]
    exact .lastElement hu hv hw
  | object ht hname hu' =>
    simp only [List.append_assoc, List.cons_append, List.nil_append]
    exact .lastMember ht hname hu' hu hv hw

theorem Matches.next {b : Bracket} {lead u v w s : Bytes} (hlead : IsLead b lead) (hu : IsBlank u)
    (hv : IsValue v) (hw : IsBlank w) (hs : Matches b.form s) :
    Matches b.form (lead ++ (u ++ (v ++ (w ++ 44 :: s)))) := by
  cases hlead with
  | list =>
    rw [List.nil_append]
    exact .element hu hv hw hs
  | object ht hname hu' =>
    simp only [List.append_assoc, List.cons_append, List.nil_append]
    exact .member ht hname hu' hu hv hw hs

theorem Matches.bracketed {b : Bracket} (h : Matches b.form s) :
    IsValue (b.start :: (s ++ [b.stop])) := by
  cases b with
  | list => exact .list h
  | object => exact .object h

/-! ## White space before and after a value -/

theorem openValue_append {u : Bytes} (h : IsBlank u) (s : Bytes) :
    openValue (u ++ s) = openValue s := by
  rw [openValue, openValue, skipSpace_append h]

theorem closeValue_append {b : Bracket} {w : Bytes} (h : IsBlank w) (s : Bytes) :
    closeValue b (w ++ s) = closeValue b s := by
  rw [closeValue, closeValue, skipSpace_append h]

theorem skipNested_append {u : Bytes} (h : IsBlank u) (s : Bytes) :
    skipNested around (u ++ s) = skipNested around s := by
  have hopen := openValue_append h s
  cases hs : openValue s with
  | error e => rw [skipNested_error hs, skipNested_error (hopen.trans hs)]
  | ok turn =>
    cases turn with
    | inside b r => rw [skipNested_inside hs, skipNested_inside (hopen.trans hs)]
    | ended r => rw [skipNested_ended hs, skipNested_ended (hopen.trans hs)]

theorem IsBlank.ends {w : Bytes} (h : IsBlank w) (hrest : Bytes.Ends extendsNumber rest) :
    Bytes.Ends extendsNumber (w ++ rest) := by
  cases w with
  | nil => exact hrest
  | cons b w =>
    rw [List.cons_append, Bytes.ends_cons]
    have hb := h b List.mem_cons_self
    simp only [isSpace, Bool.or_eq_true, beq_iff_eq] at hb
    rcases hb with ((rfl | rfl) | rfl) | rfl <;> rfl

/-! ## Values without parts -/

theorem readWord_append (word rest : Bytes) : readWord word (word ++ rest) = .ok rest := by
  induction word with
  | nil => rfl
  | cons w word ih => rw [List.cons_append, readWord, if_pos rfl, ih]

theorem of_readWord {word : Bytes} (h : readWord word s = .ok rest) : s = word ++ rest := by
  fun_induction readWord word s with
  | case1 => simpa using h
  | case2 => simp at h
  | case3 w word s ih => rw [List.cons_append, ih h]
  | case4 => simp at h

/-- A value starts with none of these. -/
theorem Matches.cons_of_value (h : IsValue s) :
    ∃ b tail, s = b :: tail ∧ isSpace b = false ∧ b ≠ 93 ∧ b ≠ 125 := by
  cases h with
  | word h =>
    simp only [wordValues, List.mem_cons, List.not_mem_nil, or_false] at h
    rcases h with rfl | rfl | rfl <;> exact ⟨_, _, rfl, by decide⟩
  | number h =>
    obtain ⟨b, tail, rfl, hb⟩ := h.cons
    refine ⟨b, tail, rfl, ?_⟩
    rcases hb with rfl | hb
    · decide
    · have hne : ∀ c, isDigit c = false → b ≠ c := fun c => ne_of_isDigit hb
      simp only [isSpace, Bool.or_eq_false_iff, beq_eq_false_iff_ne]
      exact ⟨⟨⟨⟨hne _ rfl, hne _ rfl⟩, hne _ rfl⟩, hne _ rfl⟩, hne _ rfl, hne _ rfl⟩
  | text | emptyList | list | emptyObject | object => exact ⟨_, _, rfl, by decide⟩

/-- The kinds of values. -/
theorem Matches.kinds (h : IsValue s) :
    s ∈ wordValues ∨ IsNumber s ∨ IsQuoted s ∨ (∃ t, s = 91 :: (t ++ [93])) ∨
      ∃ t, s = 123 :: (t ++ [125]) := by
  cases h with
  | word h => exact .inl h
  | number h => exact .inr (.inl h)
  | text h => exact .inr (.inr (.inl ⟨_, h, rfl⟩))
  | emptyList | list => exact .inr (.inr (.inr (.inl ⟨_, rfl⟩)))
  | emptyObject | object => exact .inr (.inr (.inr (.inr ⟨_, rfl⟩)))

theorem not_isNumber_cons {b : UInt8} (hb : ¬(b = 45 ∨ isDigit b = true)) :
    ¬ IsNumber (b :: t) := by
  intro h
  obtain ⟨b', tail, heq, hb'⟩ := h.cons
  obtain ⟨rfl, -⟩ := List.cons.inj heq
  exact hb hb'

theorem Matches.isQuoted (h : IsValue (34 :: t)) : IsQuoted (34 :: t) := by
  rcases h.kinds with h | h | h | ⟨t', h⟩ | ⟨t', h⟩
  · simp [wordValues] at h
  · exact absurd h (not_isNumber_cons (by decide))
  · exact h
  · simp at h
  · simp at h

theorem Matches.isNumber {b : UInt8} (h : IsValue (b :: t)) (hb : b = 45 ∨ isDigit b = true) :
    IsNumber (b :: t) := by
  have hne : ∀ c, c ≠ 45 → isDigit c = false → b ≠ c := by
    rintro c hc hdigit rfl
    simp [hc, hdigit] at hb
  rcases h.kinds with h | h | ⟨source, -, h⟩ | ⟨t', h⟩ | ⟨t', h⟩
  · simp only [wordValues, List.mem_cons, List.cons.injEq, List.not_mem_nil, or_false] at h
    rcases h with ⟨h, -⟩ | ⟨h, -⟩ | ⟨h, -⟩ <;> exact absurd h (hne _ (by decide) (by decide))
  · exact h
  all_goals exact absurd (List.cons.inj h).1 (hne _ (by decide) (by decide))

theorem Matches.eq_null (h : IsValue (110 :: t)) : t = [117, 108, 108] := by
  rcases h.kinds with h | h | ⟨source, -, h⟩ | ⟨t', h⟩ | ⟨t', h⟩
  · simpa [wordValues] using h
  · exact absurd h (not_isNumber_cons (by decide))
  all_goals simp at h

theorem Matches.exists_closed {b : Bracket} (h : IsValue (b.start :: t)) :
    ∃ s, t = s ++ [b.stop] := by
  rcases h.kinds with h | h | ⟨source, -, h⟩ | ⟨t', h⟩ | ⟨t', h⟩
  · cases b <;> simp [wordValues, Bracket.start] at h
  · cases b <;> exact absurd h (not_isNumber_cons (by decide))
  · cases b <;> simp [Bracket.start] at h
  · cases b with
    | list => exact ⟨t', (List.cons.inj h).2⟩
    | object => simp [Bracket.start] at h
  · cases b with
    | list => simp [Bracket.start] at h
    | object => exact ⟨t', (List.cons.inj h).2⟩

/-- A value has no white space in front of it. -/
theorem IsBlank.eq_nil_of_isValue {u : Bytes} (hu : IsBlank u) (hvalue : IsValue (u ++ s)) :
    u = [] := by
  obtain ⟨b, tail, heq, hb, -⟩ := hvalue.cons_of_value
  refine hu.eq_nil_of_ends (s := s) ?_
  rw [heq, Bytes.ends_cons, hb]

/-- There is no white space behind the last byte that is none. -/
theorem IsBlank.eq_nil_of_closed {front w : Bytes} {b : UInt8} (hw : IsBlank w)
    (hb : isSpace b = false) (h : front ++ b :: w = t ++ [b]) : w = [] := by
  rcases w.eq_nil_or_concat with rfl | ⟨w, c, rfl⟩
  · rfl
  · have hlast : (front ++ b :: w) ++ [c] = t ++ [b] := by simpa using h
    obtain ⟨rfl, -⟩ := List.cons.inj (List.append_inj_right' hlast rfl)
    rw [hw c (by simp)] at hb
    cases hb

/-- A value with brackets has no white space around them. -/
theorem Matches.eq_nil_around {b : Bracket} {u inside w : Bytes} (hu : IsBlank u) (hw : IsBlank w)
    (hvalue : IsValue (u ++ b.start :: (inside ++ b.stop :: w))) : u = [] ∧ w = [] := by
  obtain rfl := hu.eq_nil_of_isValue hvalue
  obtain ⟨t, ht⟩ := hvalue.exists_closed
  exact ⟨rfl, hw.eq_nil_of_closed (by cases b <;> rfl) ht⟩

/-- What stands between brackets that are not empty does not start like the end of one. -/
theorem Matches.cons_of_form {b : Bracket} (h : Matches b.form s) :
    ∃ u c tail, IsBlank u ∧ s = u ++ c :: tail ∧ isSpace c = false ∧ c ≠ 93 ∧ c ≠ 125 := by
  cases b with
  | list =>
    cases h with
    | lastElement hu hv | element hu hv =>
      obtain ⟨c, tail, rfl, hc⟩ := hv.cons_of_value
      exact ⟨_, c, _, hu, rfl, hc⟩
  | object =>
    cases h with
    | lastMember ht | member ht => exact ⟨_, 34, _, ht, rfl, by decide⟩

theorem skipScalar_number (h : IsNumber s) (ht : Bytes.Ends extendsNumber t) :
    skipScalar (s ++ t) = .ok t := by
  obtain ⟨x, hx⟩ := readNumeral_append .malformed h ht
  obtain ⟨b, tail, rfl, hb⟩ := h.cons
  have hne : ∀ c, isDigit c = false → c ≠ 45 → b ≠ c := by
    intro c hc h45
    rcases hb with rfl | hb
    · exact h45.symm
    · exact ne_of_isDigit hb hc
  rw [List.cons_append] at hx ⊢
  rw [skipScalar, if_neg (hne _ rfl (by decide)), if_neg (hne _ rfl (by decide)),
    if_neg (hne _ rfl (by decide)), if_neg (hne _ rfl (by decide)), if_pos hb, hx]
  rfl

theorem openValue_scalar {b : UInt8} (hspace : isSpace b = false) (hlist : b ≠ 91)
    (hobject : b ≠ 123) (h : skipScalar (b :: s) = .ok t) :
    openValue (b :: s) = .ok (.ended t) := by
  simp only [openValue, skipSpace_cons hspace, if_neg hlist, if_neg hobject, h, Except.map]

/-! ## Every value is skipped -/

theorem enterMember_append {lead : Bytes} (h : IsLead .object lead) (r : Bytes) :
    enterMember (lead ++ r) = .ok (.inside .object r) := by
  cases h with
  | object ht hname hu =>
    simp only [List.append_assoc, List.cons_append, List.nil_append, enterMember, skipName,
      skipSpace_append ht, skipSpace_cons (b := 34) rfl, expectByte_cons, skipText_append hname,
      readColon, skipSpace_append hu, skipSpace_cons (b := 58) rfl, bind, Except.bind, Except.map]

theorem openValue_empty {b : Bracket} (h : IsBlank s) (t : Bytes) :
    openValue (b.start :: (s ++ b.stop :: t)) = .ok (.ended t) := by
  cases b with
  | list =>
    simp only [Bracket.start, Bracket.stop, openValue, skipSpace_cons (b := 91) rfl,
      skipSpace_append h, skipSpace_cons (b := 93) rfl, ite_true]
  | object =>
    simp only [Bracket.start, Bracket.stop, openValue, skipSpace_cons (b := 123) rfl,
      skipSpace_append h, skipSpace_cons (b := 125) rfl, ite_true]
    rfl

theorem openValue_list (h : Matches .elements s) (t : Bytes) :
    openValue (91 :: (s ++ t)) = .ok (.inside .list (s ++ t)) := by
  obtain ⟨u, c, tail, hu, rfl, hspace, hlist, -⟩ := Matches.cons_of_form (b := .list) h
  simp only [openValue, skipSpace_cons (b := 91) rfl, List.append_assoc, List.cons_append,
    skipSpace_append hu, skipSpace_cons hspace, if_neg hlist, ite_true]

theorem openValue_object (h : Matches .members s) (t : Bytes) :
    openValue (123 :: (s ++ t)) = enterMember (s ++ t) := by
  obtain ⟨u, c, tail, hu, rfl, hspace, -, hobject⟩ := Matches.cons_of_form (b := .object) h
  simp only [openValue, skipSpace_cons (b := 123) rfl, List.append_assoc, List.cons_append,
    skipSpace_append hu, skipSpace_cons hspace, if_neg hobject, ite_true]
  rw [if_neg (by decide)]

theorem closeValue_stop {b : Bracket} {w : Bytes} (h : IsBlank w) (t : Bytes) :
    closeValue b (w ++ b.stop :: t) = .ok (.ended t) := by
  rw [closeValue_append h]
  cases b <;> rfl

theorem closeValue_list {w : Bytes} (h : IsBlank w) (t : Bytes) :
    closeValue .list (w ++ 44 :: t) = .ok (.inside .list t) := by
  rw [closeValue_append h]
  rfl

theorem closeValue_object {w : Bytes} (h : IsBlank w) (t : Bytes) :
    closeValue .object (w ++ 44 :: t) = enterMember t := by
  rw [closeValue_append h]
  rfl

/-- How the text of a form is skipped, together with the bracket that ends it. -/
def Skips : Form → Bytes → Prop
  | .value, s => ∀ around t, Bytes.Ends extendsNumber t →
      skipNested around (s ++ t) = skipClosing around t
  | .elements, s => ∀ around t, skipNested (.list :: around) (s ++ 93 :: t) = skipClosing around t
  | .members, s => ∀ around t, ∃ r, enterMember (s ++ 125 :: t) = .ok (.inside .object r) ∧
      skipNested (.object :: around) r = skipClosing around t

theorem Skips.last {b : Bracket} {v w : Bytes} (hv : Skips .value v) (hw : IsBlank w)
    (around : List Bracket) (t : Bytes) :
    skipNested (b :: around) (v ++ (w ++ b.stop :: t)) = skipClosing around t := by
  have hend : Bytes.Ends extendsNumber (w ++ b.stop :: t) := hw.ends (by cases b <;> simp <;> rfl)
  rw [hv _ _ hend, skipClosing_ended (closeValue_stop hw t)]

theorem Skips.next {b : Bracket} {v w r : Bytes} (hv : Skips .value v) (hw : IsBlank w)
    (hclose : closeValue b (w ++ 44 :: s) = .ok (.inside b r)) (around : List Bracket) :
    skipNested (b :: around) (v ++ (w ++ 44 :: s)) = skipNested (b :: around) r := by
  have hend : Bytes.Ends extendsNumber (w ++ 44 :: s) := hw.ends (by simp; rfl)
  rw [hv _ _ hend, skipClosing_inside hclose]

theorem Matches.skips {form : Form} (h : Matches form s) : Skips form s := by
  induction h with
  | @word s h =>
    intro around t _
    refine skipNested_ended ?_
    simp only [wordValues, List.mem_cons, List.not_mem_nil, or_false] at h
    rcases h with rfl | rfl | rfl <;>
      exact openValue_scalar rfl (by decide) (by decide) (readWord_append _ t)
  | number h =>
    intro around t ht
    have hs := skipScalar_number h ht
    obtain ⟨b, tail, rfl, hspace, -, -⟩ := (Matches.number h).cons_of_value
    obtain ⟨b, tail, hbt, hb⟩ := h.cons
    obtain ⟨rfl, rfl⟩ := List.cons.inj hbt
    refine skipNested_ended (openValue_scalar hspace ?_ ?_ hs)
    all_goals rcases hb with rfl | hb
    all_goals first | decide | exact ne_of_isDigit hb rfl
  | text h =>
    intro around t _
    rw [List.cons_append, List.append_assoc]
    refine skipNested_ended (openValue_scalar rfl (by decide) (by decide) ?_)
    rw [skipScalar, if_pos rfl]
    exact skipText_append h t
  | emptyList h =>
    intro around t _
    rw [List.cons_append, List.append_assoc]
    exact skipNested_ended (openValue_empty (b := .list) h t)
  | list h ih =>
    intro around t _
    rw [List.cons_append, List.append_assoc, skipNested_inside (openValue_list h _)]
    exact ih around t
  | emptyObject h =>
    intro around t _
    rw [List.cons_append, List.append_assoc]
    exact skipNested_ended (openValue_empty (b := .object) h t)
  | object h ih =>
    intro around t _
    obtain ⟨r, hr, hskip⟩ := ih around t
    rw [List.cons_append, List.append_assoc, ← hskip]
    exact skipNested_inside ((openValue_object h _).trans hr)
  | lastElement hu hv hw ih =>
    intro around t
    simp only [List.append_assoc]
    rw [skipNested_append hu]
    exact ih.last hw around t
  | element hu hv hw hs ih ihs =>
    intro around t
    simp only [List.append_assoc, List.cons_append]
    rw [skipNested_append hu, ih.next hw (closeValue_list hw _)]
    exact ihs around t
  | @lastMember _ name u v value w ht hname hu hv hvalue hw ih =>
    intro around t
    refine ⟨v ++ (value ++ (w ++ 125 :: t)), ?_, ?_⟩
    · simpa only [List.append_assoc, List.cons_append, List.nil_append] using
        enterMember_append (.object ht hname hu) (v ++ (value ++ (w ++ 125 :: t)))
    · rw [skipNested_append hv]
      exact ih.last (b := .object) hw around t
  | @member _ name u v value w s ht hname hu hv hvalue hw hs ih ihs =>
    intro around t
    obtain ⟨r, hr, hskip⟩ := ihs around t
    refine ⟨v ++ (value ++ (w ++ 44 :: (s ++ 125 :: t))), ?_, ?_⟩
    · simpa only [List.append_assoc, List.cons_append, List.nil_append] using
        enterMember_append (.object ht hname hu) (v ++ (value ++ (w ++ 44 :: (s ++ 125 :: t))))
    · rw [skipNested_append hv, ih.next hw ((closeValue_object hw _).trans hr), hskip]

/-! ## Only values are skipped -/

/-- What must follow a value for the brackets around it to end, and what is left then. -/
def Closes : List Bracket → Bytes → Bytes → Prop
  | [], t, rest => t = rest
  | b :: outer, t, rest => ∃ w t', IsBlank w ∧
      (t = w ++ b.stop :: t' ∨ ∃ s, Matches b.form s ∧ t = w ++ 44 :: (s ++ b.stop :: t')) ∧
      Closes outer t' rest

/-- A value starts here, and what follows it closes the brackets. -/
def ValueCloses (around : List Bracket) (s rest : Bytes) : Prop :=
  ∃ u v t, IsBlank u ∧ IsValue v ∧ s = u ++ (v ++ t) ∧ Closes around t rest

/-- The value together with what follows it up to the end of the innermost bracket. -/
theorem ValueCloses.form {b : Bracket} {lead : Bytes} (hlead : IsLead b lead)
    (h : ValueCloses (b :: around) s rest) :
    ∃ inside t, Matches b.form inside ∧ lead ++ s = inside ++ b.stop :: t ∧
      Closes around t rest := by
  obtain ⟨u, v, t, hu, hv, rfl, w, t', hw, ht, hclose⟩ := h
  rcases ht with rfl | ⟨more, hmore, rfl⟩
  · exact ⟨_, t', .last hlead hu hv hw, by simp only [List.append_assoc], hclose⟩
  · refine ⟨_, t', .next hlead hu hv hw hmore, ?_, hclose⟩
    simp only [List.append_assoc, List.cons_append]

theorem of_skipScalar (h : skipScalar s = .ok rest) : ∃ v, IsValue v ∧ s = v ++ rest := by
  unfold skipScalar at h
  split at h
  next => simp at h
  next b tail =>
  split at h
  next hb =>
    obtain ⟨t, ht, rfl⟩ := of_skipText h
    exact ⟨_, .text ht, by rw [hb, List.cons_append, List.append_assoc]; rfl⟩
  next =>
  split at h
  next hb =>
    rw [hb, of_readWord h]
    exact ⟨[110, 117, 108, 108], .word (by simp [wordValues]), rfl⟩
  next =>
  split at h
  next hb =>
    rw [hb, of_readWord h]
    exact ⟨[116, 114, 117, 101], .word (by simp [wordValues]), rfl⟩
  next =>
  split at h
  next hb =>
    rw [hb, of_readWord h]
    exact ⟨[102, 97, 108, 115, 101], .word (by simp [wordValues]), rfl⟩
  next =>
  split at h
  next =>
    obtain ⟨p, hp, hrest⟩ := map_eq_ok_iff.mp h
    obtain ⟨t, ht, hs⟩ := isNumber_of_readNumeral hp
    exact ⟨t, .number ht, by rw [hs, hrest]⟩
  next => simp at h

theorem of_enterMember {turn : Turn} (h : enterMember s = .ok turn) :
    ∃ lead r, IsLead .object lead ∧ s = lead ++ r ∧ turn = .inside .object r := by
  obtain ⟨r, hskip, hturn⟩ := map_eq_ok_iff.mp h
  obtain ⟨_, hquote, hrest⟩ := bind_eq_ok_iff.mp hskip
  obtain ⟨_, htext, hcolon⟩ := bind_eq_ok_iff.mp hrest
  obtain ⟨t, ht, rfl⟩ := exists_isBlank_cons (eq_cons_of_expectByte hquote)
  obtain ⟨name, hname, rfl⟩ := of_skipText htext
  obtain ⟨u, hu, rfl⟩ := exists_isBlank_cons (eq_cons_of_expectByte hcolon)
  refine ⟨_, r, .object ht hname hu, ?_, hturn.symm⟩
  simp only [List.append_assoc, List.cons_append, List.nil_append]

/-- What the start of a value can be. -/
theorem of_openValue {turn : Turn} (h : openValue s = .ok turn) :
    (∃ u v r, IsBlank u ∧ IsValue v ∧ s = u ++ (v ++ r) ∧ turn = .ended r) ∨
      ∃ u b lead r, IsBlank u ∧ IsLead b lead ∧ s = u ++ b.start :: (lead ++ r) ∧
        turn = .inside b r := by
  unfold openValue at h
  split at h
  next => simp at h
  next b tail hs =>
  obtain ⟨u, hu, rfl⟩ := exists_isBlank_cons hs
  split at h
  next hb =>
    split at h
    next => simp at h
    next c tail' htail =>
    split at h
    next hc =>
      obtain ⟨w, hw, rfl⟩ := exists_isBlank_cons htail
      refine .inl ⟨u, _, tail', hu, .emptyList hw, ?_, (Except.ok.inj h).symm⟩
      simp only [hb, hc, List.append_assoc, List.cons_append, List.nil_append]
    next => exact .inr ⟨u, .list, [], tail, hu, .list, by rw [hb]; rfl, (Except.ok.inj h).symm⟩
  next =>
  split at h
  next hb =>
    split at h
    next => simp at h
    next c tail' htail =>
    split at h
    next hc =>
      obtain ⟨w, hw, rfl⟩ := exists_isBlank_cons htail
      refine .inl ⟨u, _, tail', hu, .emptyObject hw, ?_, (Except.ok.inj h).symm⟩
      simp only [hb, hc, List.append_assoc, List.cons_append, List.nil_append]
    next =>
      obtain ⟨lead, r, hlead, rfl, hturn⟩ := of_enterMember h
      exact .inr ⟨u, .object, lead, r, hu, hlead, by rw [hb]; rfl, hturn⟩
  next =>
    obtain ⟨r, hr, hturn⟩ := map_eq_ok_iff.mp h
    obtain ⟨v, hv, hs'⟩ := of_skipScalar hr
    exact .inl ⟨u, v, r, hu, hv, by rw [hs'], hturn.symm⟩

/-- What can follow a value inside a bracket. -/
theorem of_closeValue {b : Bracket} {turn : Turn} (h : closeValue b s = .ok turn) :
    (∃ w r, IsBlank w ∧ s = w ++ b.stop :: r ∧ turn = .ended r) ∨
      ∃ w lead r, IsBlank w ∧ IsLead b lead ∧ s = w ++ 44 :: (lead ++ r) ∧
        turn = .inside b r := by
  unfold closeValue at h
  split at h
  next => simp at h
  next c tail hs =>
  obtain ⟨w, hw, rfl⟩ := exists_isBlank_cons hs
  split at h
  next =>
    split at h
    next hc => exact .inr ⟨w, [], tail, hw, .list, by rw [hc]; rfl, (Except.ok.inj h).symm⟩
    next =>
    split at h
    next hc => exact .inl ⟨w, tail, hw, by rw [hc]; rfl, (Except.ok.inj h).symm⟩
    next => simp at h
  next =>
    split at h
    next hc =>
      obtain ⟨lead, r, hlead, rfl, hturn⟩ := of_enterMember h
      exact .inr ⟨w, lead, r, hw, hlead, by rw [hc], hturn⟩
    next =>
    split at h
    next hc => exact .inl ⟨w, tail, hw, by rw [hc]; rfl, (Except.ok.inj h).symm⟩
    next => simp at h

/-- The reading of a value and what follows it, by the calls of the two loops. -/
theorem skipNested_sound (around : List Bracket) (s : Bytes) :
    ∀ {rest : Bytes}, skipNested around s = .ok rest → ValueCloses around s rest := by
  apply skipNested.induct
    (fun around s => ∀ {rest : Bytes}, skipNested around s = .ok rest → ValueCloses around s rest)
    (fun around t => ∀ {rest : Bytes}, skipClosing around t = .ok rest → Closes around t rest)
  · intro around s e h rest hrest
    simp [skipNested_error h] at hrest
  · intro around s b r h ih rest hrest
    have hvalue := ih (skipNested_inside h ▸ hrest)
    rcases of_openValue h with ⟨u, v, t, -, -, -, hturn⟩ | ⟨u, b', lead, r', hu, hlead, rfl, hturn⟩
    · simp at hturn
    · simp only [Turn.inside.injEq] at hturn
      obtain ⟨rfl, rfl⟩ := hturn
      obtain ⟨inside, t, hinside, hs, hclose⟩ := hvalue.form hlead
      refine ⟨u, _, t, hu, hinside.bracketed, ?_, hclose⟩
      rw [hs, List.cons_append, List.append_assoc]
      rfl
  · intro around s t h ih rest hrest
    have hclose := ih (skipNested_ended h ▸ hrest)
    rcases of_openValue h with ⟨u, v, r, hu, hv, hs, hturn⟩ | ⟨u, b, lead, r, -, -, -, hturn⟩
    · obtain rfl := Turn.ended.inj hturn
      exact ⟨u, v, t, hu, hv, hs, hclose⟩
    · simp at hturn
  · intro t rest hrest
    rw [skipClosing_nil] at hrest
    exact Except.ok.inj hrest
  · intro t b outer e h rest hrest
    simp [skipClosing_error h] at hrest
  · intro t b outer inner r h ih rest hrest
    have hvalue := ih (skipClosing_inside h ▸ hrest)
    rcases of_closeValue h with ⟨w, r', -, -, hturn⟩ | ⟨w, lead, r', hw, hlead, rfl, hturn⟩
    · simp at hturn
    · simp only [Turn.inside.injEq] at hturn
      obtain ⟨rfl, rfl⟩ := hturn
      obtain ⟨inside, t', hinside, hs, hclose⟩ := hvalue.form hlead
      exact ⟨w, t', hw, .inr ⟨inside, hinside, by rw [hs]⟩, hclose⟩
  · intro t b outer r h ih rest hrest
    have hclose := ih (skipClosing_ended h ▸ hrest)
    rcases of_closeValue h with ⟨w, r', hw, hs, hturn⟩ | ⟨w, lead, r', -, -, -, hturn⟩
    · obtain rfl := Turn.ended.inj hturn
      exact ⟨w, r, hw, .inl hs, hclose⟩
    · simp at hturn

/-! ## One value -/

theorem skipValue_append {u v : Bytes} (hu : IsBlank u) (hv : IsValue v)
    (ht : Bytes.Ends extendsNumber t) : skipValue (u ++ (v ++ t)) = .ok t := by
  rw [skipValue, skipNested_append hu, hv.skips [] t ht, skipClosing_nil]

theorem of_skipValue (h : skipValue s = .ok rest) :
    ∃ u v, IsBlank u ∧ IsValue v ∧ s = u ++ (v ++ rest) := by
  obtain ⟨u, v, t, hu, hv, hs, rfl⟩ := skipNested_sound [] s h
  exact ⟨u, v, hu, hv, hs⟩

/-- White space ends where a value starts. -/
theorem skipSpace_value {u v : Bytes} (hu : IsBlank u) (hv : IsValue v) (t : Bytes) :
    skipSpace (u ++ (v ++ t)) = v ++ t := by
  obtain ⟨b, tail, rfl, hb, -⟩ := hv.cons_of_value
  rw [skipSpace_append hu, List.cons_append, skipSpace_cons hb]

/-- The text of a value is what stands in the document, if it is valid UTF-8. -/
theorem rawValue_value {u v : Bytes} (hu : IsBlank u) (hv : IsValue v)
    (ht : Bytes.Ends extendsNumber t) :
    rawValue (u ++ (v ++ t)) = if v.isText then .ok (v, t) else .error .malformed := by
  have hskip := skipValue_append isBlank_nil hv ht
  rw [List.nil_append] at hskip
  simp only [rawValue, skipSpace_value hu hv, hskip, bind, Except.bind, List.length_append,
    Nat.add_sub_cancel, List.take_left]

theorem rawValue_append {u v : Bytes} (hu : IsBlank u) (hv : IsValue v) (htext : v.isText = true)
    (ht : Bytes.Ends extendsNumber t) : rawValue (u ++ (v ++ t)) = .ok (v, t) := by
  rw [rawValue_value hu hv ht, if_pos htext]

theorem of_rawValue {v : Bytes} (h : rawValue s = .ok (v, rest)) :
    ∃ u, IsBlank u ∧ IsValue v ∧ v.isText = true ∧ s = u ++ (v ++ rest) := by
  obtain ⟨tail, htail, h⟩ := bind_eq_ok_iff.mp h
  dsimp only at h
  split at h
  next htext =>
    obtain ⟨rfl, rfl⟩ := Prod.mk.inj (Except.ok.inj h)
    obtain ⟨u, hu, hs, hend⟩ := exists_isBlank s
    obtain ⟨u', v, hu', hv, hs'⟩ := of_skipValue htail
    -- the white space has been skipped already
    have hnil : u' = [] := hu'.eq_nil_of_ends (hs' ▸ hend)
    rw [hnil, List.nil_append] at hs'
    rw [hs', List.length_append, Nat.add_sub_cancel, List.take_left] at htext ⊢
    exact ⟨u, hu, hv, htext, hs' ▸ hs⟩
  next => simp at h

end DeviceTrust.Json
