import DeviceTrust.Proofs.Bytes
import DeviceTrust.Proofs.Json.Grammar
import DeviceTrust.Proofs.Sequence

/-!
# Reading the texts of the grammar

White space, and what stands between quotes, read as the grammar says.

Results:
* `skipText_append`, `of_skipText`: a text is skipped iff what stands up to the quote is quotable.
* `readText_append`, `of_readText`: a text is read as `value` iff what stands up to the quote spells
  it.
-/

namespace DeviceTrust.Json

variable {s rest : Bytes}

/-! ## White space -/

theorem isBlank_nil : IsBlank [] := by
  simp [IsBlank]

/-- There is no white space in front of a byte that is none. -/
theorem IsBlank.eq_nil_of_ends {u : Bytes} (hu : IsBlank u) (h : Bytes.Ends isSpace (u ++ s)) :
    u = [] := by
  cases u with
  | nil => rfl
  | cons b u =>
    rw [List.cons_append, Bytes.ends_cons, hu b List.mem_cons_self] at h
    cases h

theorem IsBlank.append {u v : Bytes} (hu : IsBlank u) (hv : IsBlank v) : IsBlank (u ++ v) := by
  intro b hb
  rcases List.mem_append.mp hb with hb | hb
  · exact hu b hb
  · exact hv b hb

theorem skipSpace_append {u : Bytes} (h : IsBlank u) (s : Bytes) :
    skipSpace (u ++ s) = skipSpace s := by
  rw [skipSpace, List.dropWhile_append_of_pos h, skipSpace]

theorem skipSpace_cons {b : UInt8} (h : isSpace b = false) (s : Bytes) :
    skipSpace (b :: s) = b :: s :=
  List.dropWhile_cons_of_neg (by simp [h])

theorem skipSpace_of_isBlank (h : IsBlank s) : skipSpace s = [] := by
  have := skipSpace_append h []
  rwa [List.append_nil] at this

/-- White space is skipped up to what does not belong to it. -/
theorem exists_isBlank (s : Bytes) :
    ∃ u, IsBlank u ∧ s = u ++ skipSpace s ∧ Bytes.Ends isSpace (skipSpace s) := by
  refine ⟨s.takeWhile isSpace, fun b hb => List.mem_takeWhile_imp hb, ?_, ?_⟩
  · exact List.takeWhile_append_dropWhile.symm
  · exact Bytes.ends_dropWhile isSpace s

theorem exists_isBlank_cons {b : UInt8} (h : skipSpace s = b :: rest) :
    ∃ u, IsBlank u ∧ s = u ++ b :: rest := by
  obtain ⟨u, hu, hs, -⟩ := exists_isBlank s
  exact ⟨u, hu, by rwa [h] at hs⟩

theorem checkEnd_eq_ok_iff : checkEnd s = .ok () ↔ IsBlank s := by
  obtain ⟨u, hu, hs, hend⟩ := exists_isBlank s
  rw [checkEnd]
  constructor
  · intro h
    split at h
    next hnil =>
      rw [List.isEmpty_iff.mp hnil, List.append_nil] at hs
      rwa [hs]
    next => simp at h
  · intro h
    rw [skipSpace_of_isBlank h]
    rfl

@[simp] theorem expectByte_cons (b : UInt8) (s : Bytes) : expectByte b (b :: s) = .ok s := by
  rw [expectByte, if_pos rfl]

theorem eq_cons_of_expectByte {b : UInt8} (h : expectByte b s = .ok rest) : s = b :: rest := by
  unfold expectByte at h
  split at h
  next => simp at h
  next c tail =>
    split at h
    next hc =>
      rw [Except.ok.injEq] at h
      rw [hc, h]
    next => simp at h

/-! ## Escapes -/

theorem readUnit_append {digits : Bytes} {unit : Nat} (h : IsUnit digits unit) (rest : Bytes) :
    readUnit (digits ++ rest) = .ok (unit, rest) := by
  obtain ⟨ha, hb, hc, hd⟩ := h
  simp only [List.cons_append, List.nil_append, readUnit, ha, hb, hc, hd]

theorem isUnit_of_readUnit {unit : Nat} (h : readUnit s = .ok (unit, rest)) :
    ∃ digits, IsUnit digits unit ∧ s = digits ++ rest := by
  unfold readUnit at h
  split at h
  next a b c d tail =>
    split at h
    next i j k l ha hb hc hd =>
      simp only [Except.ok.injEq, Prod.mk.injEq] at h
      obtain ⟨rfl, rfl⟩ := h
      exact ⟨_, ⟨ha, hb, hc, hd⟩, rfl⟩
    next => simp at h
  next => simp at h

theorem skipEscape_simple {b : UInt8} (hb : (simpleEscape? b).isSome) (rest : Bytes) :
    skipEscape (b :: rest) = .ok rest := by
  rw [skipEscape, if_pos hb]

theorem skipEscape_unicode {digits : Bytes} {unit : Nat} (h : IsUnit digits unit) (rest : Bytes) :
    skipEscape (117 :: (digits ++ rest)) = .ok rest := by
  rw [skipEscape, if_neg (by decide), if_pos rfl, readUnit_append h]
  rfl

theorem of_skipEscape (h : skipEscape s = .ok rest) :
    (∃ b, (simpleEscape? b).isSome ∧ s = b :: rest) ∨
      ∃ digits unit, IsUnit digits unit ∧ s = 117 :: (digits ++ rest) := by
  unfold skipEscape at h
  split at h
  next => simp at h
  next b tail =>
    split at h
    next hb =>
      rw [Except.ok.injEq] at h
      exact .inl ⟨b, hb, by rw [h]⟩
    next =>
      split at h
      next hb =>
        obtain ⟨p, hu, hrest⟩ := map_eq_ok_iff.mp h
        obtain ⟨digits, hd, hs⟩ := isUnit_of_readUnit hu
        exact .inr ⟨digits, _, hd, by rw [hb, hs, hrest]⟩
      next => simp at h

theorem isLowSurrogate_of_high {unit : Nat} (h : isHighSurrogate unit = true) :
    isLowSurrogate unit = false := by
  simp only [isHighSurrogate, Bool.and_eq_true, decide_eq_true_eq] at h
  simp only [isLowSurrogate, Bool.and_eq_false_iff, decide_eq_false_iff_not]
  omega

theorem readLowSurrogate_append {digits : Bytes} {low : Nat} (h : IsUnit digits low)
    (hlow : isLowSurrogate low = true) (rest : Bytes) :
    readLowSurrogate (92 :: 117 :: (digits ++ rest)) = .ok (low, rest) := by
  simp only [readLowSurrogate, expectByte_cons, readUnit_append h, bind, Except.bind, hlow,
    ite_true]

theorem of_readLowSurrogate {low : Nat} (h : readLowSurrogate s = .ok (low, rest)) :
    ∃ digits, IsUnit digits low ∧ isLowSurrogate low = true ∧
      s = 92 :: 117 :: (digits ++ rest) := by
  obtain ⟨_, h₁, h⟩ := bind_eq_ok_iff.mp h
  obtain ⟨_, h₂, h⟩ := bind_eq_ok_iff.mp h
  obtain ⟨⟨unit, tail⟩, h₃, h⟩ := bind_eq_ok_iff.mp h
  dsimp only at h
  split at h
  next hlow =>
    obtain ⟨digits, hd, hs⟩ := isUnit_of_readUnit h₃
    obtain ⟨rfl, rfl⟩ := Prod.mk.inj (Except.ok.inj h)
    exact ⟨digits, hd, hlow, by rw [eq_cons_of_expectByte h₁, eq_cons_of_expectByte h₂, hs]⟩
  next => simp at h

theorem readEscape_append {source : Bytes} {c : Char} (h : IsEscape source c) (rest : Bytes) :
    readEscape (source ++ rest) = .ok (c, rest) := by
  have h117 : simpleEscape? 117 = none := rfl
  cases h with
  | simple hb => simp only [List.cons_append, List.nil_append, readEscape, hb]
  | unicode hd hhigh hlow =>
    simp only [List.cons_append, readEscape, h117, ite_true, readUnicode, readUnit_append hd, bind,
      Except.bind, hlow, hhigh, Bool.false_eq_true, ite_false]
  | pair hfirst hsecond hhigh hlow =>
    simp only [List.cons_append, List.append_assoc, readEscape, h117, ite_true, readUnicode,
      readUnit_append hfirst, readLowSurrogate_append hsecond hlow, bind, Except.bind,
      isLowSurrogate_of_high hhigh, hhigh, Bool.false_eq_true, ite_false, pairedChar]

theorem of_readEscape {c : Char} (h : readEscape s = .ok (c, rest)) :
    ∃ source, IsEscape source c ∧ s = source ++ rest := by
  unfold readEscape at h
  split at h
  next => simp at h
  next b tail =>
  split at h
  next c' hb =>
    simp only [Except.ok.injEq, Prod.mk.injEq] at h
    obtain ⟨rfl, rfl⟩ := h
    exact ⟨[b], .simple hb, rfl⟩
  next =>
  split at h
  next hb =>
    obtain ⟨⟨unit, tail⟩, hunit, h⟩ := bind_eq_ok_iff.mp h
    obtain ⟨digits, hd, hs⟩ := isUnit_of_readUnit hunit
    dsimp only at h
    split at h
    next => simp at h
    next hlow =>
    split at h
    next hhigh =>
      obtain ⟨q, hq, h⟩ := bind_eq_ok_iff.mp h
      obtain ⟨second, hsecond, hlow', hs'⟩ := of_readLowSurrogate hq
      obtain ⟨rfl, rfl⟩ := Prod.mk.inj (Except.ok.inj h)
      refine ⟨_, .pair hd hsecond hhigh hlow', ?_⟩
      simp only [hb, hs, hs', List.cons_append, List.append_assoc]
    next hhigh =>
      simp only [Except.ok.injEq, Prod.mk.injEq] at h
      obtain ⟨rfl, rfl⟩ := h
      exact ⟨_, .unicode hd (by simpa using hhigh) (by simpa using hlow),
        by rw [hb, hs, List.cons_append]⟩
  next => simp at h

/-! ## Texts -/

theorem skipText_append {t : Bytes} (h : IsQuotable t) (rest : Bytes) :
    skipText (t ++ 34 :: rest) = .ok rest := by
  induction h with
  | nil =>
    rw [List.nil_append, skipText, if_pos rfl]
  | plain hb hs ih =>
    obtain ⟨hctl, hquote, hslash⟩ := hb
    rw [List.cons_append, skipText, if_neg hquote, if_neg hslash, if_neg hctl, ih]
  | escape hb hs ih =>
    rw [List.cons_append, List.cons_append, skipText, if_neg (by decide), if_pos rfl,
      skipEscape_simple hb]
    exact ih
  | unicode hd hs ih =>
    rw [List.cons_append, List.cons_append, List.append_assoc, skipText, if_neg (by decide),
      if_pos rfl, skipEscape_unicode hd]
    exact ih

theorem of_skipText (h : skipText s = .ok rest) : ∃ t, IsQuotable t ∧ s = t ++ 34 :: rest := by
  fun_induction skipText s with
  | case1 => simp at h
  | case2 tail =>
    rw [Except.ok.injEq] at h
    exact ⟨[], .nil, by rw [h, List.nil_append]⟩
  | case3 => simp at h
  | case4 tail r hr hb ih =>
    obtain ⟨t, ht, rfl⟩ := ih h
    rcases of_skipEscape hr with ⟨b, hb, rfl⟩ | ⟨digits, unit, hd, rfl⟩
    · exact ⟨_, .escape hb ht, rfl⟩
    · exact ⟨_, .unicode hd ht, by simp only [List.cons_append, List.append_assoc]⟩
  | case5 => simp at h
  | case6 b tail hquote hslash hctl ih =>
    obtain ⟨t, ht, rfl⟩ := ih h
    exact ⟨_, .plain ⟨hctl, hquote, hslash⟩ ht, rfl⟩

/-- What spells a text is quotable. -/
theorem Spells.isQuotable {source t : Bytes} (h : Spells source t) : IsQuotable source := by
  induction h with
  | nil => exact .nil
  | plain hb hs ih => exact .plain hb ih
  | escape hc hs ih =>
    cases hc with
    | simple hb => exact .escape (by simp [hb]) ih
    | unicode hd => exact .unicode hd ih
    | pair hfirst hsecond =>
      rw [List.cons_append, List.append_assoc]
      exact .unicode hfirst (.unicode hsecond ih)

/-- A quotable text ends at the first quote that can end it. -/
theorem IsQuotable.append_inj {t t' rest' : Bytes} (h : IsQuotable t) (h' : IsQuotable t')
    (heq : t ++ 34 :: rest = t' ++ 34 :: rest') : t = t' ∧ rest = rest' := by
  have hrest : rest = rest' := by
    have hskip := skipText_append h rest
    rw [heq, skipText_append h', Except.ok.injEq] at hskip
    exact hskip.symm
  rw [hrest] at heq
  exact ⟨List.append_cancel_right heq, hrest⟩

theorem readTextBytes_append {source t : Bytes} (h : Spells source t) (rest : Bytes) :
    readTextBytes (source ++ 34 :: rest) = .ok (t, rest) := by
  induction h with
  | nil => rw [List.nil_append, readTextBytes, if_pos rfl]
  | plain hb hs ih =>
    obtain ⟨hctl, hquote, hslash⟩ := hb
    rw [List.cons_append, readTextBytes, if_neg hquote, if_neg hslash, if_neg hctl, ih]
    rfl
  | escape hc hs ih =>
    rw [List.cons_append, List.append_assoc, readTextBytes, if_neg (by decide), if_pos rfl,
      readEscape_append hc]
    simp only [ih, Except.map]

theorem of_readTextBytes {t : Bytes} (h : readTextBytes s = .ok (t, rest)) :
    ∃ source, Spells source t ∧ s = source ++ 34 :: rest := by
  fun_induction readTextBytes s generalizing t with
  | case1 => simp at h
  | case2 tail =>
    simp only [Except.ok.injEq, Prod.mk.injEq] at h
    obtain ⟨rfl, rfl⟩ := h
    exact ⟨[], .nil, rfl⟩
  | case3 => simp at h
  | case4 tail c r hr hb ih =>
    obtain ⟨source, hsource, rfl⟩ := of_readEscape hr
    obtain ⟨q, hq, hread⟩ := map_eq_ok_iff.mp h
    obtain ⟨rfl, rfl⟩ := Prod.mk.inj hread
    obtain ⟨s', hs', hr'⟩ := ih hq
    exact ⟨_, .escape hsource hs', by rw [hr', List.cons_append, List.append_assoc]⟩
  | case5 => simp at h
  | case6 b tail hquote hslash hctl ih =>
    obtain ⟨q, hq, hread⟩ := map_eq_ok_iff.mp h
    obtain ⟨rfl, rfl⟩ := Prod.mk.inj hread
    obtain ⟨s', hs', hr'⟩ := ih hq
    exact ⟨_, .plain ⟨hctl, hquote, hslash⟩ hs', by rw [hr', List.cons_append]⟩

theorem readText_append {source : Bytes} {value : String} (h : Spells source (utf8 value))
    (rest : Bytes) : readText (source ++ 34 :: rest) = .ok (value, rest) := by
  simp only [readText, readTextBytes_append h, bind, Except.bind, text?_utf8]

theorem of_readText {value : String} (h : readText s = .ok (value, rest)) :
    ∃ source, Spells source (utf8 value) ∧ s = source ++ 34 :: rest := by
  obtain ⟨⟨bytes, tail⟩, hp, h⟩ := bind_eq_ok_iff.mp h
  dsimp only at h
  split at h
  next text htext =>
    obtain ⟨rfl, rfl⟩ := Prod.mk.inj (Except.ok.inj h)
    rw [← Bytes.text?_eq_some_iff.mp htext]
    exact of_readTextBytes hp
  next => simp at h

/-! ## Quotes -/

/-- The value is a text, for its form alone. -/
def IsQuoted (value : Bytes) : Prop :=
  ∃ source, IsQuotable source ∧ value = 34 :: (source ++ [34])

/-- The value is a text that stands for `text`. -/
def Quotes (value : Bytes) (text : String) : Prop :=
  ∃ source, Spells source (utf8 text) ∧ value = 34 :: (source ++ [34])

theorem quoted_inj {source source' : Bytes} :
    (34 : UInt8) :: (source ++ [34]) = 34 :: (source' ++ [34]) ↔ source = source' := by
  rw [List.cons.injEq, List.append_left_inj]
  exact and_iff_right rfl

/-- Without a backslash every byte stands for itself. -/
theorem Spells.eq_of_notMem {source t : Bytes} (h : Spells source t) (hslash : 92 ∉ source) :
    t = source := by
  induction h with
  | nil => rfl
  | plain hb hs ih => rw [ih (fun hmem => hslash (List.mem_cons_of_mem _ hmem))]
  | escape hc hs ih => exact absurd List.mem_cons_self hslash

end DeviceTrust.Json
