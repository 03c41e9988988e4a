import DeviceTrust.Proofs.Json.Value
import Mathlib.Data.List.DropRight

/-!
# Values without the white space around them

A value neither starts nor ends with white space, so it is what is left of a document that has
nothing else in it.

Results:
* `Matches.exists_last`: how a value ends.
* `exists_isBlank_trim`: what is trimmed.
* `trim_value`: a value is left.
-/

namespace DeviceTrust.Json

variable {s : Bytes}

/-- What is left without the white space in front and at the end. -/
def trim (s : Bytes) : Bytes :=
  (skipSpace s).rdropWhile isSpace

/-! ## Ends of values -/

theorem isSpace_of_isDigit {b : UInt8} (h : isDigit b = true) : isSpace b = false := by
  have hne (c : UInt8) (hc : isDigit c = false) : (b == c) = false := by
    rw [beq_eq_false_iff_ne]
    exact ne_of_isDigit h hc
  rw [isSpace, hne 32 rfl, hne 10 rfl, hne 13 rfl, hne 9 rfl]
  rfl

theorem IsDigits.exists_last (h : IsDigits s) : ∃ b, [b] <:+ s ∧ isDigit b = true :=
  ⟨s.getLast h.1, ⟨s.dropLast, List.dropLast_append_getLast h.1⟩, h.2 _ (List.getLast_mem h.1)⟩

/-- A number ends with a digit of its last part. -/
theorem IsNumber.exists_last (h : IsNumber s) : ∃ b, [b] <:+ s ∧ isDigit b = true := by
  obtain ⟨-, hinteger, hfraction, hexponent⟩ := h
  cases hexponent with
  | present _ _ hdigits =>
    obtain ⟨b, hlast, hb⟩ := hdigits.exists_last
    refine ⟨b, ?_, hb⟩
    iterate 3 apply List.suffix_append_of_suffix
    exact List.suffix_cons_iff.mpr (.inr (List.suffix_append_of_suffix hlast))
  | absent =>
    rw [List.append_nil]
    cases hfraction with
    | present hdigits =>
      obtain ⟨b, hlast, hb⟩ := hdigits.exists_last
      refine ⟨b, ?_, hb⟩
      iterate 2 apply List.suffix_append_of_suffix
      exact List.suffix_cons_iff.mpr (.inr hlast)
    | absent =>
      rw [List.append_nil]
      obtain ⟨b, hlast, hb⟩ := hinteger.1.exists_last
      exact ⟨b, List.suffix_append_of_suffix hlast, hb⟩

/-- A value ends with no white space. -/
theorem Matches.exists_last (h : IsValue s) : ∃ b, [b] <:+ s ∧ isSpace b = false := by
  rcases h.kinds with h | h | ⟨source, -, rfl⟩ | ⟨t, rfl⟩ | ⟨t, rfl⟩
  · simp only [wordValues, List.mem_cons, List.not_mem_nil, or_false] at h
    rcases h with rfl | rfl | rfl
    · exact ⟨108, ⟨[110, 117, 108], rfl⟩, rfl⟩
    · exact ⟨101, ⟨[116, 114, 117], rfl⟩, rfl⟩
    · exact ⟨101, ⟨[102, 97, 108, 115], rfl⟩, rfl⟩
  · obtain ⟨b, hlast, hb⟩ := h.exists_last
    exact ⟨b, hlast, isSpace_of_isDigit hb⟩
  · exact ⟨34, ⟨34 :: source, rfl⟩, rfl⟩
  · exact ⟨93, ⟨91 :: t, rfl⟩, rfl⟩
  · exact ⟨125, ⟨123 :: t, rfl⟩, rfl⟩

/-! ## Trimming -/

/-- What is trimmed is white space. -/
theorem exists_isBlank_trim (s : Bytes) :
    ∃ u w, IsBlank u ∧ IsBlank w ∧ s = u ++ (trim s ++ w) := by
  obtain ⟨u, hu, hs, -⟩ := exists_isBlank s
  refine ⟨u, (skipSpace s).rtakeWhile isSpace, hu, fun b hb => List.mem_rtakeWhile_imp hb, ?_⟩
  rw [trim, List.rdropWhile_append_rtakeWhile]
  exact hs

/-- A value is what is left of it and white space around it. -/
theorem trim_value {u v w : Bytes} (hu : IsBlank u) (hv : IsValue v) (hw : IsBlank w) :
    trim (u ++ (v ++ w)) = v := by
  have hblank : ∀ b ∈ w.reverse, isSpace b = true := fun b hb => hw b (List.mem_reverse.mp hb)
  obtain ⟨b, ⟨front, hfront⟩, hb⟩ := hv.exists_last
  rw [trim, skipSpace_value hu hv, List.rdropWhile, List.reverse_append,
    List.dropWhile_append_of_pos hblank, ← List.rdropWhile, ← hfront]
  exact List.rdropWhile_concat_neg _ _ _ (Bool.not_eq_true _ ▸ hb)

end DeviceTrust.Json
