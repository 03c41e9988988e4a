import DeviceTrust.Jws.Authentication
import DeviceTrust.Proofs.Bytes

/-!
# Splitting undoes joining

A text is split into exactly the segments that it was joined from: three of them, none empty and
none with a separator in it.

Results:
* `Compact.split_eq_ok_iff`: the texts that are split, and into what.
-/

namespace DeviceTrust.Jws

/-- What may be a segment: at least one byte, and no separator. -/
def IsSegment (s : Bytes) : Prop :=
  s ≠ [] ∧ separator ∉ s

/-- The three segments of a compact JWS are segments. -/
structure Compact.WellFormed (jws : Compact) : Prop where
  header : IsSegment jws.header
  payload : IsSegment jws.payload
  signature : IsSegment jws.signature

/-! ## Cutting at a separator -/

theorem ne_separator_of_notMem {s : Bytes} (h : separator ∉ s) :
    ∀ b ∈ s, (b != separator) = true := by
  intro b hb
  rw [bne_iff_ne]
  rintro rfl
  exact h hb

theorem cutAtSeparator_append {front : Bytes} (h : separator ∉ front) (back : Bytes) :
    cutAtSeparator (front ++ separator :: back) = (front, some back) := by
  have hend : Bytes.Ends (· != separator) (separator :: back) := by simp
  rw [cutAtSeparator, Bytes.drop_length_takeWhile,
    Bytes.takeWhile_append_of_ends (ne_separator_of_notMem h) hend,
    Bytes.dropWhile_append_of_ends (ne_separator_of_notMem h) hend]
  rfl

theorem cutAtSeparator_of_notMem {text : Bytes} (h : separator ∉ text) :
    cutAtSeparator text = (text, none) := by
  rw [cutAtSeparator, List.takeWhile_eq_self_iff.mpr (ne_separator_of_notMem h),
    List.drop_length]
  rfl

theorem eq_append_of_cutAtSeparator {text front back : Bytes}
    (h : cutAtSeparator text = (front, some back)) :
    text = front ++ separator :: back ∧ separator ∉ front := by
  simp only [cutAtSeparator, Bytes.drop_length_takeWhile, Prod.mk.injEq] at h
  obtain ⟨hfront, hback⟩ := h
  have htext := List.takeWhile_append_dropWhile (p := (· != separator)) (l := text)
  have hend := Bytes.ends_dropWhile (· != separator) text
  cases hrest : text.dropWhile (· != separator) with
  | nil => simp [hrest] at hback
  | cons b rest =>
    rw [hrest, Bytes.ends_cons, bne_eq_false_iff_eq] at hend
    rw [hrest, List.tail?_cons, Option.some.injEq] at hback
    refine ⟨by rw [← htext, hfront, hrest, hend, hback], fun hmem => ?_⟩
    rw [← hfront] at hmem
    simpa using List.mem_takeWhile_imp hmem

/-! ## Splitting -/

theorem Compact.split_join {jws : Compact} (h : jws.WellFormed) : split jws.join = .ok jws := by
  have hjoin :
      jws.join = jws.header ++ separator :: (jws.payload ++ separator :: jws.signature) := by
    rw [join, signedContent, List.append_assoc, List.cons_append]
  simp only [split, hjoin, cutAtSeparator_append h.header.2, cutAtSeparator_append h.payload.2]
  rw [if_neg]
  simp only [List.isEmpty_iff, List.contains_eq_mem, decide_eq_true_eq]
  rintro (hnil | hnil | hnil | hmem)
  · exact h.header.1 hnil
  · exact h.payload.1 hnil
  · exact h.signature.1 hnil
  · exact h.signature.2 hmem

theorem Compact.of_split {text : Bytes} {jws : Compact} (h : split text = .ok jws) :
    jws.WellFormed ∧ text = jws.join := by
  unfold split at h
  split at h
  next header rest hcut =>
    split at h
    next payload signature hcut' =>
      split at h
      next => simp at h
      next hok =>
        simp only [List.isEmpty_iff, List.contains_eq_mem, decide_eq_true_eq, not_or] at hok
        obtain ⟨rfl, hheader⟩ := eq_append_of_cutAtSeparator hcut
        obtain ⟨rfl, hpayload⟩ := eq_append_of_cutAtSeparator hcut'
        rw [Except.ok.injEq] at h
        subst h
        refine ⟨⟨⟨hok.1, hheader⟩, ⟨hok.2.1, hpayload⟩, ⟨hok.2.2.1, hok.2.2.2⟩⟩, ?_⟩
        rw [join, signedContent, List.append_assoc, List.cons_append]
    next => simp at h
  next => simp at h

theorem Compact.split_eq_ok_iff {text : Bytes} {jws : Compact} :
    split text = .ok jws ↔ jws.WellFormed ∧ text = jws.join := by
  refine ⟨of_split, ?_⟩
  rintro ⟨h, rfl⟩
  exact split_join h

end DeviceTrust.Jws
