import DeviceTrust.Proofs.Jws.CheckedSteps

/-!
# Segments of a text

A text is split exactly if it consists of three segments with a separator between them. It consists
of three segments in one way only, so the segments are determined by the text, and with them what
the signature covers: all bytes in front of the second separator, as they stand. No other text is
split, and for all of them the error is the same.

Results:
* `Compact.exists_parts`: a text with two separators, cut at both of them.
* `Compact.split_eq_malformedJws_iff`: the texts that are not split.
* `Compact.split_exact`: splitting against the segments that a text consists of.
-/

namespace DeviceTrust.Jws

/-- The text consists of the three segments, with a separator between them. -/
structure Compact.Composes (jws : Compact) (text : Bytes) : Prop where
  wellFormed : jws.WellFormed
  eq : text = jws.header ++ [separator] ++ jws.payload ++ [separator] ++ jws.signature

/-- The second separator of the text is at this place. -/
structure IsSecondSeparator (text : Bytes) (place : Nat) : Prop where
  here : text[place]? = some separator
  before : (text.take place).count separator = 1

namespace Compact

variable {jws : Compact} {text : Bytes}

/-! ## Joined segments -/

theorem join_eq (jws : Compact) :
    jws.join = jws.header ++ [separator] ++ jws.payload ++ [separator] ++ jws.signature := by
  simp only [join, signedContent, List.append_assoc, List.cons_append, List.nil_append]

theorem composes_iff : jws.Composes text ↔ jws.WellFormed ∧ text = jws.join := by
  rw [join_eq]
  exact ⟨fun ⟨h, heq⟩ => ⟨h, heq⟩, fun ⟨h, heq⟩ => ⟨h, heq⟩⟩

theorem count_signedContent (h : jws.WellFormed) : jws.signedContent.count separator = 1 := by
  rw [signedContent, List.count_append, List.count_cons_self,
    List.count_eq_zero_of_not_mem h.header.2, List.count_eq_zero_of_not_mem h.payload.2]

theorem isSecondSeparator_join (h : jws.WellFormed) :
    IsSecondSeparator jws.join jws.signedContent.length := by
  constructor
  · rw [join, List.getElem?_append_right (Nat.le_refl _), Nat.sub_self]
    rfl
  · rw [join, List.take_left]
    exact count_signedContent h

/-! ## Cutting at every separator -/

theorem splitOn_of_notMem (hheader : separator ∉ jws.header) (hpayload : separator ∉ jws.payload)
    (hsignature : separator ∉ jws.signature) :
    jws.join.splitOn separator = [jws.header, jws.payload, jws.signature] := by
  have hparts : [separator].intercalate [jws.header, jws.payload, jws.signature] = jws.join := by
    simp [List.intercalate, join, signedContent]
  rw [← hparts]
  exact List.splitOn_intercalate separator (by simp [hheader, hpayload, hsignature])
    (List.cons_ne_nil _ _)

/-- A text with two separators has three parts between them. -/
theorem exists_parts (h : text.count separator = 2) : ∃ jws : Compact,
    text = jws.join ∧ text.splitOn separator = [jws.header, jws.payload, jws.signature] ∧
    separator ∉ jws.header ∧ separator ∉ jws.payload ∧ separator ∉ jws.signature := by
  have hfirst : separator ∈ text := List.count_pos_iff.mp (by omega)
  obtain ⟨header, rest, rfl, hheader⟩ := List.eq_append_cons_of_mem hfirst
  have hrest : rest.count separator = 1 := by
    rw [List.count_append, List.count_cons_self, List.count_eq_zero_of_not_mem hheader] at h
    omega
  have hsecond : separator ∈ rest := List.count_pos_iff.mp (by omega)
  obtain ⟨payload, signature, rfl, hpayload⟩ := List.eq_append_cons_of_mem hsecond
  have hsignature : separator ∉ signature := by
    rw [List.count_append, List.count_cons_self, List.count_eq_zero_of_not_mem hpayload] at hrest
    exact List.count_eq_zero.mp (by omega)
  have hjoin : header ++ separator :: (payload ++ separator :: signature) =
      join ⟨header, payload, signature⟩ := by
    simp only [join, signedContent, List.append_assoc, List.cons_append]
  refine ⟨⟨header, payload, signature⟩, hjoin, ?_, hheader, hpayload, hsignature⟩
  rw [hjoin]
  exact splitOn_of_notMem hheader hpayload hsignature

theorem count_join (h : jws.WellFormed) : jws.join.count separator = 2 := by
  rw [join, List.count_append, count_signedContent h, List.count_cons_self,
    List.count_eq_zero_of_not_mem h.signature.2]

theorem splitOn_join (h : jws.WellFormed) :
    jws.join.splitOn separator = [jws.header, jws.payload, jws.signature] :=
  splitOn_of_notMem h.header.2 h.payload.2 h.signature.2

/-! ## Texts that are not split -/

theorem split_eq_ok_or_malformedJws (text : Bytes) :
    (∃ jws, split text = .ok jws) ∨ split text = .error .malformedJws := by
  simp only [split]
  split
  · split
    · split
      · exact .inr rfl
      · exact .inl ⟨_, rfl⟩
    · exact .inr rfl
  · exact .inr rfl

/-- The number of separators is not two, or there is nothing in front of one, between two of them or
behind one. -/
theorem split_eq_malformedJws_iff : split text = .error .malformedJws ↔
    text.count separator ≠ 2 ∨ [] ∈ text.splitOn separator := by
  constructor
  · intro h
    by_contra hne
    obtain ⟨hcount, hempty⟩ := not_or.mp hne
    obtain ⟨jws, rfl, hsplit, hheader, hpayload, hsignature⟩ :=
      exists_parts (not_not.mp hcount)
    simp only [hsplit, List.mem_cons, List.not_mem_nil, or_false, not_or] at hempty
    have hformed : jws.WellFormed := ⟨⟨Ne.symm hempty.1, hheader⟩,
      ⟨Ne.symm hempty.2.1, hpayload⟩, ⟨Ne.symm hempty.2.2, hsignature⟩⟩
    rw [split_join hformed] at h
    exact nomatch h
  · intro h
    refine (split_eq_ok_or_malformedJws text).resolve_left ?_
    rintro ⟨jws, hsplit⟩
    obtain ⟨hformed, rfl⟩ := of_split hsplit
    rw [count_join hformed, splitOn_join hformed] at h
    simp [hformed.header.1.symm, hformed.payload.1.symm, hformed.signature.1.symm] at h

/-- Splitting a text, with the segments as they are found in one pass and as ranges of the text.

A text is split into the segments that it consists of, which are determined by it. What the
signature covers are the first two of them with the separator between them; these are all the bytes
in front of the second separator of the text.

A text that does not consist of three segments is malformed. Such a text has fewer or more than two
separators, or an empty part. -/
theorem split_exact (text : Bytes) :
    (∀ jws, split text = .ok jws ↔ jws.Composes text) ∧
    (∀ jws other : Compact, jws.Composes text → other.Composes text → jws = other) ∧
    (∀ jws, jws.Composes text → ∃ second, IsSecondSeparator text second ∧
      jws.signedContent = jws.header ++ [separator] ++ jws.payload ∧
      jws.signedContent = text.take second ∧
      Checked.split text = .ok (.ok (jws, text.take second))) ∧
    ((∀ jws : Compact, ¬jws.Composes text) →
      split text = .error .malformedJws ∧
      Checked.split text = .ok (.error .malformedJws)) ∧
    (split text = .error .malformedJws ↔
      text.count separator ≠ 2 ∨ [] ∈ text.splitOn separator) := by
  have hiff : ∀ jws, split text = .ok jws ↔ jws.Composes text := fun _ =>
    split_eq_ok_iff.trans composes_iff.symm
  refine ⟨hiff, fun jws other h hother => ?_, fun jws h => ?_, fun h => ?_,
    split_eq_malformedJws_iff⟩
  · have hsame : Except.ok (ε := Error) jws = .ok other :=
      ((hiff jws).mpr h).symm.trans ((hiff other).mpr hother)
    exact Except.ok.inj hsame
  · have hsplit := (hiff jws).mpr h
    obtain ⟨hformed, rfl⟩ := composes_iff.mp h
    have htake : jws.join.take jws.signedContent.length = jws.signedContent := by
      rw [join, List.take_left]
    refine ⟨_, isSecondSeparator_join hformed, ?_, htake.symm, ?_⟩
    · rw [signedContent, List.append_assoc, List.singleton_append]
    · rw [Checked.split_eq, hsplit, htake]
      rfl
  · have hsplit : split text = .error .malformedJws := by
      refine (split_eq_ok_or_malformedJws text).resolve_left ?_
      rintro ⟨jws, hjws⟩
      exact h jws ((hiff jws).mp hjws)
    refine ⟨hsplit, ?_⟩
    rw [Checked.split_eq, hsplit]
    rfl

end Compact

end DeviceTrust.Jws
