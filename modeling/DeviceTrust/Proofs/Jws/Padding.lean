import DeviceTrust.Proofs.Jws.CheckedSteps

/-!
# Padding of signature blocks

What stands behind `00 01` and the longest filler that follows decides about a block. It is padded if
this is a `00` and the filler has at least eight bytes; the content is all that follows, whatever its
bytes are. So a block is padded in one way, and any other block ends, goes on with another byte, has a
filler that is too short, or does not start with `00 01`.

Results:
* `blockStart_append_inj`: the longest filler of a block, and what follows it.
* `IsPadded.unique`, `isUnpadded_iff`: padded blocks, and all others.
* `padding_exact`: the blocks whose padding is stripped, and what is left of them.
-/

namespace DeviceTrust

namespace Rsa

/-- What a block starts with, up to the end of a filler of this many bytes. -/
def blockStart (filler : Nat) : Bytes :=
  [0x00, 0x01] ++ List.replicate filler 0xff

/-- The block is `00 01`, a filler of this many bytes `ff`, which are at least eight, a `00` and the
content. -/
structure IsPadded (block : Bytes) (filler : Nat) (content : Bytes) : Prop where
  enough : 8 ≤ filler
  eq : block = blockStart filler ++ [0x00] ++ content

/-- The block does not start with `00 01`, or it ends inside of its filler, or the filler is interrupted
by another byte, or it is too short. -/
inductive IsUnpadded : Bytes → Prop where
  | start {block : Bytes} (h : ¬[0x00, 0x01] <+: block) : IsUnpadded block
  | inside (filler : Nat) : IsUnpadded (blockStart filler)
  | interrupted (filler : Nat) (b : UInt8) (rest : Bytes) (hfiller : b ≠ 0xff) (hzero : b ≠ 0x00) :
      IsUnpadded (blockStart filler ++ [b] ++ rest)
  | short (filler : Nat) (content : Bytes) (h : filler < 8) :
      IsUnpadded (blockStart filler ++ [0x00] ++ content)

variable {block content content' rest rest' : Bytes} {filler filler' : Nat}

/-! ## The longest filler -/

@[simp] theorem length_blockStart (filler : Nat) : (blockStart filler).length = filler + 2 := by
  simp [blockStart]

theorem blockStart_append (filler : Nat) (rest : Bytes) :
    blockStart filler ++ rest = 0x00 :: 0x01 :: (List.replicate filler 0xff ++ rest) := rfl

theorem blockStart_append_inj (h : Bytes.Ends (· == 0xff) rest)
    (h' : Bytes.Ends (· == 0xff) rest') :
    blockStart filler ++ rest = blockStart filler' ++ rest' ↔ filler = filler' ∧ rest = rest' := by
  constructor
  · intro heq
    simp only [blockStart_append, List.cons.injEq, true_and] at heq
    have hrun := congrArg (List.takeWhile (· == 0xff)) heq
    rw [Bytes.takeWhile_append_of_ends (isFiller_replicate filler) h,
      Bytes.takeWhile_append_of_ends (isFiller_replicate filler') h'] at hrun
    have hlength := congrArg List.length hrun
    rw [List.length_replicate, List.length_replicate] at hlength
    subst hlength
    exact ⟨rfl, List.append_cancel_left heq⟩
  · rintro ⟨rfl, rfl⟩
    rfl

theorem exists_blockStart (h : [0x00, 0x01] <+: block) :
    ∃ filler rest, Bytes.Ends (· == 0xff) rest ∧ block = blockStart filler ++ rest := by
  obtain ⟨tail, rfl⟩ := h
  refine ⟨(tail.takeWhile (· == 0xff)).length, _, Bytes.ends_dropWhile (· == 0xff) tail, ?_⟩
  rw [blockStart, ← takeWhile_isFiller, List.append_assoc, List.takeWhile_append_dropWhile]

/-! ## Padded blocks -/

theorem IsPadded.unique (h : IsPadded block filler content)
    (h' : IsPadded block filler' content') : filler = filler' ∧ content = content' := by
  have heq := h.eq.symm.trans h'.eq
  rw [List.append_assoc, List.append_assoc,
    blockStart_append_inj (by simp) (by simp)] at heq
  exact ⟨heq.1, List.append_cancel_left heq.2⟩

theorem IsPadded.length_eq (h : IsPadded block filler content) :
    block.length = filler + 3 + content.length := by
  rw [h.eq]
  simp only [List.length_append, length_blockStart, List.length_singleton]

theorem IsPadded.getElem?_separator (h : IsPadded block filler content) :
    block[2 + filler]? = some 0x00 := by
  rw [h.eq, List.append_assoc, List.getElem?_append_right (by rw [length_blockStart]; omega),
    length_blockStart, Nat.add_comm 2, Nat.sub_self]
  rfl

theorem IsPadded.content_eq (h : IsPadded block filler content) :
    content = block.drop (2 + filler + 1) := by
  rw [h.eq, List.drop_left']
  rw [List.length_append, length_blockStart, List.length_singleton, Nat.add_comm 2]

theorem blockContent?_eq_some_iff_isPadded :
    blockContent? block = some content ↔ ∃ filler, IsPadded block filler content := by
  have hform (n : Nat) : blockStart n ++ [0x00] ++ content =
      0x00 :: 0x01 :: (List.replicate n 0xff ++ 0x00 :: content) := by
    rw [List.append_assoc, blockStart_append, List.singleton_append]
  rw [blockContent?_eq_some_iff]
  constructor
  · rintro ⟨n, hn, heq⟩
    exact ⟨n, hn, heq.trans (hform n).symm⟩
  · rintro ⟨n, hn, heq⟩
    exact ⟨n, hn, heq.trans (hform n)⟩

/-- Seven bytes are no filler, and nothing needs to follow it. -/
example : blockContent? (blockStart 7 ++ [0x00, 0x42]) = none ∧
    blockContent? (blockStart 8 ++ [0x00]) = some [] := by
  decide

theorem blockContent?_eq_none_iff :
    blockContent? block = none ↔ ∀ filler content, ¬IsPadded block filler content := by
  rw [Option.eq_none_iff_forall_ne_some]
  simp only [ne_eq, blockContent?_eq_some_iff_isPadded, not_exists]
  exact forall_comm

/-- A block that is not padded has a defect. -/
theorem isUnpadded_iff :
    IsUnpadded block ↔ ∀ filler content, ¬IsPadded block filler content := by
  constructor
  · rintro h filler content hpadded
    have heq := hpadded.eq
    rw [List.append_assoc] at heq
    cases h with
    | start h => exact h ⟨_, by rw [heq, blockStart, List.append_assoc]⟩
    | inside n =>
      rw [← List.append_nil (blockStart n), blockStart_append_inj (by simp) (by simp)] at heq
      cases heq.2
    | interrupted n b rest hfiller hzero =>
      rw [List.append_assoc, blockStart_append_inj (by simpa using hfiller) (by simp)] at heq
      exact hzero (List.cons.inj heq.2).1
    | short n rest h =>
      rw [List.append_assoc, blockStart_append_inj (by simp) (by simp)] at heq
      exact absurd hpadded.enough (by omega)
  · intro h
    by_cases hstart : [0x00, 0x01] <+: block
    · obtain ⟨filler, rest, hends, rfl⟩ := exists_blockStart hstart
      cases rest with
      | nil =>
        rw [List.append_nil]
        exact .inside filler
      | cons b rest =>
        have hb : b ≠ 0xff := by simpa using hends
        rw [← List.singleton_append, ← List.append_assoc] at h ⊢
        by_cases hzero : b = 0x00
        · subst hzero
          exact .short filler rest (Nat.not_le.mp fun henough => h filler rest ⟨henough, rfl⟩)
        · exact .interrupted filler b rest hb hzero
    · exact .start hstart

end Rsa

namespace Jws

theorem checkBlock_of_blockContent?_eq_none {block : Bytes} (h : Rsa.blockContent? block = none)
    (digest : Bytes) : checkBlock block digest = .error .invalidPadding := by
  have hdigest : Rsa.blockDigest? block = none := by
    rw [Rsa.blockDigest?, h]
    rfl
  rw [checkBlock, hdigest]

/-- Stripping the padding of a block, in one pass and as ranges of the block.

A block has a content iff it is padded with it, and it is padded in one way. The zero that ends the
filler is at the place behind the filler, and the content is all that follows that place, to the end
of the block.

Any other block has no content, and it is refused as one with invalid padding whatever the digest is
that was expected. Such a block does not start with `00 01`, or it ends inside of its filler, or the
filler is interrupted by another byte or has less than eight bytes; this goes for all blocks of less
than eleven bytes. -/
theorem padding_exact (block : Bytes) :
    (∀ content, Rsa.blockContent? block = some content ↔
      ∃ filler, Rsa.IsPadded block filler content) ∧
    (∀ filler filler' content content', Rsa.IsPadded block filler content →
      Rsa.IsPadded block filler' content' → filler = filler' ∧ content = content') ∧
    (∀ filler content, Rsa.IsPadded block filler content →
      block[2 + filler]? = some 0x00 ∧ content = block.drop (2 + filler + 1) ∧
      Checked.blockContent block = .ok (some (block.drop (2 + filler + 1)))) ∧
    ((∀ filler content, ¬Rsa.IsPadded block filler content) →
      Rsa.blockContent? block = none ∧ Checked.blockContent block = .ok none ∧
      ∀ digest, checkBlock block digest = .error .invalidPadding) ∧
    (Rsa.IsUnpadded block ↔ ∀ filler content, ¬Rsa.IsPadded block filler content) ∧
    (block.length < 11 → Rsa.IsUnpadded block) := by
  refine ⟨fun content => Rsa.blockContent?_eq_some_iff_isPadded,
    fun filler filler' content content' h h' => h.unique h', fun filler content h => ?_,
    fun h => ?_, Rsa.isUnpadded_iff, fun hlength => ?_⟩
  · have hcontent := Rsa.blockContent?_eq_some_iff_isPadded.mpr ⟨filler, h⟩
    refine ⟨h.getElem?_separator, h.content_eq, ?_⟩
    rw [Checked.blockContent_eq, hcontent, ← h.content_eq]
  · have hnone := Rsa.blockContent?_eq_none_iff.mpr h
    refine ⟨hnone, ?_, checkBlock_of_blockContent?_eq_none hnone⟩
    rw [Checked.blockContent_eq, hnone]
  · refine Rsa.isUnpadded_iff.mpr fun filler content h => ?_
    have hblock := h.length_eq
    have henough := h.enough
    omega

end Jws

end DeviceTrust
