import DeviceTrust.Proofs.Bytes
import DeviceTrust.Rsa
import Mathlib.Algebra.Group.Nat.Defs

/-!
# RSA signatures

The power that the public operation computes by repeated squaring, with a reduction after every
multiplication, is the remainder of the power itself. A private key signs a message by the power of
its block, and the public exponent undoes the private one, so the block itself comes back.

Results:
* `powMod_eq`: `powMod base exponent modulus = base ^ exponent % modulus`.
* `lt_pow_byteLength`, `pow_pred_byteLength_le`: how large a number of a given length is, at most and
  at least.
* `blockContent?_eq_some_iff`: the blocks that have a content.
* `blockDigest?_eq_some_iff`: the blocks that carry a SHA-256 digest.
* `PrivateKey.toNat_sign_lt`, `PrivateKey.recover_sign`: what a signature stands for, and what its
  power is.
-/

namespace DeviceTrust.Rsa

/-! ## Modular powers -/

theorem powModBits_eq {base exponent modulus bits : Nat} (h : exponent < 2 ^ bits) :
    powModBits base exponent modulus bits = base ^ exponent % modulus := by
  induction bits generalizing exponent with
  | zero =>
    have : exponent = 0 := by simpa using h
    simp [powModBits, this]
  | succ bits ih =>
    have hhalf : exponent / 2 < 2 ^ bits := by
      rw [Nat.pow_succ] at h
      omega
    have hsquare : base ^ (exponent / 2) % modulus * (base ^ (exponent / 2) % modulus) % modulus
        = base ^ (exponent / 2 * 2) % modulus := by
      rw [← Nat.mul_mod, ← Nat.pow_two, ← Nat.pow_mul]
    simp only [powModBits, ih hhalf, hsquare]
    split
    next hodd =>
      have : exponent = exponent / 2 * 2 + 1 := by omega
      conv => rhs; rw [this, Nat.pow_succ, Nat.mul_mod]
      conv => lhs; rw [Nat.mul_mod, Nat.mod_mod]
    next heven =>
      have : exponent = exponent / 2 * 2 := by omega
      rw [← this]

theorem powMod_eq (base exponent modulus : Nat) :
    powMod base exponent modulus = base ^ exponent % modulus :=
  powModBits_eq Nat.lt_log2_self

/-! ## Reading signature blocks

The content of a block is what stands behind its filler, and a block that is read back is the one
that carries the content: no other bytes stand in front of it or behind it. -/

section Blocks

variable {block content digest : Bytes}

theorem isFiller_replicate (n : Nat) :
    ∀ b ∈ List.replicate n (0xff : UInt8), (b == 0xff) = true := by
  intro b hb
  rw [List.eq_of_mem_replicate hb]
  rfl

theorem takeWhile_isFiller (rest : Bytes) : rest.takeWhile (· == 0xff) =
    List.replicate (rest.takeWhile (· == 0xff)).length 0xff := by
  refine List.eq_replicate_iff.mpr ⟨rfl, fun b hb => ?_⟩
  simpa using List.mem_takeWhile_imp hb

theorem blockContent?_append {n : Nat} (h : minFillerLength ≤ n) (content : Bytes) :
    blockContent? (0x00 :: 0x01 :: (List.replicate n 0xff ++ 0x00 :: content)) = some content := by
  have hend : Bytes.Ends (· == 0xff) (0x00 :: content) := by simp
  simp only [blockContent?, Bytes.takeWhile_append_of_ends (isFiller_replicate n) hend,
    List.length_replicate, List.drop_left' List.length_replicate, if_pos h]

theorem of_blockContent? (h : blockContent? block = some content) :
    ∃ n, minFillerLength ≤ n ∧
      block = 0x00 :: 0x01 :: (List.replicate n 0xff ++ 0x00 :: content) := by
  unfold blockContent? at h
  split at h
  next rest =>
    simp only [Bytes.drop_length_takeWhile] at h
    split at h
    next tail htail =>
      split at h
      next hn =>
        obtain rfl := Option.some.inj h
        refine ⟨_, hn, ?_⟩
        rw [← takeWhile_isFiller, ← htail, List.takeWhile_append_dropWhile]
      next => simp at h
    next => simp at h
  next => simp at h

theorem blockContent?_eq_some_iff : blockContent? block = some content ↔
    ∃ n, minFillerLength ≤ n ∧
      block = 0x00 :: 0x01 :: (List.replicate n 0xff ++ 0x00 :: content) := by
  refine ⟨of_blockContent?, ?_⟩
  rintro ⟨n, hn, rfl⟩
  exact blockContent?_append hn content

/-- A block of `size` bytes has room for its content and the least filler. -/
def HasRoom (size : Nat) (content : Bytes) : Prop :=
  minFillerLength + content.length + 3 ≤ size

theorem eq_encodeBlock_iff : (HasRoom block.length content ∧
    block = encodeBlock block.length content) ↔ blockContent? block = some content := by
  rw [blockContent?_eq_some_iff]
  constructor
  · rintro ⟨hroom, hblock⟩
    exact ⟨block.length - 3 - content.length, by unfold HasRoom at hroom; omega, hblock⟩
  · rintro ⟨n, hn, rfl⟩
    simp only [HasRoom, encodeBlock, List.length_cons, List.length_append, List.length_replicate]
    refine ⟨by omega, ?_⟩
    rw [show n + (content.length + 1) + 1 + 1 - 3 - content.length = n by omega]
    rfl

theorem blockDigest?_eq_some_iff : blockDigest? block = some digest ↔
    digest.length = Sha256.digestLength ∧
      blockContent? block = some (digestInfoHead ++ digest) := by
  unfold blockDigest?
  cases hcontent : blockContent? block with
  | none => simp
  | some content =>
    simp only [Option.bind_eq_bind, Option.bind_some, Option.some.injEq]
    constructor
    · intro h
      split at h
      next hok =>
        obtain ⟨hlength, hhead⟩ := hok
        obtain rfl := Option.some.inj h
        refine ⟨by rw [List.length_drop]; omega, ?_⟩
        conv => lhs; rw [← List.take_append_drop digestInfoHead.length content, hhead]
      next => simp at h
    · rintro ⟨hlength, rfl⟩
      rw [if_pos ⟨by rw [List.length_append, hlength], List.take_left⟩, List.drop_left]

/-- A block carries a digest iff it is the block of its size with the digest and its description. -/
theorem blockDigest?_eq_some_iff_encodeBlock (h : digest.length = Sha256.digestLength) :
    blockDigest? block = some digest ↔ HasRoom block.length (digestInfoHead ++ digest) ∧
      block = encodeBlock block.length (digestInfoHead ++ digest) := by
  rw [blockDigest?_eq_some_iff, eq_encodeBlock_iff]
  exact and_iff_right h

end Blocks

/-! ## Signing

A private key signs a message by the power of its block, and the public exponent undoes the private
one. A block is smaller than the modulus of its size, as it starts with a zero byte, so the block
itself comes back. -/

/-! ### Blocks as numbers -/

/-- A number fits into the bytes that it takes up. -/
theorem lt_pow_byteLength (n : Nat) : n < 256 ^ byteLength n := by
  unfold byteLength
  split
  next hn => simp [hn]
  next hn =>
    have hlog : n < 2 ^ (n.log2 + 1) := Nat.lt_log2_self
    have hbits : (256 : Nat) ^ (n.log2 / 8 + 1) = 2 ^ (8 * (n.log2 / 8 + 1)) := by
      rw [Nat.pow_mul]
    rw [hbits]
    exact Nat.lt_of_lt_of_le hlog (Nat.pow_le_pow_right (by decide) (by omega))

theorem pow_pred_byteLength_le {n : Nat} (h : n ≠ 0) : 256 ^ (byteLength n - 1) ≤ n := by
  rw [byteLength, if_neg h, Nat.add_sub_cancel]
  calc 256 ^ (n.log2 / 8) = 2 ^ (8 * (n.log2 / 8)) := by rw [Nat.pow_mul]
    _ ≤ 2 ^ n.log2 := Nat.pow_le_pow_right (by decide) (Nat.mul_div_le _ _)
    _ ≤ n := Nat.log2_self_le h

theorem byteLength_le_of_lt {n width : Nat} (h : n < 256 ^ width) : byteLength n ≤ width := by
  by_cases hzero : n = 0
  · rw [hzero]
    exact Nat.zero_le width
  · have hpow := Nat.lt_of_le_of_lt (pow_pred_byteLength_le hzero) h
    have hlt := (Nat.pow_lt_pow_iff_right (by decide)).mp hpow
    omega

/-- A number reads back from the bytes that it takes up. -/
theorem toNat_ofNat_byteLength (n : Nat) : (Bytes.ofNat (byteLength n) n).toNat = n := by
  rw [Bytes.toNat_ofNat, Nat.mod_eq_of_lt (lt_pow_byteLength n)]

theorem length_encodeBlock {size : Nat} {content : Bytes} (h : HasRoom size content) :
    (encodeBlock size content).length = size := by
  unfold HasRoom at h
  simp only [encodeBlock, List.length_cons, List.length_append, List.length_replicate]
  omega

/-- A block starts with a zero byte. -/
theorem toNat_encodeBlock_lt {size : Nat} {content : Bytes} (h : HasRoom size content) :
    (encodeBlock size content).toNat < 256 ^ (size - 1) := by
  calc (encodeBlock size content).toNat = Bytes.toNat (encodeBlock size content).tail := rfl
    _ < 256 ^ (encodeBlock size content).tail.length := Bytes.toNat_lt _
    _ = 256 ^ (size - 1) := by rw [List.length_tail, length_encodeBlock h]

/-! ### Private keys -/

/-- A private key, with its public exponent. -/
structure PrivateKey where
  modulus : Nat
  exponent : Nat
  privateExponent : Nat
  deriving DecidableEq, Repr

namespace PrivateKey

/-- The number of bytes of the modulus. -/
def size (key : PrivateKey) : Nat :=
  byteLength key.modulus

/-- The block that the signature of a message holds. -/
def block (key : PrivateKey) (message : Bytes) : Bytes :=
  encodeBlock key.size (digestInfoHead ++ Sha256.digest message)

/-- The signature of a message. -/
def sign (key : PrivateKey) (message : Bytes) : Bytes :=
  Bytes.ofNat key.size ((key.block message).toNat ^ key.privateExponent % key.modulus)

/-- The public exponent undoes the private one, and is at most `limit`; the modulus has the size of
signatures of SHA-256 digests that are supported. -/
structure IsSound (key : PrivateKey) (limit : Nat) : Prop where
  inverse : ∀ x < key.modulus, (x ^ key.privateExponent) ^ key.exponent % key.modulus = x
  exponent_ge : 2 ≤ key.exponent
  exponent_le : key.exponent ≤ limit
  size_ge : 62 ≤ key.size
  size_le : key.size ≤ 384

variable {key : PrivateKey} {limit : Nat}

@[simp] theorem length_sign (key : PrivateKey) (message : Bytes) :
    (key.sign message).length = key.size :=
  Bytes.length_ofNat _ _

namespace IsSound

theorem modulus_ne_zero (h : key.IsSound limit) : key.modulus ≠ 0 := by
  intro hzero
  have hsize := h.size_ge
  rw [size, hzero] at hsize
  exact absurd hsize (by decide)

theorem hasRoom (h : key.IsSound limit) (message : Bytes) :
    HasRoom key.size (digestInfoHead ++ Sha256.digest message) := by
  have hdigest := Sha256.length_digest message
  have hsize := h.size_ge
  have hhead : digestInfoHead.length = 19 := rfl
  have hfiller : minFillerLength = 8 := rfl
  have hlength : Sha256.digestLength = 32 := rfl
  rw [HasRoom, List.length_append]
  omega

theorem toNat_block_lt (h : key.IsSound limit) (message : Bytes) :
    (key.block message).toNat < key.modulus :=
  Nat.lt_of_lt_of_le (toNat_encodeBlock_lt (h.hasRoom message))
    (pow_pred_byteLength_le h.modulus_ne_zero)

theorem toNat_sign (h : key.IsSound limit) (message : Bytes) : (key.sign message).toNat =
    (key.block message).toNat ^ key.privateExponent % key.modulus := by
  have hlt := Nat.mod_lt ((key.block message).toNat ^ key.privateExponent)
    (Nat.pos_of_ne_zero h.modulus_ne_zero)
  rw [sign, Bytes.toNat_ofNat]
  exact Nat.mod_eq_of_lt (Nat.lt_trans hlt (lt_pow_byteLength key.modulus))

theorem toNat_sign_lt (h : key.IsSound limit) (message : Bytes) :
    (key.sign message).toNat < key.modulus := by
  rw [h.toNat_sign]
  exact Nat.mod_lt _ (Nat.pos_of_ne_zero h.modulus_ne_zero)

/-- The power of a signature by the public exponent is the block. -/
theorem recover_sign (h : key.IsSound limit) (message : Bytes) :
    Bytes.ofNat key.size ((key.sign message).toNat ^ key.exponent % key.modulus) =
      key.block message := by
  have hlength : (key.block message).length = key.size := length_encodeBlock (h.hasRoom message)
  rw [h.toNat_sign, ← Nat.pow_mod, h.inverse _ (h.toNat_block_lt message), ← hlength]
  exact Bytes.ofNat_toNat _

end IsSound

end PrivateKey

end DeviceTrust.Rsa
