import DeviceTrust.Proofs.Jws.Verification

/-!
# What a verification leaves in its memory

A signature may be refused for its key, for its length or because its number is not below the
modulus. Then the memory is as it was. In all other cases the recovered block stands at the start of
the memory, with zeros in front of a shorter number, and the digest of the message behind the place
of the longest block, whether the verification succeeds or not; no other byte is touched. The result
is told from what has been laid down, never from what was there before.

Results:
* `recoverBlock_error`: why no block is recovered.
* `hasBlock_verifySignature`: the memory once a block has been recovered.
* `verifySignature_memory`: which of the two it is, and that the result is the same in any memory.
-/

namespace DeviceTrust.Jws

/-! ## Whether a block is recovered -/

/-- The faults of a key, and of the length of a signature. -/
inductive Error.ConcernsSize : Error → Prop where
  | key (fault : Rsa.KeyError) : ConcernsSize (.key fault)
  | tooLarge : ConcernsSize .keyTooLarge
  | length : ConcernsSize .invalidSignatureLength

/-- The verification with this result has not come to a block. -/
def IsBlockless (result : Except Error Unit) (signature modulus : Nat) : Prop :=
  (∃ e : Error, result = .error e ∧ e.ConcernsSize) ∨ modulus ≤ signature

variable {message signature modulus exponent memory block : Bytes}

theorem modulus_of_ofBytes {key : Rsa.PublicKey}
    (h : Rsa.PublicKey.ofBytes modulus exponent = .ok key) : key.modulus = modulus.toNat := by
  simp only [Rsa.PublicKey.ofBytes] at h
  split at h
  next => cases h
  next =>
    split at h
    next => cases h
    next => exact congrArg Rsa.PublicKey.modulus (Except.ok.inj h).symm

theorem recoverBlock_error {e : Error} (h : recoverBlock signature modulus exponent = .error e) :
    e.ConcernsSize ∨ modulus.toNat ≤ signature.toNat := by
  unfold recoverBlock at h
  split at h
  next => exact .inl (Except.error.inj h ▸ .key _)
  next key hkey =>
  split at h
  next => exact .inl (Except.error.inj h ▸ .tooLarge)
  next =>
  split at h
  next => exact .inl (Except.error.inj h ▸ .length)
  next =>
  split at h
  next hrange => exact .inr (modulus_of_ofBytes hkey ▸ hrange)
  next => cases h

/-- A block that does not carry the digest is no fault of the sizes. -/
theorem checkBlock_ne_error {digest : Bytes} {e : Error} (he : e.ConcernsSize) :
    checkBlock block digest ≠ .error e := by
  intro h
  unfold checkBlock at h
  split at h
  next =>
    obtain rfl := Except.error.inj h
    cases he
  next =>
    split at h
    next => cases h
    next =>
      obtain rfl := Except.error.inj h
      cases he

/-! ## The memory -/

/-- The memory `left` is the memory `found` with a block of `size` bytes for the number `power` and
with a digest. -/
structure HasBlock (size power : Nat) (digest found left : Bytes) : Prop where
  length_eq : left.length = found.length
  block : left.take size = Bytes.ofNat size power
  digest : Bytes.readAt left 384 32 = digest
  frame : ∀ i, size ≤ i → i < 384 ∨ 416 ≤ i → left[i]? = found[i]?

theorem hasBlock_verifySignature (hmemory : 416 ≤ memory.length)
    (h : recoverBlock signature modulus exponent = .ok block) :
    HasBlock modulus.significant.length
      (signature.toNat ^ exponent.toNat % modulus.toNat) (Sha256.digest message) memory
      (verifySignature message signature modulus exponent memory).2 := by
  have hmodulus : modulusSize = 384 := rfl
  have hverification : verificationSize = 416 := rfl
  have hdigest : (Sha256.digest message).length = 32 := Sha256.length_digest message
  obtain ⟨hkey, hlength, -, hblock⟩ := recoverBlock_eq_ok_iff.mp h
  rw [hlength, Rsa.byteLength_toNat] at hblock
  have hsize : modulus.significant.length ≤ 384 := by
    rw [← Rsa.byteLength_toNat]
    exact hkey.modulus_le
  have hblockLength : block.length = modulus.significant.length := by
    rw [hblock, Bytes.length_ofNat]
  have hleft : (verifySignature message signature modulus exponent memory).2 =
      Bytes.writeAt (Bytes.writeAt memory 0 block) 384 (Sha256.digest message) := by
    rw [verifySignature, if_neg (by omega), h]
    rfl
  rw [hleft]
  refine ⟨by simp only [Bytes.length_writeAt], ?_, ?_, fun i hi hrange => ?_⟩
  · -- the digest lies behind the block
    have htake (m : Bytes) : m.take modulus.significant.length =
        (m.take 384).take modulus.significant.length := by
      rw [List.take_take, Nat.min_eq_left hsize]
    rw [htake, Bytes.take_writeAt _ (by rw [Bytes.length_writeAt]; omega), ← htake, ← hblock,
      ← hblockLength]
    exact Bytes.take_fill (by simpa using by omega)
  · have hfits : 384 + (Sha256.digest message).length ≤
        (Bytes.writeAt memory 0 block).length := by
      rw [Bytes.length_writeAt]
      omega
    have hread := Bytes.readAt_writeAt hfits
    rw [hdigest] at hread
    exact hread
  · rw [Bytes.getElem?_writeAt, if_neg (by omega), Bytes.getElem?_writeAt, if_neg (by omega)]

theorem verifySignature_of_recoverBlock_error {e : Error} (hmemory : 416 ≤ memory.length)
    (h : recoverBlock signature modulus exponent = .error e) :
    verifySignature message signature modulus exponent memory = (.error e, memory) := by
  have hverification : verificationSize = 416 := rfl
  rw [verifySignature, if_neg (by omega), h]

theorem isBlockless_iff (hmemory : 416 ≤ memory.length) :
    IsBlockless (verifySignature message signature modulus exponent memory).1
        signature.toNat modulus.toNat ↔
      ¬∃ block, recoverBlock signature modulus exponent = .ok block := by
  cases h : recoverBlock signature modulus exponent with
  | error e =>
    rw [verifySignature_of_recoverBlock_error hmemory h]
    refine iff_of_true ?_ (by simp)
    exact (recoverBlock_error h).imp_left fun he => ⟨e, rfl, he⟩
  | ok block =>
    refine iff_of_false ?_ (by simp)
    obtain ⟨-, -, hlt, -⟩ := recoverBlock_eq_ok_iff.mp h
    rintro (⟨e, hresult, he⟩ | hle)
    · rw [(verifySignature_eq _ _ _ _ hmemory).1, checkSignature, h] at hresult
      exact checkBlock_ne_error he hresult
    · exact absurd hlt (Nat.not_lt.mpr hle)

/-- What a verification in a memory of at least 416 bytes leaves there. The result is the same
whatever the memory holds. A fault of the key or of the length of the signature, or a signature that
is not below the modulus, leaves the memory as it was; this is so unless the exponent is between 2
and 2³⁰, the modulus takes up at most 384 bytes, and the signature as many bytes as the modulus and
is below it. Otherwise the power is left as a block of the size of the modulus, the digest of the
message behind the first 384 bytes, and everything else as it was, whatever the result. -/
theorem verifySignature_memory (message signature modulus exponent memory : Bytes)
    (hmemory : 416 ≤ memory.length) :
    let run := verifySignature message signature modulus exponent
    let size := modulus.significant.length
    (∀ memory' : Bytes, 416 ≤ memory'.length → (run memory').1 = (run memory).1) ∧
    (IsBlockless (run memory).1 signature.toNat modulus.toNat → (run memory).2 = memory) ∧
    (¬IsBlockless (run memory).1 signature.toNat modulus.toNat →
      HasBlock size (signature.toNat ^ exponent.toNat % modulus.toNat) (Sha256.digest message)
        memory (run memory).2) ∧
    (IsBlockless (run memory).1 signature.toNat modulus.toNat ↔
      ¬(2 ≤ exponent.toNat ∧ exponent.toNat ≤ 2 ^ 30 ∧ size ≤ 384 ∧ signature.length = size ∧
        signature.toNat < modulus.toNat)) := by
  intro run size
  have hblockless : IsBlockless (run memory).1 signature.toNat modulus.toNat ↔
      ¬∃ block, recoverBlock signature modulus exponent = .ok block := isBlockless_iff hmemory
  refine ⟨fun memory' hmemory' => ?_, fun h => ?_, fun h => ?_, ?_⟩
  · rw [(verifySignature_eq _ _ _ _ hmemory').1, (verifySignature_eq _ _ _ _ hmemory).1]
  · cases hrecover : recoverBlock signature modulus exponent with
    | error e => exact congrArg Prod.snd (verifySignature_of_recoverBlock_error hmemory hrecover)
    | ok block => exact absurd ⟨block, hrecover⟩ (hblockless.mp h)
  · obtain ⟨block, hrecover⟩ := not_not.mp (mt hblockless.mpr h)
    exact hasBlock_verifySignature hmemory hrecover
  · rw [hblockless, not_iff_not]
    simp only [recoverBlock_eq_ok_iff, exists_and_left, exists_eq, and_true, size,
      ← Rsa.byteLength_toNat]
    constructor
    · rintro ⟨hkey, hlength, hlt⟩
      exact ⟨hkey.exponent_ge, hkey.exponent_le, hkey.modulus_le, hlength, hlt⟩
    · rintro ⟨hge, hle, hsize, hlength, hlt⟩
      exact ⟨⟨hsize, hge, hle⟩, hlength, hlt⟩

/-- A modulus of two bytes in a memory that is full of sevens. The power 8 is laid down with a zero
in front of it; the number of the modulus itself is refused and leaves the memory as it was. -/
theorem verifySignature_memory_short :
    let memory : Bytes := List.replicate 420 7
    let left := (verifySignature [] [0, 2] [1, 1] [3] memory).2
    left.take 2 = [0, 8] ∧ left[2]? = some 7 ∧ left[383]? = some 7 ∧ left[416]? = some 7 ∧
      Bytes.readAt left 384 32 = Sha256.digest [] ∧
      (verifySignature [] [1, 1] [1, 1] [3] memory).2 = memory := by
  intro memory left
  have hmemory : 416 ≤ memory.length := by
    rw [List.length_replicate]
    decide
  have hseven : ∀ i < 420, memory[i]? = some 7 := fun i hi => by
    rw [List.getElem?_replicate, if_pos hi]
  obtain ⟨-, -, hblock, hiff⟩ := verifySignature_memory [] [0, 2] [1, 1] [3] memory hmemory
  obtain ⟨-, hsame, -, -⟩ := verifySignature_memory [] [1, 1] [1, 1] [3] memory hmemory
  have hleft := hblock (by rw [hiff]; decide)
  refine ⟨hleft.block, ?_, ?_, ?_, hleft.digest, hsame (.inr (by decide))⟩
  · rw [hleft.frame 2 (by decide) (by decide), hseven 2 (by decide)]
  · rw [hleft.frame 383 (by decide) (by decide), hseven 383 (by decide)]
  · rw [hleft.frame 416 (by decide) (by decide), hseven 416 (by decide)]

end DeviceTrust.Jws
