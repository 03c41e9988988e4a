import DeviceTrust.Jws.Authentication
import DeviceTrust.Proofs.Rsa
import DeviceTrust.Proofs.Sequence

/-!
# Valid signatures

What a valid RS256 signature is, by the numbers alone, and that the verification accepts exactly
those.

Results:
* `checkSignature_eq_ok_iff`: the verification without a memory succeeds iff the signature is valid.
-/

namespace DeviceTrust.Jws

/-- The keys that signatures are verified with: the modulus takes up at most `modulusSize` bytes,
and the exponent lies within the bounds of public keys. -/
structure IsKey (modulus exponent : Nat) : Prop where
  modulus_le : Rsa.byteLength modulus ≤ modulusSize
  exponent_ge : Rsa.minExponent ≤ exponent
  exponent_le : exponent ≤ Rsa.maxExponent

/-- The signature is one of the message under RS256 and the key of which `modulus` and `exponent`
are the big-endian parts: it is as long as the modulus, stands for a number below it, and the power
of that number is the PKCS #1 block with the SHA-256 digest of the message. -/
structure IsSignature (message signature modulus exponent : Bytes) : Prop where
  isKey : IsKey modulus.toNat exponent.toNat
  length_eq : signature.length = Rsa.byteLength modulus.toNat
  lt : signature.toNat < modulus.toNat
  hasRoom : Rsa.HasRoom signature.length (Rsa.digestInfoHead ++ Sha256.digest message)
  power : Bytes.ofNat signature.length (signature.toNat ^ exponent.toNat % modulus.toNat) =
    Rsa.encodeBlock signature.length (Rsa.digestInfoHead ++ Sha256.digest message)

/-- The verification of a signature, without a memory. -/
def checkSignature (message signature modulus exponent : Bytes) : Except Error Unit := do
  checkBlock (← recoverBlock signature modulus exponent) (Sha256.digest message)

variable {message signature modulus exponent : Bytes}

/-- What stands between the signature and its block. -/
theorem recoverBlock_eq_ok_iff {block : Bytes} :
    recoverBlock signature modulus exponent = .ok block ↔ IsKey modulus.toNat exponent.toNat ∧
      signature.length = Rsa.byteLength modulus.toNat ∧ signature.toNat < modulus.toNat ∧
      block = Bytes.ofNat signature.length (signature.toNat ^ exponent.toNat % modulus.toNat) := by
  constructor
  · intro h
    unfold recoverBlock at h
    split at h
    next => simp at h
    next key hkey =>
    simp only [Rsa.PublicKey.ofBytes] at hkey
    split at hkey
    next => simp at hkey
    next hge =>
    split at hkey
    next => simp at hkey
    next hle =>
    obtain rfl := Except.ok.inj hkey
    split at h
    next => simp at h
    next hsize =>
    split at h
    next => simp at h
    next hlength =>
    split at h
    next => simp at h
    next hlt =>
    have hlength : signature.length = Rsa.byteLength modulus.toNat := not_ne_iff.mp hlength
    refine ⟨⟨Nat.le_of_not_lt hsize, Nat.le_of_not_lt hge, Nat.le_of_not_lt hle⟩, hlength,
      Nat.lt_of_not_le hlt, ?_⟩
    rw [← Except.ok.inj h, Rsa.PublicKey.recover, Rsa.powMod_eq, hlength]
    rfl
  · rintro ⟨⟨hsize, hge, hle⟩, hlength, hlt, rfl⟩
    simp only [recoverBlock, Rsa.PublicKey.ofBytes, if_neg (Nat.not_lt.mpr hge),
      if_neg (Nat.not_lt.mpr hle), Rsa.PublicKey.size, if_neg (Nat.not_lt.mpr hsize),
      hlength, ne_eq, not_true_eq_false, ite_false, if_neg (Nat.not_le.mpr hlt),
      Rsa.PublicKey.recover, Rsa.powMod_eq]

theorem checkBlock_eq_ok_iff {block digest : Bytes} :
    checkBlock block digest = .ok () ↔ Rsa.blockDigest? block = some digest := by
  unfold checkBlock
  split
  next h => simp [h]
  next found h =>
    rw [h, Option.some.injEq]
    split
    next heq => simp [heq]
    next hne => simp [hne]

theorem checkSignature_eq_ok_iff :
    checkSignature message signature modulus exponent = .ok () ↔
      IsSignature message signature modulus exponent := by
  have hdigest := Sha256.length_digest message
  constructor
  · intro h
    obtain ⟨block, hblock, hcheck⟩ := bind_eq_ok_iff.mp h
    obtain ⟨hkey, hlength, hlt, rfl⟩ := recoverBlock_eq_ok_iff.mp hblock
    obtain ⟨hroom, hpower⟩ :=
      (Rsa.blockDigest?_eq_some_iff_encodeBlock hdigest).mp (checkBlock_eq_ok_iff.mp hcheck)
    rw [Bytes.length_ofNat] at hroom hpower
    exact ⟨hkey, hlength, hlt, hroom, hpower⟩
  · rintro ⟨hkey, hlength, hlt, hroom, hpower⟩
    have hblock := recoverBlock_eq_ok_iff.mpr ⟨hkey, hlength, hlt, rfl⟩
    simp only [checkSignature, hblock, bind, Except.bind]
    rw [checkBlock_eq_ok_iff, Rsa.blockDigest?_eq_some_iff_encodeBlock hdigest, Bytes.length_ofNat]
    exact ⟨hroom, hpower⟩

end DeviceTrust.Jws
