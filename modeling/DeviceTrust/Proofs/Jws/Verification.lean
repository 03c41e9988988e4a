import DeviceTrust.Proofs.Jws.Simulation
import DeviceTrust.Proofs.Rsa
import Mathlib.FieldTheory.Finite.Basic
import Mathlib.NumberTheory.LucasLehmer

/-!
# Which signatures are accepted

RSASSA-PKCS1-v1_5 knows a single block for each message and each size of the modulus, and compares
the power of a signature with it. The verification takes the power apart from its front instead, over
a filler of any length. What it accepts is the same: no signature has a shorter filler, or anything
behind the digest, or another length than the modulus.

The size of a modulus is that of its bytes without the zeros in front of them. A modulus of zero has
no bytes, and no signature. The exponent may be at most 2³⁰.

Results:
* `Rsa.pow_pow_modEq`, `Rsa.isSound_mersenneKey`: exponents that undo each other, and the key whose
  modulus is the Mersenne prime of 521 bits.
* `Rsa.byteLength_toNat`: the size of a modulus, from its bytes.
* `isRs256_iff`: valid signatures, in the terms of RSASSA-PKCS1-v1_5.
* `isRs256_sign`: private keys make such signatures.
* `verifySignature_eq_ok_iff`: the verification accepts these signatures and no others.
* `verifySignature_refused`: a signature whose exponent is too large, and which is right otherwise.
-/

namespace DeviceTrust.Rsa

/-! ## Keys from primes

Exponents whose product is one more than a multiple of `p - 1` undo each other modulo a prime `p`. A
key with a prime modulus keeps no secret, but it signs as any other key does. -/

section Primes

variable {p d e m x : Nat}

theorem pow_pow_modEq (hp : p.Prime) (h : d * e = 1 + (p - 1) * m) (x : Nat) :
    (x ^ d) ^ e ≡ x [MOD p] := by
  have : Fact p.Prime := ⟨hp⟩
  have hpower : (x : ZMod p) ^ (d * e) = x := by
    rw [h, pow_add, pow_one, pow_mul]
    by_cases hzero : (x : ZMod p) = 0
    · rw [hzero, zero_mul]
    · rw [ZMod.pow_card_sub_one_eq_one hzero, one_pow, mul_one]
  rw [← pow_mul, ← ZMod.natCast_eq_natCast_iff, Nat.cast_pow, hpower]

theorem pow_pow_mod_prime (hp : p.Prime) (h : d * e = 1 + (p - 1) * m) (hx : x < p) :
    (x ^ d) ^ e % p = x :=
  Nat.mod_eq_of_modEq (pow_pow_modEq hp h x) hx

end Primes

/-! ### A prime of 521 bits -/

/-- A key with the Mersenne prime of 521 bits. The private exponent is the quotient of one more than
a multiple of the prime less one by the public exponent. -/
def mersenneKey (exponent factor : Nat) : PrivateKey where
  modulus := mersenne 521
  exponent := exponent
  privateExponent := (1 + (mersenne 521 - 1) * factor) / exponent

theorem prime_mersenne : (mersenne 521).Prime :=
  lucas_lehmer_sufficiency 521 (by norm_num) (by norm_num)

theorem size_mersenneKey (exponent factor : Nat) : (mersenneKey exponent factor).size = 66 := by
  show byteLength (mersenne 521) = 66
  decide +kernel

theorem isSound_mersenneKey {exponent factor limit : Nat} (hge : 2 ≤ exponent)
    (hle : exponent ≤ limit) (h : exponent ∣ 1 + (mersenne 521 - 1) * factor) :
    (mersenneKey exponent factor).IsSound limit where
  inverse := fun x hx => pow_pow_mod_prime prime_mersenne (Nat.div_mul_cancel h) hx
  exponent_ge := hge
  exponent_le := hle
  size_ge := by rw [size_mersenneKey]; decide
  size_le := by rw [size_mersenneKey]; decide

end DeviceTrust.Rsa

namespace DeviceTrust

/-! ## Leading zeros -/

namespace Bytes

/-- The bytes of a number without the zeros in front of it. -/
def significant (bytes : Bytes) : Bytes :=
  bytes.dropWhile (· == 0)

theorem toNat_significant (bytes : Bytes) : bytes.significant.toNat = bytes.toNat := by
  induction bytes with
  | nil => rfl
  | cons b bytes ih =>
    by_cases hzero : b = 0
    · rw [hzero]
      exact ih
    · rw [significant, List.dropWhile_cons_of_neg (by simpa using hzero)]

theorem pow_le_toNat_cons {b : UInt8} (hb : b ≠ 0) (bytes : Bytes) :
    256 ^ bytes.length ≤ toNat (b :: bytes) := by
  induction bytes using List.reverseRecOn with
  | nil =>
    have hpos : 1 ≤ b.toNat := Nat.one_le_iff_ne_zero.mpr fun h => hb (UInt8.toNat.inj h)
    simpa [toNat] using hpos
  | append_singleton bytes c ih =>
    rw [← List.cons_append, toNat_concat, List.length_append, List.length_singleton, Nat.pow_succ]
    omega

end Bytes

theorem Rsa.byteLength_toNat (bytes : Bytes) :
    Rsa.byteLength bytes.toNat = bytes.significant.length := by
  rw [← Bytes.toNat_significant]
  refine Nat.le_antisymm (byteLength_le_of_lt (Bytes.toNat_lt _)) ?_
  cases h : bytes.significant with
  | nil => exact Nat.zero_le _
  | cons b rest =>
    have hends : Bytes.Ends (· == 0) (b :: rest) := h ▸ Bytes.ends_dropWhile _ bytes
    have hb : b ≠ 0 := by simpa using hends
    have hpow := Nat.lt_of_le_of_lt (Bytes.pow_le_toNat_cons hb rest) (lt_pow_byteLength _)
    exact (Nat.pow_lt_pow_iff_right (by decide)).mp hpow

namespace Jws

/-! ## RSASSA-PKCS1-v1_5 -/

/-- The block of `size` bytes for a message. -/
def rs256Block (size : Nat) (message : Bytes) : Bytes :=
  0x00 :: 0x01 :: (List.replicate (size - 54) 0xff ++
    0x00 :: (Rsa.digestInfoHead ++ Sha256.digest message))

/-- The signature is one of the message under RSASSA-PKCS1-v1_5 with SHA-256, for moduli of 62 to 384
bytes and exponents up to `limit`. -/
structure IsRs256 (limit : Nat) (message signature modulus exponent : Bytes) : Prop where
  exponent_ge : 2 ≤ exponent.toNat
  exponent_le : exponent.toNat ≤ limit
  size_ge : 62 ≤ modulus.significant.length
  size_le : modulus.significant.length ≤ 384
  length_eq : signature.length = modulus.significant.length
  lt : signature.toNat < modulus.toNat
  power : Bytes.ofNat modulus.significant.length
      (signature.toNat ^ exponent.toNat % modulus.toNat) =
    rs256Block modulus.significant.length message

variable {message signature modulus exponent : Bytes} {limit : Nat}

theorem length_content (message : Bytes) :
    (Rsa.digestInfoHead ++ Sha256.digest message).length = 51 := by
  rw [List.length_append, Sha256.length_digest]
  rfl

theorem encodeBlock_eq (size : Nat) (message : Bytes) :
    Rsa.encodeBlock size (Rsa.digestInfoHead ++ Sha256.digest message) =
      rs256Block size message := by
  rw [Rsa.encodeBlock, rs256Block, length_content, Nat.sub_sub]
  rfl

theorem hasRoom_iff {size : Nat} :
    Rsa.HasRoom size (Rsa.digestInfoHead ++ Sha256.digest message) ↔ 62 ≤ size := by
  rw [Rsa.HasRoom, length_content]
  rfl

theorem isRs256_iff : IsRs256 Rsa.maxExponent message signature modulus exponent ↔
    IsSignature message signature modulus exponent := by
  have hsize := Rsa.byteLength_toNat modulus
  constructor
  · intro h
    have hlength : signature.length = Rsa.byteLength modulus.toNat := h.length_eq.trans hsize.symm
    have hkey : IsKey modulus.toNat exponent.toNat :=
      ⟨hsize.trans_le h.size_le, h.exponent_ge, h.exponent_le⟩
    refine ⟨hkey, hlength, h.lt, hasRoom_iff.mpr ?_, ?_⟩
    · exact h.length_eq.symm ▸ h.size_ge
    · rw [h.length_eq, encodeBlock_eq]
      exact h.power
  · intro h
    have hlength : signature.length = modulus.significant.length := h.length_eq.trans hsize
    have hpower := h.power
    rw [hlength, encodeBlock_eq] at hpower
    exact ⟨h.isKey.exponent_ge, h.isKey.exponent_le, hlength ▸ hasRoom_iff.mp h.hasRoom,
      hsize.symm.trans_le h.isKey.modulus_le, hlength, h.lt, hpower⟩

/-- What a private key makes of a message is a signature of it. -/
theorem isRs256_sign {key : Rsa.PrivateKey} (h : key.IsSound limit)
    (hmodulus : modulus.toNat = key.modulus) (hexponent : exponent.toNat = key.exponent)
    (message : Bytes) : IsRs256 limit message (key.sign message) modulus exponent := by
  have hsize : modulus.significant.length = key.size := by
    rw [← Rsa.byteLength_toNat, hmodulus]
    rfl
  refine ⟨hexponent ▸ h.exponent_ge, hexponent ▸ h.exponent_le, hsize ▸ h.size_ge,
    hsize ▸ h.size_le, ?_, ?_, ?_⟩
  · rw [hsize]
    exact key.length_sign message
  · rw [hmodulus]
    exact h.toNat_sign_lt message
  · rw [hsize, hmodulus, hexponent, h.recover_sign, ← encodeBlock_eq]
    rfl

theorem IsRs256.mono {limit' : Nat} (h : IsRs256 limit message signature modulus exponent)
    (hlimit : limit ≤ limit') : IsRs256 limit' message signature modulus exponent :=
  { h with exponent_le := h.exponent_le.trans hlimit }

/-! ## The verification -/

theorem checkSignature_of_exponent_gt (h : Rsa.maxExponent < exponent.toNat) :
    checkSignature message signature modulus exponent = .error (.key .exponentTooLarge) := by
  have hge : ¬exponent.toNat < Rsa.minExponent :=
    Nat.not_lt.mpr (Nat.le_trans (by decide) h.le)
  simp only [checkSignature, recoverBlock, Rsa.PublicKey.ofBytes, if_neg hge, if_pos h]
  rfl

/-- The verification accepts the signatures of RSASSA-PKCS1-v1_5 with SHA-256 whose exponent is at
most 2³⁰, in a memory that is large enough, and nothing else. -/
theorem verifySignature_eq_ok_iff (message signature modulus exponent memory : Bytes) :
    (verifySignature message signature modulus exponent memory).1 = .ok () ↔
      416 ≤ memory.length ∧ IsRs256 (2 ^ 30) message signature modulus exponent := by
  have hsize : verificationSize = 416 := rfl
  by_cases hroom : 416 ≤ memory.length
  · rw [(verifySignature_eq message signature modulus exponent hroom).1, checkSignature_eq_ok_iff,
      ← isRs256_iff]
    exact (and_iff_right hroom).symm
  · rw [verifySignature, hsize, if_pos (Nat.not_le.mp hroom)]
    simp [hroom]

/-- A key with the largest exponent of 31 bits: its signatures are right, but are not accepted. -/
theorem verifySignature_refused :
    let key := Rsa.mersenneKey (2 ^ 31 - 1) 152183881
    let modulus := Bytes.ofNat (Rsa.byteLength key.modulus) key.modulus
    let exponent := Bytes.ofNat (Rsa.byteLength key.exponent) key.exponent
    IsRs256 (2 ^ 31 - 1) [] (key.sign []) modulus exponent ∧
      (verifySignature [] (key.sign []) modulus exponent (List.replicate 416 0)).1 =
        .error (.key .exponentTooLarge) := by
  intro key modulus exponent
  have hsound : key.IsSound (2 ^ 31 - 1) :=
    Rsa.isSound_mersenneKey (by decide) (by decide) (by decide +kernel)
  have hmodulus : modulus.toNat = key.modulus := Rsa.toNat_ofNat_byteLength _
  have hexponent : exponent.toNat = key.exponent := Rsa.toNat_ofNat_byteLength _
  have hlarge : Rsa.maxExponent < exponent.toNat := by
    rw [hexponent]
    decide
  have hmemory : verificationSize ≤ (List.replicate 416 (0 : UInt8)).length :=
    List.length_replicate.ge
  refine ⟨isRs256_sign hsound hmodulus hexponent [], ?_⟩
  rw [(verifySignature_eq _ _ _ _ hmemory).1]
  exact checkSignature_of_exponent_gt hlarge

end Jws

end DeviceTrust
