import DeviceTrust.Sha256

/-!
# RSA

Public keys, and the blocks that their signatures hold.
-/

namespace DeviceTrust.Rsa

/-! ## Public keys

A key is a modulus and an exponent. The exponent lies between 2 and 2³⁰; the modulus may be any number, so
what needs more of it is checked where it is used. -/

/-! ### Modular powers -/

/-- The power of `base` modulo `modulus`, for an exponent of at most `bits` bits: the power for half the
exponent is squared, and multiplied by the base once more if the exponent is odd. -/
def powModBits (base exponent modulus : Nat) : (bits : Nat) → Nat
  | 0 => 1 % modulus
  | bits + 1 =>
    let half := powModBits base (exponent / 2) modulus bits
    if exponent % 2 = 1 then half * half % modulus * base % modulus else half * half % modulus

/-- The power of `base` modulo `modulus`. -/
def powMod (base exponent modulus : Nat) : Nat :=
  powModBits base exponent modulus (exponent.log2 + 1)

/-! ### Keys -/

/-- The least public exponent. -/
def minExponent : Nat := 2

/-- The largest public exponent, 2³⁰. -/
def maxExponent : Nat := 1 <<< 30

/-- Why a key was refused. -/
inductive KeyError where
  | exponentTooSmall
  | exponentTooLarge
  deriving DecidableEq, Repr

/-- The wording of a key error. -/
def KeyError.message : KeyError → String
  | .exponentTooSmall => "public exponent too small"
  | .exponentTooLarge => "public exponent too large"

/-- A public key. -/
structure PublicKey where
  modulus : Nat
  exponent : Nat
  deriving DecidableEq, Repr

/-- The key with the given big-endian parts. -/
def PublicKey.ofBytes (modulus exponent : Bytes) : Except KeyError PublicKey :=
  let e := Bytes.toNat exponent
  if e < minExponent then .error .exponentTooSmall
  else if maxExponent < e then .error .exponentTooLarge
  else .ok ⟨Bytes.toNat modulus, e⟩

/-- The number of bytes that a number takes up; zero takes none. -/
def byteLength (n : Nat) : Nat :=
  if n = 0 then 0 else n.log2 / 8 + 1

/-- The number of bytes of the modulus, which is that of a signature. -/
def PublicKey.size (key : PublicKey) : Nat :=
  byteLength key.modulus

/-- The public operation: the block that a signature value holds, as long as the key. -/
def PublicKey.recover (key : PublicKey) (signature : Nat) : Bytes :=
  Bytes.ofNat key.size (powMod signature key.exponent key.modulus)

@[simp] theorem PublicKey.length_recover (key : PublicKey) (signature : Nat) :
    (key.recover signature).length = key.size := by
  simp [recover]

/-! ## Signature blocks

The block that a signature holds is `00 01`, at least eight bytes `ff`, a `00`, and then a description of
the digest algorithm followed by the digest itself. -/

/-- The DER description of a SHA-256 digest, up to the digest. -/
def digestInfoHead : Bytes :=
  [0x30, 0x31, 0x30, 0x0d, 0x06, 0x09, 0x60, 0x86, 0x48, 0x01, 0x65, 0x03, 0x04, 0x02, 0x01, 0x05,
    0x00, 0x04, 0x20]

/-- The least number of filler bytes. -/
def minFillerLength : Nat := 8

/-- The block of `size` bytes that carries `content`. -/
def encodeBlock (size : Nat) (content : Bytes) : Bytes :=
  0x00 :: 0x01 :: List.replicate (size - 3 - content.length) 0xff ++ 0x00 :: content

/-- The content of a block, after its filler and the zero byte that ends it. -/
def blockContent? : Bytes → Option Bytes
  | 0x00 :: 0x01 :: rest =>
    let filler := rest.takeWhile (· == 0xff)
    match rest.drop filler.length with
    | 0x00 :: content => if minFillerLength ≤ filler.length then some content else none
    | _ => none
  | _ => none

/-- The digest that a block carries. -/
def blockDigest? (block : Bytes) : Option Bytes := do
  let content ← blockContent? block
  if content.length = digestInfoHead.length + Sha256.digestLength
      ∧ content.take digestInfoHead.length = digestInfoHead
  then some (content.drop digestInfoHead.length) else none

end DeviceTrust.Rsa
