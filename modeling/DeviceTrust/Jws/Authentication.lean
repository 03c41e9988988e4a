import DeviceTrust.Jws.Scratch

/-!
# Manifest authentication

A manifest is authentic if its JWS attests its SHA-256 digest, the JWS is signed by the signing key that
its header embeds, and that signing key is itself a JWS signed by a root key. Nothing of a document is
trusted before the signature over it has been verified, except for the key id that selects the root key.
-/

namespace DeviceTrust.Jws

/-! ## Compact serialisation

A compact JWS is three non-empty segments with a full stop between them. The signature covers the first
two segments and the full stop, exactly as they stand. -/

/-- The byte between two segments. -/
def separator : UInt8 := 46

/-- The segments of a compact JWS, still encoded. -/
structure Compact where
  header : Bytes
  payload : Bytes
  signature : Bytes
  deriving DecidableEq, Repr

/-- The text that the signature covers. -/
def Compact.signedContent (jws : Compact) : Bytes :=
  jws.header ++ separator :: jws.payload

/-- The text of a compact JWS. -/
def Compact.join (jws : Compact) : Bytes :=
  jws.signedContent ++ separator :: jws.signature

/-- Cuts a text at its first separator; a text without one has no second part. -/
def cutAtSeparator (text : Bytes) : Bytes × Option Bytes :=
  let front := text.takeWhile (· != separator)
  (front, (text.drop front.length).tail?)

/-- The segments of a text. -/
def Compact.split (text : Bytes) : Except Error Compact :=
  match cutAtSeparator text with
  | (header, some rest) =>
    match cutAtSeparator rest with
    | (payload, some signature) =>
      if header.isEmpty ∨ payload.isEmpty ∨ signature.isEmpty ∨ signature.contains separator then
        .error .malformedJws
      else .ok ⟨header, payload, signature⟩
    | (_, none) => .error .malformedJws
  | (_, none) => .error .malformedJws

/-! ## Root keys

The keys that are trusted to sign signing keys. The moduli have 3072 bits and are published with a zero
byte in front. -/

/-- A key that is trusted to sign signing keys. -/
structure RootKey where
  /-- Compared with the key id that a signing key names. -/
  id : String
  /-- The modulus, big-endian. -/
  modulus : Bytes
  /-- The public exponent, big-endian. -/
  exponent : Bytes
  deriving DecidableEq, Repr

/-- The first key with the given id. -/
def RootKey.find? (keys : List RootKey) (id : String) : Option RootKey :=
  keys.find? (·.id == id)

/-- A published modulus, given in rows of 32 bytes. -/
def RootKey.modulusOfRows (rows : List Nat) : Bytes :=
  0 :: rows.flatMap (Bytes.ofNat 32)

/-- The root key `ADU.200702.R`. -/
def RootKey.adu200702 : RootKey where
  id := "ADU.200702.R"
  modulus := modulusOfRows [
    0xd5422eaf1154a3506587a24d5bba1afba932dfe9995f0545c8afbd351d89e827,
    0x2758a3a8eec5c51e4ff792a612067d3d7db007f62c7fde6d2af5bc49bc15eff0,
    0x81cb3f884f271d8871286008b619d2d239d0051f3c768671bb5958bcb1887bab,
    0x5628bf3173443210fd3dd3965cff4e5cb36bff8b849b8b80b849d07dfad64058,
    0x764dc0722775cb9a2f9bb49f0f25f11cc51b0b5a307d2fb8efa7265853afd51d,
    0x5501510de91ba20f3fd7e91d2041a6e6140aaefef21c2ad6e4047bf6147eec0f,
    0x9783fa58fa813621b9a32bfad9610b1a94f7c1be7f40144ac9fa357fef667000,
    0xb1fddbd7610d3b58746794897576967c9187d28e1197ee7b876c9a2f45d8653f,
    0x5270982acbc80463f5c947cf70f4ed64a774a5238fb6edf71cd3b01c6457125a,
    0xa981841fa0e7501996b482b1ac48e3e13282cb401facc459bc10345182f9288d,
    0xa81e9bf5794575b2dc9a114308be61cc9ac4cb7736ff83dda8714f518e0e7b4d,
    0xfa79988dbefc827e4048a91201a8d97ef3a51bf1fb90773e408718c9abd9f779]
  exponent := [0x01, 0x00, 0x01]

/-- The root key `ADU.200703.R`. -/
def RootKey.adu200703 : RootKey where
  id := "ADU.200703.R"
  modulus := modulusOfRows [
    0xb2a3b27416fabb20f95276e6273e8041c6fecf30f9c896f5590aaa81e751838a,
    0xc4f5173a2f2ae657d471ce8a3def9a55763e99e2c2ae4cee2db878f5a24e28f2,
    0x9c4e3965bcece40de5e338a859ab08a41bb4f4a052a338b3462113cc3c6806de,
    0xfe00a6926ede4c4710d61c9c24f5cd70e1f56a7c68131de1c5f6a84f219f867c,
    0x44c58a991cc5d3069b5a719d091cc364316ac517951d5d2af155c766d4e8f5d9,
    0xa95b8ca26c62600537d732b073cbf74b362724218c380ab818fef51560358b35,
    0xef1e0f88a6138d7b7defb3e7b0c9a61c707bccf2298b87f7bd9db6886fac73ff,
    0x72f2ef482796728606a25ce37dceb09ee5c2d94ec4f37f78074b6588450c11e5,
    0x965634882d160e5942d2f7d9ed1dedc93777447ee384369f5813ef6fe4c344d4,
    0x77068acf5bc8801ca298650b35dc73c869d05ee825439ef6d8ab05af51292355,
    0x405810eab8e2cd5d79ccecdfb45b98c7fae3d26c26ce2e2c56e0cf8deefd9312,
    0x2f00498d1c823856a65d79444a1af3dc1610b3c12d2711fe1b9805e4a3603199]
  exponent := [0x01, 0x00, 0x01]

/-- The built-in root keys, in the order in which they are tried. -/
def RootKey.builtIn : List RootKey :=
  [adu200702, adu200703]

/-! ## RS256 signatures

A signature is checked by recovering its block with the public key and comparing the digest in it with
that of the message. Both are laid down in the memory of the caller, the block at its start and the digest
behind the place of the longest block. -/

/-- The block that a signature holds under a key. -/
def recoverBlock (signature modulus exponent : Bytes) : Except Error Bytes :=
  match Rsa.PublicKey.ofBytes modulus exponent with
  | .error e => .error (.key e)
  | .ok key =>
    if modulusSize < key.size then .error .keyTooLarge
    else if signature.length ≠ key.size then .error .invalidSignatureLength
    else if key.modulus ≤ Bytes.toNat signature then .error .signatureMismatch
    else .ok (key.recover (Bytes.toNat signature))

/-- Compares the digest in a block with the one that is expected. -/
def checkBlock (block digest : Bytes) : Except Error Unit :=
  match Rsa.blockDigest? block with
  | none => .error .invalidPadding
  | some found => if found = digest then .ok () else .error .signatureMismatch

/-- Verifies a signature in a memory of at least `verificationSize` bytes. -/
def verifySignature (message signature modulus exponent memory : Bytes) :
    Except Error Unit × Bytes :=
  if memory.length < verificationSize then (.error .insufficientSpace, memory)
  else
    match recoverBlock signature modulus exponent with
    | .error e => (.error e, memory)
    | .ok block =>
      let memory := Bytes.writeAt memory 0 block
      let memory := Bytes.writeAt memory modulusSize (Sha256.digest message)
      (checkBlock (Bytes.readAt memory 0 block.length) (Bytes.readAt memory modulusSize digestSize),
        memory)

/-- Verifies a signature in a region of the scratch memory. -/
def Scratch.verifySignature (message signature modulus exponent : Bytes) (region : Region) :
    Scratch Unit :=
  Scratch.within region (Jws.verifySignature message signature modulus exponent)

/-! ## The chain of trust -/

/-- The only supported algorithm. -/
def rs256 : String := "RS256"

/-- A verified signing key; both parts are base64 text. -/
structure SigningKey where
  modulus : String
  exponent : String
  deriving DecidableEq, Repr

/-- Verifies the signing key in the JWS `text` against the root keys. Its payload is kept in a region of
its own; everything else lives in one phase. -/
def verifySigningKey (text : Bytes) (rootKeys : List RootKey) (layout : Layout) :
    Scratch SigningKey := do
  let jwk ← ofExcept (Compact.split text)
  let phase := layout.phase
  let (region, phase) ← ofExcept (phase.carve jwkHeaderSize)
  let header ← Scratch.decode .urlSafe jwk.header region
  let payload ← Scratch.decode .urlSafe jwk.payload layout.keyPayload
  let (region, phase) ← ofExcept (phase.carve signatureSize)
  let signature ← Scratch.decode .urlSafe jwk.signature region
  let keyId ← Scratch.readField "kid" header
  match RootKey.find? rootKeys keyId with
  | none => throw .rootKeyNotFound
  | some rootKey =>
    let (region, _) ← ofExcept (phase.carve verificationSize)
    Scratch.verifySignature jwk.signedContent (← Scratch.read signature) rootKey.modulus
      rootKey.exponent region
    let modulus ← Scratch.readField "n" payload
    let exponent ← Scratch.readField "e" payload
    let algorithm ← Scratch.readField "alg" payload
    if algorithm = rs256 then return ⟨modulus, exponent⟩ else throw .unsupportedAlgorithm

/-- Verifies the signature of the JWS itself, in one phase. -/
def verifyManifestSignature (jws : Compact) (key : SigningKey) (layout : Layout) :
    Scratch Unit := do
  let phase := layout.phase
  let (region, phase) ← ofExcept (phase.carve signatureSize)
  let signature ← Scratch.decode .urlSafe jws.signature region
  let (region, phase) ← ofExcept (phase.carve modulusSize)
  let modulus ← Scratch.decode .standard (utf8 key.modulus) region
  let (region, phase) ← ofExcept (phase.carve exponentSize)
  let exponent ← Scratch.decode .standard (utf8 key.exponent) region
  let (region, _) ← ofExcept (phase.carve verificationSize)
  Scratch.verifySignature jws.signedContent (← Scratch.read signature) (← Scratch.read modulus)
    (← Scratch.read exponent) region

/-- Compares the digest that the payload attests with that of the manifest, in one phase. -/
def checkDigest (manifest : Bytes) (jws : Compact) (layout : Layout) : Scratch Unit := do
  let phase := layout.phase
  let (region, phase) ← ofExcept (phase.carve jwsPayloadSize)
  let payload ← Scratch.decode .urlSafe jws.payload region
  let encoded ← Scratch.readField "sha256" payload
  let (region, phase) ← ofExcept (phase.carve digestSize)
  let attested ← Scratch.decode .standard (utf8 encoded) region
  if (← Scratch.read attested).length ≠ digestSize then throw .invalidDigestLength
  let (calculated, _) ← ofExcept (phase.carve digestSize)
  Scratch.write calculated (Sha256.digest manifest)
  if (← Scratch.read attested) ≠ (← Scratch.read calculated) then throw .digestMismatch

/-- Authenticates a manifest against the JWS that signs it, in the scratch memory. -/
def authenticate (manifest jws : Bytes) (rootKeys : List RootKey) : Scratch Unit := do
  let layout ← Scratch.layout
  let outer ← ofExcept (Compact.split jws)
  let header ← Scratch.decode .urlSafe outer.header layout.header
  let embedded ← Scratch.readField "sjwk" header
  let key ← verifySigningKey (utf8 embedded) rootKeys layout
  verifyManifestSignature outer key layout
  checkDigest manifest outer layout

/-- The outcome of an authentication in a given scratch memory, and what it leaves there. -/
def authenticateManifest (manifest jws : Bytes) (rootKeys : List RootKey) (scratch : Bytes) :
    Except Error Unit × Bytes :=
  (authenticate manifest jws rootKeys).run.run scratch

end DeviceTrust.Jws
