import DeviceTrust.Jws.Authentication
import DeviceTrust.Proofs.Jws.CheckedSteps

/-!
# The authentication with checked access

The authentication, over a scratch memory of which every part is taken by a checked range. A fault in
any step ends it without a result.

Decoding base64 is left to a decoder that writes to the memory by itself: how much memory it asks for,
and that it leaves the bytes of a text that is base64, is all that is known of it.

Results:
* `Decoder.IsBase64.reads`: the number of bytes that a text is told to hold is enough for a decoder.
* `leadingDecoder_isBase64`: a decoder that writes before it knows whether the text is base64.
-/

namespace DeviceTrust.Jws.Checked

/-! ## Decoders -/

/-- A base64 decoder that writes to the start of a memory and gives the number of bytes. -/
abbrev Decoder :=
  Base64.Alphabet → (text memory : Bytes) → Except Fault (Except Base64.DecodeError Nat × Bytes)

/-- The decoder reads this text without a fault. What it leaves is known where the text is base64. -/
def Decoder.Reads (decoder : Decoder) (alphabet : Base64.Alphabet) (text memory : Bytes) : Prop :=
  ∃ left : Bytes, left.length = memory.length ∧
    decoder alphabet text memory = .ok ((Base64.decode alphabet text).map List.length, left) ∧
    ∀ bytes, Base64.decode alphabet text = .ok bytes → left = Bytes.fill memory bytes

/-- The decoder asks for three bytes of memory for every four of a text, without the padding at the
end of the last group. -/
def Decoder.IsBase64 (decoder : Decoder) : Prop :=
  ∀ (alphabet : Base64.Alphabet) (front : Bytes) (n : Nat) (memory : Bytes), n ≤ 2 →
    front.length * 3 / 4 ≤ memory.length →
      decoder.Reads alphabet (front ++ List.replicate n Base64.pad) memory

theorem Decoder.IsBase64.reads {decoder : Decoder} (h : decoder.IsBase64) {text memory : Bytes}
    {n : Nat} (hn : Base64.decodedLength text = .ok n) (hmemory : n ≤ memory.length)
    (alphabet : Base64.Alphabet) : decoder.Reads alphabet text memory := by
  obtain ⟨front, htext⟩ := Base64.exists_eq_append_padding text
  have hlength := congrArg List.length htext
  rw [List.length_append, List.length_replicate] at hlength
  rw [htext]
  refine h alphabet front _ memory (Base64.paddingLength_le_two text) ?_
  have := Base64.decodedLength_eq_ok hn
  omega

/-- A decoder that lays down what the leading symbols hold, whatever follows them. -/
def leadingDecoder : Decoder := fun alphabet text memory =>
  let bytes := Base64.packLeading alphabet text
  if memory.length < bytes.length then .error .outOfRange
  else .ok ((Base64.decode alphabet text).map List.length, Bytes.fill memory bytes)

theorem leadingDecoder_isBase64 : leadingDecoder.IsBase64 := by
  intro alphabet front n memory hn hmemory
  have hroom := (Base64.length_packLeading_le alphabet front n).trans hmemory
  refine ⟨_, Bytes.length_fill _ _, if_neg (Nat.not_lt.mpr hroom), fun bytes hbytes => ?_⟩
  rw [Base64.packLeading_of_decode hbytes]

/-! ## Operations -/

/-- An operation on the scratch memory that may fail, and that may also end the program. -/
abbrev Scratch := ExceptT Error (StateT Bytes (Except Fault))

variable {α β : Type}

/-- Makes an access that the memory plays no part in. -/
def Scratch.check (access : Except Fault α) : Scratch α :=
  ExceptT.lift (StateT.lift access)

/-- Takes a step that the memory plays no part in. -/
def Scratch.step (step : Except Fault (Except Error α)) : Scratch α := do
  ofExcept (← Scratch.check step)

/-- What a region holds now. -/
def Scratch.read (region : Region) : Scratch Bytes := do
  Scratch.check (region.load (← get))

/-- Copies into a region. -/
def Scratch.write (region : Region) (content : Bytes) : Scratch Unit := do
  set (← Scratch.check (region.store content (← get)))

/-- Runs an operation that knows only the contents of a region. -/
def Scratch.within (region : Region)
    (operation : Bytes → Except Fault (Except Error α × Bytes)) : Scratch α := do
  let (result, content) ← Scratch.check (operation (← Scratch.read region))
  Scratch.write region content
  ofExcept result

/-- Takes the next `length` bytes of a phase. -/
def carve (phase : Phase) (length : Nat) : Except Fault (Except Error (Region × Phase)) := do
  if phase.rest.length < length then return .error .outOfMemory
  let (region, rest) ← phase.rest.splitAt length
  return .ok (region, ⟨rest⟩)

/-- Lays out a memory of `size` bytes. -/
def layoutOfSize (size : Nat) : Except Fault (Except Error Layout) := do
  if size < scratchSize then return .error .outOfMemory
  let (header, rest) ← (Region.whole size).splitAt jwsHeaderSize
  let (keyPayload, shared) ← rest.splitAt jwkPayloadSize
  return .ok { header, keyPayload, shared }

/-- The layout of the memory at hand. -/
def Scratch.layout : Scratch Layout := do
  Scratch.step (layoutOfSize (← get).length)

/-- Reads the text field `name` of the document in a region. -/
def Scratch.readField (name : String) (region : Region) : Scratch String := do
  let field ← ofExcept (Jws.readField name (← Scratch.read region))
  return field.text

/-- Verifies a signature in a region. -/
def Scratch.verifySignature (message signature modulus exponent : Bytes) (region : Region) :
    Scratch Unit :=
  Scratch.within region (Checked.verifySignature message signature modulus exponent)

/-- Decodes `text` into a region and gives the part that was written. -/
def Scratch.decode (decoder : Decoder) (alphabet : Base64.Alphabet) (text : Bytes)
    (region : Region) : Scratch Region := do
  let required ← Scratch.step ((decodedLength text).map (Except.mapError .base64))
  if region.length < required then throw .insufficientSpace
  let output ← Scratch.check (region.range 0 required)
  let written ← Scratch.within output fun content =>
    (decoder alphabet text content).map fun (result, left) => (result.mapError .base64, left)
  Scratch.check (region.range 0 written)

/-! ## The authentication -/

/-- Verifies the signing key in the JWS `text` against the root keys, in one phase. -/
def verifySigningKey (decoder : Decoder) (text : Bytes) (rootKeys : List RootKey)
    (layout : Layout) : Scratch SigningKey := do
  let (jwk, signedContent) ← Scratch.step (split text)
  let phase := layout.phase
  let (region, phase) ← Scratch.step (carve phase jwkHeaderSize)
  let header ← Scratch.decode decoder .urlSafe jwk.header region
  let payload ← Scratch.decode decoder .urlSafe jwk.payload layout.keyPayload
  let (region, phase) ← Scratch.step (carve phase signatureSize)
  let signature ← Scratch.decode decoder .urlSafe jwk.signature region
  let keyId ← Scratch.readField "kid" header
  match RootKey.find? rootKeys keyId with
  | none => throw .rootKeyNotFound
  | some rootKey =>
    let (region, _) ← Scratch.step (carve phase verificationSize)
    Scratch.verifySignature signedContent (← Scratch.read signature) rootKey.modulus
      rootKey.exponent region
    let modulus ← Scratch.readField "n" payload
    let exponent ← Scratch.readField "e" payload
    let algorithm ← Scratch.readField "alg" payload
    if algorithm = rs256 then return ⟨modulus, exponent⟩ else throw .unsupportedAlgorithm

/-- Verifies the signature of the JWS itself, in one phase. -/
def verifyManifestSignature (decoder : Decoder) (jws : Compact) (signedContent : Bytes)
    (key : SigningKey) (layout : Layout) : Scratch Unit := do
  let phase := layout.phase
  let (region, phase) ← Scratch.step (carve phase signatureSize)
  let signature ← Scratch.decode decoder .urlSafe jws.signature region
  let (region, phase) ← Scratch.step (carve phase modulusSize)
  let modulus ← Scratch.decode decoder .standard (utf8 key.modulus) region
  let (region, phase) ← Scratch.step (carve phase exponentSize)
  let exponent ← Scratch.decode decoder .standard (utf8 key.exponent) region
  let (region, _) ← Scratch.step (carve phase verificationSize)
  Scratch.verifySignature signedContent (← Scratch.read signature) (← Scratch.read modulus)
    (← Scratch.read exponent) region

/-- Compares the digest that the payload attests with that of the manifest, in one phase. -/
def checkDigest (decoder : Decoder) (manifest : Bytes) (jws : Compact) (layout : Layout) :
    Scratch Unit := do
  let phase := layout.phase
  let (region, phase) ← Scratch.step (carve phase jwsPayloadSize)
  let payload ← Scratch.decode decoder .urlSafe jws.payload region
  let encoded ← Scratch.readField "sha256" payload
  let (region, phase) ← Scratch.step (carve phase digestSize)
  let attested ← Scratch.decode decoder .standard (utf8 encoded) region
  if (← Scratch.read attested).length ≠ digestSize then throw .invalidDigestLength
  let (calculated, _) ← Scratch.step (carve phase digestSize)
  Scratch.write calculated (Sha256.digest manifest)
  if (← Scratch.read attested) ≠ (← Scratch.read calculated) then throw .digestMismatch

/-- Authenticates a manifest against the JWS that signs it, in the scratch memory. -/
def authenticate (decoder : Decoder) (manifest jws : Bytes) (rootKeys : List RootKey) :
    Scratch Unit := do
  let layout ← Scratch.layout
  let (outer, signedContent) ← Scratch.step (split jws)
  let header ← Scratch.decode decoder .urlSafe outer.header layout.header
  let embedded ← Scratch.readField "sjwk" header
  let key ← verifySigningKey decoder (utf8 embedded) rootKeys layout
  verifyManifestSignature decoder outer signedContent key layout
  checkDigest decoder manifest outer layout

/-- The outcome of an authentication in a given scratch memory, and what it leaves there. -/
def authenticateManifest (decoder : Decoder) (manifest jws : Bytes) (rootKeys : List RootKey)
    (scratch : Bytes) : Except Fault (Except Error Unit × Bytes) :=
  (authenticate decoder manifest jws rootKeys).run.run scratch

end DeviceTrust.Jws.Checked
