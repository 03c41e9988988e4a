import DeviceTrust.Base64
import DeviceTrust.Json.Object
import DeviceTrust.Rsa

/-!
# Scratch memory

One buffer, lent by the caller, holds all decoded values. Its first bytes are two regions that keep their
contents throughout; all that follows is used anew in each phase, from its start, region after region.

What a region holds is read from the memory at the time it is used, so a value is lost when a later region
is laid over it.
-/

namespace DeviceTrust.Jws

/-! ## Why an authentication fails

Faults of a JSON document, of base64 text and of an RSA key are passed on; all others are found by the
authentication itself. -/

/-- The causes of a failed authentication. -/
inductive Error where
  | json (cause : Json.Error)
  | base64 (cause : Base64.DecodeError)
  | key (cause : Rsa.KeyError)
  /-- The scratch memory is too small. -/
  | outOfMemory
  /-- A decoded value does not fit into its region. -/
  | insufficientSpace
  | malformedJws
  | missingField (name : String)
  /-- The value of a field is not a text. -/
  | wrongTokenType (name : String)
  | rootKeyNotFound
  | unsupportedAlgorithm
  | keyTooLarge
  | invalidSignatureLength
  | invalidPadding
  | signatureMismatch
  | invalidDigestLength
  | digestMismatch
  deriving DecidableEq, Repr

/-- The wording of an error. -/
def Error.message : Error → String
  | .json cause => cause.message
  | .base64 cause => cause.message
  | .key cause => cause.message
  | .outOfMemory => "The scratch buffer is smaller than the minimum required size."
  | .insufficientSpace => "A decoded value does not fit in the scratch region reserved for it."
  | .malformedJws =>
    "The JWS does not consist of exactly three non-empty '.'-separated segments."
  | .missingField name => "The required JSON field `" ++ name ++ "` is missing."
  | .wrongTokenType name => "The JSON field `" ++ name ++ "` does not hold a string."
  | .rootKeyNotFound => "No root key matches the key id of the signing key."
  | .unsupportedAlgorithm => "The signing key algorithm is not RS256."
  | .keyTooLarge => "The RSA modulus is larger than 3072 bits."
  | .invalidSignatureLength => "The signature length does not match the RSA modulus size."
  | .invalidPadding =>
    "The recovered signature block is not a PKCS#1 v1.5 encoded SHA-256 digest."
  | .signatureMismatch => "The signature does not match the signed content."
  | .invalidDigestLength => "The attested manifest digest is not 32 bytes long."
  | .digestMismatch => "The SHA-256 of the manifest does not match the attested digest."

/-! ## Sizes -/

/-- The largest number of bytes of an RSA modulus. -/
def modulusSize : Nat := 384
/-- The number of bytes of a SHA-256 digest. -/
def digestSize : Nat := 32
/-- Where the digest starts in the description that a signature block holds. -/
def digestInfoOffset : Nat := 19
def jwsHeaderSize : Nat := 1400
def jwsPayloadSize : Nat := 60
def jwkHeaderSize : Nat := 48
def jwkPayloadSize : Nat := 700
def signatureSize : Nat := 400
def exponentSize : Nat := 10
/-- The memory that the verification of a signature needs: the recovered block and a digest. -/
def verificationSize : Nat := modulusSize + digestSize

/-- The least size of the scratch memory. What is only decoded after the signing key has been verified
reuses memory and is not counted. -/
def scratchSize : Nat :=
  jwsHeaderSize + jwkHeaderSize + jwkPayloadSize + signatureSize + modulusSize + exponentSize
    + verificationSize

/-! ## Layout -/

/-- The regions of a scratch memory. -/
structure Layout where
  /-- The decoded header of the JWS. -/
  header : Region
  /-- The decoded payload of the signing key. -/
  keyPayload : Region
  /-- What the phases share. -/
  shared : Region
  deriving DecidableEq, Repr

/-- Lays out a memory of `size` bytes. -/
def Layout.ofSize (size : Nat) : Except Error Layout :=
  if size < scratchSize then .error .outOfMemory
  else .ok {
    header := ⟨0, jwsHeaderSize⟩
    keyPayload := ⟨jwsHeaderSize, jwkPayloadSize⟩
    shared := ⟨jwsHeaderSize + jwkPayloadSize, size - (jwsHeaderSize + jwkPayloadSize)⟩ }

/-- What is left of the shared region in a phase. -/
structure Phase where
  rest : Region
  deriving DecidableEq, Repr

/-- Starts a phase at the start of the shared region. -/
def Layout.phase (layout : Layout) : Phase :=
  ⟨layout.shared⟩

/-- Takes the next `length` bytes of a phase. -/
def Phase.carve (phase : Phase) (length : Nat) : Except Error (Region × Phase) :=
  if phase.rest.length < length then .error .outOfMemory
  else .ok (⟨phase.rest.offset, length⟩,
    ⟨⟨phase.rest.offset + length, phase.rest.length - length⟩⟩)

/-! ## Operations on the memory -/

/-- An operation on the scratch memory that may fail. The memory it leaves is known in either case. -/
abbrev Scratch := ExceptT Error (StateM Bytes)

/-- What a region holds now. -/
def Scratch.read (region : Region) : Scratch Bytes := do
  return region.read (← get)

/-- Writes into a region. -/
def Scratch.write (region : Region) (content : Bytes) : Scratch Unit :=
  modify (region.write content)

/-- Runs an operation that knows only the contents of a region. -/
def Scratch.within {α : Type} (region : Region) (operation : Bytes → Except Error α × Bytes) :
    Scratch α := do
  let (result, content) := operation (← Scratch.read region)
  Scratch.write region content
  ofExcept result

/-- The layout of the memory at hand. -/
def Scratch.layout : Scratch Layout := do
  ofExcept (Layout.ofSize (← get).length)

/-! ## Decoding into a region

The number of bytes that a text decodes to is known from its length. If the region is shorter nothing is
written; otherwise the decoded bytes are the first ones of the region, and those behind them stay as they
were. -/

/-- Decodes `text` into `region` and gives the number of bytes written. -/
def decodeInto (alphabet : Base64.Alphabet) (text region : Bytes) : Except Error Nat × Bytes :=
  match Base64.decodedLength text with
  | .error e => (.error (.base64 e), region)
  | .ok required =>
    if region.length < required then (.error .insufficientSpace, region)
    else
      match Base64.decode alphabet text with
      | .error e => (.error (.base64 e), region)
      | .ok bytes => (.ok bytes.length, Bytes.fill region bytes)

/-- Decodes `text` into a region of the scratch memory and gives the part that was written. -/
def Scratch.decode (alphabet : Base64.Alphabet) (text : Bytes) (region : Region) :
    Scratch Region := do
  let written ← Scratch.within region (decodeInto alphabet text)
  return region.first written

/-! ## Text fields of the decoded documents

A field is the first member of that name of a document that is an object; its value must be a text. A
value without a backslash is the text between its quotes as it stands. -/

/-- The value of a text field. -/
structure FieldText where
  text : String
  /-- Whether the value stands in the document as it is, without escapes. -/
  isVerbatim : Bool
  deriving DecidableEq, Repr

/-- Reads the text field `name` of a document. -/
def readField (name : String) (document : Bytes) : Except Error FieldText :=
  match Json.firstMember name document with
  | .error e => .error (.json e)
  | .ok none => .error (.missingField name)
  | .ok (some (34 :: rest)) =>
    match Json.readText rest with
    | .error e => .error (.json e)
    | .ok (text, _) => .ok ⟨text, !rest.contains 92⟩
  | .ok (some _) => .error (.wrongTokenType name)

/-- Reads the text field `name` of the document in a region. -/
def Scratch.readField (name : String) (region : Region) : Scratch String := do
  let field ← ofExcept (Jws.readField name (← Scratch.read region))
  return field.text

end DeviceTrust.Jws
