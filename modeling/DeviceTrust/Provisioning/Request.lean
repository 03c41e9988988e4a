import DeviceTrust.Json.Value
import DeviceTrust.Provisioning.Host

/-!
# Requests to the provisioning service

The texts that a device sends: the user name and the token it connects with, the topics it publishes to
and the payload of its requests. They are written into buffers of the caller, in pieces as they are put
together: a text that does not fit is an `outOfMemory` failure, and what fits of it is written in either
case.
-/

namespace DeviceTrust.Provisioning

/-! ## Fixed texts -/

/-- The version of the service interface that the user name announces. -/
def apiVersion : String := "2019-03-31"

/-- The topic filter of all registration responses. -/
def responseFilter : String := "$dps/registrations/res/#"

/-- What the topics of all registration responses start with. -/
def responseTopicStart : String := "$dps/registrations/res/"

/-- The topic of the first request. -/
def registerTopic : String := "$dps/registrations/PUT/iotdps-register/?$rid=1"

/-! ## Texts of requests -/

/-- The user name of a device. -/
def userName (idScope registrationId userAgent : String) : String :=
  idScope ++ "/registrations/" ++ registrationId ++ "/api-version=" ++ apiVersion
    ++ "&ClientVersion=" ++ Percent.encode userAgent

/-- The topic that asks for the status of an operation. -/
def queryTopic (operationId : String) : String :=
  "$dps/registrations/GET/iotdps-get-operationstatus/?$rid=1&operationId=" ++ operationId

/-- A custom payload, which is one JSON value, without the white space around it. -/
def readCustomPayload (payload : Bytes) : Except Json.Error Bytes := do
  let (text, rest) ← Json.rawValue payload
  Json.checkEnd rest
  .ok text

/-- The payload of a request around a custom payload that has been read. -/
def payloadText (registrationId : String) (custom : Option Bytes) : Bytes :=
  utf8 ("\x7b\"registrationId\":" ++ Json.quote registrationId)
    ++ (match custom with
      | some text => utf8 ",\"payload\":" ++ text
      | none => [])
    ++ utf8 "\x7d"

/-- The payload of a request. -/
def requestPayload (registrationId : String) (custom : Option Bytes) : Except Json.Error Bytes :=
  match custom with
  | none => .ok (payloadText registrationId none)
  | some payload => (readCustomPayload payload).map (payloadText registrationId ∘ some)

/-! ## Writing into buffers -/

/-- Writes a text into a buffer at once and gives its length. -/
def writeText (text buffer : Bytes) : Except Failure Nat × Bytes :=
  (if text.length ≤ buffer.length then .ok text.length else .error .outOfMemory,
    Bytes.fill buffer text)

/-- Writes pieces into a buffer, one after another, and gives the number of bytes. -/
def writePieces (pieces : List Bytes) (buffer : Bytes) : Except Failure Nat × Bytes :=
  match (Cursor.start buffer).writeEach pieces with
  | (true, cursor) => (.ok cursor.position, cursor.memory)
  | (false, cursor) => (.error .outOfMemory, cursor.memory)

/-- Writes the user name of a device into a buffer and gives its length. -/
def writeUserName (idScope registrationId userAgent : String) (buffer : Bytes) :
    Except Failure Nat × Bytes :=
  let pieces := [idScope, "/registrations/", registrationId, "/api-version=", apiVersion,
    "&ClientVersion="] ++ Percent.pieces userAgent
  writePieces (pieces.map utf8) buffer

/-- Writes the topic of the first request into a buffer and gives its length. -/
def writeRegisterTopic (buffer : Bytes) : Except Failure Nat × Bytes :=
  writePieces [utf8 registerTopic] buffer

/-- Writes the topic that asks for the status of an operation into a buffer and gives its length. -/
def writeQueryTopic (operationId : String) (buffer : Bytes) : Except Failure Nat × Bytes :=
  let pieces := ["$dps/registrations/GET/iotdps-get-operationstatus/?$rid=1", "&operationId=",
    operationId]
  writePieces (pieces.map utf8) buffer

/-- The pieces that the payload of a request is written in, around a custom payload that has been
read. -/
def payloadPieces (registrationId : String) (custom : Option Bytes) : List Bytes :=
  ("\x7b" :: Json.quotePieces "registrationId" ++ ":" :: Json.quotePieces registrationId).map utf8
    ++ (match custom with
      | some text => ("," :: Json.quotePieces "payload" ++ [":"]).map utf8 ++ [text]
      | none => [])
    ++ [utf8 "\x7d"]

/-- Writes the payload of a request into a buffer and gives its length. Nothing is written when the
custom payload is refused. -/
def writeRequestPayload (registrationId : String) (custom : Option Bytes) (buffer : Bytes) :
    Except Error Nat × Bytes :=
  match custom.mapM readCustomPayload with
  | .error e => (.error (.json e), buffer)
  | .ok custom =>
    let (written, buffer) := writePieces (payloadPieces registrationId custom) buffer
    (written.mapError .failure, buffer)

/-! ## SAS tokens

A device proves that it has its symmetric key with a token: an HMAC-SHA256 tag over the resource and the
time when the token expires, together with both. The function that computes the tag belongs to the
caller. It may act in any monad, so that its calls can be observed. -/

/-- The largest number of bytes of a password. -/
def passwordMax : Nat := 256

/-- Computes the HMAC-SHA256 tag of a message under a key. -/
abbrev HmacFunction (m : Type → Type) := (key message : Bytes) → m (Except Error Bytes)

/-- A symmetric key and the function to sign with. -/
structure SymmetricKey (m : Type → Type) where
  secret : Bytes
  hmac : HmacFunction m

/-- Reads a symmetric key from its base64 form in the enrolment. -/
def readSecret (encoded : Bytes) : Except Error Bytes :=
  if encoded.isEmpty then .error (.failure .invalidArgument)
  else (Base64.decode .standard encoded).mapError .base64

/-- The symmetric key with the given base64 form. -/
def SymmetricKey.ofEncoded {m : Type → Type} (encoded : Bytes) (hmac : HmacFunction m) :
    Except Error (SymmetricKey m) :=
  (readSecret encoded).map fun secret => ⟨secret, hmac⟩

/-! ### Texts -/

/-- The resource of a device, percent-encoded. -/
def tokenResource (idScope registrationId : String) : String :=
  Percent.encode idScope ++ "%2Fregistrations%2F" ++ Percent.encode registrationId

/-- The text that the tag is computed over. -/
def signedText (idScope registrationId : String) (expiry : UInt64) : String :=
  tokenResource idScope registrationId ++ "\n" ++ toString expiry.toNat

/-- The base64 form of a tag. -/
def encodeTag (tag : Bytes) : String :=
  String.ofList ((Base64.encode .standard tag).map fun b => Char.ofNat b.toNat)

/-- The token with a given tag. -/
def tokenText (idScope registrationId : String) (expiry : UInt64) (tag : Bytes) : String :=
  "SharedAccessSignature sr=" ++ tokenResource idScope registrationId
    ++ "&sig=" ++ Percent.encode (encodeTag tag) ++ "&se=" ++ toString expiry.toNat

/-! ### Writing tokens -/

/-- The pieces that the token with a given tag is written in. -/
def tokenPieces (idScope registrationId : String) (expiry : UInt64) (tag : Bytes) : List String :=
  ["SharedAccessSignature sr=", tokenResource idScope registrationId, "&sig="]
    ++ Percent.pieces (encodeTag tag) ++ ["&se=", toString expiry.toNat]

/-- Writes the token of a device that is valid until `expiry` (in seconds since 1970) into a buffer and
gives its length. -/
def SymmetricKey.writePassword {m : Type → Type} [Monad m] (key : SymmetricKey m)
    (idScope registrationId : String) (expiry : UInt64) (buffer : Bytes) :
    m (Except Error Nat × Bytes) := do
  match ← key.hmac key.secret (utf8 (signedText idScope registrationId expiry)) with
  | .error e => return (.error e, buffer)
  | .ok tag =>
    let pieces := tokenPieces idScope registrationId expiry tag
    let (written, buffer) := writePieces (pieces.map utf8) buffer
    return (written.mapError .failure, buffer)

/-- The token of a device, written into a buffer of its own. -/
def SymmetricKey.password {m : Type → Type} [Monad m] (key : SymmetricKey m)
    (idScope registrationId : String) (expiry : UInt64) : m (Except Error String) := do
  let (written, buffer) ←
    key.writePassword idScope registrationId expiry (List.replicate passwordMax 0)
  match written with
  | .error e => return .error e
  | .ok length =>
    match Bytes.text? (buffer.take length) with
    | none => return .error .notText
    | some text => return .ok text

end DeviceTrust.Provisioning
