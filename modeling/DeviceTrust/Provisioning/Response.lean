import DeviceTrust.Json.Record
import DeviceTrust.Provisioning.Request

/-!
# Responses of the provisioning service

A response has a topic, which says whether it was a success and when to poll again, and a payload.
-/

namespace DeviceTrust.Provisioning

/-! ## Topics

The topic of a response is `$dps/registrations/res/{status}/?{parameters}`. Parameters are separated by
ampersands; the request id is required, the delay before the next poll is optional, and of a parameter
that is repeated the last value counts. Other parameters are ignored. -/

/-- What the topic of a response says. -/
structure ResponseTopic where
  status : UInt16
  requestId : UInt32
  /-- The seconds to wait before polling again; zero if the service asks for none. -/
  retryAfter : UInt32
  deriving DecidableEq, Repr

/-! ### Cutting texts -/

/-- Cuts a text at the first place where `mark` stands, if there is one. -/
def cutAt? (mark : List Char) : List Char → Option (List Char × List Char)
  | [] => none
  | c :: rest =>
    if mark.isPrefixOf (c :: rest) then some ([], (c :: rest).drop mark.length)
    else (cutAt? mark rest).map fun (front, back) => (c :: front, back)

/-- Cuts a text at every `mark`. -/
def cutAtAll (mark : Char) : List Char → List (List Char)
  | [] => [[]]
  | c :: rest =>
    match cutAtAll mark rest with
    | [] => [[]]
    | part :: parts => if c = mark then [] :: part :: parts else (c :: part) :: parts

/-- The name of a parameter and its value, which is empty if there is no equals sign. -/
def splitParameter (parameter : List Char) : List Char × List Char :=
  let name := parameter.takeWhile (· != '=')
  (name, parameter.drop (name.length + 1))

/-! ### Parameters -/

/-- The parameters read so far. -/
structure TopicParameters where
  requestId : Option UInt32
  retryAfter : UInt32
  deriving DecidableEq, Repr

/-- A number below 2³². -/
def readParameterValue? (value : List Char) : Option UInt32 :=
  (Decimal.read? UInt32.size value).map UInt32.ofNat

/-- Adds a parameter to those read before. -/
def TopicParameters.add (parameters : TopicParameters) (parameter : List Char) :
    Option TopicParameters :=
  let (name, value) := splitParameter parameter
  if name = "$rid".toList then do
    return { parameters with requestId := some (← readParameterValue? value) }
  else if name = "retry-after".toList then do
    return { parameters with retryAfter := ← readParameterValue? value }
  else some parameters

/-- Reads what follows the common start of response topics. -/
def readTopicRest? (rest : List Char) : Option ResponseTopic := do
  let (status, query) ← cutAt? ['/', '?'] rest
  let status ← Decimal.read? UInt16.size status
  let parameters ← (cutAtAll '&' query).foldlM TopicParameters.add ⟨none, 0⟩
  let requestId ← parameters.requestId
  return ⟨UInt16.ofNat status, requestId, parameters.retryAfter⟩

/-- Reads the topic of a response; `none` for topics that are no responses. -/
def readResponseTopic (topic : String) : Except Failure (Option ResponseTopic) :=
  match responseTopicStart.toList.isPrefixOf? topic.toList with
  | none => .ok none
  | some rest =>
    match readTopicRest? rest with
    | some topic => .ok (some topic)
    | none => .error .failed

/-! ### Writing -/

/-- The topic of a response with the given numbers, as the service writes it. -/
def ResponseTopic.render (topic : ResponseTopic) : String :=
  responseTopicStart ++ toString topic.status.toNat ++ "/?$rid=" ++ toString topic.requestId.toNat
    ++ "&retry-after=" ++ toString topic.retryAfter.toNat

/-! ## Payloads

The payload of a response describes an operation and the state of the registration, or an error. Which of
the two it is depends on the status in the topic and on the fields that are there: a status of 300 or more
and a payload without an operation are failed operations. -/

/-! ### Documents -/

/-- The registration state as the service writes it. -/
structure StateDocument where
  assignedHub : Option String
  deviceId : Option String
  errorCode : Option UInt32
  errorMessage : Option String
  deriving DecidableEq, Repr

/-- A response as the service writes it; the error fields stand in responses without an operation. -/
structure ResponseDocument where
  operationId : Option String
  status : Option String
  registrationState : Option StateDocument
  errorCode : Option UInt32
  trackingId : Option String
  message : Option String
  deriving DecidableEq, Repr

/-- A field whose value may be absent or null. -/
def optionalField {ρ α : Type} (name : String) (reader : Json.Reader α)
    (set : Option α → ρ → ρ) : Json.Field ρ :=
  ⟨name, reader.optional.map set⟩

/-- The fields of a registration state. -/
def StateDocument.fields : List (Json.Field StateDocument) := [
  optionalField "assignedHub" .text fun x d => { d with assignedHub := x },
  optionalField "deviceId" .text fun x d => { d with deviceId := x },
  optionalField "errorCode" .code fun x d => { d with errorCode := x },
  optionalField "errorMessage" .text fun x d => { d with errorMessage := x }]

/-- Reads a registration state. -/
def StateDocument.reader : Json.Reader StateDocument :=
  .record fields ⟨none, none, none, none⟩

/-- The fields of a response. -/
def ResponseDocument.fields : List (Json.Field ResponseDocument) := [
  optionalField "operationId" .text fun x d => { d with operationId := x },
  optionalField "status" .text fun x d => { d with status := x },
  optionalField "registrationState" StateDocument.reader
    fun x d => { d with registrationState := x },
  optionalField "errorCode" .code fun x d => { d with errorCode := x },
  optionalField "trackingId" .text fun x d => { d with trackingId := x },
  optionalField "message" .text fun x d => { d with message := x }]

/-- Reads a response. -/
def ResponseDocument.reader : Json.Reader ResponseDocument :=
  .record fields ⟨none, none, none, none, none, none⟩

/-! ### Responses -/

/-- The status of a registration operation. -/
inductive OperationStatus where
  | unassigned
  | assigning
  | assigned
  | failed
  | disabled
  deriving DecidableEq, Repr

/-- The status that a word of the service stands for. -/
def OperationStatus.ofWord? (word : String) : Option OperationStatus :=
  if word = "unassigned" then some .unassigned
  else if word = "assigning" then some .assigning
  else if word = "assigned" then some .assigned
  else if word = "failed" then some .failed
  else if word = "disabled" then some .disabled
  else none

/-- Whether the operation goes on, so that its status is to be asked for again. -/
def OperationStatus.isPending : OperationStatus → Bool
  | .unassigned | .assigning => true
  | .assigned | .failed | .disabled => false

/-- What a response says about the registration; texts are empty and the code is zero where the service
sent none. -/
structure RegistrationState where
  assignedHub : String
  deviceId : String
  extendedErrorCode : UInt32
  errorMessage : String
  errorTrackingId : String
  deriving DecidableEq, Repr

/-- The state of a response that says nothing about the registration. -/
def RegistrationState.empty : RegistrationState :=
  ⟨"", "", 0, "", ""⟩

/-- A response that has been read. -/
structure RegistrationResponse where
  status : UInt16
  /-- Names the operation in status queries; empty in responses without one. -/
  operationId : String
  operationStatus : OperationStatus
  retryAfter : UInt32
  state : RegistrationState
  deriving DecidableEq, Repr

/-- The state that a document gives. -/
def StateDocument.toState (document : StateDocument) : RegistrationState where
  assignedHub := document.assignedHub.getD ""
  deviceId := document.deviceId.getD ""
  extendedErrorCode := document.errorCode.getD 0
  errorMessage := document.errorMessage.getD ""
  errorTrackingId := ""

/-- The least status in the topic of an error response. -/
def errorStatus : UInt16 := 300

/-- The operation that a response describes: its id and the word for its status. -/
def ResponseDocument.operation? (document : ResponseDocument) (topic : ResponseTopic) :
    Option (String × String) :=
  if topic.status < errorStatus then do
    return (← document.operationId, ← document.status)
  else none

/-- The meaning of a response document under its topic. -/
def RegistrationResponse.ofDocument (topic : ResponseTopic) (document : ResponseDocument) :
    Except Failure RegistrationResponse :=
  match document.operation? topic with
  | some (operationId, word) =>
    match OperationStatus.ofWord? word with
    | none => .error .failed
    | some operationStatus => .ok {
        status := topic.status
        operationId := operationId
        operationStatus := operationStatus
        retryAfter := topic.retryAfter
        state := (document.registrationState.map StateDocument.toState).getD .empty }
  | none =>
    if topic.status < errorStatus ∧ document.errorCode.isNone then .error .failed
    else .ok {
      status := topic.status
      operationId := ""
      operationStatus := .failed
      retryAfter := topic.retryAfter
      state := {
        RegistrationState.empty with
        extendedErrorCode := document.errorCode.getD 0
        errorMessage := document.message.getD ""
        errorTrackingId := document.trackingId.getD "" } }

/-- Reads a response with the given topic. -/
def RegistrationResponse.read (topic : ResponseTopic) (payload : Bytes) :
    Except Error RegistrationResponse :=
  match ResponseDocument.reader.readDocument payload with
  | .error e => .error (.json e)
  | .ok document => (ofDocument topic document).mapError .failure

end DeviceTrust.Provisioning
