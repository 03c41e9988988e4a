import DeviceTrust.Provisioning.Response

/-!
# Provisioning clients

A client registers one device. Its state is a step of the workflow, the outcome of the last action, and
what it has received; its working buffer is only used to build what it sends. This module holds what a
client does by itself, without its host.

Results:
* `Client.handleEvents_append`: a batch of events can be cut anywhere.
-/

namespace DeviceTrust.Provisioning

/-! ## Sizes and times -/

def userNameMax : Nat := 256
def topicMax : Nat := 128
def requestPayloadMax : Nat := 512

/-- The largest response that is accepted, topic and payload together. -/
def responseMax : Nat := topicMax + requestPayloadMax

/-- The least size of a working buffer, which holds the credentials and later the requests. -/
def minimumBufferSize : Nat := max (userNameMax + passwordMax) (topicMax + requestPayloadMax)

/-- The keep-alive time of the session, in seconds. -/
def keepAliveSeconds : Nat := 60

/-- How long the broker may take to answer a connection, in milliseconds. -/
def connackTimeout : Nat := 1000

/-- The longest wait of one turn of the workflow, in milliseconds. -/
def processLoopTimeout : Nat := 500

theorem processLoopTimeout_pos : 0 < processLoopTimeout := by decide

/-- The lifetime of tokens, in seconds. -/
def tokenLifetime : UInt64 := 3600

/-- The wait before polling again when the service asks for none, in seconds. -/
def pollingInterval : UInt64 := 3

/-! ## The workflow -/

/-- The steps of the workflow. -/
inductive WorkflowState where
  | init
  | connect
  | subscribe
  | subscribing
  | request
  | requesting
  | response
  | waiting
  | complete
  deriving DecidableEq, Repr

/-- The outcome of a workflow action. -/
inductive ActionResult where
  | success
  | pending
  | failed (failure : Failure)
  deriving DecidableEq, Repr

/-- The step after an action: a success goes on, a pending response is waited for, and everything else
completes the workflow. A response that succeeds completes it too. -/
def WorkflowState.next : WorkflowState → ActionResult → WorkflowState
  | .init, .success => .connect
  | .connect, .success => .subscribe
  | .subscribe, .success => .subscribing
  | .subscribing, .success => .request
  | .request, .success => .requesting
  | .requesting, .success => .response
  | .response, .pending => .waiting
  | .waiting, .success => .request
  | _, _ => .complete

/-- What a registration has come to. -/
inductive RegistrationStatus where
  /-- The workflow goes on. -/
  | pending
  /-- The device has been assigned to a hub. -/
  | assigned
  deriving DecidableEq, Repr

/-! ## Clients -/

/-- A provisioning client. -/
structure Client where
  endpoint : String
  idScope : String
  registrationId : String
  userAgent : String
  key : Option (SymmetricKey Id)
  /-- The custom payload of requests. -/
  payload : Option Bytes
  /-- The working memory lent by the caller. -/
  buffer : Bytes
  state : WorkflowState
  lastResult : ActionResult
  /-- The last response message, until it is read. -/
  message : Option Message
  /-- The last response that was read. -/
  response : Option RegistrationResponse
  /-- While waiting, the time after which the status is asked for again. -/
  retryDeadline : UInt64

namespace Client

/-- Creates a client. No text but the user agent may be empty. -/
def new (endpoint idScope registrationId userAgent : String) (buffer : Bytes) :
    Except Failure Client :=
  if endpoint.isEmpty ∨ idScope.isEmpty ∨ registrationId.isEmpty then .error .invalidArgument
  else if buffer.length < minimumBufferSize then .error .outOfMemory
  else .ok {
    endpoint, idScope, registrationId, userAgent, buffer
    key := none
    payload := none
    state := .init
    lastResult := .pending
    message := none
    response := none
    retryDeadline := 0 }

/-- Moves the workflow on by the outcome of an action. -/
def settle (client : Client) (result : ActionResult) : Client :=
  { client with state := client.state.next result, lastResult := result }

/-- Uses a symmetric key, given in base64, for the credentials. -/
def setSymmetricKey (client : Client) (encoded : Bytes) (hmac : HmacFunction Id) :
    Except Error Unit × Client :=
  match SymmetricKey.ofEncoded encoded hmac with
  | .error e => (.error e, client)
  | .ok key => (.ok (), { client with key := some key })

/-- Sets the custom payload of requests, before the workflow has started. -/
def setRegistrationPayload (client : Client) (payload : Bytes) : Except Failure Unit × Client :=
  if payload.isEmpty then (.error .invalidArgument, client)
  else if client.state ≠ .init then (.error .invalidState, client)
  else (.ok (), { client with payload := some payload })

/-- Drops the message that has not been read yet; the response read before it stays. -/
def deinit (client : Client) : Client :=
  { client with message := none }

/-! ## Results -/

/-- The registration state of a client that has completed, unless it completed with a failure. -/
def assignedState (client : Client) : Except Failure RegistrationState :=
  if client.state ≠ .complete then .error .failed
  else
    match client.lastResult, client.response with
    | .failed failure, _ => .error failure
    | _, some response => .ok response.state
    | _, none => .error .failed

/-- Copies the assigned hub and the device id into two buffers and gives their lengths; both must fit. -/
def getDeviceAndHub (client : Client) (hostname deviceId : Bytes) :
    Except Failure (Nat × Nat) × Bytes × Bytes :=
  match client.assignedState with
  | .error failure => (.error failure, hostname, deviceId)
  | .ok state =>
    let hub := utf8 state.assignedHub
    let device := utf8 state.deviceId
    if hostname.length < hub.length ∨ deviceId.length < device.length then
      (.error .failed, hostname, deviceId)
    else
      (.ok (hub.length, device.length), Bytes.fill hostname hub, Bytes.fill deviceId device)

/-- The error code of the service, once the workflow has completed; zero if there is none. -/
def getExtendedCode (client : Client) : Except Failure UInt32 :=
  if client.state ≠ .complete then .error .failed
  else .ok ((client.response.map fun response => response.state.extendedErrorCode).getD 0)

/-- What a client answers to its caller: the final result, if there is one. -/
def outcome (client : Client) : Except Failure RegistrationStatus :=
  if client.state ≠ .complete then .ok .pending
  else
    match client.lastResult with
    | .success => .ok .assigned
    | .failed failure => .error failure
    | .pending => .error .failed

/-! ## Events -/

/-- Buffers a response that is waited for; one that is too large completes the workflow. -/
def receive (client : Client) (message : Message) : Client :=
  if ¬ responseTopicStart.toList.isPrefixOf message.topic.toList then client
  else if client.state ≠ .requesting ∧ client.state ≠ .response then client
  else if responseMax < message.size then
    { client with message := none }.settle (.failed .outOfMemory)
  else
    let client := { client with message := some message }
    if client.state = .requesting then client.settle .success else client

/-- Takes one event into account. -/
def handleEvent (client : Client) : Event → Client
  | .suback _ => if client.state = .subscribing then client.settle .success else client
  | .publish message => client.receive message
  | .other _ => client

/-- Takes a batch of events into account, in order. -/
def handleEvents (client : Client) (events : List Event) : Client :=
  events.foldl handleEvent client

theorem handleEvents_append (client : Client) (es fs : List Event) :
    client.handleEvents (es ++ fs) = (client.handleEvents es).handleEvents fs := by
  simp [handleEvents]

end Client

end DeviceTrust.Provisioning
