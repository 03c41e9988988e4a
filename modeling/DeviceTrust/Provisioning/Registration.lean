import DeviceTrust.Provisioning.Client

/-!
# Registration

A registration takes turns: each one runs the action of the current step, which makes at most one call of
the session, and then lets the session send and receive for a while and takes the received events into
account. A client that has completed makes no more calls.
-/

namespace DeviceTrust.Provisioning

/-- A client together with the outside state of its host. -/
structure Session (σ : Type) where
  client : Client
  outside : σ

/-- An action on a session that may fail. The session it leaves is known in either case. -/
abbrev Action (σ : Type) := ExceptT Failure (StateM (Session σ))

namespace Action

variable {σ : Type}

/-- The client of the session. -/
def client : Action σ Client := do
  return (← get).client

/-- Calls the host. -/
def call {α : Type} (operation : σ → α × σ) : Action σ α := do
  let s ← get
  let (result, outside) := operation s.outside
  set { s with outside }
  return result

/-- Fails with `failure` if a call of the session did. -/
def check {α : Type} (failure : Failure) (result : Except TransportError α) : Action σ α :=
  match result with
  | .ok a => return a
  | .error _ => throw failure

/-- Runs an operation that writes into a region of the working buffer. -/
def within {α : Type} (region : Region) (operation : Bytes → α × Bytes) : Action σ α := do
  let s ← get
  let (result, content) := operation (region.read s.client.buffer)
  set { s with client := { s.client with buffer := region.write content s.client.buffer } }
  return result

/-- The first `length` bytes of a region of the working buffer. -/
def readBytes (region : Region) (length : Nat) : Action σ Bytes := do
  return (region.first length).read (← client).buffer

/-- The text that the first `length` bytes of a region of the working buffer are. -/
def readText (region : Region) (length : Nat) : Action σ String := do
  match (← readBytes region length).text? with
  | some text => return text
  | none => throw .failed

end Action

/-! ## Actions -/

/-- Where the user name is built. -/
def userNameRegion : Region := ⟨0, userNameMax⟩

/-- Where the password is built. -/
def passwordRegion : Region := ⟨userNameMax, passwordMax⟩

/-- Where the topic of a request is built. -/
def topicRegion : Region := ⟨0, topicMax⟩

/-- Where the payload of a request is built. -/
def payloadRegion : Region := ⟨topicMax, requestPayloadMax⟩

/-- Writes the topic of the next request into a buffer and gives its length: a status query if there has
been a response, and otherwise the first request. -/
def Client.writeTopic (client : Client) : Bytes → Except Failure Nat × Bytes :=
  match client.response with
  | none => writeRegisterTopic
  | some response => writeQueryTopic response.operationId

namespace Host

variable {σ : Type}

/-- Builds the password in its region and gives its length, or nothing if there is no key. -/
def buildPassword (host : Host σ) : Action σ (Option Nat) := do
  let client ← Action.client
  match client.key with
  | none => return none
  | some key =>
    let time ← Action.call host.now
    let written ← Action.within passwordRegion fun buffer =>
      (key.writePassword client.idScope client.registrationId (time + tokenLifetime) buffer).run
    match written with
    | .ok length => return some length
    | .error _ => throw .tokenGenerationFailed

/-- Builds the credentials and gives what to connect with. -/
def prepareConnect (host : Host σ) : Action σ ConnectInfo := do
  let client ← Action.client
  let written ← Action.within userNameRegion
    (writeUserName client.idScope client.registrationId client.userAgent)
  let userNameLength ← ofExcept written
  let passwordLength ← host.buildPassword
  let username ← Action.readText userNameRegion userNameLength
  let password ← match passwordLength with
    | none => pure none
    | some length => some <$> Action.readText passwordRegion length
  return {
    clientId := client.registrationId
    username, password
    cleanSession := true
    keepAlive := keepAliveSeconds * 1000
    connackTimeout }

/-- Connects with the credentials. -/
def connectAction (host : Host σ) : Action σ Unit := do
  let info ← host.prepareConnect
  let result ← Action.call (host.connect info)
  Action.check .connectFailed result

/-- Subscribes to the responses. -/
def subscribeAction (host : Host σ) : Action σ Unit := do
  let result ← Action.call (host.subscribe responseFilter .atMostOnce)
  let _ ← Action.check .subscribeFailed result

/-- Builds a request and gives its topic and its payload. -/
def prepareRequest : Action σ (String × Bytes) := do
  let client ← Action.client
  let written ← Action.within topicRegion client.writeTopic
  let topicLength ← ofExcept (written.mapError fun _ => .failed)
  let written ← Action.within payloadRegion
    (writeRequestPayload client.registrationId client.payload)
  let payloadLength ← ofExcept (written.mapError fun _ => .failed)
  let topic ← Action.readText topicRegion topicLength
  let payload ← Action.readBytes payloadRegion payloadLength
  return (topic, payload)

/-- Publishes the next request. -/
def requestAction (host : Host σ) : Action σ Unit := do
  let (topic, payload) ← prepareRequest
  let result ← Action.call (host.publish topic payload .atMostOnce)
  Action.check .publishFailed result

end Host

/-! ## Responses -/

/-- The response in a message; `none` if its topic is not that of a response. -/
def Message.readResponse (message : Message) : Except Failure (Option RegistrationResponse) :=
  if message.topic.isEmpty ∨ message.payload.isEmpty then .error .invalidResponse
  else
    match readResponseTopic message.topic with
    | .error failure => .error failure
    | .ok none => .ok none
    | .ok (some topic) =>
      match RegistrationResponse.read topic message.payload with
      | .error _ => .error .failed
      | .ok response => .ok (some response)

/-- The seconds to wait before the next poll. -/
def RegistrationResponse.pollDelay (response : RegistrationResponse) : UInt64 :=
  if response.retryAfter = 0 then pollingInterval else response.retryAfter.toUInt64

/-- What a response means for the workflow. -/
def RegistrationResponse.result (response : RegistrationResponse) : ActionResult :=
  match response.operationStatus with
  | .assigned => .success
  | .failed | .disabled => .failed .serverError
  | .unassigned | .assigning => .pending

namespace Session

variable {σ : Type}

/-- Moves the workflow on. -/
def settle (s : Session σ) (result : ActionResult) : Session σ :=
  { s with client := s.client.settle result }

/-- Runs an action and moves the workflow on by its outcome. -/
def perform (s : Session σ) (action : Action σ Unit) : Session σ :=
  match action.run.run s with
  | (.ok (), s) => s.settle .success
  | (.error failure, s) => s.settle (.failed failure)

/-- Acts on a response; a pending one also sets the time of the next poll. -/
def accept (s : Session σ) (host : Host σ) (response : RegistrationResponse) : Session σ :=
  if response.operationStatus.isPending then
    let (time, outside) := host.now s.outside
    let client := { s.client with
      response := some response
      retryDeadline := time + response.pollDelay }
    { client := client.settle response.result, outside }
  else
    { s with client := { s.client with response := some response }.settle response.result }

/-- Reads the message that has been buffered. -/
def readMessage (s : Session σ) (host : Host σ) : Session σ :=
  match s.client.message with
  | none => s.settle (.failed .invalidResponse)
  | some message =>
    let taken := { s with client := { s.client with message := none } }
    match message.readResponse with
    | .error failure => taken.settle (.failed failure)
    | .ok none => s
    | .ok (some response) => taken.accept host response

/-- Goes on to the next poll once its time has passed. -/
def checkDeadline (s : Session σ) (host : Host σ) : Session σ :=
  let (time, outside) := host.now s.outside
  if s.client.retryDeadline < time then
    { client := { s.client with retryDeadline := 0 }.settle .success, outside }
  else { s with outside }

/-- Runs the action of the current step, if it has one. -/
def act (s : Session σ) (host : Host σ) : Session σ :=
  match s.client.state with
  | .connect => s.perform host.connectAction
  | .subscribe => s.perform host.subscribeAction
  | .request => s.perform host.requestAction
  | .response => s.readMessage host
  | .waiting => s.checkDeadline host
  | .init | .subscribing | .requesting | .complete => s

/-- Lets the session send and receive for at most `wait` milliseconds. -/
def process (s : Session σ) (host : Host σ) (wait : Nat) : Session σ :=
  match host.processLoop wait s.outside with
  | (.ok events, outside) => { client := s.client.handleEvents events, outside }
  | (.error _, outside) => { s with outside }.settle (.failed .processLoopFailed)

/-- One turn of the workflow. -/
def tick (s : Session σ) (host : Host σ) (wait : Nat) : Session σ :=
  let s := s.act host
  if s.client.state = .complete then s else s.process host wait

/-- Takes turns for a time, at least one, or until the workflow completes. No turn waits for longer than
`limit`, which is the longest wait in milliseconds unless the times are in another unit. -/
def run (s : Session σ) (host : Host σ) (remaining : Nat) (limit : Nat := processLoopTimeout)
    (hlimit : 0 < limit := by exact DeviceTrust.Provisioning.processLoopTimeout_pos) : Session σ :=
  if s.client.state = .complete then s
  else
    let s := s.tick host (min remaining limit)
    if remaining ≤ limit then s else s.run host (remaining - limit) limit hlimit
termination_by remaining
decreasing_by omega

/-- Starts the workflow, if it has not been started. -/
def start (s : Session σ) : Session σ :=
  if s.client.state = .init then s.settle .success else s

/-- Advances the registration for at most `timeout`, in the unit of `limit`. -/
def register (s : Session σ) (host : Host σ) (timeout : Nat) (limit : Nat := processLoopTimeout)
    (hlimit : 0 < limit := by exact DeviceTrust.Provisioning.processLoopTimeout_pos) :
    Except Failure RegistrationStatus × Session σ :=
  let s := s.start.run host timeout limit hlimit
  (s.client.outcome, s)

end Session

end DeviceTrust.Provisioning
