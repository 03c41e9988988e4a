import DeviceTrust.Base64
import DeviceTrust.Json.Text

/-!
# What a client runs on

A client owns neither a network nor a clock. A `Host` gives it both: the calls of an MQTT session and the
time in seconds, each as a function on an arbitrary outside state. `Host.recorded` is a host that also
keeps the calls of its session, so that what a client did can be told from the state it leaves.
-/

namespace DeviceTrust.Provisioning

/-! ## Why provisioning fails

A `Failure` is what the workflow ends with and answers from then on. An `Error` is the cause that an
operation reports; its `kind` is the failure that it counts as. -/

/-- Faults of the MQTT session. -/
inductive TransportError where
  | connectionRefused
  | notConnected
  | sendFailed
  | receiveFailed
  | timeout
  deriving DecidableEq, Repr

/-- The wording of a transport error. -/
def TransportError.message : TransportError → String
  | .connectionRefused => "The broker refused the connection."
  | .notConnected => "The MQTT session is not connected."
  | .sendFailed => "Sending to the broker failed."
  | .receiveFailed => "Receiving from the broker failed."
  | .timeout => "The broker did not answer in time."

/-- The failures of provisioning. -/
inductive Failure where
  | invalidArgument
  | outOfMemory
  | invalidState
  | tokenGenerationFailed
  | connectFailed
  | subscribeFailed
  | publishFailed
  | processLoopFailed
  | invalidResponse
  | serverError
  | failed
  deriving DecidableEq, Repr

/-- The wording of a failure. -/
def Failure.message : Failure → String
  | .invalidArgument => "A required argument is empty."
  | .outOfMemory => "A value does not fit in the buffer reserved for it."
  | .invalidState => "The operation is not valid in the current workflow state."
  | .tokenGenerationFailed => "The SAS token could not be generated."
  | .connectFailed => "The MQTT connection to the provisioning endpoint failed."
  | .subscribeFailed => "Subscribing to the registration response topic failed."
  | .publishFailed => "Publishing the registration request failed."
  | .processLoopFailed => "The MQTT process loop failed."
  | .invalidResponse => "The registration response has an empty topic or payload."
  | .serverError => "The provisioning service rejected the registration."
  | .failed => "The operation failed."

/-- The causes that operations report. -/
inductive Error where
  | json (cause : Json.Error)
  | base64 (cause : Base64.DecodeError)
  /-- Bytes read back from a buffer are not a text. -/
  | notText
  | transport (cause : TransportError)
  | failure (cause : Failure)
  deriving DecidableEq, Repr

/-- The wording of an error. -/
def Error.message : Error → String
  | .json cause => cause.message
  | .base64 cause => cause.message
  | .notText => "The buffer does not hold valid UTF-8."
  | .transport cause => cause.message
  | .failure cause => cause.message

/-- The failure that an error counts as. -/
def Error.kind : Error → Failure
  | .failure cause => cause
  | _ => .failed

/-! ## Hosts -/

/-- The quality of service of messages; provisioning uses one level only. -/
inductive QoS where
  | atMostOnce
  deriving DecidableEq, Repr

/-- The parameters of an MQTT connection; times are in milliseconds. -/
structure ConnectInfo where
  clientId : String
  username : String
  password : Option String
  cleanSession : Bool
  keepAlive : Nat
  /-- How long the broker may take to answer. -/
  connackTimeout : Nat
  deriving DecidableEq, Repr

/-- A message that was published to the device. -/
structure Message where
  topic : String
  payload : Bytes
  deriving DecidableEq, Repr

/-- The number of bytes of topic and payload together. -/
def Message.size (message : Message) : Nat :=
  message.topic.utf8ByteSize + message.payload.length

/-- A packet that was received. -/
inductive Event where
  | suback (packetId : UInt16)
  | publish (message : Message)
  | other (packetType : UInt8)
  deriving DecidableEq, Repr

/-- An MQTT session and a clock over the outside state `σ`. -/
structure Host (σ : Type) where
  /-- Opens the session. -/
  connect : ConnectInfo → σ → Except TransportError Unit × σ
  /-- Subscribes to a topic filter and gives the packet id; the broker's answer comes as an event. -/
  subscribe : (filter : String) → QoS → σ → Except TransportError UInt16 × σ
  publish : (topic : String) → (payload : Bytes) → QoS → σ → Except TransportError Unit × σ
  /-- Sends and receives for at most `timeout` milliseconds and gives what was received. -/
  processLoop : (timeout : Nat) → σ → Except TransportError (List Event) × σ
  /-- The time in seconds. -/
  now : σ → UInt64 × σ

/-! ### Observing the calls -/

/-- A call of the session. -/
inductive Call where
  | connect (info : ConnectInfo)
  | subscribe (filter : String) (qos : QoS)
  | publish (topic : String) (payload : Bytes) (qos : QoS)
  | processLoop (timeout : Nat)
  deriving DecidableEq, Repr

/-- The host that keeps its calls, the last one first. -/
def Host.recorded {σ : Type} (host : Host σ) : Host (σ × List Call) where
  connect info s :=
    let (result, outside) := host.connect info s.1
    (result, outside, .connect info :: s.2)
  subscribe filter qos s :=
    let (result, outside) := host.subscribe filter qos s.1
    (result, outside, .subscribe filter qos :: s.2)
  publish topic payload qos s :=
    let (result, outside) := host.publish topic payload qos s.1
    (result, outside, .publish topic payload qos :: s.2)
  processLoop timeout s :=
    let (result, outside) := host.processLoop timeout s.1
    (result, outside, .processLoop timeout :: s.2)
  now s :=
    let (time, outside) := host.now s.1
    (time, outside, s.2)

end DeviceTrust.Provisioning
