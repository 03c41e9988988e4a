import DeviceTrust.Proofs.Provisioning.Pieces
import DeviceTrust.Provisioning.Registration

/-!
# What happens to a client

The past of a client as a list of moments: the calls of the session with their results, the events
that the client is handed, the responses it keeps and those it reads. The calls are those that the
host gets: a host is watched, and keeps each call with the result that it has given. What a call has
received is what the client is handed, event by event.

A run is any sequence of operations on a client from its creation, with any host and any changes
outside between two operations.
-/

namespace DeviceTrust.Provisioning

/-! ## Moments -/

/-- Something that happens to a client. -/
inductive Moment where
  | connect (info : ConnectInfo) (result : Except TransportError Unit)
  | subscribe (filter : String) (qos : QoS) (result : Except TransportError UInt16)
  | publish (topic : String) (payload : Bytes) (qos : QoS) (result : Except TransportError Unit)
  | processLoop (timeout : Nat) (result : Except TransportError (List Event))
  /-- The client is handed an event. -/
  | deliver (event : Event)
  /-- The client keeps a response until it reads it. -/
  | keep (message : Message)
  /-- The client reads the response it has kept. -/
  | read (message : Message) (result : Except Failure (Option RegistrationResponse))
  /-- The caller makes the client drop the response it has kept. -/
  | drop

/-- The call of the session that is made. -/
@[simp] def Moment.call? : Moment → Option Call
  | .connect info _ => some (.connect info)
  | .subscribe filter qos _ => some (.subscribe filter qos)
  | .publish topic payload qos _ => some (.publish topic payload qos)
  | .processLoop timeout _ => some (.processLoop timeout)
  | .deliver _ | .keep _ | .read _ _ | .drop => none

/-- Whether it is a call of the session. -/
def Moment.isCall (m : Moment) : Bool :=
  m.call?.isSome

/-- The failure that a call which returns an error counts as. -/
@[simp] def Moment.failure? : Moment → Option Failure
  | .connect _ (.error _) => some .connectFailed
  | .subscribe _ _ (.error _) => some .subscribeFailed
  | .publish _ _ _ (.error _) => some .publishFailed
  | .processLoop _ (.error _) => some .processLoopFailed
  | _ => none

/-- The calls of the session, in order. -/
def calls (moments : List Moment) : List Call :=
  moments.filterMap Moment.call?

/-- The response that is kept. -/
@[simp] def Moment.kept? : Moment → Option Message
  | .keep message => some message
  | _ => none

/-- The response that was kept last. -/
def lastKept? (moments : List Moment) : Option Message :=
  (moments.filterMap Moment.kept?).getLast?

/-! ## Watched hosts -/

section Watching

variable {σ ω : Type}

/-- The host whose calls are noted with their results, in a state beside that of the host. -/
def Host.watched (host : Host σ) (note : Moment → ω → ω) : Host (σ × ω) where
  connect info s :=
    let (result, outside) := host.connect info s.1
    (result, outside, note (.connect info result) s.2)
  subscribe filter qos s :=
    let (result, outside) := host.subscribe filter qos s.1
    (result, outside, note (.subscribe filter qos result) s.2)
  publish topic payload qos s :=
    let (result, outside) := host.publish topic payload qos s.1
    (result, outside, note (.publish topic payload qos result) s.2)
  processLoop timeout s :=
    let (result, outside) := host.processLoop timeout s.1
    (result, outside, note (.processLoop timeout result) s.2)
  now s :=
    let (time, outside) := host.now s.1
    (time, outside, s.2)

/-- The host that keeps its calls with their results, in order. -/
def Host.logged (host : Host σ) : Host (σ × List Moment) :=
  host.watched fun call log => log ++ [call]

/-- A session with a state beside that of its host. -/
def Session.beside (s : Session σ) (w : ω) : Session (σ × ω) :=
  ⟨s.client, s.outside, w⟩

end Watching

/-! ## Events -/

/-- Whether the client keeps a message. -/
def Client.Keeps (client : Client) (message : Message) : Prop :=
  responseTopicStart.toList.isPrefixOf message.topic.toList ∧
    (client.state = .requesting ∨ client.state = .response) ∧ message.size ≤ responseMax

instance (client : Client) (message : Message) : Decidable (client.Keeps message) :=
  inferInstanceAs (Decidable (_ ∧ _))

/-- The moments of an event. -/
def Client.eventMoments (client : Client) (event : Event) : List Moment :=
  match event with
  | .publish message =>
    if client.Keeps message then [.deliver event, .keep message] else [.deliver event]
  | .suback _ | .other _ => [.deliver event]

theorem Client.eventMoments_of_keeps {client : Client} {message : Message}
    (h : client.Keeps message) :
    client.eventMoments (.publish message) = [.deliver (.publish message), .keep message] :=
  if_pos h

theorem Client.eventMoments_of_not_keeps {client : Client} {message : Message}
    (h : ¬client.Keeps message) :
    client.eventMoments (.publish message) = [.deliver (.publish message)] :=
  if_neg h

/-- The moments of a batch of events. -/
def Client.batchMoments (client : Client) : List Event → List Moment
  | [] => []
  | event :: events =>
    client.eventMoments event ++ (client.handleEvent event).batchMoments events

/-- An event is delivered, and the message that it brings may be kept. -/
theorem Client.eventMoments_cases (client : Client) (event : Event) :
    client.eventMoments event = [.deliver event] ∨ ∃ message, event = .publish message ∧
      client.eventMoments event = [.deliver event, .keep message] := by
  cases event with
  | publish message =>
    by_cases h : client.Keeps message
    · exact .inr ⟨message, rfl, eventMoments_of_keeps h⟩
    · exact .inl (eventMoments_of_not_keeps h)
  | suback | other => exact .inl rfl

/-- The events of a batch are delivered, and messages that they bring may be kept. -/
theorem Client.of_mem_batchMoments {client : Client} {events : List Event} {m : Moment}
    (h : m ∈ client.batchMoments events) : (∃ event ∈ events, m = .deliver event) ∨
      ∃ message, .publish message ∈ events ∧ m = .keep message := by
  induction events generalizing client with
  | nil => cases h
  | cons event events ih =>
    rcases List.mem_append.mp h with hfirst | hrest
    · rcases client.eventMoments_cases event with heq | ⟨message, rfl, heq⟩
      · rw [heq] at hfirst
        exact .inl ⟨event, List.mem_cons_self, List.mem_singleton.mp hfirst⟩
      · rw [heq] at hfirst
        rcases List.mem_cons.mp hfirst with hm | hm
        · exact .inl ⟨.publish message, List.mem_cons_self, hm⟩
        · exact .inr ⟨message, List.mem_cons_self, List.mem_singleton.mp hm⟩
    · rcases ih hrest with ⟨event', hmem, hm⟩ | ⟨message, hmem, hm⟩
      · exact .inl ⟨event', List.mem_cons_of_mem event hmem, hm⟩
      · exact .inr ⟨message, List.mem_cons_of_mem event hmem, hm⟩

/-- The moments of what a call has received. -/
def Client.receivedMoments (client : Client) : Moment → List Moment
  | .processLoop _ (.ok events) => client.batchMoments events
  | _ => []

/-! ## Requests -/

/-- The topic of the next request. -/
def Client.requestTopic (client : Client) : String :=
  match client.response with
  | none => registerTopic
  | some response => queryTopic response.operationId

theorem Client.writeTopic_eq (client : Client) :
    client.writeTopic = writeText (utf8 client.requestTopic) := by
  rw [writeTopic, requestTopic]
  cases client.response with
  | none => exact writeRegisterTopic_eq
  | some response => exact writeQueryTopic_eq response.operationId

variable {σ : Type}

/-! ## Turns -/

namespace Session

/-- The moment of reading the response that has been kept. -/
def readMoments (s : Session σ) : List Moment :=
  match s.client.state with
  | .response =>
    match s.client.message with
    | some message => [.read message message.readResponse]
    | none => []
  | _ => []

/-- The moments of the action of the current step: the calls that the host gets, and the reading of a
response. -/
def actMoments (s : Session σ) (host : Host σ) : List Moment :=
  ((s.beside []).act host.logged).outside.2 ++ s.readMoments

/-- The moments of sending and receiving: the call that the host gets, and what comes of the events
that it has received. -/
def processMoments (s : Session σ) (host : Host σ) (wait : Nat) : List Moment :=
  let made := ((s.beside []).process host.logged wait).outside.2
  made ++ made.flatMap s.client.receivedMoments

/-- The moments of one turn. -/
def turnMoments (s : Session σ) (host : Host σ) (wait : Nat) : List Moment :=
  s.actMoments host ++
    if (s.act host).client.state = .complete then [] else (s.act host).processMoments host wait

/-- The moments of the turns that are taken. -/
def runMoments (s : Session σ) (host : Host σ) (remaining : Nat) (limit : Nat := processLoopTimeout)
    (hlimit : 0 < limit := by exact DeviceTrust.Provisioning.processLoopTimeout_pos) : List Moment :=
  if s.client.state = .complete then []
  else
    s.turnMoments host (min remaining limit) ++
      if remaining ≤ limit then []
      else (s.tick host (min remaining limit)).runMoments host (remaining - limit) limit hlimit
termination_by remaining
decreasing_by omega

/-- The moments of a registration. -/
def registerMoments (s : Session σ) (host : Host σ) (timeout : Nat)
    (limit : Nat := processLoopTimeout)
    (hlimit : 0 < limit := by exact DeviceTrust.Provisioning.processLoopTimeout_pos) : List Moment :=
  s.start.runMoments host timeout limit hlimit

end Session

/-- What holds of the moments of every action and of sending and receiving, and of moments one after
the other, holds of those of a registration. -/
theorem Session.registerMoments_induction {host : Host σ} {P : List Moment → Prop} (hnil : P [])
    (happend : ∀ {past now}, P past → P now → P (past ++ now))
    (hact : ∀ s : Session σ, P (s.actMoments host))
    (hprocess : ∀ (s : Session σ) (wait : Nat), P (s.processMoments host wait)) (s : Session σ)
    (timeout limit : Nat) (hlimit : 0 < limit) :
    P (s.registerMoments host timeout limit hlimit) := by
  have hturn (s : Session σ) (wait : Nat) : P (s.turnMoments host wait) := by
    rw [turnMoments]
    refine happend (hact s) ?_
    split
    next => exact hnil
    next => exact hprocess _ wait
  rw [registerMoments]
  generalize s.start = s
  fun_induction runMoments s host timeout limit hlimit with
  | case1 => exact hnil
  | case2 s remaining hstate ih =>
    refine happend (hturn s _) ?_
    split
    next => exact hnil
    next hle => exact ih hle

/-! ## Runs -/

/-- What can be done to a session: the operations of a client that can change it, and any change
outside between two of them. A registration has its time in the unit of its longest wait. -/
inductive Operation (σ : Type) where
  | register (timeout : Nat) (limit : Nat := processLoopTimeout)
      (hlimit : 0 < limit := by exact DeviceTrust.Provisioning.processLoopTimeout_pos)
  | setSymmetricKey (encoded : Bytes) (hmac : HmacFunction Id)
  | setRegistrationPayload (payload : Bytes)
  | deinit
  | outside (change : σ → σ)

/-- Whether an operation advances the registration. -/
def Operation.isRegister {σ : Type} : Operation σ → Bool
  | .register .. => true
  | _ => false

namespace Session

/-- The session after an operation. -/
def apply (s : Session σ) (host : Host σ) : Operation σ → Session σ
  | .register timeout limit hlimit => (s.register host timeout limit hlimit).2
  | .setSymmetricKey encoded hmac => { s with client := (s.client.setSymmetricKey encoded hmac).2 }
  | .setRegistrationPayload payload =>
    { s with client := (s.client.setRegistrationPayload payload).2 }
  | .deinit => { s with client := s.client.deinit }
  | .outside change => { s with outside := change s.outside }

/-- The session after a sequence of operations. -/
def applyAll (s : Session σ) (host : Host σ) (operations : List (Operation σ)) : Session σ :=
  operations.foldl (fun s operation => s.apply host operation) s

/-- The moments of an operation. -/
def moments (s : Session σ) (host : Host σ) : Operation σ → List Moment
  | .register timeout limit hlimit => s.registerMoments host timeout limit hlimit
  | .deinit => [.drop]
  | .setSymmetricKey _ _ | .setRegistrationPayload _ | .outside _ => []

/-- The moments of a sequence of operations. -/
def momentsAlong (s : Session σ) (host : Host σ) : List (Operation σ) → List Moment
  | [] => []
  | operation :: operations =>
    s.moments host operation ++ (s.apply host operation).momentsAlong host operations

end Session

/-- The same operation with a state beside that of the host. -/
def Operation.beside {ω : Type} : Operation σ → Operation (σ × ω)
  | .register timeout limit hlimit => .register timeout limit hlimit
  | .setSymmetricKey encoded hmac => .setSymmetricKey encoded hmac
  | .setRegistrationPayload payload => .setRegistrationPayload payload
  | .deinit => .deinit
  | .outside change => .outside fun s => (change s.1, s.2)

/-- The calls that the host gets in a sequence of operations, with the results that it gives, in order.
-/
def Session.callLog (s : Session σ) (host : Host σ) (operations : List (Operation σ)) : List Moment :=
  ((s.beside []).applyAll host.logged (operations.map Operation.beside)).outside.2

/-- A session of a client that has just been created. -/
def Session.IsNew (s : Session σ) : Prop :=
  ∃ endpoint idScope registrationId userAgent buffer,
    Client.new endpoint idScope registrationId userAgent buffer = .ok s.client

/-- The operations on a client from its creation, what has happened so far, and the session reached.
-/
inductive Run (host : Host σ) : List (Operation σ) → List Moment → Session σ → Prop where
  | new {endpoint idScope registrationId userAgent : String} {buffer : Bytes} {client : Client}
      (h : Client.new endpoint idScope registrationId userAgent buffer = .ok client) (outside : σ) :
      Run host [] [] ⟨client, outside⟩
  | next {operations : List (Operation σ)} {past : List Moment} {s : Session σ}
      (h : Run host operations past s) (operation : Operation σ) :
      Run host (operations ++ [operation]) (past ++ s.moments host operation)
        (s.apply host operation)

/-- A run goes on with any operations. -/
theorem Run.along {host : Host σ} {operations : List (Operation σ)} {past : List Moment}
    {s : Session σ} (h : Run host operations past s) (later : List (Operation σ)) :
    Run host (operations ++ later) (past ++ s.momentsAlong host later) (s.applyAll host later) := by
  induction later generalizing operations past s with
  | nil => exact (List.append_nil operations).symm ▸ (List.append_nil past).symm ▸ h
  | cons operation later ih =>
    rw [List.append_cons, Session.momentsAlong, ← List.append_assoc]
    exact ih (h.next operation)

/-- Any operations on a client that has just been created are a run. -/
theorem Session.IsNew.run {s : Session σ} (h : s.IsNew) (host : Host σ)
    (operations : List (Operation σ)) :
    Run host operations (s.momentsAlong host operations) (s.applyAll host operations) := by
  obtain ⟨_, _, _, _, _, hnew⟩ := h
  exact (Run.new hnew s.outside).along operations

/-! ## Scripts -/

/-- What a session receives, call by call. -/
abbrev Script := List (Except TransportError (List Event))

/-- A host that accepts every call, receives what its script says and has a clock that stands still.
-/
def Host.scripted : Host Script where
  connect _ script := (.ok (), script)
  subscribe _ _ script := (.ok 1, script)
  publish _ _ _ script := (.ok (), script)
  processLoop _ script := (script.headD (.ok []), script.tail)
  now script := (0, script)

/-- A new client, with a script. -/
def Session.scripted (script : Script) : Session Script where
  client := {
    endpoint := "global", idScope := "scope", registrationId := "device", userAgent := ""
    buffer := List.replicate minimumBufferSize 0
    key := none
    payload := none
    state := .init
    lastResult := .pending
    message := none
    response := none
    retryDeadline := 0 }
  outside := script

theorem Session.new_scripted (script : Script) :
    Client.new "global" "scope" "device" "" (List.replicate minimumBufferSize 0) =
      .ok (Session.scripted script).client := by
  have hsize : ¬(List.replicate minimumBufferSize (0 : UInt8)).length < minimumBufferSize := by
    rw [List.length_replicate]
    exact Nat.lt_irrefl _
  rw [Client.new, if_neg (by decide), if_neg hsize]
  rfl

theorem Session.isNew_scripted (script : Script) : (Session.scripted script).IsNew :=
  ⟨_, _, _, _, _, Session.new_scripted script⟩

theorem Run.ofScript (host : Host Script) (script : Script) :
    Run host [] [] (.scripted script) :=
  .new (Session.new_scripted script) script

theorem Run.scripted (script : Script) : Run .scripted [] [] (.scripted script) :=
  .ofScript .scripted script

end DeviceTrust.Provisioning
