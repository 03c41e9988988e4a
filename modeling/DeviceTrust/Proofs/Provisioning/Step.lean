import DeviceTrust.Proofs.Provisioning.Request
import DeviceTrust.Proofs.Provisioning.Watching

/-!
# What a client can do

`Client.Step` says once what can happen to a client at a time and what it becomes, whatever its host
answers. Every operation is a sequence of such steps with the moments that the operation has, so
what is kept by the steps holds of every run.

Results:
* `Session.act_steps`, `Session.process_steps`: the two halves of a turn.
* `Session.register_steps`: a registration.
* `Run.hasPast`: a client that a run has reached has come there by steps from its creation.
-/

namespace DeviceTrust.Provisioning

/-! ## Steps -/

@[simp] theorem Client.settle_state (c : Client) (result : ActionResult) :
    (c.settle result).state = c.state.next result := rfl

@[simp] theorem Client.settle_lastResult (c : Client) (result : ActionResult) :
    (c.settle result).lastResult = result := rfl

@[simp] theorem Client.settle_response (c : Client) (result : ActionResult) :
    (c.settle result).response = c.response := rfl

@[simp] theorem Client.settle_message (c : Client) (result : ActionResult) :
    (c.settle result).message = c.message := rfl

/-- A failure completes the workflow, wherever it stands. -/
@[simp] theorem WorkflowState.next_failed (state : WorkflowState) (failure : Failure) :
    state.next (.failed failure) = .complete := by
  cases state <;> rfl

/-- A response that leaves the operation pending is waited for. -/
theorem RegistrationResponse.result_of_pending {response : RegistrationResponse}
    (h : response.operationStatus.isPending = true) : response.result = .pending := by
  rw [result]
  cases hstatus : response.operationStatus with
  | unassigned | assigning => rfl
  | assigned | failed | disabled =>
    rw [hstatus] at h
    cases h

/-- Any other response completes the workflow. -/
theorem RegistrationResponse.next_result_of_not_pending {response : RegistrationResponse}
    (h : response.operationStatus.isPending = false) :
    WorkflowState.response.next response.result = .complete := by
  rw [result]
  cases hstatus : response.operationStatus with
  | assigned | failed | disabled => rfl
  | unassigned | assigning =>
    rw [hstatus] at h
    cases h

/-- The failures of building credentials. -/
def credentialFailures : List Failure :=
  [.outOfMemory, .tokenGenerationFailed, .failed]

/-- What can happen to a client at a time. -/
inductive Client.Step : Client → List Moment → Client → Prop where
  | start {c : Client} (h : c.state = .init) : Step c [] (c.settle .success)
  | setKey (c : Client) (key : SymmetricKey Id) : Step c [] { c with key := some key }
  | setPayload {c : Client} (h : c.state = .init) (payload : Bytes) :
      Step c [] { c with payload := some payload }
  | deinit (c : Client) : Step c [.drop] c.deinit
  | connect {c : Client} (h : c.state = .connect) (buffer : Bytes) (info : ConnectInfo)
      (result : Except TransportError Unit) (hbuffer : buffer.length = c.buffer.length) :
      Step c [.connect info result]
        ({ c with buffer := buffer }.settle (callOutcome .connectFailed result))
  | connectFailed {c : Client} (h : c.state = .connect) (buffer : Bytes) {failure : Failure}
      (hfailure : failure ∈ credentialFailures) (hbuffer : buffer.length = c.buffer.length) :
      Step c [] ({ c with buffer := buffer }.settle (.failed failure))
  | subscribe {c : Client} (h : c.state = .subscribe) (result : Except TransportError UInt16) :
      Step c [.subscribe responseFilter .atMostOnce result]
        (c.settle (callOutcome .subscribeFailed result))
  | publish {c : Client} (h : c.state = .request) (buffer : Bytes) (topic : String)
      (payload : Bytes) (result : Except TransportError Unit)
      (hbuffer : buffer.length = c.buffer.length)
      (hrequest : minimumBufferSize ≤ c.buffer.length → c.request? = some (topic, payload)) :
      Step c [.publish topic payload .atMostOnce result]
        ({ c with buffer := buffer }.settle (callOutcome .publishFailed result))
  | publishFailed {c : Client} (h : c.state = .request) (buffer : Bytes)
      (hbuffer : buffer.length = c.buffer.length) :
      Step c [] ({ c with buffer := buffer }.settle (.failed .failed))
  | readNothing {c : Client} (h : c.state = .response) (hm : c.message = none) :
      Step c [] (c.settle (.failed .invalidResponse))
  | readFailed {c : Client} (h : c.state = .response) {message : Message} {failure : Failure}
      (hm : c.message = some message) (hr : message.readResponse = .error failure) :
      Step c [.read message (.error failure)]
        ({ c with message := none }.settle (.failed failure))
  | readOther {c : Client} (h : c.state = .response) {message : Message}
      (hm : c.message = some message) (hr : message.readResponse = .ok none) :
      Step c [.read message (.ok none)] c
  | read {c : Client} (h : c.state = .response) {message : Message}
      {response : RegistrationResponse} (hm : c.message = some message)
      (hr : message.readResponse = .ok (some response)) (deadline : UInt64) :
      Step c [.read message (.ok (some response))]
        ({ c with message := none, response := some response, retryDeadline := deadline }.settle
          response.result)
  | poll {c : Client} (h : c.state = .waiting) :
      Step c [] ({ c with retryDeadline := 0 }.settle .success)
  | process {c : Client} (h : c.state ≠ .complete) (timeout : Nat) (events : List Event) :
      Step c [.processLoop timeout (.ok events)] c
  | processFailed {c : Client} (h : c.state ≠ .complete) (timeout : Nat) (e : TransportError) :
      Step c [.processLoop timeout (.error e)] (c.settle (.failed .processLoopFailed))
  | deliver (c : Client) (event : Event) : Step c (c.eventMoments event) (c.handleEvent event)

/-- A sequence of steps. -/
inductive Client.Steps : Client → List Moment → Client → Prop where
  | refl (c : Client) : Steps c [] c
  | tail {c c' c'' : Client} {past now : List Moment} (h : Steps c past c') (hs : Step c' now c'') :
      Steps c (past ++ now) c''

/-- The clients that come about from a new one, with what has happened so far. -/
inductive Client.HasPast : List Moment → Client → Prop where
  | new {endpoint idScope registrationId userAgent : String} {buffer : Bytes} {c : Client}
      (h : Client.new endpoint idScope registrationId userAgent buffer = .ok c) : HasPast [] c
  | next {past now : List Moment} {c c' : Client} (h : HasPast past c) (hs : Step c now c') :
      HasPast (past ++ now) c'

namespace Client

variable {c c' c'' : Client} {past now : List Moment}

theorem eq_of_new {endpoint idScope registrationId userAgent : String} {buffer : Bytes}
    (h : Client.new endpoint idScope registrationId userAgent buffer = .ok c) :
    c = {
      endpoint, idScope, registrationId, userAgent, buffer
      key := none
      payload := none
      state := .init
      lastResult := .pending
      message := none
      response := none
      retryDeadline := 0 } := by
  unfold Client.new at h
  split at h
  next => cases h
  next =>
    split at h
    next => cases h
    next => exact (Except.ok.inj h).symm

theorem size_of_new {endpoint idScope registrationId userAgent : String} {buffer : Bytes}
    (h : Client.new endpoint idScope registrationId userAgent buffer = .ok c) :
    minimumBufferSize ≤ c.buffer.length := by
  have hc := eq_of_new h
  unfold Client.new at h
  split at h
  next => cases h
  next =>
    split at h
    next => cases h
    next hsize =>
      rw [hc]
      exact Nat.le_of_not_lt hsize

theorem new_cases {endpoint idScope registrationId userAgent : String} {buffer : Bytes}
    (h : Client.new endpoint idScope registrationId userAgent buffer = .ok c) :
    c.state = .init ∧ c.message = none := by
  rw [eq_of_new h]
  exact ⟨rfl, rfl⟩

theorem Step.steps (h : Step c now c') : Steps c now c' :=
  (Steps.refl c).tail h

theorem Steps.trans (h : Steps c past c') (h' : Steps c' now c'') : Steps c (past ++ now) c'' := by
  induction h' with
  | refl => rwa [List.append_nil]
  | tail _ hs ih => exact List.append_assoc _ _ _ ▸ ih.tail hs

theorem HasPast.steps (h : HasPast past c) (hs : Steps c now c') : HasPast (past ++ now) c' := by
  induction hs with
  | refl => rwa [List.append_nil]
  | tail _ hs ih => exact List.append_assoc _ _ _ ▸ ih.next hs

/-- What a response does: nothing, or it is too large and completes the workflow, or it is kept. -/
theorem receive_cases (c : Client) (message : Message) :
    ¬c.Keeps message ∧ c.receive message = c ∨
    ¬c.Keeps message ∧ (c.state = .requesting ∨ c.state = .response) ∧
      c.receive message = { c with message := none }.settle (.failed .outOfMemory) ∨
    c.Keeps message ∧ ∃ lastResult, c.receive message =
      { c with message := some message, state := .response, lastResult := lastResult } := by
  unfold Client.receive Keeps
  by_cases htopic : ¬(responseTopicStart.toList.isPrefixOf message.topic.toList = true)
  · exact .inl ⟨fun h => htopic h.1, if_pos htopic⟩
  rw [if_neg htopic]
  by_cases hstate : c.state ≠ .requesting ∧ c.state ≠ .response
  · exact .inl ⟨fun h => h.2.1.elim hstate.1 hstate.2, if_pos hstate⟩
  rw [if_neg hstate]
  have hstate : c.state = .requesting ∨ c.state = .response :=
    (not_and_or.mp hstate).imp not_ne_iff.mp not_ne_iff.mp
  by_cases hsize : responseMax < message.size
  · exact .inr (.inl ⟨fun h => Nat.not_le.mpr hsize h.2.2, hstate, if_pos hsize⟩)
  rw [if_neg hsize]
  refine .inr (.inr ⟨⟨not_not.mp htopic, hstate, Nat.le_of_not_lt hsize⟩, ?_⟩)
  rcases hstate with hstate | hstate
  · exact ⟨.success, by simp [hstate, settle, WorkflowState.next]⟩
  · exact ⟨c.lastResult, by simp [hstate]⟩

theorem handleEvent_message_cases {message : Message} (event : Event)
    (hm : (c.handleEvent event).message = some message) :
    c.message = some message ∨ .keep message ∈ c.eventMoments event := by
  cases event with
  | other packetType => exact .inl hm
  | suback packetId =>
    have hsame : (c.handleEvent (.suback packetId)).message = c.message := by
      rw [handleEvent]
      split <;> rfl
    exact .inl (hsame ▸ hm)
  | publish message' =>
    rw [handleEvent] at hm
    rcases c.receive_cases message' with ⟨-, heq⟩ | ⟨-, -, heq⟩ | ⟨hkeeps, lastResult, heq⟩
    · exact .inl (heq ▸ hm)
    · rw [heq] at hm
      cases hm
    · rw [heq] at hm
      obtain rfl := Option.some.inj hm
      rw [eventMoments_of_keeps hkeeps]
      exact .inr (List.mem_cons_of_mem _ List.mem_cons_self)

/-- A message that is kept after a step was kept before it or is kept in it. -/
theorem Step.message_cases {message : Message} (hs : Step c now c')
    (hm : c'.message = some message) : c.message = some message ∨ .keep message ∈ now := by
  cases hs with
  | deliver event => exact handleEvent_message_cases event hm
  | deinit | readFailed | read => cases hm
  | start | setKey | setPayload | connect | connectFailed | subscribe | publish | publishFailed
    | readNothing | readOther | poll | process | processFailed => exact .inl hm

theorem Steps.message_cases {message : Message} (hs : Steps c now c')
    (hm : c'.message = some message) : c.message = some message ∨ .keep message ∈ now := by
  induction hs with
  | refl => exact .inl hm
  | tail _ hs ih =>
    rcases hs.message_cases hm with hm | hmem
    · exact (ih hm).imp_right (List.mem_append_left _)
    · exact .inr (List.mem_append_right _ hmem)

theorem handleEvent_message_eq_none (event : Event)
    (h : c.state ≠ .response → c.state ≠ .complete → c.message = none)
    (hresponse : (c.handleEvent event).state ≠ .response)
    (hcomplete : (c.handleEvent event).state ≠ .complete) :
    (c.handleEvent event).message = none := by
  cases event with
  | other packetType => exact h hresponse hcomplete
  | suback packetId =>
    by_cases hbefore : c.state = .subscribing
    · rw [handleEvent, if_pos hbefore]
      exact h (by simp [hbefore]) (by simp [hbefore])
    · rw [handleEvent, if_neg hbefore] at hresponse hcomplete ⊢
      exact h hresponse hcomplete
  | publish message =>
    rw [handleEvent] at hresponse hcomplete ⊢
    rcases c.receive_cases message with ⟨-, heq⟩ | ⟨-, -, heq⟩ | ⟨-, lastResult, heq⟩
    · rw [heq] at hresponse hcomplete ⊢
      exact h hresponse hcomplete
    · rw [heq]
      rfl
    · rw [heq] at hresponse
      exact absurd rfl hresponse

theorem Step.message_eq_none (hs : Step c now c')
    (h : c.state ≠ .response → c.state ≠ .complete → c.message = none)
    (hresponse : c'.state ≠ .response) (hcomplete : c'.state ≠ .complete) : c'.message = none := by
  cases hs with
  | setKey | setPayload | process | readOther => exact h hresponse hcomplete
  | deinit | readFailed | read => rfl
  | deliver event => exact handleEvent_message_eq_none event h hresponse hcomplete
  | start hstate | connect hstate | subscribe hstate | publish hstate | poll hstate =>
    exact h (by simp [hstate]) (by simp [hstate])
  | connectFailed | publishFailed | readNothing | processFailed =>
    exact absurd (WorkflowState.next_failed _ _) hcomplete

/-- A message is kept only while it is waited to be read, or when the workflow has completed. -/
theorem HasPast.message_eq_none (h : c.HasPast past) (hresponse : c.state ≠ .response)
    (hcomplete : c.state ≠ .complete) : c.message = none := by
  induction h with
  | new h => exact (new_cases h).2
  | next _ hs ih => exact hs.message_eq_none ih hresponse hcomplete

theorem batch_steps (c : Client) (events : List Event) :
    Steps c (c.batchMoments events) (c.handleEvents events) := by
  induction events generalizing c with
  | nil => exact .refl c
  | cons event events ih => exact (Step.deliver c event).steps.trans (ih (c.handleEvent event))

end Client

/-! ## Building requests -/

variable {σ : Type}

/-- The action changes nothing of the client but what its buffer holds. It gives a result with the
property `P`, or fails in one of the ways `failures`. -/
def Builds {α : Type} (action : Action σ α) (failures : List Failure) (P : α → Prop) : Prop :=
  ∀ s : Session σ, (∃ buffer, buffer.length = s.client.buffer.length ∧
      (action.run.run s).2.client = { s.client with buffer := buffer }) ∧
    match (action.run.run s).1 with
    | .ok a => P a
    | .error failure => failure ∈ failures

section Builds

variable {α β : Type} {action : Action σ α} {next : α → Action σ β} {failures : List Failure}
  {P : α → Prop} {Q : β → Prop}

theorem Builds.bind (h : Builds action failures P)
    (hnext : ∀ a, P a → Builds (next a) failures Q) :
    Builds (action >>= next) failures Q := by
  intro s
  obtain ⟨⟨buffer, hlength, hclient⟩, hresult⟩ := h s
  rw [run_bind]
  rcases hrun : action.run.run s with ⟨result, s'⟩
  rw [hrun] at hclient hresult
  cases result with
  | error failure => exact ⟨⟨buffer, hlength, hclient⟩, hresult⟩
  | ok a =>
    obtain ⟨⟨buffer', hlength', hclient'⟩, hresult'⟩ := hnext a hresult s'
    rw [show s'.client = _ from hclient] at hlength' hclient'
    exact ⟨⟨buffer', hlength'.trans hlength, hclient'⟩, hresult'⟩

theorem builds_pure {a : α} (h : P a) : Builds (pure a : Action σ α) failures P :=
  fun s => ⟨⟨s.client.buffer, rfl, rfl⟩, h⟩

theorem builds_throw {failure : Failure} (h : failure ∈ failures) :
    Builds (throw failure : Action σ α) failures P :=
  fun s => ⟨⟨s.client.buffer, rfl, rfl⟩, h⟩

theorem builds_ofExcept {step : Except Failure α}
    (h : ∀ failure, step = .error failure → failure ∈ failures) :
    Builds (ofExcept step : Action σ α) failures fun _ => True := by
  cases step with
  | error failure => exact builds_throw (h failure rfl)
  | ok a => exact builds_pure trivial

theorem builds_client : Builds (Action.client : Action σ Client) failures fun _ => True :=
  fun s => ⟨⟨s.client.buffer, rfl, rfl⟩, trivial⟩

theorem builds_call (operation : σ → α × σ) :
    Builds (Action.call operation) failures fun _ => True :=
  fun s => ⟨⟨s.client.buffer, rfl, rfl⟩, trivial⟩

theorem builds_within (region : Region) {operation : Bytes → α × Bytes}
    (h : ∀ content, P (operation content).1) :
    Builds (Action.within region operation : Action σ α) failures P :=
  fun _ => ⟨⟨_, Region.length_write _ _ _, rfl⟩, h _⟩

theorem builds_readBytes (region : Region) (length : Nat) :
    Builds (Action.readBytes region length : Action σ Bytes) failures fun _ => True :=
  builds_client.bind fun _ _ => builds_pure trivial

theorem builds_readText (region : Region) (length : Nat) (h : .failed ∈ failures) :
    Builds (Action.readText region length : Action σ String) failures fun _ => True := by
  refine (builds_readBytes region length).bind fun bytes _ => ?_
  split
  next => exact builds_pure trivial
  next => exact builds_throw h

end Builds

theorem writeText_error {text buffer : Bytes} {failure : Failure}
    (h : (writeText text buffer).1 = .error failure) : failure = .outOfMemory := by
  simp only [writeText] at h
  split at h
  next => cases h
  next => exact (Except.error.inj h).symm

theorem mapError_failed {α ε : Type} {step : Except ε α} {failure : Failure}
    (h : step.mapError (fun _ => Failure.failed) = .error failure) : failure = .failed := by
  cases step with
  | error e => exact (Except.error.inj h).symm
  | ok a => cases h

theorem Host.buildPassword_builds (host : Host σ) :
    Builds host.buildPassword credentialFailures fun _ => True := by
  refine builds_client.bind fun client _ => ?_
  split
  next => exact builds_pure trivial
  next key _ =>
    refine (builds_call host.now).bind fun time _ => ?_
    refine (builds_within passwordRegion (P := fun _ => True) fun _ => trivial).bind
      fun written _ => ?_
    split
    next => exact builds_pure trivial
    next => exact builds_throw (by simp [credentialFailures])

theorem Host.prepareConnect_builds (host : Host σ) :
    Builds host.prepareConnect credentialFailures fun _ => True := by
  have hfailed : Failure.failed ∈ credentialFailures := by simp [credentialFailures]
  refine builds_client.bind fun client _ => ?_
  refine (builds_within userNameRegion (P := fun written => ∀ failure, written = .error failure →
    failure ∈ credentialFailures) fun content failure h => ?_).bind fun written hwritten => ?_
  · rw [writeUserName_eq] at h
    rw [writeText_error h]
    simp [credentialFailures]
  refine (builds_ofExcept hwritten).bind fun userNameLength _ => ?_
  refine host.buildPassword_builds.bind fun passwordLength _ => ?_
  refine (builds_readText userNameRegion userNameLength hfailed).bind fun username _ => ?_
  split
  next => exact builds_pure trivial
  next length =>
    simp only [map_eq_pure_bind, bind_assoc, pure_bind]
    exact (builds_readText passwordRegion length hfailed).bind fun password _ => builds_pure trivial

theorem Host.prepareRequest_builds :
    Builds (prepareRequest : Action σ (String × Bytes)) [.failed] fun _ => True := by
  have hwritten {ε : Type} (written : Except ε Nat) :
      Builds (ofExcept (written.mapError fun _ => Failure.failed) : Action σ Nat) [.failed]
        fun _ => True :=
    builds_ofExcept fun failure h => List.mem_singleton.mpr (mapError_failed h)
  refine builds_client.bind fun client _ => ?_
  refine (builds_within topicRegion (P := fun _ => True) fun _ => trivial).bind fun written _ => ?_
  refine (hwritten written).bind fun topicLength _ => ?_
  refine (builds_within payloadRegion (P := fun _ => True) fun _ => trivial).bind
    fun written _ => ?_
  refine (hwritten written).bind fun payloadLength _ => ?_
  refine (builds_readText topicRegion topicLength (by simp)).bind fun topic _ => ?_
  exact (builds_readBytes payloadRegion payloadLength).bind fun payload _ => builds_pure trivial

/-! ## Turns are sequences of steps -/

namespace Session

theorem readMessage_steps (s : Session σ) (host : Host σ) (h : s.client.state = .response) :
    s.client.Steps (match s.client.message with
      | some message => [.read message message.readResponse]
      | none => []) (s.readMessage host).client := by
  unfold readMessage
  cases hm : s.client.message with
  | none => exact (Client.Step.readNothing h hm).steps
  | some message =>
    cases hr : message.readResponse with
    | error failure =>
      simp only [hr]
      exact (Client.Step.readFailed h hm hr).steps
    | ok found =>
      cases found with
      | none =>
        simp only [hr]
        exact (Client.Step.readOther h hm hr).steps
      | some response =>
        simp only [hr, accept]
        split
        next => exact (Client.Step.read h hm hr _).steps
        next => exact (Client.Step.read h hm hr s.client.retryDeadline).steps

theorem act_steps (s : Session σ) (host : Host σ) :
    s.client.Steps (s.actMoments host) (s.act host).client := by
  rw [actMoments_eq]
  unfold act actCall? readMoments
  cases hstate : s.client.state with
  | init | subscribing | requesting | complete => exact .refl _
  | connect =>
    simp only [perform_connect]
    obtain ⟨⟨buffer, hlength, hclient⟩, hresult⟩ := host.prepareConnect_builds s
    rcases hrun : host.prepareConnect.run.run s with ⟨failure | info, s'⟩
    · rw [hrun] at hclient hresult
      show s.client.Steps _ (s'.client.settle _)
      rw [show s'.client = _ from hclient]
      exact (Client.Step.connectFailed hstate buffer hresult hlength).steps
    · rw [hrun] at hclient
      show s.client.Steps [.connect info _] (s'.client.settle _)
      rw [show s'.client = _ from hclient]
      exact (Client.Step.connect hstate buffer info _ hlength).steps
  | subscribe =>
    simp only [perform_subscribe]
    exact (Client.Step.subscribe hstate _).steps
  | request =>
    simp only [perform_request]
    obtain ⟨⟨buffer, hlength, hclient⟩, hresult⟩ := Host.prepareRequest_builds s
    rcases hrun : Host.prepareRequest.run.run s with ⟨failure | ⟨topic, payload⟩, s'⟩
    · rw [hrun] at hclient hresult
      obtain rfl := List.mem_singleton.mp hresult
      show s.client.Steps _ (s'.client.settle _)
      rw [show s'.client = _ from hclient]
      exact (Client.Step.publishFailed hstate buffer hlength).steps
    · rw [hrun] at hclient
      show s.client.Steps [.publish topic payload .atMostOnce _] (s'.client.settle _)
      rw [show s'.client = _ from hclient]
      refine (Client.Step.publish hstate buffer topic payload _ hlength fun hsize => ?_).steps
      exact Host.request?_eq_some hsize (by rw [hrun])
  | response => exact readMessage_steps s host hstate
  | waiting =>
    simp only [checkDeadline]
    split
    next => exact (Client.Step.poll hstate).steps
    next => exact .refl _

theorem process_steps (s : Session σ) (host : Host σ) (wait : Nat)
    (h : s.client.state ≠ .complete) :
    s.client.Steps (s.processMoments host wait) (s.process host wait).client := by
  rw [processMoments_eq]
  unfold process
  rcases host.processLoop wait s.outside with ⟨e | events, outside⟩
  · exact (Client.Step.processFailed h wait e).steps
  · exact (Client.Step.process h wait events).steps.trans (Client.batch_steps s.client events)

theorem tick_steps (s : Session σ) (host : Host σ) (wait : Nat) :
    s.client.Steps (s.turnMoments host wait) (s.tick host wait).client := by
  unfold tick turnMoments
  split
  next h =>
    rw [List.append_nil]
    simp only [h, ite_true]
    exact s.act_steps host
  next h =>
    simp only [h, ite_false]
    exact (s.act_steps host).trans ((s.act host).process_steps host wait h)

theorem run_steps (s : Session σ) (host : Host σ) (remaining limit : Nat) (hlimit : 0 < limit) :
    s.client.Steps (s.runMoments host remaining limit hlimit)
      (s.run host remaining limit hlimit).client := by
  fun_induction run s host remaining limit hlimit with
  | case1 s remaining h =>
    rw [runMoments, if_pos h]
    exact .refl _
  | case2 s remaining h s' hle =>
    rw [runMoments, if_neg h, if_pos hle, List.append_nil]
    exact s.tick_steps host _
  | case3 s remaining h s' hle ih =>
    rw [runMoments, if_neg h, if_neg hle]
    exact (s.tick_steps host _).trans ih

theorem start_steps (s : Session σ) : s.client.Steps [] s.start.client := by
  unfold start
  split
  next h => exact (Client.Step.start h).steps
  next => exact .refl _

theorem register_steps (s : Session σ) (host : Host σ) (timeout limit : Nat) (hlimit : 0 < limit) :
    s.client.Steps (s.registerMoments host timeout limit hlimit)
      (s.register host timeout limit hlimit).2.client :=
  s.start_steps.trans (s.start.run_steps host timeout limit hlimit)

theorem apply_steps (s : Session σ) (host : Host σ) (operation : Operation σ) :
    s.client.Steps (s.moments host operation) (s.apply host operation).client := by
  cases operation with
  | register timeout limit hlimit => exact s.register_steps host timeout limit hlimit
  | setSymmetricKey encoded hmac =>
    simp only [apply, moments, Client.setSymmetricKey]
    split
    next => exact .refl _
    next key _ => exact (Client.Step.setKey s.client key).steps
  | setRegistrationPayload payload =>
    simp only [apply, moments, Client.setRegistrationPayload]
    split
    next => exact .refl _
    next =>
      split
      next => exact .refl _
      next h => exact (Client.Step.setPayload (not_ne_iff.mp h) payload).steps
  | deinit => exact (Client.Step.deinit s.client).steps
  | outside change => exact .refl _

end Session

/-- A client that a run has reached has come there by steps from its creation. -/
theorem Run.hasPast {host : Host σ} {operations : List (Operation σ)} {past : List Moment}
    {s : Session σ} (h : Run host operations past s) : s.client.HasPast past := by
  induction h with
  | new h outside => exact .new h
  | next h operation ih => exact ih.steps (Session.apply_steps _ host operation)

end DeviceTrust.Provisioning
