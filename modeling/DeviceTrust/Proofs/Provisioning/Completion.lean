import DeviceTrust.Proofs.Provisioning.Consistency

/-!
# Completion is final

A client that has completed its workflow stays as it is, but for its key. Whatever its caller does,
and whatever becomes of its host, it makes no call any more and gives the answers that it has given.

A workflow can complete in the middle of a batch of events, by a response that is too large. The
events behind it are of no effect.

Results:
* `Client.handleEvents_of_deaf`: the states in which no event is taken into account.
* `Session.apply_of_started`, `Session.apply_of_complete`: what an operation does to a client that
  has nothing to read, and to one that has completed.
* `Session.process_of_overflows`: the batch that completes the workflow.
* `Run.completion_final`: whatever follows a completion.
-/

namespace DeviceTrust.Provisioning

/-! ## Events without effect -/

/-- The steps in which events are waited for. -/
def WorkflowState.Listens (state : WorkflowState) : Prop :=
  state = .subscribing ∨ state = .requesting ∨ state = .response

instance (state : WorkflowState) : Decidable state.Listens :=
  inferInstanceAs (Decidable (_ ∨ _))

namespace Client

variable {c d : Client}

theorem handleEvent_of_deaf (h : ¬c.state.Listens) (event : Event) : c.handleEvent event = c := by
  obtain ⟨hsubscribing, hrequesting, hresponse⟩ :
      c.state ≠ .subscribing ∧ c.state ≠ .requesting ∧ c.state ≠ .response := by
    simpa [WorkflowState.Listens] using h
  cases event with
  | other packetType => rfl
  | suback packetId => exact if_neg hsubscribing
  | publish message =>
    rw [handleEvent, receive]
    split
    next => rfl
    next => exact if_pos ⟨hrequesting, hresponse⟩

theorem handleEvents_of_deaf (h : ¬c.state.Listens) (events : List Event) :
    c.handleEvents events = c := by
  induction events with
  | nil => rfl
  | cons event events ih =>
    show (c.handleEvent event).handleEvents events = c
    rw [handleEvent_of_deaf h, ih]

/-- The message is a response that is waited for, but too large. -/
structure Overflows (c : Client) (message : Message) : Prop where
  topic : "$dps/registrations/res/".toList <+: message.topic.toList
  state : c.state = .requesting ∨ c.state = .response
  size_lt : 640 < message.topic.utf8ByteSize + message.payload.length

theorem receive_of_overflows {message : Message} (h : c.Overflows message) :
    c.receive message = { c with message := none }.settle (.failed .outOfMemory) := by
  have htopic : responseTopicStart.toList.isPrefixOf message.topic.toList = true :=
    List.isPrefixOf_iff_prefix.mpr h.topic
  have hstate : ¬(c.state ≠ .requesting ∧ c.state ≠ .response) := by
    rcases h.state with hstate | hstate <;> simp [hstate]
  have hsize : responseMax < message.size := h.size_lt
  rw [receive, if_neg (not_not.mpr htopic), if_neg hstate, if_pos hsize]

/-- What follows a response that is too large is of no effect. -/
theorem handleEvents_of_overflows {message : Message} {before : List Event}
    (h : (c.handleEvents before).Overflows message) (after : List Event) :
    c.handleEvents (before ++ .publish message :: after) =
      c.handleEvents (before ++ [.publish message]) ∧
    (c.handleEvents (before ++ [.publish message])).state = .complete := by
  have hlast : c.handleEvents (before ++ [.publish message]) =
      { c.handleEvents before with message := none }.settle (.failed .outOfMemory) := by
    rw [handleEvents_append]
    exact receive_of_overflows h
  have hcomplete : (c.handleEvents (before ++ [.publish message])).state = .complete := by
    rw [hlast]
    exact WorkflowState.next_failed _ _
  refine ⟨?_, hcomplete⟩
  rw [List.append_cons, handleEvents_append, handleEvents_of_deaf]
  rw [hcomplete]
  decide

theorem deinit_of_message_eq_none (h : c.message = none) : c.deinit = c := by
  show { c with message := none } = c
  rw [← h]

/-! ## Answers -/

/-- The clients give the same answers to their callers. What they copy into buffers is the same too;
it depends on the sizes of the buffers, but not on what these hold. -/
structure AnswersAs (c d : Client) : Prop where
  state : c.state = d.state
  outcome : c.outcome = d.outcome
  response : c.response = d.response
  extendedCode : c.getExtendedCode = d.getExtendedCode
  deviceAndHub : ∀ {hostname deviceId hostname' deviceId' : Bytes},
    hostname.length = hostname'.length → deviceId.length = deviceId'.length →
    (c.getDeviceAndHub hostname deviceId).1 = (d.getDeviceAndHub hostname' deviceId').1 ∧
    ∀ m n, (c.getDeviceAndHub hostname deviceId).1 = .ok (m, n) →
      (c.getDeviceAndHub hostname deviceId).2.1.take m =
        (d.getDeviceAndHub hostname' deviceId').2.1.take m ∧
      (c.getDeviceAndHub hostname deviceId).2.2.take n =
        (d.getDeviceAndHub hostname' deviceId').2.2.take n

theorem getDeviceAndHub_congr {hostname deviceId hostname' deviceId' : Bytes}
    (hassigned : c.assignedState = d.assignedState)
    (hhostname : hostname.length = hostname'.length)
    (hdeviceId : deviceId.length = deviceId'.length) :
    (c.getDeviceAndHub hostname deviceId).1 = (d.getDeviceAndHub hostname' deviceId').1 ∧
    ∀ m n, (c.getDeviceAndHub hostname deviceId).1 = .ok (m, n) →
      (c.getDeviceAndHub hostname deviceId).2.1.take m =
        (d.getDeviceAndHub hostname' deviceId').2.1.take m ∧
      (c.getDeviceAndHub hostname deviceId).2.2.take n =
        (d.getDeviceAndHub hostname' deviceId').2.2.take n := by
  unfold getDeviceAndHub
  rw [hassigned, hhostname, hdeviceId]
  cases d.assignedState with
  | error failure => exact ⟨rfl, fun m n h => by cases h⟩
  | ok state =>
    simp only
    split
    next => exact ⟨rfl, fun m n h => by cases h⟩
    next hroom =>
      refine ⟨rfl, fun m n h => ?_⟩
      obtain ⟨rfl, rfl⟩ := Prod.mk.inj (Except.ok.inj h)
      have hhub : (utf8 state.assignedHub).length ≤ hostname'.length := by omega
      have hdevice : (utf8 state.deviceId).length ≤ deviceId'.length := by omega
      rw [Bytes.take_fill (hhostname ▸ hhub), Bytes.take_fill hhub,
        Bytes.take_fill (hdeviceId ▸ hdevice), Bytes.take_fill hdevice]
      exact ⟨rfl, rfl⟩

theorem answersAs_of_eq (hstate : c.state = d.state) (hresult : c.lastResult = d.lastResult)
    (hresponse : c.response = d.response) : c.AnswersAs d := by
  have hassigned : c.assignedState = d.assignedState := by
    rw [assignedState, assignedState, hstate, hresult, hresponse]
  refine ⟨hstate, ?_, hresponse, ?_, getDeviceAndHub_congr hassigned⟩
  · rw [Client.outcome, Client.outcome, hstate, hresult]
  · rw [getExtendedCode, getExtendedCode, hstate, hresponse]

end Client

/-! ## After a completion -/

section Sessions

variable {σ : Type} {s t : Session σ} {later : List Moment}

/-- What is done to a session from now on. Each operation has a host of its own, which may behave in
any way. -/
inductive Session.Continues (s : Session σ) : List Moment → Session σ → Prop where
  | refl : s.Continues [] s
  | next {later : List Moment} {t : Session σ} (h : s.Continues later t) (host : Host σ)
      (operation : Operation σ) :
      s.Continues (later ++ t.moments host operation) (t.apply host operation)

namespace Session

theorem start_of_complete (h : s.client.state = .complete) : s.start = s :=
  if_neg (by simp [h])

/-- A registration of a client that has completed gives its outcome and does nothing. -/
theorem register_of_complete (h : s.client.state = .complete) (host : Host σ) (timeout limit : Nat)
    (hlimit : 0 < limit) : s.register host timeout limit hlimit = (s.client.outcome, s) ∧
      s.registerMoments host timeout limit hlimit = [] := by
  obtain ⟨hrun, hmoments⟩ := run_of_complete h host timeout
  rw [register, registerMoments, start_of_complete h, hrun]
  exact ⟨rfl, hmoments⟩

/-- Only a registration changes more than the key of a client that has been started and has no
message to drop. -/
theorem apply_of_started (hstate : s.client.state ≠ .init) (hmessage : s.client.message = none)
    (host : Host σ) {operation : Operation σ} (hregister : operation.isRegister = false) :
    (s.apply host operation).client =
      { s.client with key := (s.apply host operation).client.key } := by
  cases operation with
  | register => cases hregister
  | setSymmetricKey encoded hmac =>
    simp only [apply, Client.setSymmetricKey]
    cases SymmetricKey.ofEncoded encoded hmac <;> rfl
  | setRegistrationPayload payload =>
    simp only [apply, Client.setRegistrationPayload, if_pos hstate]
    split <;> rfl
  | deinit => exact Client.deinit_of_message_eq_none hmessage
  | outside change => rfl

/-- An operation changes nothing but the key of a client that has completed, and makes no call. -/
theorem apply_of_complete (h : s.client.state = .complete) (hmessage : s.client.message = none)
    (host : Host σ) (operation : Operation σ) :
    (s.apply host operation).client =
      { s.client with key := (s.apply host operation).client.key } ∧
    calls (s.moments host operation) = [] := by
  cases operation with
  | register timeout limit hlimit =>
    obtain ⟨hregister, hmoments⟩ := register_of_complete h host timeout limit hlimit
    have hsame : s.apply host (.register timeout limit hlimit) = s := by rw [apply, hregister]
    rw [hsame, moments, hmoments]
    exact ⟨rfl, rfl⟩
  | setSymmetricKey | setRegistrationPayload | deinit | outside =>
    exact ⟨apply_of_started (by simp [h]) hmessage host rfl, rfl⟩

/-- Nothing but the key changes from a completion on. -/
theorem Continues.client_eq (hlater : s.Continues later t) (h : s.client.state = .complete)
    (hmessage : s.client.message = none) :
    t.client = { s.client with key := t.client.key } ∧ calls later = [] := by
  induction hlater with
  | refl => exact ⟨rfl, rfl⟩
  | @next later t _ host operation ih =>
    obtain ⟨hclient, hcalls⟩ := ih
    have hstate : t.client.state = .complete := by
      rw [hclient]
      exact h
    have hdropped : t.client.message = none := by
      rw [hclient]
      exact hmessage
    obtain ⟨hclient', hcalls'⟩ := apply_of_complete hstate hdropped host operation
    constructor
    · rw [hclient', hclient]
    · rw [calls_append, hcalls, hcalls']
      rfl

/-- The batch in which a response is too large completes the workflow, and what follows this
response is of no effect. -/
theorem process_of_overflows {host : Host σ} {wait : Nat} {before after : List Event}
    {message : Message}
    (hloop : (host.processLoop wait s.outside).1 = .ok (before ++ .publish message :: after))
    (h : (s.client.handleEvents before).Overflows message) :
    (s.process host wait).client = s.client.handleEvents (before ++ [.publish message]) ∧
      (s.process host wait).client.state = .complete := by
  obtain ⟨hevents, hcomplete⟩ := Client.handleEvents_of_overflows h after
  have hclient : (s.process host wait).client =
      s.client.handleEvents (before ++ [.publish message]) := by
    rcases hrun : host.processLoop wait s.outside with ⟨result, outside⟩
    rw [hrun] at hloop
    obtain rfl : result = _ := hloop
    rw [process, hrun]
    exact hevents
  exact ⟨hclient, hclient ▸ hcomplete⟩

end Session

variable {host : Host σ} {operations : List (Operation σ)} {past : List Moment}

/-- Whatever is done after a workflow has completed, with whatever hosts: nothing of the client but
its key changes, so it has completed still and gives all its answers as before; every registration
gives the outcome at once and leaves the session as it is; and no call is made. If a workflow is
completed by a response that is too large, the events behind it in its batch are of no effect. -/
theorem Run.completion_final (h : Run host operations past s) (hstate : s.client.state = .complete)
    (hlater : s.Continues later t) :
    t.client.state = .complete ∧ t.client = { s.client with key := t.client.key } ∧
    t.client.AnswersAs s.client ∧
    (∀ host timeout limit hlimit,
      t.register host timeout limit hlimit = (s.client.outcome, t)) ∧
    calls later = [] ∧
    ∀ (u : Session σ) (host : Host σ) wait before message after,
      (host.processLoop wait u.outside).1 = .ok (before ++ .publish message :: after) →
      (u.client.handleEvents before).Overflows message →
      (u.process host wait).client = u.client.handleEvents (before ++ [.publish message]) ∧
        (u.process host wait).client.state = .complete := by
  have hmessage : s.client.message = none :=
    h.consistent_and_heeded.1.message_eq_none (by simp [hstate])
  obtain ⟨hclient, hcalls⟩ := hlater.client_eq hstate hmessage
  have hanswers : t.client.AnswersAs s.client := by
    rw [hclient]
    exact Client.answersAs_of_eq rfl rfl rfl
  have hcomplete : t.client.state = .complete := hanswers.state.trans hstate
  refine ⟨hcomplete, hclient, hanswers, fun host timeout limit hlimit => ?_, hcalls, ?_⟩
  · rw [(Session.register_of_complete hcomplete host timeout limit hlimit).1, hanswers.outcome]
  · intro u host wait before message after hloop hoverflows
    exact Session.process_of_overflows hloop hoverflows

/-- A response that is too large, with an assignment behind it in the same batch: the workflow has
failed, also after its caller has tried again. -/
theorem completion_final_overflow : ∃ past s later t, Run .scripted [.register 1500] past s ∧
    s.client.state = .complete ∧ s.Continues later t ∧
    t.register .scripted 500 = (.error .outOfMemory, t) ∧ calls later = [] := by
  let large : Message := {
    topic := "$dps/registrations/res/202/?$rid=1"
    payload := List.replicate 640 0 }
  let assigned : Message := {
    topic := "$dps/registrations/res/200/?$rid=1"
    payload := utf8 "\x7b\"operationId\":\"4\",\"status\":\"assigned\"\x7d" }
  let script : Script := [.ok [], .ok [.suback 1], .ok [.publish large, .publish assigned]]
  let s : Session Script := Session.apply (.scripted script) .scripted (.register 1500)
  have hrun : Run .scripted [.register 1500] _ s := (Run.scripted script).next (.register 1500)
  obtain ⟨hstate, hresult⟩ : s.client.state = .complete ∧
      s.client.lastResult = .failed .outOfMemory := by
    decide +kernel
  have hlater := (Session.Continues.refl (s := s)).next .scripted .deinit |>.next .scripted
    (.register 1000)
  obtain ⟨-, -, -, hregister, hcalls, -⟩ := hrun.completion_final hstate hlater
  have houtcome : s.client.outcome = .error .outOfMemory := by
    rw [Client.outcome, if_neg (not_not.mpr hstate), hresult]
  exact ⟨_, s, _, _, hrun, hstate, hlater, houtcome ▸ hregister .scripted 500 _ _, hcalls⟩

end Sessions

end DeviceTrust.Provisioning
