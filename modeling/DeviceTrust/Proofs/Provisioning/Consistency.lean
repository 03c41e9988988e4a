import DeviceTrust.Proofs.Provisioning.CallOrder
import Mathlib.Data.List.Basic

/-!
# What states a client can be in

The step of the workflow, the last outcome, the message that has not been read and the last response
go together: `Client.Consistent` says how. Every operation keeps it, so some of what a client is
prepared for never happens.

A step alone does not keep it. A session that breaks down while a message is kept would leave the
message behind; but the action of a turn reads the message before anything is sent or received.

Results:
* `Client.Consistent.step`: what one step keeps.
* `Session.tick_consistent`, `Session.run_consistent`: what a turn and a registration keep.
* `Run.consistency`: every client that a run has reached, and what never happens in a run.
-/

namespace DeviceTrust.Provisioning

/-! ## Consistent clients -/

/-- A message that may be kept: it is on the topic of a response and not too large. -/
structure Message.IsKeepable (message : Message) : Prop where
  topic : "$dps/registrations/res/".toList <+: message.topic.toList
  size_le : message.topic.utf8ByteSize + message.payload.length ≤ 640

/-- What a step of the workflow goes with: before the first request there is no response, a response
goes on until the workflow completes, it is there while the workflow waits, and a success is that of
an assignment. -/
def WorkflowState.Admits :
    WorkflowState → Option RegistrationResponse → ActionResult → Prop
  | .init, last, _ | .connect, last, _ | .subscribe, last, _ | .subscribing, last, _ => last = none
  | .request, last, _ | .requesting, last, _ | .response, last, _ =>
    ∀ r ∈ last, r.operationStatus.isPending = true
  | .waiting, last, _ => ∃ r, last = some r ∧ r.operationStatus.isPending = true
  | .complete, last, result => result ≠ .pending ∧
    (result = .success → ∃ r, last = some r ∧ r.operationStatus = .assigned)

/-- What the state of a client tells about what it has received. -/
structure Client.Consistent (c : Client) : Prop where
  message : ∀ message ∈ c.message, c.state = .response ∧ message.IsKeepable
  response : c.state.Admits c.response c.lastResult

/-- A success that does not complete the workflow goes on with what there is. -/
theorem WorkflowState.Admits.next {state : WorkflowState} {last : Option RegistrationResponse}
    {result : ActionResult} (h : state.Admits last result)
    (hnext : state.next .success ≠ .complete) : (state.next .success).Admits last .success := by
  cases state with
  | init | connect | subscribe | request | requesting => exact h
  | subscribing =>
    intro r hr
    rw [show last = none from h] at hr
    cases hr
  | waiting =>
    obtain ⟨r, rfl, hpending⟩ := h
    intro r' hr'
    obtain rfl := Option.some.inj hr'
    exact hpending
  | response | complete => exact absurd rfl hnext

variable {c c' : Client} {past now : List Moment}

theorem Message.IsKeepable.of_keeps {message : Message} (h : c.Keeps message) :
    message.IsKeepable :=
  ⟨List.isPrefixOf_iff_prefix.mp h.1, h.2.2⟩

/-- A message that may be kept is a response, or cannot be read as one. -/
theorem Message.IsKeepable.readResponse_ne_none {message : Message} (h : message.IsKeepable) :
    message.readResponse ≠ .ok none := by
  have htopic : ∃ rest, responseTopicStart.toList.isPrefixOf? message.topic.toList = some rest := by
    obtain ⟨rest, hrest⟩ := h.topic
    exact ⟨rest, List.isPrefixOf?_eq_some_iff_append_eq.mpr hrest⟩
  obtain ⟨rest, hrest⟩ := htopic
  have hread : readResponseTopic message.topic ≠ .ok none := by
    simp only [readResponseTopic, hrest]
    cases readTopicRest? rest <;> simp
  unfold readResponse
  split
  next => simp
  next =>
    split
    next => simp
    next heq => exact absurd heq hread
    next => split <;> simp

namespace Client.Consistent

theorem message_eq_none (h : c.Consistent) (hstate : c.state ≠ .response) : c.message = none := by
  cases hm : c.message with
  | none => rfl
  | some message => exact absurd (h.message message hm).1 hstate

theorem of_message_eq_none (hmessage : c.message = none)
    (hresponse : c.state.Admits c.response c.lastResult) : c.Consistent := by
  refine ⟨fun message hm => ?_, hresponse⟩
  rw [hmessage] at hm
  cases hm

theorem given_up (hmessage : c.message = none) (failure : Failure) :
    (c.settle (.failed failure)).Consistent := by
  refine of_message_eq_none hmessage ?_
  rw [settle_state, WorkflowState.next_failed]
  exact ⟨by simp, by simp⟩

theorem going_on (hmessage : c.message = none) (hresponse : c.state.Admits c.response c.lastResult)
    (hnext : c.state.next .success ≠ .complete) : (c.settle .success).Consistent :=
  of_message_eq_none hmessage (hresponse.next hnext)

theorem called {α : Type} (hmessage : c.message = none)
    (hresponse : c.state.Admits c.response c.lastResult)
    (hnext : c.state.next .success ≠ .complete) (failure : Failure)
    (result : Except TransportError α) : (c.settle (callOutcome failure result)).Consistent := by
  cases result with
  | ok a => exact going_on hmessage hresponse hnext
  | error e => exact given_up hmessage failure

theorem deliver (h : c.Consistent) (event : Event) : (c.handleEvent event).Consistent := by
  have hresponse := h.response
  cases event with
  | other packetType => exact h
  | suback packetId =>
    show (if c.state = .subscribing then c.settle .success else c).Consistent
    split
    next hstate =>
      have hnext : c.state.next .success ≠ .complete := by simp [hstate, WorkflowState.next]
      exact going_on (h.message_eq_none (by simp [hstate])) hresponse hnext
    next => exact h
  | publish message =>
    show (c.receive message).Consistent
    rcases c.receive_cases message with ⟨-, heq⟩ | ⟨-, -, heq⟩ | ⟨hkeeps, lastResult, heq⟩
    · rwa [heq]
    · rw [heq]
      exact given_up rfl .outOfMemory
    · rw [heq]
      refine ⟨fun message' hm => ?_, ?_⟩
      · obtain rfl := Option.some.inj hm
        exact ⟨rfl, .of_keeps hkeeps⟩
      · rcases hkeeps.2.1 with hstate | hstate <;> rwa [hstate] at hresponse

/-- A response that has been read goes on, or completes the workflow. -/
theorem read (hstate : c.state = .response) (hmessage : c.message = none)
    {response : RegistrationResponse} (hread : c.response = some response) :
    (c.settle response.result).Consistent := by
  refine of_message_eq_none hmessage ?_
  rw [settle_state, settle_response, settle_lastResult, hstate, hread, RegistrationResponse.result]
  cases hstatus : response.operationStatus with
  | unassigned | assigning => exact ⟨response, rfl, by rw [hstatus]; rfl⟩
  | assigned => exact ⟨by simp, fun _ => ⟨response, rfl, hstatus⟩⟩
  | failed | disabled => exact ⟨by simp, by simp⟩

theorem read_notMem_eventMoments (c : Client) (event : Event) (message : Message)
    (result : Except Failure (Option RegistrationResponse)) :
    .read message result ∉ c.eventMoments event := by
  rcases c.eventMoments_cases event with heq | ⟨kept, -, heq⟩ <;> simp [heq]

/-- A step keeps a client consistent, unless the session breaks down while a message is kept; and no
message is read that is not a response. -/
theorem step (h : c.Consistent) (hs : c.Step now c')
    (hnow : c.state = .response → ∀ timeout e, now ≠ [.processLoop timeout (.error e)]) :
    c'.Consistent ∧ ∀ message, .read message (.ok none) ∉ now := by
  have hresponse := h.response
  have hmessage : c.state ≠ .response → c.message = none := h.message_eq_none
  cases hs with
  | start hstate =>
    have hnext : c.state.next .success ≠ .complete := by simp [hstate, WorkflowState.next]
    exact ⟨going_on (hmessage (by simp [hstate])) hresponse hnext, by simp⟩
  | setKey key => exact ⟨⟨h.message, hresponse⟩, by simp⟩
  | setPayload hstate payload => exact ⟨⟨h.message, hresponse⟩, by simp⟩
  | deinit => exact ⟨of_message_eq_none rfl hresponse, by simp⟩
  | connect hstate buffer info result =>
    have hnext : c.state.next .success ≠ .complete := by simp [hstate, WorkflowState.next]
    refine ⟨called (c := { c with buffer := buffer }) ?_ hresponse hnext _ _, by simp⟩
    exact hmessage (by simp [hstate])
  | connectFailed hstate buffer hfailure =>
    refine ⟨given_up (c := { c with buffer := buffer }) ?_ _, by simp⟩
    exact hmessage (by simp [hstate])
  | subscribe hstate result =>
    have hnext : c.state.next .success ≠ .complete := by simp [hstate, WorkflowState.next]
    exact ⟨called (hmessage (by simp [hstate])) hresponse hnext _ _, by simp⟩
  | publish hstate buffer topic payload result =>
    have hnext : c.state.next .success ≠ .complete := by simp [hstate, WorkflowState.next]
    refine ⟨called (c := { c with buffer := buffer }) ?_ hresponse hnext _ _, by simp⟩
    exact hmessage (by simp [hstate])
  | publishFailed hstate buffer =>
    refine ⟨given_up (c := { c with buffer := buffer }) ?_ _, by simp⟩
    exact hmessage (by simp [hstate])
  | readNothing hstate hm => exact ⟨given_up hm _, by simp⟩
  | readFailed hstate hm hr =>
    exact ⟨given_up (c := { c with message := none }) rfl _, by simp⟩
  | readOther hstate hm hr => exact absurd hr (h.message _ hm).2.readResponse_ne_none
  | @read hstate message response hm hr deadline =>
    let taken := { c with message := none, response := some response, retryDeadline := deadline }
    exact ⟨read (c := taken) hstate rfl rfl, by simp⟩
  | poll hstate =>
    have hnext : c.state.next .success ≠ .complete := by simp [hstate, WorkflowState.next]
    refine ⟨going_on (c := { c with retryDeadline := 0 }) ?_ hresponse hnext, by simp⟩
    exact hmessage (by simp [hstate])
  | process hstate timeout events => exact ⟨h, by simp⟩
  | processFailed hstate timeout e =>
    have hstate : c.state ≠ .response := fun hstate => hnow hstate timeout e rfl
    exact ⟨given_up (hmessage hstate) _, by simp⟩
  | deliver event =>
    exact ⟨h.deliver event, fun message => read_notMem_eventMoments c event message _⟩

theorem steps (h : c.Consistent) (hs : c.Steps now c')
    (hnow : ∀ timeout e, .processLoop timeout (.error e) ∉ now) :
    c'.Consistent ∧ ∀ message, .read message (.ok none) ∉ now := by
  induction hs with
  | refl => exact ⟨h, by simp⟩
  | tail _ hs ih =>
    obtain ⟨hc, hread⟩ := ih fun timeout e hmem => hnow timeout e (List.mem_append_left _ hmem)
    obtain ⟨hc', hread'⟩ := hc.step hs fun _ timeout e heq =>
      hnow timeout e (List.mem_append_right _ (heq ▸ List.mem_singleton_self _))
    refine ⟨hc', fun message hmem => ?_⟩
    rcases List.mem_append.mp hmem with hmem | hmem
    · exact hread message hmem
    · exact hread' message hmem

end Client.Consistent

/-! ## Turns -/

/-- A response that has been read does not stay. -/
theorem WorkflowState.next_response_ne (result : ActionResult) :
    WorkflowState.response.next result ≠ .response := by
  cases result <;> simp [WorkflowState.next]

/-- Only an event brings the workflow to a response. -/
theorem Client.Step.state_ne_response (hs : c.Step now c') (hnow : ∀ event, .deliver event ∉ now)
    (h : c.state ≠ .response) : c'.state ≠ .response := by
  cases hs with
  | start hstate | poll hstate => simp [hstate, WorkflowState.next]
  | setKey | setPayload | deinit | process => exact h
  | connect hstate buffer info result =>
    cases result <;> simp [callOutcome, hstate, WorkflowState.next]
  | subscribe hstate result => cases result <;> simp [callOutcome, hstate, WorkflowState.next]
  | publish hstate buffer topic payload result =>
    cases result <;> simp [callOutcome, hstate, WorkflowState.next]
  | connectFailed | publishFailed | processFailed => simp
  | readNothing hstate | readFailed hstate | readOther hstate | read hstate => exact absurd hstate h
  | deliver event =>
    refine absurd ?_ (hnow event)
    rcases c.eventMoments_cases event with heq | ⟨message, -, heq⟩ <;> simp [heq]

theorem Client.Steps.state_ne_response (hs : c.Steps now c')
    (hnow : ∀ event, .deliver event ∉ now) (h : c.state ≠ .response) : c'.state ≠ .response := by
  induction hs with
  | refl => exact h
  | tail _ hs ih =>
    refine hs.state_ne_response (fun event hmem => hnow event (List.mem_append_right _ hmem)) ?_
    exact ih fun event hmem => hnow event (List.mem_append_left _ hmem)

section Turns

variable {σ : Type}

/-- What is kept of the moments of consistent clients: no message is read that is not a response. -/
def Heeded (moments : List Moment) : Prop :=
  ∀ message, .read message (.ok none) ∉ moments

theorem heeded_nil : Heeded [] :=
  fun _ => List.not_mem_nil

theorem Heeded.append (hpast : Heeded past) (hnow : Heeded now) : Heeded (past ++ now) := by
  intro message hmem
  rcases List.mem_append.mp hmem with hmem | hmem
  · exact hpast message hmem
  · exact hnow message hmem

namespace Session

variable {s : Session σ}

/-- The action of a turn reads the message that has been kept. -/
theorem act_state_ne_response (h : s.client.Consistent) (host : Host σ) :
    (s.act host).client.state ≠ .response := by
  by_cases hstate : s.client.state = .response
  · rw [act, hstate]
    simp only [readMessage]
    cases hm : s.client.message with
    | none => simp [settle]
    | some message =>
      have hread := (h.message message hm).2.readResponse_ne_none
      cases hr : message.readResponse with
      | error failure => simp [hr, settle]
      | ok found =>
        cases found with
        | none => exact absurd hr hread
        | some response =>
          have hnext : s.client.state.next response.result ≠ .response :=
            hstate ▸ WorkflowState.next_response_ne _
          simp only [hr, accept]
          split
          next => exact hnext
          next => exact hnext
  · exact (s.act_steps host).state_ne_response (deliver_notMem_actMoments s host) hstate

theorem act_consistent (h : s.client.Consistent) (host : Host σ) :
    (s.act host).client.Consistent ∧ Heeded (s.actMoments host) := by
  refine h.steps (s.act_steps host) fun timeout e hmem => ?_
  have hcall : .processLoop timeout ∈ calls (s.actMoments host) :=
    List.mem_filterMap.mpr ⟨_, hmem, rfl⟩
  rw [calls_actMoments] at hcall
  exact (calls_actCall? s host).2 _ hcall timeout rfl

theorem processLoop_notMem_batchMoments (c : Client) (events : List Event) (timeout : Nat)
    (result : Except TransportError (List Event)) :
    .processLoop timeout result ∉ c.batchMoments events := by
  intro hmem
  have hcall : .processLoop timeout ∈ calls (c.batchMoments events) :=
    List.mem_filterMap.mpr ⟨_, hmem, rfl⟩
  rw [calls_batchMoments] at hcall
  cases hcall

theorem process_consistent (h : s.client.Consistent) (hstate : s.client.state ≠ .response)
    (hlast : s.client.state ≠ .complete) (host : Host σ) (wait : Nat) :
    (s.process host wait).client.Consistent ∧ Heeded (s.processMoments host wait) := by
  rw [processMoments_eq]
  unfold process
  rcases host.processLoop wait s.outside with ⟨e | events, outside⟩
  · exact h.step (.processFailed hlast wait e) fun hresponse => absurd hresponse hstate
  · refine h.steps ((Client.Step.process hlast wait events).steps.trans
      (Client.batch_steps s.client events)) fun timeout e hmem => ?_
    rcases List.mem_cons.mp hmem with hmem | hmem
    · cases hmem
    · exact processLoop_notMem_batchMoments s.client events timeout _ hmem

theorem tick_consistent (h : s.client.Consistent) (host : Host σ) (wait : Nat) :
    (s.tick host wait).client.Consistent ∧ Heeded (s.turnMoments host wait) := by
  obtain ⟨hact, hheeded⟩ := act_consistent h host
  unfold tick turnMoments
  split
  next hlast =>
    simp only [hlast, ite_true, List.append_nil]
    exact ⟨hact, hheeded⟩
  next hlast =>
    simp only [hlast, ite_false]
    obtain ⟨hprocess, hheeded'⟩ :=
      process_consistent hact (act_state_ne_response h host) hlast host wait
    exact ⟨hprocess, hheeded.append hheeded'⟩

theorem run_consistent (h : s.client.Consistent) (host : Host σ) (remaining limit : Nat)
    (hlimit : 0 < limit) : (s.run host remaining limit hlimit).client.Consistent ∧
      Heeded (s.runMoments host remaining limit hlimit) := by
  fun_induction run s host remaining limit hlimit with
  | case1 s remaining hlast =>
    rw [runMoments, if_pos hlast]
    exact ⟨h, heeded_nil⟩
  | case2 s remaining hlast s' hle =>
    rw [runMoments, if_neg hlast, if_pos hle, List.append_nil]
    exact tick_consistent h host _
  | case3 s remaining hlast s' hle ih =>
    rw [runMoments, if_neg hlast, if_neg hle]
    obtain ⟨htick, hheeded⟩ := tick_consistent h host (min remaining limit)
    obtain ⟨hrun, hheeded'⟩ := ih htick
    exact ⟨hrun, hheeded.append hheeded'⟩

theorem register_consistent (h : s.client.Consistent) (host : Host σ) (timeout limit : Nat)
    (hlimit : 0 < limit) : (s.register host timeout limit hlimit).2.client.Consistent ∧
      Heeded (s.registerMoments host timeout limit hlimit) :=
  run_consistent (h.steps s.start_steps (by simp)).1 host timeout limit hlimit

theorem apply_consistent (h : s.client.Consistent) (host : Host σ) (operation : Operation σ) :
    (s.apply host operation).client.Consistent ∧ Heeded (s.moments host operation) := by
  cases operation with
  | register timeout limit hlimit => exact register_consistent h host timeout limit hlimit
  | setSymmetricKey | setRegistrationPayload | deinit | outside =>
    exact h.steps (s.apply_steps host _) (by simp [moments])

end Session

end Turns

/-! ## Runs -/

section Runs

variable {σ : Type} {host : Host σ} {operations : List (Operation σ)} {s : Session σ}

theorem Client.consistent_of_new {endpoint idScope registrationId userAgent : String}
    {buffer : Bytes} (h : Client.new endpoint idScope registrationId userAgent buffer = .ok c) :
    c.Consistent := by
  rw [eq_of_new h]
  exact .of_message_eq_none rfl rfl

theorem Run.consistent_and_heeded (h : Run host operations past s) :
    s.client.Consistent ∧ Heeded past := by
  induction h with
  | new h outside => exact ⟨Client.consistent_of_new h, heeded_nil⟩
  | next h operation ih =>
    obtain ⟨hs, hpast⟩ := ih
    obtain ⟨hs', hnow⟩ := Session.apply_consistent hs host operation
    exact ⟨hs', hpast.append hnow⟩

theorem Client.handleEvent_message_isSome (event : Event)
    (h : c.state = .response → c.message.isSome = true)
    (hstate : (c.handleEvent event).state = .response) :
    (c.handleEvent event).message.isSome = true := by
  cases event with
  | other packetType => exact h hstate
  | suback packetId =>
    by_cases hsubscribing : c.state = .subscribing
    · simp [handleEvent, hsubscribing, WorkflowState.next] at hstate
    · rw [handleEvent, if_neg hsubscribing] at hstate ⊢
      exact h hstate
  | publish message =>
    rw [handleEvent] at hstate ⊢
    rcases c.receive_cases message with ⟨-, heq⟩ | ⟨-, -, heq⟩ | ⟨hkeeps, lastResult, heq⟩
    · rw [heq] at hstate ⊢
      exact h hstate
    · simp [heq] at hstate
    · rw [heq]
      rfl

/-- As long as the caller drops nothing, a message is there when a response is to be read. -/
theorem Client.Step.message_isSome (hs : c.Step now c') (hdrop : .drop ∉ now)
    (h : c.state = .response → c.message.isSome = true) (hstate : c'.state = .response) :
    c'.message.isSome = true := by
  cases hs with
  | setKey | process | readOther => exact h hstate
  | deinit => exact absurd (List.mem_singleton_self _) hdrop
  | deliver event => exact handleEvent_message_isSome event h hstate
  | setPayload => exact h hstate
  | connectFailed | publishFailed | readNothing | readFailed | processFailed => simp at hstate
  | start hbefore | poll hbefore => simp [hbefore, WorkflowState.next] at hstate
  | connect hbefore buffer info result =>
    cases result <;> simp [callOutcome, hbefore, WorkflowState.next] at hstate
  | subscribe hbefore result =>
    cases result <;> simp [callOutcome, hbefore, WorkflowState.next] at hstate
  | publish hbefore buffer topic payload result =>
    cases result <;> simp [callOutcome, hbefore, WorkflowState.next] at hstate
  | read hbefore =>
    rw [settle_state, hbefore] at hstate
    exact absurd hstate (WorkflowState.next_response_ne _)

theorem Client.HasPast.message_isSome (h : c.HasPast past) (hdrop : .drop ∉ past)
    (hstate : c.state = .response) : c.message.isSome = true := by
  induction h with
  | new h =>
    rw [eq_of_new h] at hstate
    cases hstate
  | next _ hs ih =>
    refine hs.message_isSome (fun hmem => hdrop (List.mem_append_right _ hmem)) ?_ hstate
    exact ih fun hmem => hdrop (List.mem_append_left _ hmem)

theorem Session.drop_notMem_registerMoments (s : Session σ) (host : Host σ) (timeout limit : Nat)
    (hlimit : 0 < limit) : .drop ∉ s.registerMoments host timeout limit hlimit := by
  refine registerMoments_induction (P := (Moment.drop ∉ ·)) List.not_mem_nil ?_ (fun s hmem => ?_)
    (fun s wait => ?_) s timeout limit hlimit
  · intro past now hpast hnow hmem
    exact (List.mem_append.mp hmem).elim hpast hnow
  · rcases of_mem_actMoments hmem with hcall | ⟨_, _, hread⟩
    · cases hcall
    · cases hread
  · rw [processMoments_eq]
    split
    next events _ =>
      refine List.not_mem_cons_of_ne_of_not_mem (by simp) fun hmem => ?_
      rcases Client.of_mem_batchMoments hmem with ⟨_, _, heq⟩ | ⟨_, _, heq⟩ <;> cases heq
    next => simp

theorem Run.drop_notMem (h : Run host operations past s) (hdeinit : .deinit ∉ operations) :
    .drop ∉ past := by
  induction h with
  | new => exact List.not_mem_nil
  | @next operations past s h operation ih =>
    rw [List.mem_append, not_or] at hdeinit ⊢
    refine ⟨ih hdeinit.1, ?_⟩
    cases operation with
    | register timeout limit hlimit =>
      exact s.drop_notMem_registerMoments host timeout limit hlimit
    | deinit => exact absurd (List.mem_singleton_self _) hdeinit.2
    | setSymmetricKey | setRegistrationPayload | outside => exact List.not_mem_nil

/-- Every client that a run has reached is consistent, and a message is there when a response is to
be read unless the caller has dropped one. So it never happens that a message is read which is no
response, that the workflow completes with a pending outcome, or that it completes with a success
and without a response. -/
theorem Run.consistency (h : Run host operations past s) :
    s.client.Consistent ∧
    (.deinit ∉ operations → s.client.state = .response → s.client.message.isSome = true) ∧
    (∀ timeout limit hlimit message,
      .read message (.ok none) ∉ past ++ s.registerMoments host timeout limit hlimit) ∧
    (∀ timeout limit hlimit,
      (s.register host timeout limit hlimit).2.client.state = .complete →
      (s.register host timeout limit hlimit).2.client.lastResult ≠ .pending) ∧
    (s.client.state = .complete → (∀ failure, s.client.lastResult ≠ .failed failure) →
      s.client.response ≠ none) := by
  have hconsistent := h.consistent_and_heeded.1
  have hregister (timeout limit : Nat) (hlimit : 0 < limit) :=
    (h.next (.register timeout limit hlimit)).consistent_and_heeded
  refine ⟨hconsistent, ?_, ?_, ?_, ?_⟩
  · intro hdeinit hstate
    exact h.hasPast.message_isSome (h.drop_notMem hdeinit) hstate
  · intro timeout limit hlimit
    exact (hregister timeout limit hlimit).2
  · intro timeout limit hlimit hstate
    have hresponse := (hregister timeout limit hlimit).1.response
    simp only [Session.apply, hstate] at hresponse
    exact hresponse.1
  · intro hstate hfailure
    have hresponse := hconsistent.response
    rw [hstate] at hresponse
    cases hresult : s.client.lastResult with
    | success =>
      obtain ⟨r, hr, -⟩ := hresponse.2 hresult
      simp [hr]
    | pending => exact absurd hresult hresponse.1
    | failed failure => exact absurd hresult (hfailure failure)

/-- A session whose last turn has brought a response: the client has kept it. -/
theorem consistency_response : ∃ past s, Run .scripted [.register 1500] past s ∧
    s.client.Consistent ∧ s.client.state = .response ∧ s.client.message.isSome = true := by
  let message : Message := {
    topic := "$dps/registrations/res/202/?$rid=1"
    payload := utf8 "\x7b\"operationId\":\"4\",\"status\":\"assigning\"\x7d" }
  let script : Script := [.ok [], .ok [.suback 1], .ok [.publish message]]
  have hrun := (Run.scripted script).next (.register 1500)
  obtain ⟨hconsistent, hmessage, -⟩ := hrun.consistency
  have hstate : (Session.apply (.scripted script) .scripted (.register 1500)).client.state =
      .response := by
    decide +kernel
  exact ⟨_, _, hrun, hconsistent, hstate, hmessage (by simp) hstate⟩

end Runs

end DeviceTrust.Provisioning
