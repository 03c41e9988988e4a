import DeviceTrust.Proofs.Provisioning.Step

/-!
# Final results

A registration that ends with an assignment, or with a rejection, tells what the response that the
client has kept last says, and that response is the one that the client goes on to show.

Results:
* `readResponse_eq_some_iff`: what a message that can be read says.
* `Client.HasPast.resultInvariant`: what the result of a client tells about its past.
* `Session.register_final`: a final response that has been kept is the result of the next
  registration.
* `Run.final_result`: both directions, for every run.
-/

namespace DeviceTrust.Provisioning

/-! ## Reading responses -/

/-- The message is a response: its topic is that of a response and its payload is one under this
topic. -/
def Message.Carries (message : Message) (response : RegistrationResponse) : Prop :=
  ∃ topic, readResponseTopic message.topic = .ok (some topic) ∧
    RegistrationResponse.read topic message.payload = .ok response

theorem readResponseTopic_empty : readResponseTopic "" = .ok none := rfl

theorem read_nil (topic : ResponseTopic) : ∃ e, RegistrationResponse.read topic [] = .error e :=
  ⟨_, rfl⟩

theorem readResponse_eq_some_iff {message : Message} {response : RegistrationResponse} :
    message.readResponse = .ok (some response) ↔ message.Carries response := by
  unfold Message.readResponse
  split
  next hempty =>
    constructor
    · intro h
      cases h
    · rintro ⟨topic, htopic, hread⟩
      rcases hempty with hempty | hempty
      · rw [String.isEmpty_iff.mp hempty, readResponseTopic_empty] at htopic
        cases htopic
      · obtain ⟨e, he⟩ := read_nil topic
        rw [List.isEmpty_iff.mp hempty, he] at hread
        cases hread
  next =>
    constructor
    · intro h
      split at h
      next => cases h
      next => cases h
      next topic htopic =>
        split at h
        next => cases h
        next hread =>
          obtain rfl := Option.some.inj (Except.ok.inj h)
          exact ⟨topic, htopic, hread⟩
    · rintro ⟨topic, htopic, hread⟩
      simp only [htopic, hread]

theorem readResponseTopic_error {topic : String} {failure : Failure}
    (h : readResponseTopic topic = .error failure) : failure = .failed := by
  unfold readResponseTopic at h
  split at h
  next => cases h
  next =>
    split at h
    next => cases h
    next => exact (Except.error.inj h).symm

theorem readResponse_error {message : Message} {failure : Failure}
    (h : message.readResponse = .error failure) :
    failure = .invalidResponse ∨ failure = .failed := by
  unfold Message.readResponse at h
  split at h
  next => exact .inl (Except.error.inj h).symm
  next =>
    split at h
    next failure' htopic => exact .inr (Except.error.inj h ▸ readResponseTopic_error htopic)
    next => cases h
    next =>
      split at h
      next => exact .inr (Except.error.inj h).symm
      next => cases h

/-! ## The invariant -/

variable {past now : List Moment} {c c' : Client}

theorem lastKept?_append (past now : List Moment) :
    lastKept? (past ++ now) = (lastKept? now).or (lastKept? past) := by
  rw [lastKept?, List.filterMap_append, List.getLast?_append, lastKept?, lastKept?]

/-- The client has come to what the response says that it has kept last. -/
def Told (past : List Moment) (c : Client) : Prop :=
  ∃ message response, lastKept? past = some message ∧ message.Carries response ∧
    c.response = some response ∧ response.result = c.lastResult

/-- The outcomes that a final response has. -/
def ActionResult.IsFinal (result : ActionResult) : Prop :=
  result = .success ∨ result = .failed .serverError

/-- What the result of a client tells about its past. -/
structure ResultInvariant (past : List Moment) (c : Client) : Prop where
  /-- The response that has not been read is the one that was kept last. -/
  kept : ∀ message, c.message = some message → lastKept? past = some message
  told : c.state = .complete → c.lastResult.IsFinal → Told past c

namespace ResultInvariant

/-- A step that leaves the result as it is. -/
theorem unchanged (h : ResultInvariant past c) (hnow : lastKept? now = none)
    (hmessage : ∀ message, c'.message = some message → c.message = some message)
    (hstate : c'.state = c.state) (hresult : c'.lastResult = c.lastResult)
    (hresponse : c'.response = c.response) : ResultInvariant (past ++ now) c' := by
  have hlast : lastKept? (past ++ now) = lastKept? past := by
    rw [lastKept?_append, hnow, Option.none_or]
  refine ⟨fun message hm => hlast.trans (h.kept message (hmessage message hm)), ?_⟩
  intro hcomplete hfinal
  rw [hstate] at hcomplete
  rw [hresult] at hfinal
  obtain ⟨message, response, hkept, hcarries, hread, heq⟩ := h.told hcomplete hfinal
  refine ⟨message, response, hlast.trans hkept, hcarries, hresponse.trans hread, ?_⟩
  rw [heq, hresult]

/-- A step that goes on, or that ends in another way than by a final response. -/
theorem undecided (h : ResultInvariant past c) (hnow : lastKept? now = none)
    (hmessage : ∀ message, c'.message = some message → c.message = some message)
    (hresult : c'.state = .complete → ¬c'.lastResult.IsFinal) :
    ResultInvariant (past ++ now) c' := by
  refine ⟨fun message hm => ?_, fun hcomplete hfinal => absurd hfinal (hresult hcomplete)⟩
  rw [lastKept?_append, hnow, Option.none_or]
  exact h.kept message (hmessage message hm)

/-- A success that goes on. -/
theorem going_on (h : ResultInvariant past c) (hnow : lastKept? now = none)
    (hmessage : ∀ message, c'.message = some message → c.message = some message)
    (hnext : c'.state.next .success ≠ .complete) :
    ResultInvariant (past ++ now) (c'.settle .success) :=
  h.undecided hnow hmessage fun hcomplete => absurd hcomplete hnext

/-- A failure of the client's own. -/
theorem given_up (h : ResultInvariant past c) (hnow : lastKept? now = none)
    (hmessage : ∀ message, c'.message = some message → c.message = some message)
    {failure : Failure} (hfailure : failure ≠ .serverError) :
    ResultInvariant (past ++ now) (c'.settle (.failed failure)) := by
  refine h.undecided hnow hmessage fun _ hfinal => ?_
  rcases hfinal with hfinal | hfinal
  · cases hfinal
  · exact hfailure (ActionResult.failed.inj hfinal)

/-- A call, which goes on if it succeeds. -/
theorem called {α : Type} (h : ResultInvariant past c) (hnow : lastKept? now = none)
    (hmessage : ∀ message, c'.message = some message → c.message = some message)
    (hnext : c'.state.next .success ≠ .complete) {failure : Failure}
    (hfailure : failure ≠ .serverError) (result : Except TransportError α) :
    ResultInvariant (past ++ now) (c'.settle (callOutcome failure result)) := by
  cases result with
  | ok a => exact h.going_on hnow hmessage hnext
  | error e => exact h.given_up hnow hmessage hfailure

theorem deliver (h : ResultInvariant past c) (event : Event) :
    ResultInvariant (past ++ c.eventMoments event) (c.handleEvent event) := by
  cases event with
  | other packetType => exact h.unchanged rfl (fun _ => id) rfl rfl rfl
  | suback packetId =>
    show ResultInvariant _ (if c.state = .subscribing then c.settle .success else c)
    split
    next hstate => exact h.going_on rfl (fun _ => id) (by simp [hstate, WorkflowState.next])
    next => exact h.unchanged rfl (fun _ => id) rfl rfl rfl
  | publish message =>
    show ResultInvariant _ (c.receive message)
    rcases c.receive_cases message with ⟨hkeeps, heq⟩ | ⟨hkeeps, -, heq⟩ | ⟨hkeeps, lastResult, heq⟩
    · rw [heq, Client.eventMoments_of_not_keeps hkeeps]
      exact h.unchanged rfl (fun _ => id) rfl rfl rfl
    · rw [heq, Client.eventMoments_of_not_keeps hkeeps]
      exact h.given_up rfl (by simp) (by decide)
    · rw [heq, Client.eventMoments_of_keeps hkeeps]
      refine ⟨fun message' hm => ?_, fun hcomplete => by cases hcomplete⟩
      rw [lastKept?_append, ← hm]
      rfl

theorem step (h : ResultInvariant past c) (hs : c.Step now c') :
    ResultInvariant (past ++ now) c' := by
  cases hs with
  | start hstate => exact h.going_on rfl (fun _ => id) (by simp [hstate, WorkflowState.next])
  | setKey key => exact h.unchanged rfl (fun _ => id) rfl rfl rfl
  | setPayload hstate payload => exact h.unchanged rfl (fun _ => id) rfl rfl rfl
  | deinit => exact h.unchanged rfl (fun _ hm => by cases hm) rfl rfl rfl
  | connect hstate buffer info result =>
    exact h.called rfl (by simp) (by simp [hstate, WorkflowState.next]) (by decide) result
  | connectFailed hstate buffer hfailure =>
    refine h.given_up rfl (by simp) ?_
    rintro rfl
    exact absurd hfailure (by decide)
  | subscribe hstate result =>
    exact h.called rfl (fun _ => id) (by simp [hstate, WorkflowState.next]) (by decide) result
  | publish hstate buffer topic payload result =>
    exact h.called rfl (by simp) (by simp [hstate, WorkflowState.next]) (by decide) result
  | publishFailed hstate buffer => exact h.given_up rfl (by simp) (by decide)
  | readNothing hstate hm => exact h.given_up rfl (fun _ => id) (by decide)
  | readFailed hstate hm hr =>
    refine h.given_up rfl (by simp) ?_
    rcases readResponse_error hr with rfl | rfl <;> decide
  | readOther hstate hm hr => exact h.unchanged rfl (fun _ => id) rfl rfl rfl
  | @read hstate message response hm hr deadline =>
    have hcarries := readResponse_eq_some_iff.mp hr
    refine ⟨by simp, fun _ _ => ⟨message, response, ?_, hcarries, rfl, rfl⟩⟩
    rw [lastKept?_append, h.kept message hm]
    rfl
  | poll hstate => exact h.going_on rfl (fun _ => id) (by simp [hstate, WorkflowState.next])
  | process hstate timeout events => exact h.unchanged rfl (fun _ => id) rfl rfl rfl
  | processFailed hstate timeout e => exact h.given_up rfl (fun _ => id) (by decide)
  | deliver event => exact h.deliver event

end ResultInvariant

theorem Client.HasPast.resultInvariant (h : c.HasPast past) : ResultInvariant past c := by
  induction h with
  | new h =>
    obtain ⟨hstate, hmessage⟩ := Client.new_cases h
    refine ⟨fun message hm => ?_, fun hcomplete => ?_⟩
    · rw [hmessage] at hm
      cases hm
    · rw [hstate] at hcomplete
      cases hcomplete
  | next _ hs ih => exact ih.step hs

/-! ## The last turn -/

namespace Client

/-- The client after it has read a response that does not go on. -/
def conclude (c : Client) (response : RegistrationResponse) : Client :=
  { c with message := none, response := some response }.settle response.result

/-- The client gives the hub and the device id of the state, to buffers that are large enough. -/
def Shows (c : Client) (state : RegistrationState) : Prop :=
  ∀ hostname deviceId : Bytes, (utf8 state.assignedHub).length ≤ hostname.length →
    (utf8 state.deviceId).length ≤ deviceId.length →
    c.getDeviceAndHub hostname deviceId =
      (.ok ((utf8 state.assignedHub).length, (utf8 state.deviceId).length),
        utf8 state.assignedHub ++ hostname.drop (utf8 state.assignedHub).length,
        utf8 state.deviceId ++ deviceId.drop (utf8 state.deviceId).length)

theorem conclude_state {response : RegistrationResponse} (c : Client) (hstate : c.state = .response)
    (hfinal : response.operationStatus.isPending = false) :
    (c.conclude response).state = .complete := by
  show c.state.next response.result = .complete
  rw [hstate]
  exact RegistrationResponse.next_result_of_not_pending hfinal

theorem shows_of_complete {c : Client} {response : RegistrationResponse}
    (hstate : c.state = .complete) (hresult : c.lastResult = .success)
    (hresponse : c.response = some response) :
    c.Shows response.state := by
  intro hostname deviceId hhub hdevice
  have hassigned : c.assignedState = .ok response.state := by
    rw [assignedState, if_neg (not_not.mpr hstate), hresult, hresponse]
  have hroom : ¬(hostname.length < (utf8 response.state.assignedHub).length ∨
      deviceId.length < (utf8 response.state.deviceId).length) := by
    omega
  simp only [getDeviceAndHub, hassigned, if_neg hroom, Bytes.fill, List.take_of_length_le hhub,
    List.take_of_length_le hdevice]

theorem getExtendedCode_of_complete {c : Client} {response : RegistrationResponse}
    (hstate : c.state = .complete) (hresponse : c.response = some response) :
    c.getExtendedCode = .ok response.state.extendedErrorCode := by
  rw [getExtendedCode, if_neg (not_not.mpr hstate), hresponse]
  rfl

theorem outcome_eq_assigned_iff {c : Client} :
    c.outcome = .ok .assigned ↔ c.state = .complete ∧ c.lastResult = .success := by
  unfold outcome
  split
  next hstate => simp [hstate]
  next hstate =>
    rw [not_not] at hstate
    cases c.lastResult <;> simp [hstate]

theorem outcome_eq_serverError_iff {c : Client} :
    c.outcome = .error .serverError ↔
      c.state = .complete ∧ c.lastResult = .failed .serverError := by
  unfold outcome
  split
  next hstate => simp [hstate]
  next hstate =>
    rw [not_not] at hstate
    cases c.lastResult <;> simp [hstate]

end Client

theorem RegistrationResponse.result_eq_success_iff {response : RegistrationResponse} :
    response.result = .success ↔ response.operationStatus = .assigned := by
  unfold result
  cases response.operationStatus <;> simp

theorem RegistrationResponse.result_eq_serverError_iff {response : RegistrationResponse} :
    response.result = .failed .serverError ↔
      response.operationStatus = .failed ∨ response.operationStatus = .disabled := by
  unfold result
  cases response.operationStatus <;> simp

namespace ResultInvariant

theorem of_assigned (h : ResultInvariant past c) (houtcome : c.outcome = .ok .assigned) :
    ∃ message response, lastKept? past = some message ∧ message.Carries response ∧
      response.operationStatus = .assigned ∧ c.response = some response ∧
      c.Shows response.state := by
  obtain ⟨hstate, hresult⟩ := Client.outcome_eq_assigned_iff.mp houtcome
  obtain ⟨message, response, hkept, hcarries, hresponse, heq⟩ := h.told hstate (.inl hresult)
  have hstatus := RegistrationResponse.result_eq_success_iff.mp (heq.trans hresult)
  exact ⟨message, response, hkept, hcarries, hstatus, hresponse,
    Client.shows_of_complete hstate hresult hresponse⟩

theorem of_serverError (h : ResultInvariant past c) (houtcome : c.outcome = .error .serverError) :
    ∃ message response, lastKept? past = some message ∧ message.Carries response ∧
      (response.operationStatus = .failed ∨ response.operationStatus = .disabled) ∧
      c.response = some response ∧ c.getExtendedCode = .ok response.state.extendedErrorCode := by
  obtain ⟨hstate, hresult⟩ := Client.outcome_eq_serverError_iff.mp houtcome
  obtain ⟨message, response, hkept, hcarries, hresponse, heq⟩ := h.told hstate (.inr hresult)
  have hstatus := RegistrationResponse.result_eq_serverError_iff.mp (heq.trans hresult)
  exact ⟨message, response, hkept, hcarries, hstatus, hresponse,
    Client.getExtendedCode_of_complete hstate hresponse⟩

end ResultInvariant

section Runs

variable {σ : Type} {limit : Nat} {hlimit : 0 < limit}

theorem Client.outcome_settle_failed (c : Client) (failure : Failure) :
    (c.settle (.failed failure)).outcome = .error failure := by
  have hcomplete : (c.settle (.failed failure)).state = .complete := WorkflowState.next_failed _ _
  rw [outcome, if_neg (not_not.mpr hcomplete)]
  rfl

namespace Session

theorem run_of_complete {s : Session σ} (h : s.client.state = .complete) (host : Host σ)
    (remaining : Nat) : s.run host remaining limit hlimit = s ∧
      s.runMoments host remaining limit hlimit = [] := by
  rw [run, runMoments, if_pos h, if_pos h]
  exact ⟨rfl, rfl⟩

/-- A turn that completes the workflow by its action is the last one. -/
theorem run_of_act_complete {s : Session σ} {host : Host σ} (hstate : s.client.state ≠ .complete)
    (hact : (s.act host).client.state = .complete) (remaining : Nat) :
    s.run host remaining limit hlimit = s.act host ∧
      s.runMoments host remaining limit hlimit = s.actMoments host := by
  have htick (wait : Nat) : s.tick host wait = s.act host := if_pos hact
  have hturn (wait : Nat) : s.turnMoments host wait = s.actMoments host := by
    rw [turnMoments, if_pos hact, List.append_nil]
  rw [run, runMoments, if_neg hstate, if_neg hstate]
  simp only [htick, hturn]
  split
  next => exact ⟨rfl, List.append_nil _⟩
  next =>
    obtain ⟨hrun, hmoments⟩ := run_of_complete hact host (remaining - limit)
    exact ⟨hrun, by rw [hmoments, List.append_nil]⟩

/-- A registration whose first action completes the workflow does nothing else. -/
theorem register_of_act_complete {s : Session σ} {host : Host σ}
    (hstate : s.start.client.state ≠ .complete)
    (hact : (s.start.act host).client.state = .complete) (timeout : Nat) (hlimit : 0 < limit) :
    s.register host timeout limit hlimit = ((s.start.act host).client.outcome, s.start.act host) ∧
      s.registerMoments host timeout limit hlimit = s.start.actMoments host := by
  obtain ⟨hrun, hmoments⟩ := run_of_act_complete hstate hact timeout
  rw [register, registerMoments, hrun, hmoments]
  exact ⟨rfl, rfl⟩

/-- A final response that has been kept is read by the next registration, which makes no call and
leaves everything outside as it is. -/
theorem register_final {s : Session σ} {message : Message} {response : RegistrationResponse}
    (hstate : s.client.state = .response) (hm : s.client.message = some message)
    (hcarries : message.Carries response) (hfinal : response.operationStatus.isPending = false)
    (host : Host σ) (timeout : Nat) :
    s.register host timeout limit hlimit = ((s.client.conclude response).outcome,
        ⟨s.client.conclude response, s.outside⟩) ∧
      s.registerMoments host timeout limit hlimit = [.read message (.ok (some response))] := by
  have hread := readResponse_eq_some_iff.mpr hcarries
  have hstart : s.start = s := if_neg (by simp [hstate])
  have hact : s.act host = ⟨s.client.conclude response, s.outside⟩ := by
    rw [act, hstate]
    simp only [readMessage, hm, hread, accept, hfinal]
    rfl
  have hmoments : s.actMoments host = [.read message (.ok (some response))] := by
    rw [actMoments_eq, actCall?, readMoments, hstate]
    simp only [hm, hread]
    rfl
  have hcomplete : (s.start.act host).client.state = .complete := by
    rw [hstart, hact]
    exact s.client.conclude_state hstate hfinal
  obtain ⟨hregister, hregisterMoments⟩ :=
    register_of_act_complete (by simp [hstart, hstate]) hcomplete timeout hlimit
  rw [hregister, hregisterMoments, hstart, hact, hmoments]
  exact ⟨rfl, rfl⟩

/-- The registration answers so without a call, and leaves everything outside as it is. -/
def AnswersAtOnce (s : Session σ) (host : Host σ) (timeout limit : Nat) (hlimit : 0 < limit)
    (answer : Except Failure RegistrationStatus) : Prop :=
  (s.register host timeout limit hlimit).1 = answer ∧
    calls (s.registerMoments host timeout limit hlimit) = [] ∧
    (s.register host timeout limit hlimit).2.outside = s.outside

theorem answersAtOnce_of_final {s : Session σ} {message : Message}
    {response : RegistrationResponse} (hstate : s.client.state = .response)
    (hm : s.client.message = some message) (hcarries : message.Carries response)
    (hfinal : response.operationStatus.isPending = false) (host : Host σ) (timeout : Nat) :
    s.AnswersAtOnce host timeout limit hlimit (s.client.conclude response).outcome := by
  obtain ⟨hregister, hmoments⟩ := register_final hstate hm hcarries hfinal host timeout
  rw [AnswersAtOnce, hregister, hmoments]
  exact ⟨rfl, rfl, rfl⟩

theorem answersAtOnce_of_assigned {s : Session σ} {message : Message}
    {response : RegistrationResponse} (hstate : s.client.state = .response)
    (hm : s.client.message = some message) (hcarries : message.Carries response)
    (hstatus : response.operationStatus = .assigned) (host : Host σ) (timeout : Nat) :
    s.AnswersAtOnce host timeout limit hlimit (.ok .assigned) := by
  have hfinal : response.operationStatus.isPending = false := by
    rw [hstatus]
    rfl
  have houtcome : (s.client.conclude response).outcome = .ok .assigned :=
    Client.outcome_eq_assigned_iff.mpr ⟨s.client.conclude_state hstate hfinal,
      RegistrationResponse.result_eq_success_iff.mpr hstatus⟩
  rw [← houtcome]
  exact answersAtOnce_of_final hstate hm hcarries hfinal host timeout

theorem answersAtOnce_of_rejected {s : Session σ} {message : Message}
    {response : RegistrationResponse} (hstate : s.client.state = .response)
    (hm : s.client.message = some message) (hcarries : message.Carries response)
    (hstatus : response.operationStatus = .failed ∨ response.operationStatus = .disabled)
    (host : Host σ) (timeout : Nat) :
    s.AnswersAtOnce host timeout limit hlimit (.error .serverError) := by
  have hfinal : response.operationStatus.isPending = false := by
    rcases hstatus with hstatus | hstatus
    · rw [hstatus]
      rfl
    · rw [hstatus]
      rfl
  have houtcome : (s.client.conclude response).outcome = .error .serverError :=
    Client.outcome_eq_serverError_iff.mpr ⟨s.client.conclude_state hstate hfinal,
      RegistrationResponse.result_eq_serverError_iff.mpr hstatus⟩
  rw [← houtcome]
  exact answersAtOnce_of_final hstate hm hcarries hfinal host timeout

end Session

/-! ## Runs -/

variable {host : Host σ} {operations : List (Operation σ)} {s : Session σ}

/-- The result of a registration and the last response, both ways. A registration that answers with
an assignment has come to the response kept last: this is an assignment, and the client gives its
hub and its device id. One that answers with an error of the service has come to a failure or a
disabled device, and the client gives its error code. The other way round, a registration that finds
such a response answers with it, and makes no call. -/
theorem Run.final_result (h : Run host operations past s) (timeout : Nat) {limit : Nat}
    {hlimit : 0 < limit} :
    let result := s.register host timeout limit hlimit
    let moments := past ++ s.registerMoments host timeout limit hlimit
    (result.1 = .ok .assigned →
      ∃ message response, lastKept? moments = some message ∧ message.Carries response ∧
        response.operationStatus = .assigned ∧ result.2.client.response = some response ∧
        result.2.client.Shows response.state) ∧
    (result.1 = .error .serverError →
      ∃ message response, lastKept? moments = some message ∧ message.Carries response ∧
        (response.operationStatus = .failed ∨ response.operationStatus = .disabled) ∧
        result.2.client.response = some response ∧
        result.2.client.getExtendedCode = .ok response.state.extendedErrorCode) ∧
    ∀ message response, s.client.state = .response → s.client.message = some message →
      message.Carries response →
      (response.operationStatus = .assigned →
        s.AnswersAtOnce host timeout limit hlimit (.ok .assigned)) ∧
      (response.operationStatus = .failed ∨ response.operationStatus = .disabled →
        s.AnswersAtOnce host timeout limit hlimit (.error .serverError)) := by
  intro result moments
  have hinvariant : ResultInvariant moments result.2.client :=
    (h.next (.register timeout limit hlimit)).hasPast.resultInvariant
  have houtcome : result.1 = result.2.client.outcome := rfl
  refine ⟨?_, ?_, ?_⟩
  · intro hassigned
    exact hinvariant.of_assigned (houtcome.symm.trans hassigned)
  · intro hrejected
    exact hinvariant.of_serverError (houtcome.symm.trans hrejected)
  · intro message response hstate hm hcarries
    refine ⟨fun hstatus => ?_, fun hstatus => ?_⟩
    · exact Session.answersAtOnce_of_assigned hstate hm hcarries hstatus host timeout
    · exact Session.answersAtOnce_of_rejected hstate hm hcarries hstatus host timeout

/-- A device that is assigned at once. -/
theorem final_result_assigned :
    ∃ message response, ∃ s : Session Script, (s.register .scripted 2000).1 = .ok .assigned ∧
      lastKept? (s.registerMoments .scripted 2000) = some message ∧ message.Carries response ∧
      (s.register .scripted 2000).2.client.Shows response.state := by
  let message : Message := {
    topic := "$dps/registrations/res/200/?$rid=1"
    payload := utf8 ("\x7b\"operationId\":\"4\",\"status\":\"assigned\"," ++
      "\"registrationState\":\x7b\"assignedHub\":\"hub\",\"deviceId\":\"device\"\x7d\x7d") }
  let s : Session Script := .scripted [.ok [], .ok [.suback 1], .ok [.publish message]]
  have hrun : Run .scripted [] [] s := .scripted _
  have hcomplete : (s.register .scripted 2000).2.client.state = .complete ∧
      (s.register .scripted 2000).2.client.lastResult = .success := by
    decide +kernel
  have hassigned : (s.register .scripted 2000).1 = .ok .assigned :=
    Client.outcome_eq_assigned_iff.mpr hcomplete
  obtain ⟨message', response, hkept, hcarries, -, -, hshows⟩ := (hrun.final_result 2000).1 hassigned
  exact ⟨message', response, s, hassigned, hkept, hcarries, hshows⟩

end Runs

end DeviceTrust.Provisioning
