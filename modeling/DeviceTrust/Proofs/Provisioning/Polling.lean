import DeviceTrust.Proofs.Provisioning.CustomPayload

/-!
# Polling keeps to the operation

The first request of a client registers the device. Each request after it asks for the operation
that the pending response read last has named, so the requests follow the pending responses one by
one: `Polls` says so of the requests that the host gets and the responses that the turns read. All
requests carry one payload, which is settled when the first registration starts.

Results:
* `PollingInvariant.step`: what one step keeps.
* `Session.IsNew.pollingInvariant`: what the turns of a new client keep.
* `Turn.log_of_request?_eq_none`, `Turn.head?_log_of_request?_eq_some`: the turn of a request.
* `Session.IsNew.polling`: the requests of every run.
-/

namespace DeviceTrust.Provisioning

/-! ## Requests and pending responses -/

/-- The request that is published. -/
@[simp] def Moment.request? : Moment → Option Call
  | .publish topic payload qos _ => some (.publish topic payload qos)
  | _ => none

/-- The response that is read and leaves the operation pending. -/
@[simp] def Moment.pending? : Moment → Option RegistrationResponse
  | .read _ (.ok (some response)) =>
    if response.operationStatus.isPending then some response else none
  | _ => none

/-- The requests that are published, in order. -/
def requests (moments : List Moment) : List Call :=
  moments.filterMap Moment.request?

/-- The responses that are read and leave the operation pending, in order. -/
def pendings (moments : List Moment) : List RegistrationResponse :=
  moments.filterMap Moment.pending?

/-- The topics of the requests that go with some pending responses: the first one registers the
device, and each response is followed by a query of the operation that it names. -/
def requestTopics (responses : List RegistrationResponse) : List String :=
  registerTopic :: responses.map fun response => queryTopic response.operationId

/-- The requests go to the topics in their order, each with the payload that names the device and
carries the custom payload. -/
def Polls (registrationId : String) (custom : Option Bytes) (made : List Call)
    (responses : List RegistrationResponse) : Prop :=
  made = [] ∨ ∃ payload, IsRequestPayload registrationId custom payload ∧
    made <+: (requestTopics responses).map fun topic => .publish topic payload .atMostOnce

variable {past now : List Moment} {c : Client} {made : List Call}
  {responses : List RegistrationResponse}

theorem requests_append (past now : List Moment) :
    requests (past ++ now) = requests past ++ requests now :=
  List.filterMap_append

theorem pendings_append (past now : List Moment) :
    pendings (past ++ now) = pendings past ++ pendings now :=
  List.filterMap_append

theorem requestTopics_append (responses later : List RegistrationResponse) :
    requestTopics (responses ++ later) =
      requestTopics responses ++ later.map fun response => queryTopic response.operationId := by
  rw [requestTopics, List.map_append, requestTopics, List.cons_append]

/-- The last topic is that of the next request, as long as the last pending response is the one that
the client has. -/
theorem requestTopics_eq (h : c.response = responses.getLast?) :
    ∃ topics, requestTopics responses = topics ++ [c.requestTopic] ∧
      topics.length = responses.length := by
  rw [Client.requestTopic, h, requestTopics]
  rcases List.eq_nil_or_concat' responses with rfl | ⟨first, response, rfl⟩
  · exact ⟨[], rfl, rfl⟩
  · refine ⟨registerTopic :: first.map fun r => queryTopic r.operationId, ?_, ?_⟩
    · simp
    · simp

/-- Moments without a request and a pending response. -/
structure Silent (moments : List Moment) : Prop where
  no_request : requests moments = []
  no_pending : pendings moments = []

theorem silent_nil : Silent [] := ⟨rfl, rfl⟩

theorem silent_eventMoments (c : Client) (event : Event) : Silent (c.eventMoments event) := by
  rcases c.eventMoments_cases event with heq | ⟨message, -, heq⟩ <;>
    exact heq ▸ ⟨rfl, rfl⟩

section Polls

variable {registrationId : String} {custom : Option Bytes}

/-- More pending responses do not make a request go to a wrong topic. -/
theorem Polls.append (h : Polls registrationId custom made responses)
    (later : List RegistrationResponse) : Polls registrationId custom made (responses ++ later) := by
  rcases h with hnone | ⟨payload, hpayload, hmade⟩
  · exact .inl hnone
  · refine .inr ⟨payload, hpayload, hmade.trans ?_⟩
    rw [requestTopics_append, List.map_append]
    exact List.prefix_append _ _

/-- The next request goes to the last topic. -/
theorem Polls.append_request (h : Polls registrationId custom made responses)
    {topics : List String} {topic : String} (htopics : requestTopics responses = topics ++ [topic])
    (hlength : made.length = topics.length) {payload : Bytes}
    (hpayload : IsRequestPayload registrationId custom payload) :
    Polls registrationId custom (made ++ [.publish topic payload .atMostOnce]) responses := by
  refine .inr ⟨payload, hpayload, ?_⟩
  rw [htopics, List.map_append]
  have hpast : made = topics.map fun topic => .publish topic payload .atMostOnce := by
    rcases h with rfl | ⟨payload', hpayload', hmade⟩
    · rw [List.length_eq_zero_iff.mp hlength.symm, List.map_nil]
    · obtain rfl := hpayload'.unique hpayload
      rw [htopics, List.map_append, List.map_singleton, List.prefix_concat_iff] at hmade
      rcases hmade with hall | hmade
      · have := congrArg List.length hall
        simp at this
        omega
      · exact hmade.eq_of_length (by rw [hlength, List.length_map])
  rw [hpast]
  exact List.prefix_refl _

/-- What follows a pending response is a query of the operation that it names. -/
theorem Polls.query_eq (h : Polls registrationId custom made responses) :
    ∃ payload, ∀ i response request, responses[i]? = some response → made[i + 1]? = some request →
      request = Call.publish (queryTopic response.operationId) payload .atMostOnce := by
  rcases h with rfl | ⟨payload, -, rest, hrest⟩
  · exact ⟨[], fun i response request _ hrequest => by simp at hrequest⟩
  · refine ⟨payload, fun i response request hresponse hrequest => ?_⟩
    have hlt : i + 1 < made.length := List.getElem?_eq_some_iff.mp hrequest |>.1
    have hplace := congrArg (·[i + 1]?) hrest
    simp only [List.getElem?_append_left hlt, hrequest, requestTopics, List.map_cons,
      List.getElem?_cons_succ, List.map_map, List.getElem?_map, hresponse,
      Option.map_some] at hplace
    exact Option.some.inj hplace

/-- Two queries of one operation are the same request. -/
theorem Polls.query_unique (h : Polls registrationId custom made responses) {i j : Nat}
    {r r' : RegistrationResponse} (hi : responses[i]? = some r) (hj : responses[j]? = some r')
    (hid : r.operationId = r'.operationId) {request request' : Call}
    (hrequest : made[i + 1]? = some request) (hrequest' : made[j + 1]? = some request') :
    request = request' := by
  obtain ⟨payload, hquery⟩ := h.query_eq
  rw [hquery i r request hi hrequest, hquery j r' request' hj hrequest', hid]

end Polls

/-! ## The invariant -/

/-- How many requests and pending responses the step of the workflow goes with. -/
def WorkflowState.Counts : WorkflowState → (requests pendings : Nat) → Prop
  | .init, m, n | .connect, m, n | .subscribe, m, n | .subscribing, m, n => m = 0 ∧ n = 0
  | .request, m, n | .waiting, m, n => m = n
  | .requesting, m, n | .response, m, n => m = n + 1
  | .complete, _, _ => True

/-- The clients agree in what requests are made of. -/
structure Client.Agrees (c d : Client) : Prop where
  size : d.buffer.length = c.buffer.length
  registrationId : d.registrationId = c.registrationId
  payload : d.payload = c.payload
  response : d.response = c.response

/-- What a client has requested and read so far, and what it goes on with. -/
structure PollingInvariant (registrationId : String) (made : List Call)
    (responses : List RegistrationResponse) (c : Client) : Prop where
  size : minimumBufferSize ≤ c.buffer.length
  registrationId_eq : c.registrationId = registrationId
  counts : c.state.Counts made.length responses.length
  /-- The last response is the pending one that was read last. -/
  response : c.state ≠ .complete → c.response = responses.getLast?
  polls : Polls registrationId c.payload made responses

namespace PollingInvariant

variable {d : Client} {registrationId : String}

/-- A step without a request and a pending response. -/
theorem silent (h : PollingInvariant registrationId made responses c) (hd : c.Agrees d)
    (hstate : c.state = .complete → d.state = .complete)
    (hcounts : ∀ m n, c.state.Counts m n → d.state.Counts m n) :
    PollingInvariant registrationId made responses d := by
  refine ⟨hd.size ▸ h.size, hd.registrationId.trans h.registrationId_eq, hcounts _ _ h.counts,
    fun hopen => ?_, hd.payload ▸ h.polls⟩
  rw [hd.response]
  exact h.response fun hcomplete => hopen (hstate hcomplete)

/-- A step that leaves the workflow where it is. -/
theorem unchanged (h : PollingInvariant registrationId made responses c) (hd : c.Agrees d)
    (hstate : d.state = c.state) : PollingInvariant registrationId made responses d :=
  h.silent hd hstate.trans fun _ _ hcounts => hstate ▸ hcounts

/-- A step that completes the workflow. -/
theorem ended (h : PollingInvariant registrationId made responses c) (hd : c.Agrees d)
    (hstate : d.state = .complete) : PollingInvariant registrationId made responses d :=
  h.silent hd (fun _ => hstate) fun _ _ _ => hstate ▸ trivial

/-- A call other than a request. -/
theorem called {α : Type} (h : PollingInvariant registrationId made responses c) (hd : c.Agrees d)
    (hopen : c.state ≠ .complete)
    (hcounts : ∀ m n, c.state.Counts m n → (c.state.next .success).Counts m n)
    {failure : Failure} {result : Except TransportError α}
    (hstate : d.state = c.state.next (callOutcome failure result)) :
    PollingInvariant registrationId made responses d := by
  cases result with
  | ok a => exact h.silent hd (absurd · hopen) fun m n hc => hstate ▸ hcounts m n hc
  | error e => exact h.ended hd (hstate.trans (WorkflowState.next_failed _ _))

theorem deliver (h : PollingInvariant registrationId made responses c) (event : Event) :
    PollingInvariant registrationId made responses (c.handleEvent event) := by
  cases event with
  | other packetType => exact h
  | suback packetId =>
    show PollingInvariant _ _ _ (if c.state = .subscribing then c.settle .success else c)
    split
    next hstate =>
      refine h.silent ⟨rfl, rfl, rfl, rfl⟩ (by simp [hstate]) fun m n hcounts => ?_
      rw [Client.settle_state]
      rw [hstate] at hcounts ⊢
      exact hcounts.1.trans hcounts.2.symm
    next => exact h
  | publish message =>
    show PollingInvariant _ _ _ (c.receive message)
    rcases c.receive_cases message with ⟨-, heq⟩ | ⟨-, -, heq⟩ | ⟨hkeeps, lastResult, heq⟩
    · rwa [heq]
    · rw [heq]
      exact h.ended ⟨rfl, rfl, rfl, rfl⟩ (WorkflowState.next_failed _ _)
    · rw [heq]
      have hopen : c.state ≠ .complete := by
        rcases hkeeps.2.1 with hstate | hstate <;> simp [hstate]
      refine h.silent ⟨rfl, rfl, rfl, rfl⟩ (absurd · hopen) fun m n hcounts => ?_
      rcases hkeeps.2.1 with hstate | hstate
      · rwa [hstate] at hcounts
      · rwa [hstate] at hcounts

/-- A new payload does not change requests, as there has not been any. -/
theorem setPayload (h : PollingInvariant registrationId made responses c) (hstate : c.state = .init)
    (payload : Bytes) :
    PollingInvariant registrationId made responses { c with payload := some payload } := by
  have hcounts := h.counts
  rw [hstate] at hcounts
  exact ⟨h.size, h.registrationId_eq, h.counts, h.response,
    .inl (List.length_eq_zero_iff.mp hcounts.1)⟩

/-- A request goes to the topic that is due. -/
theorem publish (h : PollingInvariant registrationId made responses c) (hstate : c.state = .request)
    {buffer : Bytes} (hbuffer : buffer.length = c.buffer.length) {topic : String} {payload : Bytes}
    (hrequest : c.request? = some (topic, payload)) (result : Except TransportError Unit) :
    PollingInvariant registrationId (made ++ [.publish topic payload .atMostOnce]) responses
      ({ c with buffer := buffer }.settle (callOutcome .publishFailed result)) := by
  have hcounts := h.counts
  rw [hstate] at hcounts
  have hresponse := h.response (by simp [hstate])
  obtain ⟨topics, htopics, hlength⟩ := requestTopics_eq hresponse
  obtain ⟨rfl, hpayload, -⟩ := Client.request?_eq_some_iff.mp hrequest
  refine ⟨h.size.trans_eq hbuffer.symm, h.registrationId_eq, ?_, fun _ => hresponse, ?_⟩
  · show (c.state.next (callOutcome .publishFailed result)).Counts _ _
    rw [hstate]
    cases result with
    | ok a =>
      rw [List.length_append, hcounts]
      rfl
    | error e => exact trivial
  · rw [h.registrationId_eq] at hpayload
    exact h.polls.append_request htopics (hcounts.trans hlength.symm) hpayload

/-- A response that leaves the operation pending is followed by another request, and any other one
completes the workflow. -/
theorem read (h : PollingInvariant registrationId made responses c) (hstate : c.state = .response)
    (message : Message) (response : RegistrationResponse) (deadline : UInt64) :
    PollingInvariant registrationId made
      (responses ++ pendings [.read message (.ok (some response))])
      ({ c with message := none, response := some response, retryDeadline := deadline }.settle
        response.result) := by
  have hcounts := h.counts
  rw [hstate] at hcounts
  have hpolls := h.polls.append (pendings [.read message (.ok (some response))])
  by_cases hpending : response.operationStatus.isPending = true
  · have hnow : pendings [.read message (.ok (some response))] = [response] := by
      simp [pendings, hpending]
    refine ⟨h.size, h.registrationId_eq, ?_, fun _ => ?_, hpolls⟩
    · show (c.state.next response.result).Counts _ _
      rw [hstate, RegistrationResponse.result_of_pending hpending, hnow, List.length_append,
        hcounts]
      rfl
    · rw [hnow, List.getLast?_concat]
      rfl
  · have hcomplete : c.state.next response.result = .complete := by
      rw [hstate]
      exact RegistrationResponse.next_result_of_not_pending (Bool.eq_false_iff.mpr hpending)
    refine ⟨h.size, h.registrationId_eq, ?_, fun hopen => absurd hcomplete hopen, hpolls⟩
    show (c.state.next response.result).Counts _ _
    rw [hcomplete]
    exact trivial

theorem step (h : PollingInvariant registrationId made responses c) (hs : c.Step now d) :
    PollingInvariant registrationId (made ++ requests now) (responses ++ pendings now) d := by
  have hsilent (hnow : Silent now) (hd : PollingInvariant registrationId made responses d) :
      PollingInvariant registrationId (made ++ requests now) (responses ++ pendings now) d := by
    rwa [hnow.no_request, hnow.no_pending, List.append_nil, List.append_nil]
  cases hs with
  | start hstate =>
    refine hsilent silent_nil (h.silent ⟨rfl, rfl, rfl, rfl⟩ (by simp [hstate]) fun m n hcounts => ?_)
    rw [Client.settle_state]
    rwa [hstate] at hcounts ⊢
  | setKey key => exact hsilent silent_nil (h.unchanged ⟨rfl, rfl, rfl, rfl⟩ rfl)
  | setPayload hstate payload => exact hsilent silent_nil (h.setPayload hstate payload)
  | deinit => exact hsilent ⟨rfl, rfl⟩ (h.unchanged ⟨rfl, rfl, rfl, rfl⟩ rfl)
  | connect hstate buffer info result hbuffer =>
    refine hsilent ⟨rfl, rfl⟩ (h.called ⟨hbuffer, rfl, rfl, rfl⟩ (by simp [hstate]) ?_ rfl)
    rw [hstate]
    exact fun _ _ => id
  | connectFailed hstate buffer hfailure hbuffer =>
    exact hsilent silent_nil (h.ended ⟨hbuffer, rfl, rfl, rfl⟩ (WorkflowState.next_failed _ _))
  | subscribe hstate result =>
    refine hsilent ⟨rfl, rfl⟩ (h.called ⟨rfl, rfl, rfl, rfl⟩ (by simp [hstate]) ?_ rfl)
    rw [hstate]
    exact fun _ _ => id
  | publish hstate buffer topic payload result hbuffer hrequest =>
    have hpublished := h.publish hstate hbuffer (hrequest h.size) result
    exact (List.append_nil responses).symm ▸ hpublished
  | publishFailed hstate buffer hbuffer =>
    exact hsilent silent_nil (h.ended ⟨hbuffer, rfl, rfl, rfl⟩ (WorkflowState.next_failed _ _))
  | readNothing hstate hm =>
    exact hsilent silent_nil (h.ended ⟨rfl, rfl, rfl, rfl⟩ (WorkflowState.next_failed _ _))
  | readFailed hstate hm hr =>
    exact hsilent ⟨rfl, rfl⟩ (h.ended ⟨rfl, rfl, rfl, rfl⟩ (WorkflowState.next_failed _ _))
  | readOther hstate hm hr => exact hsilent ⟨rfl, rfl⟩ h
  | @read hstate message response hm hr deadline =>
    exact (List.append_nil made).symm ▸ h.read hstate message response deadline
  | poll hstate =>
    refine hsilent silent_nil (h.silent ⟨rfl, rfl, rfl, rfl⟩ (by simp [hstate]) fun m n hcounts => ?_)
    rw [Client.settle_state]
    rwa [hstate] at hcounts ⊢
  | process hstate timeout events => exact hsilent ⟨rfl, rfl⟩ h
  | processFailed hstate timeout e =>
    exact hsilent ⟨rfl, rfl⟩ (h.ended ⟨rfl, rfl, rfl, rfl⟩ (WorkflowState.next_failed _ _))
  | deliver event => exact hsilent (silent_eventMoments c event) (h.deliver event)

theorem steps (h : PollingInvariant registrationId made responses c) (hs : c.Steps now d) :
    PollingInvariant registrationId (made ++ requests now) (responses ++ pendings now) d := by
  induction hs with
  | refl => exact (List.append_nil made).symm ▸ (List.append_nil responses).symm ▸ h
  | tail _ hs ih =>
    rw [requests_append, pendings_append, ← List.append_assoc, ← List.append_assoc]
    exact ih.step hs

end PollingInvariant

theorem PollingInvariant.of_new {endpoint idScope registrationId userAgent : String} {buffer : Bytes}
    (h : Client.new endpoint idScope registrationId userAgent buffer = .ok c) :
    PollingInvariant c.registrationId [] [] c := by
  have hsize := Client.size_of_new h
  rw [Client.eq_of_new h] at hsize ⊢
  exact ⟨hsize, rfl, ⟨rfl, rfl⟩, fun _ => rfl, .inl rfl⟩

theorem Client.HasPast.pollingInvariant (h : c.HasPast past) :
    PollingInvariant c.registrationId (requests past) (pendings past) c := by
  suffices h : ∃ registrationId,
      PollingInvariant registrationId (requests past) (pendings past) c by
    obtain ⟨registrationId, h⟩ := h
    rwa [← h.registrationId_eq] at h
  induction h with
  | new h => exact ⟨_, .of_new h⟩
  | next _ hs ih =>
    obtain ⟨registrationId, h⟩ := ih
    rw [requests_append, pendings_append]
    exact ⟨registrationId, h.step hs⟩

section Runs

variable {σ : Type} {host : Host σ} {operations : List (Operation σ)} {s t : Session σ}

/-! ## Turns -/

/-- No call reads a response. -/
theorem Session.pendings_actCall? (s : Session σ) (host : Host σ) :
    pendings (s.actCall? host).toList = [] := by
  cases hcall : s.actCall? host with
  | none => rfl
  | some m =>
    have hm := isCall_of_actCall? host hcall
    cases m with
    | connect | subscribe | publish | processLoop => rfl
    | deliver | keep | read | drop => cases hm

/-- Nothing is read while the session sends and receives. -/
theorem Session.pendings_processMoments (s : Session σ) (host : Host σ) (wait : Nat) :
    pendings (s.processMoments host wait) = [] := by
  have hbatch (events : List Event) : pendings (s.client.batchMoments events) = [] := by
    refine List.filterMap_eq_nil_iff.mpr fun m hm => ?_
    rcases Client.of_mem_batchMoments hm with ⟨event, -, rfl⟩ | ⟨message, -, rfl⟩ <;> rfl
  rw [processMoments_eq]
  split
  next => exact hbatch _
  next => rfl

/-- The response in a message, if it leaves the operation pending. -/
def Message.pending? (message : Message) : Option RegistrationResponse :=
  match message.readResponse with
  | .ok (some response) => if response.operationStatus.isPending then some response else none
  | _ => none

namespace Turn

variable {turn : Turn σ}

/-- The response that the turn reads, if it leaves the operation pending. -/
def pending? (turn : Turn σ) : Option RegistrationResponse :=
  if turn.session.client.state = .response then
    turn.session.client.message.bind Message.pending?
  else none

theorem pending?_eq_some_iff {response : RegistrationResponse} :
    turn.pending? = some response ↔
      turn.Reads response ∧ response.operationStatus.isPending = true := by
  have hread (message : Message) : message.pending? = some response ↔
      message.Carries response ∧ response.operationStatus.isPending = true := by
    rw [← readResponse_eq_some_iff, Message.pending?]
    rcases message.readResponse with failure | _ | found
    · simp
    · simp
    · simp only [Option.ite_none_right_eq_some, Option.some.injEq, Except.ok.injEq]
      constructor
      · rintro ⟨hpending, rfl⟩
        exact ⟨rfl, hpending⟩
      · rintro ⟨rfl, hpending⟩
        exact ⟨hpending, rfl⟩
  simp only [pending?, Reads, Option.ite_none_right_eq_some, Option.bind_eq_some_iff, hread]
  constructor
  · rintro ⟨hstate, message, hm, hcarries, hpending⟩
    exact ⟨⟨hstate, message, hm, hcarries⟩, hpending⟩
  · rintro ⟨⟨hstate, message, hm, hcarries⟩, hpending⟩
    exact ⟨hstate, message, hm, hcarries, hpending⟩

theorem requests_moments (turn : Turn σ) (host : Host σ) :
    requests (turn.moments host) = requests (turn.log host) := by
  rw [log_eq_filter, requests, requests, List.filterMap_filter]
  refine congrArg (List.filterMap · _) (funext fun m => ?_)
  cases m <;> rfl

theorem pendings_readMoments (turn : Turn σ) :
    pendings turn.session.readMoments = turn.pending?.toList := by
  unfold Session.readMoments pending?
  cases hstate : turn.session.client.state with
  | response =>
    cases turn.session.client.message with
    | none => rfl
    | some message =>
      show pendings [.read message message.readResponse] = _
      rw [if_pos rfl, Option.bind_some, Message.pending?]
      rcases message.readResponse with failure | _ | response
      · rfl
      · rfl
      · cases hpending : response.operationStatus.isPending <;> simp [pendings, hpending]
  | init | connect | subscribe | subscribing | request | requesting | waiting | complete => rfl

theorem pendings_moments (turn : Turn σ) (host : Host σ) :
    pendings (turn.moments host) = turn.pending?.toList := by
  rw [moments, Session.turnMoments, Session.actMoments_eq, pendings_append, pendings_append,
    Session.pendings_actCall?, pendings_readMoments, List.nil_append]
  split
  next => exact List.append_nil _
  next => rw [Session.pendings_processMoments, List.append_nil]

/-- A request that cannot be sent ends the workflow. -/
theorem log_of_request?_eq_none (hstate : turn.session.client.state = .request)
    (hsize : minimumBufferSize ≤ turn.session.client.buffer.length)
    (hrequest : turn.session.client.request? = none) (host : Host σ) :
    turn.log host = [] ∧ (turn.after host).client.state = .complete ∧
      (turn.after host).client.lastResult = .failed .failed := by
  have hfailed : (Host.prepareRequest.run.run turn.session).1 = .error .failed := by
    rw [Host.prepareRequest_fst hsize, hrequest]
  rcases hrun : Host.prepareRequest.run.run turn.session with ⟨result, s'⟩
  obtain rfl : result = .error .failed := by rw [← hfailed, hrun]
  have hact : turn.acted host = s'.settle (.failed .failed) := by
    rw [acted, Session.act, hstate]
    simp only [Session.perform_request, hrun]
  have hcall : turn.session.actCall? host = none := by
    rw [Session.actCall?, hstate]
    simp only [hrun]
  have hcomplete : (turn.acted host).client.state = .complete := by
    rw [hact]
    exact WorkflowState.next_failed _ _
  have hafter : turn.after host = turn.acted host := if_pos hcomplete
  refine ⟨?_, hafter ▸ hcomplete, ?_⟩
  · rw [log_eq, hcall, if_pos hcomplete]
    rfl
  · rw [hafter, hact]
    rfl

/-- A request that can be sent is the first call of its turn. -/
theorem head?_log_of_request?_eq_some (hstate : turn.session.client.state = .request)
    (hsize : minimumBufferSize ≤ turn.session.client.buffer.length) {topic : String} {payload : Bytes}
    (hrequest : turn.session.client.request? = some (topic, payload)) (host : Host σ) :
    ∃ result, (turn.log host).head? = some (.publish topic payload .atMostOnce result) := by
  have hprepared : (Host.prepareRequest.run.run turn.session).1 = .ok (topic, payload) := by
    rw [Host.prepareRequest_fst hsize, hrequest]
  rcases hrun : Host.prepareRequest.run.run turn.session with ⟨result, s'⟩
  obtain rfl : result = .ok (topic, payload) := by rw [← hprepared, hrun]
  have hcall : turn.session.actCall? host = some (.publish topic payload .atMostOnce
      (host.publish topic payload .atMostOnce s'.outside).1) := by
    rw [Session.actCall?, hstate]
    simp only [hrun]
  rw [log_eq, hcall]
  exact ⟨_, rfl⟩

end Turn

/-! ## Runs -/

/-- What the turns of a new client have requested and read. -/
theorem Session.IsNew.pollingInvariant {turns : List (Turn σ)} (h : s.IsNew)
    (hleads : s.Leads host turns t) :
    PollingInvariant s.client.registrationId (requests (turns.flatMap (Turn.log · host)))
      (turns.filterMap Turn.pending?) t.client := by
  obtain ⟨_, _, _, _, _, hnew⟩ := h
  obtain ⟨now, hsteps, hkept⟩ := hleads.steps
  have hrequests : requests now = requests (turns.flatMap (Turn.log · host)) := by
    rw [requests, hkept Moment.request? rfl, List.filterMap_flatMap, requests,
      List.filterMap_flatMap]
    exact congrArg (List.flatMap · _) (funext fun turn => turn.requests_moments host)
  have hpendings : pendings now = turns.filterMap Turn.pending? := by
    rw [pendings, hkept Moment.pending? rfl, List.filterMap_flatMap,
      List.filterMap_eq_flatMap_toList]
    exact congrArg (List.flatMap · _) (funext fun turn => turn.pendings_moments host)
  exact hrequests ▸ hpendings ▸ (PollingInvariant.of_new hnew).steps hsteps

/-- The topic of the request that is due. -/
def nextTopic (responses : List RegistrationResponse) : String :=
  (requestTopics responses).getLast (List.cons_ne_nil _ _)

/-- A request cannot be sent: its topic is too long, or there is no payload for the custom payload,
which is not JSON, or it is too long. -/
def Unsendable (registrationId : String) (custom : Option Bytes) (topic : String) : Prop :=
  128 < (utf8 topic).length ∨
    ∀ payload, IsRequestPayload registrationId custom payload → 512 < payload.length

theorem nextTopic_eq (h : c.response = responses.getLast?) : nextTopic responses = c.requestTopic := by
  obtain ⟨topics, htopics, -⟩ := requestTopics_eq h
  simp only [nextTopic, htopics, List.getLast_concat]

/-- The turn of a request: it publishes what is due, or completes the workflow without a call. -/
theorem Turn.requests_due {turn : Turn σ} {registrationId : String}
    (h : PollingInvariant registrationId made responses turn.session.client)
    (hstate : turn.session.client.state = .request) (host : Host σ) :
    (Unsendable registrationId turn.session.client.payload (nextTopic responses) →
      turn.log host = [] ∧ (turn.after host).client.state = .complete ∧
        (turn.after host).client.lastResult = .failed .failed) ∧
    (¬Unsendable registrationId turn.session.client.payload (nextTopic responses) →
      ∃ payload result, IsRequestPayload registrationId turn.session.client.payload payload ∧
        (turn.log host).head? =
          some (.publish (nextTopic responses) payload .atMostOnce result)) := by
  have hresponse := h.response (by simp [hstate])
  have hunsendable : Unsendable registrationId turn.session.client.payload (nextTopic responses) ↔
      turn.session.client.request? = none := by
    rw [← h.registrationId_eq, nextTopic_eq hresponse]
    exact Client.request?_eq_none_iff.symm
  rw [hunsendable]
  constructor
  · intro hnone
    exact log_of_request?_eq_none hstate h.size hnone host
  · intro hsome
    obtain ⟨⟨topic, payload⟩, hrequest⟩ := Option.ne_none_iff_exists'.mp hsome
    obtain ⟨rfl, hpayload, -⟩ := Client.request?_eq_some_iff.mp hrequest
    obtain ⟨result, hhead⟩ := head?_log_of_request?_eq_some hstate h.size hrequest host
    rw [h.registrationId_eq] at hpayload
    rw [nextTopic_eq hresponse]
    exact ⟨payload, result, hpayload, hhead⟩

/-- Every turn of a new client has the custom payload that was accepted before the first
registration. -/
theorem Session.IsNew.payload_of_mem {operations : List (Operation σ)} {turn : Turn σ} (h : s.IsNew)
    (hmem : turn ∈ s.turnsAlong host operations) : turn.session.client.state ≠ .init ∧
      turn.session.client.payload = acceptedPayload operations := by
  obtain ⟨_, _, _, _, _, hnew⟩ := h
  have hmine := payload_of_mem_turnsAlong (Client.new_cases hnew).1 hmem
  rwa [Client.eq_of_new hnew, Option.or_none] at hmine

/-- The requests of the first turns go with the pending responses that these turns have read. -/
theorem Session.IsNew.polls {operations : List (Operation σ)} {before rest : List (Turn σ)}
    (h : s.IsNew) (hturns : s.turnsAlong host operations = before ++ rest) :
    Polls s.client.registrationId (acceptedPayload operations)
      (requests (before.flatMap (Turn.log · host))) (before.filterMap Turn.pending?) := by
  rcases List.eq_nil_or_concat' before with rfl | ⟨first, turn, rfl⟩
  · exact .inl rfl
  rw [List.append_assoc, List.singleton_append] at hturns
  have hleads := hturns ▸ s.turnsAlong_leads host operations
  have hafter : s.Leads host (first ++ [turn]) (turn.after host) :=
    hleads.of_turn.1.append (.turn .refl (.rest .refl))
  obtain ⟨hstarted, hcustom⟩ := h.payload_of_mem (hturns ▸ List.mem_append_cons_self)
  have hkept : (turn.after host).client.payload = turn.session.client.payload :=
    ((turn.session.tick_steps host turn.wait).payload_eq hstarted).2
  rw [← hcustom, ← hkept]
  exact (h.pollingInvariant hafter).polls

/-- The requests of a run, which are those that its host gets. They are made in its turns. At any time
they go to the register topic and then to the operations that the pending responses read so far have
named, in their order and all with one payload; so queries of one operation are the same request. A
turn that is to request publishes what is due, unless this cannot be sent: then it does nothing and
completes the workflow with a failure. What is due depends on the last response, which the client
keeps until the workflow completes. -/
theorem Session.IsNew.polling (h : s.IsNew) (host : Host σ) (operations : List (Operation σ)) :
    let turns := s.turnsAlong host operations
    let custom := acceptedPayload operations
    let made := requests (s.callLog host operations)
    let responses := turns.filterMap Turn.pending?
    s.callLog host operations = turns.flatMap (Turn.log · host) ∧
    (∀ before, before <+: turns → Polls s.client.registrationId custom
      (requests (before.flatMap (Turn.log · host))) (before.filterMap Turn.pending?)) ∧
    (∀ i j r r' request request', responses[i]? = some r → responses[j]? = some r' →
      r.operationId = r'.operationId → made[i + 1]? = some request →
      made[j + 1]? = some request' → request = request') ∧
    ∀ before turn after, turns = before ++ turn :: after →
      (turn.session.client.state ≠ .complete →
        turn.session.client.response = (before.filterMap Turn.pending?).getLast?) ∧
      (turn.session.client.state = .request →
        let topic := nextTopic (before.filterMap Turn.pending?)
        (Unsendable s.client.registrationId custom topic →
          turn.log host = [] ∧ (turn.after host).client.state = .complete ∧
            (turn.after host).client.lastResult = .failed .failed) ∧
        (¬Unsendable s.client.registrationId custom topic →
          ∃ payload result, IsRequestPayload s.client.registrationId custom payload ∧
            (turn.log host).head? = some (.publish topic payload .atMostOnce result))) := by
  intro turns custom made responses
  have hlog : s.callLog host operations = turns.flatMap (Turn.log · host) :=
    s.callLog_eq_flatMap host operations
  refine ⟨hlog, ?_, ?_, ?_⟩
  · rintro before ⟨rest, hrest⟩
    exact h.polls hrest.symm
  · intro i j r r' request request' hi hj hid hrequest hrequest'
    have hpolls := h.polls (List.append_nil turns).symm
    rw [← hlog] at hpolls
    exact hpolls.query_unique hi hj hid hrequest hrequest'
  · intro before turn after (hturns : s.turnsAlong host operations = before ++ turn :: after)
    have hleads := hturns ▸ s.turnsAlong_leads host operations
    have hinvariant := h.pollingInvariant hleads.of_turn.1
    obtain ⟨-, hcustom⟩ := h.payload_of_mem (hturns ▸ List.mem_append_cons_self)
    refine ⟨hinvariant.response, fun hstate => ?_⟩
    have hdue := turn.requests_due hinvariant hstate host
    rwa [hcustom] at hdue

/-- Two polls of one operation. -/
theorem polling_repeated : ∃ (host : Host Script) (s : Session Script), s.IsNew ∧
    let made := requests (s.callLog host [.setRegistrationPayload (utf8 "7"), .register 4500])
    made.length = 3 ∧ made[1]? = made[2]? := by
  let message : Message := {
    topic := "$dps/registrations/res/202/?$rid=1"
    payload := utf8 "\x7b\"operationId\":\"4\",\"status\":\"assigning\"\x7d" }
  let response : RegistrationResponse := ⟨202, "4", .assigning, 0, .empty⟩
  let script : Script := [.ok [], .ok [.suback 1], .ok [.publish message], .ok [], .ok [],
    .ok [.publish message], .ok [], .ok [], .ok []]
  -- the time goes on with the script
  let host : Host Script := { Host.scripted with
    now := fun script => (100 - 10 * UInt64.ofNat script.length, script) }
  let s : Session Script := .scripted script
  let operations : List (Operation Script) := [.setRegistrationPayload (utf8 "7"), .register 4500]
  have hnew : s.IsNew := Session.isNew_scripted script
  obtain ⟨-, -, hunique, -⟩ := hnew.polling host operations
  have hlength : (requests (s.callLog host operations)).length = 3 := by decide +kernel
  have hresponses : (s.turnsAlong host operations).filterMap Turn.pending? =
      [response, response] := by
    decide +kernel
  have hrequest (i : Nat) (hi : i < 3) :=
    List.getElem?_eq_getElem (l := requests (s.callLog host operations)) (hlength ▸ hi)
  have hone := hrequest 1 (by decide)
  have htwo := hrequest 2 (by decide)
  have hsame := hunique 0 1 response response _ _ (by rw [hresponses]; rfl)
    (by rw [hresponses]; rfl) rfl hone htwo
  exact ⟨host, s, hnew, hlength, hone.trans ((congrArg some hsame).trans htwo.symm)⟩

end Runs

end DeviceTrust.Provisioning
