import DeviceTrust.Proofs.Provisioning.Completion

/-!
# What a batch of events does

Events are taken into account one after the other, and one of them can change what becomes of those
behind it. What a batch comes to can be told from its events as a whole, all the same: by the
responses among them while a response is waited for, and by whether there is an acknowledgement
while the subscription is.

Results:
* `Client.receives_handleEvents`: a batch while a response is waited for.
* `Client.handleEvents_of_acknowledged`, `Client.handleEvents_of_unacknowledged`: a batch while the
  subscription is waited for.
* `Client.handleEvents_insert`: the events that can be left out, at the place where they stand.
* `Run.batch`: all of these, for the client of every run, also in the middle of an operation.
-/

namespace DeviceTrust.Provisioning

/-! ## The responses of a batch -/

/-- The topic of the message is that of a response. -/
def Message.IsResponse (message : Message) : Prop :=
  "$dps/registrations/res/".toList <+: message.topic.toList

instance (message : Message) : Decidable message.IsResponse :=
  inferInstanceAs (Decidable (_ <+: _))

/-- The message is larger than what a client keeps. -/
def Message.IsTooLarge (message : Message) : Prop :=
  640 < message.topic.utf8ByteSize + message.payload.length

instance (message : Message) : Decidable message.IsTooLarge :=
  inferInstanceAs (Decidable (_ < _))

/-- The response that an event brings. -/
def Event.response? : Event → Option Message
  | .publish message => if message.IsResponse then some message else none
  | .suback _ | .other _ => none

/-- The responses of a batch, in order. -/
def responses (events : List Event) : List Message :=
  events.filterMap Event.response?

/-- Whether an event has no effect on a client in this state. -/
def Event.IsIdleIn (state : WorkflowState) : Event → Prop
  | .other _ => True
  | .suback _ => state ≠ .subscribing
  | .publish message => message.IsResponse → state ≠ .requesting ∧ state ≠ .response

theorem responses_cons_of_none {event : Event} (h : event.response? = none)
    (events : List Event) : responses (event :: events) = responses events :=
  List.filterMap_cons_none h

theorem responses_cons_of_some {event : Event} {message : Message}
    (h : event.response? = some message) (events : List Event) :
    responses (event :: events) = message :: responses events :=
  List.filterMap_cons_some h

theorem Event.response?_eq_some {event : Event} {message : Message}
    (h : event.response? = some message) : event = .publish message ∧ message.IsResponse := by
  cases event with
  | publish message' =>
    rw [response?] at h
    split at h
    next hresponse =>
      obtain rfl := Option.some.inj h
      exact ⟨rfl, hresponse⟩
    next => cases h
  | suback | other => cases h

namespace Client

variable {c c' d : Client} {past now : List Moment} {messages : List Message}

/-! ## One event -/

theorem handleEvent_of_idle {event : Event} (h : event.IsIdleIn c.state) :
    c.handleEvent event = c := by
  cases event with
  | other packetType => rfl
  | suback packetId => exact if_neg h
  | publish message =>
    rw [handleEvent]
    rcases c.receive_cases message with ⟨-, heq⟩ | ⟨-, hstate, heq⟩ | ⟨hkeeps, -⟩
    · exact heq
    · by_cases hresponse : message.IsResponse
      · obtain ⟨hrequesting, hnot⟩ := h hresponse
        exact absurd hstate (not_or.mpr ⟨hrequesting, hnot⟩)
      · exact if_pos fun hprefix => hresponse (List.isPrefixOf_iff_prefix.mp hprefix)
    · obtain ⟨hrequesting, hnot⟩ := h (List.isPrefixOf_iff_prefix.mp hkeeps.1)
      exact absurd hkeeps.2.1 (not_or.mpr ⟨hrequesting, hnot⟩)

theorem handleEvents_cons (c : Client) (event : Event) (events : List Event) :
    c.handleEvents (event :: events) = (c.handleEvent event).handleEvents events := rfl

/-- An event that has no effect where it stands can be left out of its batch. -/
theorem handleEvents_insert {before : List Event} {event : Event}
    (h : event.IsIdleIn (c.handleEvents before).state) (after : List Event) :
    c.handleEvents (before ++ event :: after) = c.handleEvents (before ++ after) := by
  rw [handleEvents_append, handleEvents_append, handleEvents_cons, handleEvent_of_idle h]

/-! ## Waiting for a response -/

/-- The client waits for a response, or for a later one that takes its place. -/
def ExpectsResponse (c : Client) : Prop :=
  c.state = .requesting ∨ c.state = .response

/-- The outcome that a client has when it keeps a response. -/
def keptResult (c : Client) : ActionResult :=
  if c.state = .requesting then .success else c.lastResult

/-- What a client becomes by the responses of a batch. -/
structure Receives (c : Client) (messages : List Message) (d : Client) : Prop where
  /-- Without a response nothing changes. -/
  nothing : messages = [] → d = c
  /-- One that is too large completes the workflow, wherever it stands. -/
  tooLarge : (∃ message ∈ messages, message.IsTooLarge) →
    d = { c with message := none, state := .complete, lastResult := .failed .outOfMemory }
  /-- Otherwise the last one is kept. -/
  last : (∀ message ∈ messages, ¬message.IsTooLarge) → ∀ message ∈ messages.getLast?,
    d = { c with message := some message, state := .response, lastResult := c.keptResult }

theorem receive_of_tooLarge {message : Message} (h : c.ExpectsResponse) (hresponse : message.IsResponse)
    (hsize : message.IsTooLarge) : c.receive message =
      { c with message := none, state := .complete, lastResult := .failed .outOfMemory } := by
  rw [receive_of_overflows ⟨hresponse, h, hsize⟩, settle, WorkflowState.next_failed]

theorem receive_of_fits {message : Message} (h : c.ExpectsResponse) (hresponse : message.IsResponse)
    (hsize : ¬message.IsTooLarge) : c.receive message =
      { c with message := some message, state := .response, lastResult := c.keptResult } := by
  have htopic : responseTopicStart.toList.isPrefixOf message.topic.toList = true :=
    List.isPrefixOf_iff_prefix.mpr hresponse
  have hroom : ¬responseMax < message.size := hsize
  have hstate : ¬(c.state ≠ .requesting ∧ c.state ≠ .response) := by
    rcases h with hstate | hstate <;> simp [hstate]
  rw [receive, if_neg (not_not.mpr htopic), if_neg hstate, if_neg hroom, keptResult]
  rcases h with hstate | hstate <;> simp [hstate, settle, WorkflowState.next]

theorem Receives.nil (c : Client) : c.Receives [] c :=
  ⟨fun _ => rfl, fun ⟨_, hmem, _⟩ => absurd hmem List.not_mem_nil, fun _ _ h => by cases h⟩

theorem Receives.cons_tooLarge {message : Message} (hsize : message.IsTooLarge)
    (messages : List Message) : c.Receives (message :: messages)
      { c with message := none, state := .complete, lastResult := .failed .outOfMemory } where
  nothing h := by cases h
  tooLarge _ := rfl
  last h := absurd hsize (h message List.mem_cons_self)

/-- What comes after a response that has been kept decides which one is kept in the end. -/
theorem Receives.cons_fits {message : Message} (hsize : ¬message.IsTooLarge)
    (h : Receives
      { c with message := some message, state := .response, lastResult := c.keptResult } messages d) :
    c.Receives (message :: messages) d where
  nothing h := by cases h
  tooLarge := by
    rintro ⟨large, hmem, hlarge⟩
    rcases List.mem_cons.mp hmem with rfl | hmem
    · exact absurd hlarge hsize
    · exact h.tooLarge ⟨large, hmem, hlarge⟩
  last hfits kept hkept := by
    cases messages with
    | nil =>
      obtain rfl : message = kept := Option.some.inj hkept
      exact h.nothing rfl
    | cons next rest =>
      rw [List.getLast?_cons_cons] at hkept
      exact h.last (fun m hm => hfits m (List.mem_cons_of_mem _ hm)) kept hkept

/-- A batch counts by its responses while one is waited for. -/
theorem receives_handleEvents (h : c.ExpectsResponse) (events : List Event) :
    c.Receives (responses events) (c.handleEvents events) := by
  induction events generalizing c with
  | nil => exact .nil c
  | cons event events ih =>
    rw [handleEvents_cons]
    cases hevent : event.response? with
    | none =>
      have hidle : event.IsIdleIn c.state := by
        cases event with
        | other packetType => trivial
        | suback packetId =>
          show c.state ≠ .subscribing
          rcases h with hstate | hstate <;> simp [hstate]
        | publish message =>
          intro hresponse
          simp [Event.response?, hresponse] at hevent
      rw [responses_cons_of_none hevent, handleEvent_of_idle hidle]
      exact ih h
    | some message =>
      obtain ⟨rfl, hresponse⟩ := Event.response?_eq_some hevent
      rw [responses_cons_of_some hevent, handleEvent]
      by_cases hsize : message.IsTooLarge
      · rw [receive_of_tooLarge h hresponse hsize, handleEvents_of_deaf]
        · exact .cons_tooLarge hsize _
        · exact (by decide : ¬WorkflowState.complete.Listens)
      · rw [receive_of_fits h hresponse hsize]
        exact .cons_fits hsize (ih (.inr rfl))

/-! ## Waiting for the subscription -/

theorem handleEvent_of_not_suback {event : Event} (h : c.state = .subscribing)
    (hevent : ∀ packetId, event ≠ .suback packetId) : c.handleEvent event = c := by
  refine handleEvent_of_idle ?_
  cases event with
  | other packetType => trivial
  | suback packetId => exact absurd rfl (hevent packetId)
  | publish message =>
    intro _
    simp [h]

/-- Without an acknowledgement nothing changes. -/
theorem handleEvents_of_unacknowledged (h : c.state = .subscribing) {events : List Event}
    (hevents : ∀ packetId, .suback packetId ∉ events) : c.handleEvents events = c := by
  induction events with
  | nil => rfl
  | cons event events ih =>
    have hevent : c.handleEvent event = c :=
      handleEvent_of_not_suback h fun packetId heq => hevents packetId (heq ▸ List.mem_cons_self)
    rw [handleEvents_cons, hevent]
    exact ih fun packetId hmem => hevents packetId (List.mem_cons_of_mem _ hmem)

/-- The first acknowledgement goes on to the request, and what follows it has no effect. -/
theorem handleEvents_of_acknowledged (h : c.state = .subscribing) {events : List Event}
    {packetId : UInt16} (hevents : .suback packetId ∈ events) :
    c.handleEvents events = { c with state := .request, lastResult := .success } := by
  have hsettle : c.settle .success = { c with state := .request, lastResult := .success } := by
    rw [settle, h]
    rfl
  induction events with
  | nil => cases hevents
  | cons event events ih =>
    rw [handleEvents_cons]
    by_cases hevent : ∃ packetId, event = .suback packetId
    · obtain ⟨packetId, rfl⟩ := hevent
      rw [handleEvent, if_pos h, hsettle, handleEvents_of_deaf]
      exact (by decide : ¬WorkflowState.request.Listens)
    · rw [handleEvent_of_not_suback h (not_exists.mp hevent)]
      refine ih ((List.mem_cons.mp hevents).resolve_left fun heq => hevent ⟨packetId, heq.symm⟩)

end Client

/-! ## Runs -/

/-- What a batch of events makes of the client of a run, wherever its workflow stands, and also in the
middle of an operation, which takes its steps one after the other. While a response is waited for,
the responses of the batch count: one that is too large completes the workflow, and otherwise the
last one is kept. While the subscription is waited for, an acknowledgement goes on to the request. In
every other state nothing changes. So an event that has no effect where it stands can be left out, or
put in. -/
theorem Run.batch {σ : Type} {host : Host σ} {operations : List (Operation σ)} {past now : List Moment}
    {s : Session σ} {c : Client} (h : Run host operations past s) (hc : s.client.Steps now c)
    (events : List Event) :
    (c.state = .requesting ∨ c.state = .response →
      c.Receives (responses events) (c.handleEvents events)) ∧
    (c.state = .subscribing →
      ((∃ packetId, .suback packetId ∈ events) →
        c.handleEvents events = { c with state := .request, lastResult := .success }) ∧
      ((∀ packetId, .suback packetId ∉ events) → c.handleEvents events = c) ∧
      (c.handleEvents events).message = none) ∧
    (c.state ≠ .requesting → c.state ≠ .response → c.state ≠ .subscribing →
      c.handleEvents events = c) ∧
    ∀ before event after, event.IsIdleIn (c.handleEvents before).state →
      c.handleEvents (before ++ event :: after) = c.handleEvents (before ++ after) := by
  refine ⟨fun hstate => Client.receives_handleEvents hstate events, fun hstate => ?_, ?_, ?_⟩
  · have hmessage : c.message = none :=
      (h.hasPast.steps hc).message_eq_none (by simp [hstate]) (by simp [hstate])
    by_cases hevents : ∃ packetId, .suback packetId ∈ events
    · obtain ⟨packetId, hmem⟩ := hevents
      have heq := Client.handleEvents_of_acknowledged hstate hmem
      refine ⟨fun _ => heq, fun hnone => absurd hmem (hnone packetId), ?_⟩
      rw [heq]
      exact hmessage
    · have heq := Client.handleEvents_of_unacknowledged hstate (not_exists.mp hevents)
      refine ⟨fun hsome => absurd hsome hevents, fun _ => heq, ?_⟩
      rw [heq]
      exact hmessage
  · intro hrequesting hresponse hsubscribing
    exact Client.handleEvents_of_deaf (by simp [WorkflowState.Listens, *]) events
  · intro before event after hidle
    exact Client.handleEvents_insert hidle after

/-- A client that waits for a response: of two that fit it keeps the later one, and one that is too
large in their place fails the workflow. -/
theorem batch_requesting : ∃ past, ∃ s : Session Script, ∃ first large last : Message,
    Run .scripted [.register 1500] past s ∧ s.client.state = .requesting ∧
    (s.client.handleEvents [.suback 2, .publish first, .other 13, .publish last]).message =
      some last ∧
    (s.client.handleEvents [.publish large, .suback 2, .publish last]).message = none ∧
    (s.client.handleEvents [.publish large, .suback 2, .publish last]).lastResult =
      .failed .outOfMemory := by
  let message (payload : Bytes) : Message :=
    { topic := "$dps/registrations/res/202/?$rid=1", payload := payload }
  let script : Script := [.ok [], .ok [.suback 1], .ok []]
  let s : Session Script := Session.apply (.scripted script) .scripted (.register 1500)
  have hrun : Run .scripted [.register 1500] _ s := (Run.scripted script).next (.register 1500)
  have hstate : s.client.state = .requesting := by
    decide +kernel
  obtain ⟨hkept, -⟩ := hrun.batch (.refl s.client)
    [.suback 2, .publish (message [1]), .other 13, .publish (message [2])]
  obtain ⟨hfailed, -⟩ := hrun.batch (.refl s.client)
    [.publish (message (List.replicate 640 0)), .suback 2, .publish (message [2])]
  have hkept := (hkept (.inl hstate)).last (by decide +kernel) (message [2]) (by decide +kernel)
  have hfailed := (hfailed (.inl hstate)).tooLarge (by decide +kernel)
  refine ⟨_, s, message [1], message (List.replicate 640 0), message [2], hrun, hstate, ?_, ?_, ?_⟩
  · rw [hkept]
  · rw [hfailed]
  · rw [hfailed]

end DeviceTrust.Provisioning
