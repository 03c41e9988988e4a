import DeviceTrust.Proofs.Provisioning.Polling

/-!
# The order of calls

A client connects once, subscribes once it is connected, publishes once its subscription has been
acknowledged, and publishes again only when it has read a response that leaves the operation
pending. After a call has failed it makes no other call, and answers with the failure of that call.

The order is that of the calls that the host gets: each of them is allowed by those before it
(`Allowed`). `CallInvariant` says what the state of a client tells about the calls so far. Every step
keeps it, as long as an event that the client is handed has come with the last call; in a run all of
them have.

Results:
* `Turn.isTurn_log`: the calls of one turn.
* `CallInvariant.step`, `Client.HasPast.callInvariant`: what every step keeps, and so every past.
* `Session.IsNew.deferred`: what lies between two requests.
* `Session.IsNew.call_order`: the order of calls in every run.
-/

namespace DeviceTrust.Provisioning

/-! ## What a call needs -/

@[simp] def Moment.isConnect : Moment → Bool
  | .connect _ _ => true
  | _ => false

@[simp] def Moment.isSubscribe : Moment → Bool
  | .subscribe _ _ _ => true
  | _ => false

@[simp] def Moment.isPublish : Moment → Bool
  | .publish _ _ _ _ => true
  | _ => false

/-- No call has failed. -/
def Unfailed (log : List Moment) : Prop :=
  ∀ m ∈ log, m.failure? = none

/-- An acknowledgement has been received after a subscription that succeeded. -/
def Acknowledged (log : List Moment) : Prop :=
  ∃ before filter qos packetId after, log = before ++ .subscribe filter qos (.ok packetId) :: after ∧
    ∃ wait events packetId', .processLoop wait (.ok events) ∈ after ∧ .suback packetId' ∈ events

/-- The calls that must have been made before a call. -/
def Allowed (log : List Moment) : Moment → Prop
  | .connect _ _ => Unfailed log ∧ ∀ m ∈ log, m.isConnect = false
  | .subscribe _ _ _ => Unfailed log ∧ (∃ info, .connect info (.ok ()) ∈ log) ∧
      ∀ m ∈ log, m.isSubscribe = false
  | .publish _ _ _ _ => Unfailed log ∧ Acknowledged log
  | .processLoop _ _ => Unfailed log
  | .deliver _ | .keep _ | .read _ _ | .drop => True

/-- Every call is allowed by those before it. -/
def InOrder (log : List Moment) : Prop :=
  ∀ before m after, log = before ++ m :: after → Allowed before m

/-- At most one call that connects, subscribes or publishes, and then at most one that sends and
receives. -/
def IsTurn (calls : List Call) : Prop :=
  ∃ actions loops, calls = actions ++ loops ∧ actions.length ≤ 1 ∧ loops.length ≤ 1 ∧
    (∀ call ∈ actions, ∀ timeout, call ≠ .processLoop timeout) ∧
    ∀ call ∈ loops, ∃ timeout, call = .processLoop timeout

theorem inOrder_nil : InOrder [] := by
  intro before m after h
  simp at h

/-- A place in the first part or in the second one. -/
theorem append_eq_append_cons {α : Type} {past now before after : List α} {m : α}
    (h : past ++ now = before ++ m :: after) :
    (∃ after', past = before ++ m :: after') ∨
      ∃ before', now = before' ++ m :: after ∧ before = past ++ before' := by
  rcases List.append_eq_append_iff.mp h with ⟨before', hbefore, hnow⟩ | ⟨tail, hpast, htail⟩
  · exact .inr ⟨before', hnow, hbefore⟩
  · cases tail with
    | nil => exact .inr ⟨[], by simpa using htail.symm, by simpa using hpast.symm⟩
    | cons x tail =>
      obtain ⟨rfl, -⟩ := List.cons.inj htail
      exact .inl ⟨tail, hpast⟩

theorem InOrder.concat {log : List Moment} {m : Moment} (h : InOrder log) (hm : Allowed log m) :
    InOrder (log ++ [m]) := by
  intro before m' after heq
  rcases append_eq_append_cons heq with ⟨after', hlog⟩ | ⟨before', hnow, rfl⟩
  · exact h before m' after' hlog
  · obtain ⟨rfl, rfl, -⟩ : before' = [] ∧ m = m' ∧ after = [] := by
      cases before' with
      | nil =>
        obtain ⟨hself, hrest⟩ := List.cons.inj hnow
        exact ⟨rfl, hself, hrest.symm⟩
      | cons x before' => simp at hnow
    rwa [List.append_nil]

theorem Acknowledged.append {log : List Moment} (h : Acknowledged log) (now : List Moment) :
    Acknowledged (log ++ now) := by
  obtain ⟨before, filter, qos, packetId, after, rfl, wait, events, packetId', hmem, hsuback⟩ := h
  refine ⟨before, filter, qos, packetId, after ++ now, ?_, wait, events, packetId',
    List.mem_append_left _ hmem, hsuback⟩
  rw [List.append_assoc, List.cons_append]

/-! ## The calls of a turn -/

section Turns

variable {σ : Type}

theorem calls_append (past now : List Moment) : calls (past ++ now) = calls past ++ calls now :=
  List.filterMap_append

theorem calls_batchMoments (c : Client) (events : List Event) :
    calls (c.batchMoments events) = [] := by
  refine List.filterMap_eq_nil_iff.mpr fun m hm => ?_
  rcases Client.of_mem_batchMoments hm with ⟨event, -, rfl⟩ | ⟨message, -, rfl⟩ <;> rfl

theorem calls_processMoments (s : Session σ) (host : Host σ) (wait : Nat) :
    calls (s.processMoments host wait) = [.processLoop wait] := by
  rw [Session.processMoments_eq]
  split
  next events _ => exact congrArg (Call.processLoop wait :: ·) (calls_batchMoments s.client events)
  next => rfl

theorem calls_readMoments (s : Session σ) : calls s.readMoments = [] := by
  unfold Session.readMoments
  repeat' split
  all_goals rfl

/-- An action makes at most one call, which is none that sends and receives. -/
theorem calls_actCall? (s : Session σ) (host : Host σ) :
    (calls (s.actCall? host).toList).length ≤ 1 ∧
      ∀ call ∈ calls (s.actCall? host).toList, ∀ timeout, call ≠ .processLoop timeout := by
  unfold Session.actCall?
  repeat' split
  all_goals simp [calls]

theorem calls_actMoments (s : Session σ) (host : Host σ) :
    calls (s.actMoments host) = calls (s.actCall? host).toList := by
  rw [Session.actMoments_eq, calls_append, calls_readMoments, List.append_nil]

/-- The calls that a host gets in a turn. -/
theorem Turn.isTurn_log (turn : Turn σ) (host : Host σ) : IsTurn (calls (turn.log host)) := by
  obtain ⟨hlength, hactions⟩ := calls_actCall? turn.session host
  rw [log_eq, calls_append]
  split
  next => exact ⟨_, [], rfl, hlength, Nat.zero_le _, hactions, List.forall_mem_nil _⟩
  next =>
    exact ⟨_, _, rfl, hlength, Nat.le_refl _, hactions,
      fun _ h => ⟨turn.wait, List.mem_singleton.mp h⟩⟩

end Turns

/-! ## Where events come from -/

/-- The last call has received the event. -/
def Received (log : List Moment) (event : Event) : Prop :=
  ∃ wait events, log.getLast? = some (.processLoop wait (.ok events)) ∧ event ∈ events

/-- Every event that is delivered has come with the last call before. -/
def Sourced (past : List Moment) : Prop :=
  ∀ before event after, past = before ++ .deliver event :: after →
    Received (before.filter Moment.isCall) event

section Sources

variable {past now : List Moment}

theorem Received.append {event : Event} (h : Received now event) (past : List Moment) :
    Received (past ++ now) event := by
  obtain ⟨wait, events, hlast, hmem⟩ := h
  exact ⟨wait, events, by rw [List.getLast?_append, hlast, Option.some_or], hmem⟩

theorem Sourced.append (h : Sourced past) (h' : Sourced now) : Sourced (past ++ now) := by
  intro before event after heq
  rcases append_eq_append_cons heq with ⟨after', hpast⟩ | ⟨before', hnow, rfl⟩
  · exact h before event after' hpast
  · rw [List.filter_append]
    exact (h' before' event after hnow).append _

theorem Sourced.of_append (h : Sourced (past ++ now)) : Sourced past := by
  intro before event after heq
  refine h before event (after ++ now) ?_
  rw [heq, List.append_assoc, List.cons_append]

theorem sourced_of_not_mem (h : ∀ event, .deliver event ∉ past) : Sourced past := by
  intro before event after heq
  exact absurd (heq ▸ List.mem_append_right _ List.mem_cons_self) (h event)

theorem sourced_nil : Sourced [] :=
  sourced_of_not_mem fun _ => List.not_mem_nil

variable {σ : Type}

/-- In an action a client makes a call or reads a message. -/
theorem Session.of_mem_actMoments {s : Session σ} {host : Host σ} {m : Moment}
    (h : m ∈ s.actMoments host) :
    m.isCall = true ∨ ∃ message result, m = .read message result := by
  rw [actMoments_eq] at h
  rcases List.mem_append.mp h with hcall | hread
  · exact .inl (isCall_of_actCall? host (Option.mem_toList.mp hcall))
  · unfold readMoments at hread
    repeat' split at hread
    all_goals simp only [List.mem_singleton, List.not_mem_nil] at hread
    exact .inr ⟨_, _, hread⟩

theorem deliver_notMem_actMoments (s : Session σ) (host : Host σ) (event : Event) :
    .deliver event ∉ s.actMoments host := by
  intro hmem
  rcases Session.of_mem_actMoments hmem with hcall | ⟨_, _, hread⟩
  · cases hcall
  · cases hread

theorem keep_notMem_actMoments (s : Session σ) (host : Host σ) (message : Message) :
    .keep message ∉ s.actMoments host := by
  intro hmem
  rcases Session.of_mem_actMoments hmem with hcall | ⟨_, _, hread⟩
  · cases hcall
  · cases hread

/-- What is delivered of a batch are its events. -/
theorem Client.mem_of_deliver_mem_batchMoments {c : Client} {events : List Event} {event : Event}
    (h : .deliver event ∈ c.batchMoments events) : event ∈ events := by
  rcases of_mem_batchMoments h with ⟨event', hmem, heq⟩ | ⟨message, -, heq⟩
  · exact Moment.deliver.inj heq ▸ hmem
  · cases heq

/-- A message that is kept of a batch is in one of its events. -/
theorem Client.mem_of_keep_mem_batchMoments {c : Client} {events : List Event} {message : Message}
    (h : .keep message ∈ c.batchMoments events) : .publish message ∈ events := by
  rcases of_mem_batchMoments h with ⟨event, -, heq⟩ | ⟨message', hmem, heq⟩
  · cases heq
  · exact Moment.keep.inj heq ▸ hmem

theorem Session.sourced_processMoments (s : Session σ) (host : Host σ) (wait : Nat) :
    Sourced (s.processMoments host wait) := by
  rw [processMoments_eq]
  split
  next events _ =>
    intro before event after heq
    cases before with
    | nil => cases (List.cons.inj heq).1
    | cons m before =>
      obtain ⟨rfl, hbatch⟩ := List.cons.inj heq
      -- the call is the last one, as a batch has no calls
      have hnone := filter_batchMoments s.client events
      rw [hbatch, List.append_eq, List.filter_append, List.append_eq_nil_iff] at hnone
      rw [List.filter_cons_of_pos rfl, hnone.1]
      have hmem : .deliver event ∈ s.client.batchMoments events :=
        hbatch ▸ List.mem_append_right _ List.mem_cons_self
      exact ⟨wait, events, rfl, Client.mem_of_deliver_mem_batchMoments hmem⟩
  next => exact sourced_of_not_mem (by simp)

/-- In a run every event comes with a call. -/
theorem Run.sourced {host : Host σ} {operations : List (Operation σ)} {s : Session σ}
    (h : Run host operations past s) : Sourced past := by
  induction h with
  | new h outside => exact sourced_nil
  | @next operations past s h operation ih =>
    refine ih.append ?_
    cases operation with
    | register timeout limit hlimit =>
      exact Session.registerMoments_induction sourced_nil Sourced.append
        (fun s => sourced_of_not_mem (deliver_notMem_actMoments s host))
        (fun s wait => s.sourced_processMoments host wait) s timeout limit hlimit
    | deinit => exact sourced_of_not_mem (by simp [Session.moments])
    | setSymmetricKey | setRegistrationPayload | outside => exact sourced_nil

end Sources

/-! ## The invariant -/

/-- What the step of the workflow tells about the calls so far. -/
def Progress : WorkflowState → List Moment → Prop
  | .init, log | .connect, log => ∀ m ∈ log, m.isConnect = false ∧ m.isSubscribe = false
  | .subscribe, log => (∃ info, .connect info (.ok ()) ∈ log) ∧ ∀ m ∈ log, m.isSubscribe = false
  | .subscribing, log => ∃ filter qos packetId, .subscribe filter qos (.ok packetId) ∈ log
  | .request, log | .requesting, log | .response, log | .waiting, log => Acknowledged log
  | .complete, _ => True

/-- What the state of a client tells about the calls so far. -/
structure CallInvariant (log : List Moment) (c : Client) : Prop where
  inOrder : InOrder log
  progress : Progress c.state log
  /-- A call that has failed has completed the workflow. -/
  failed : ∀ m ∈ log, ∀ failure, m.failure? = some failure →
    c.state = .complete ∧ c.lastResult = .failed failure

namespace CallInvariant

variable {log now : List Moment} {c d : Client}

theorem unfailed (h : CallInvariant log c) (hopen : c.state ≠ .complete) : Unfailed log := by
  intro m hm
  cases hfailure : m.failure? with
  | none => rfl
  | some failure => exact absurd (h.failed m hm failure hfailure).1 hopen

/-- A step that leaves the workflow where it is. -/
theorem unchanged (h : CallInvariant log c) (hstate : d.state = c.state)
    (hresult : d.lastResult = c.lastResult) : CallInvariant log d :=
  ⟨h.inOrder, hstate ▸ h.progress, hstate ▸ hresult ▸ h.failed⟩

/-- A step of the workflow without a call. -/
theorem moved (h : CallInvariant log c) (hopen : c.state ≠ .complete)
    (hprogress : Progress d.state log) : CallInvariant log d := by
  refine ⟨h.inOrder, hprogress, fun m hm failure hfailure => ?_⟩
  rw [h.unfailed hopen m hm] at hfailure
  cases hfailure

/-- A step that completes the workflow without a call. -/
theorem ended (h : CallInvariant log c) (hopen : c.state ≠ .complete) (hstate : d.state = .complete) :
    CallInvariant log d :=
  h.moved hopen (hstate ▸ trivial)

/-- A call, which completes the workflow if it fails. -/
theorem call {m : Moment} (h : CallInvariant log c) (hopen : c.state ≠ .complete)
    (hallowed : Allowed log m) (hprogress : Progress d.state (log ++ [m]))
    (hfailed : ∀ failure, m.failure? = some failure →
      d.state = .complete ∧ d.lastResult = .failed failure) : CallInvariant (log ++ [m]) d := by
  refine ⟨h.inOrder.concat hallowed, hprogress, List.forall_mem_append.mpr ⟨?_, ?_⟩⟩
  · intro m hm failure hfailure
    rw [h.unfailed hopen m hm] at hfailure
    cases hfailure
  · exact List.forall_mem_singleton.mpr hfailed

/-- The call of an action: it goes on to the next step, or fails and completes the workflow. -/
theorem called {α : Type} {m : Moment} {failure : Failure} {result : Except TransportError α}
    (h : CallInvariant log c) (hopen : c.state ≠ .complete) (hallowed : Allowed log m)
    (hm : m.failure? = match result with | .ok _ => none | .error _ => some failure)
    (hstate : d.state = c.state)
    (hprogress : ∀ a, result = .ok a → Progress (c.state.next .success) (log ++ [m])) :
    CallInvariant (log ++ [m]) (d.settle (callOutcome failure result)) := by
  cases result with
  | ok a =>
    refine h.call hopen hallowed ?_ fun failure' hfailure => ?_
    · rw [callOutcome, Client.settle_state, hstate]
      exact hprogress a rfl
    · rw [hm] at hfailure
      cases hfailure
  | error e =>
    have hcomplete : (d.settle (.failed failure)).state = .complete := WorkflowState.next_failed _ _
    refine h.call hopen hallowed ?_ fun failure' hfailure => ⟨hcomplete, ?_⟩
    · rw [callOutcome, hcomplete]
      exact trivial
    · obtain rfl := Option.some.inj (hm.symm.trans hfailure)
      rfl

/-- Receiving changes nothing of what the step of the workflow tells. -/
theorem progress_processLoop {state : WorkflowState} (h : Progress state log) (wait : Nat)
    (result : Except TransportError (List Event)) :
    Progress state (log ++ [.processLoop wait result]) := by
  cases state with
  | init | connect =>
    exact List.forall_mem_append.mpr ⟨h, List.forall_mem_singleton.mpr ⟨rfl, rfl⟩⟩
  | subscribe =>
    obtain ⟨⟨info, hmem⟩, hnone⟩ := h
    exact ⟨⟨info, List.mem_append_left _ hmem⟩,
      List.forall_mem_append.mpr ⟨hnone, List.forall_mem_singleton.mpr rfl⟩⟩
  | subscribing =>
    obtain ⟨filter, qos, packetId, hmem⟩ := h
    exact ⟨filter, qos, packetId, List.mem_append_left _ hmem⟩
  | request | requesting | response | waiting => exact Acknowledged.append h _
  | complete => exact trivial

/-- The acknowledgement that is waited for has come after the subscription. -/
theorem acknowledged (h : Progress .subscribing log) {packetId : UInt16}
    (hsource : Received log (.suback packetId)) : Acknowledged log := by
  obtain ⟨filter, qos, id, hsubscribed⟩ := h
  obtain ⟨wait, events, hlast, hsuback⟩ := hsource
  obtain ⟨before, after, rfl⟩ := List.append_of_mem hsubscribed
  refine ⟨before, filter, qos, id, after, rfl, wait, events, packetId, ?_, hsuback⟩
  rw [List.getLast?_append, List.getLast?_cons, Option.some_or] at hlast
  cases after with
  | nil => cases hlast
  | cons m after =>
    rw [List.getLast?_eq_some_getLast (List.cons_ne_nil m after)] at hlast
    exact Option.some.inj hlast ▸ List.getLast_mem (List.cons_ne_nil m after)

theorem deliver (h : CallInvariant log c) {event : Event} (hsource : Received log event) :
    CallInvariant log (c.handleEvent event) := by
  cases event with
  | other packetType => exact h
  | suback packetId =>
    show CallInvariant _ (if c.state = .subscribing then c.settle .success else c)
    split
    next hstate =>
      refine h.moved (by simp [hstate]) ?_
      rw [Client.settle_state, hstate]
      exact acknowledged (hstate ▸ h.progress) hsource
    next => exact h
  | publish message =>
    show CallInvariant _ (c.receive message)
    rcases c.receive_cases message with ⟨-, heq⟩ | ⟨-, hstate, heq⟩ | ⟨hkeeps, lastResult, heq⟩
    · rwa [heq]
    · rw [heq]
      have hopen : c.state ≠ .complete := by
        rcases hstate with hstate | hstate <;> simp [hstate]
      exact h.ended hopen (WorkflowState.next_failed _ _)
    · rw [heq]
      have hp := h.progress
      rcases hkeeps.2.1 with hstate | hstate
      · exact h.moved (by simp [hstate]) (by rwa [hstate] at hp)
      · exact h.moved (by simp [hstate]) (by rwa [hstate] at hp)

theorem step (h : CallInvariant log c) (hs : c.Step now d)
    (hsource : ∀ event after, now = .deliver event :: after → Received log event) :
    CallInvariant (log ++ now.filter Moment.isCall) d := by
  have hp := h.progress
  have hquiet (hnow : now.filter Moment.isCall = []) (hd : CallInvariant log d) :
      CallInvariant (log ++ now.filter Moment.isCall) d := by
    rwa [hnow, List.append_nil]
  cases hs with
  | start hstate =>
    refine hquiet rfl (h.moved (by simp [hstate]) ?_)
    rw [Client.settle_state, hstate]
    rwa [hstate] at hp
  | setKey | setPayload | deinit | readOther => exact hquiet rfl (h.unchanged rfl rfl)
  | connect hstate buffer info result =>
    rw [hstate] at hp
    refine h.called (by simp [hstate]) ⟨h.unfailed (by simp [hstate]), fun m hm => (hp m hm).1⟩
      (by cases result <;> rfl) rfl ?_
    rintro _ rfl
    rw [hstate]
    refine ⟨⟨info, by simp⟩, List.forall_mem_append.mpr ⟨fun m hm => (hp m hm).2, ?_⟩⟩
    exact List.forall_mem_singleton.mpr rfl
  | connectFailed hstate | publishFailed hstate | readNothing hstate | readFailed hstate =>
    exact hquiet rfl (h.ended (by simp [hstate]) (WorkflowState.next_failed _ _))
  | subscribe hstate result =>
    rw [hstate] at hp
    refine h.called (by simp [hstate]) ⟨h.unfailed (by simp [hstate]), hp⟩
      (by cases result <;> rfl) rfl ?_
    rintro packetId rfl
    rw [hstate]
    exact ⟨responseFilter, .atMostOnce, packetId, by simp⟩
  | publish hstate buffer topic payload result =>
    rw [hstate] at hp
    refine h.called (by simp [hstate]) ⟨h.unfailed (by simp [hstate]), hp⟩
      (by cases result <;> rfl) rfl fun _ _ => ?_
    rw [hstate]
    exact Acknowledged.append hp _
  | @read hstate message response hm hr deadline =>
    rw [hstate] at hp
    refine hquiet rfl (h.moved (by simp [hstate]) ?_)
    rw [Client.settle_state, hstate, RegistrationResponse.result]
    cases response.operationStatus with
    | assigned | failed | disabled => exact trivial
    | unassigned | assigning => exact hp
  | poll hstate =>
    refine hquiet rfl (h.moved (by simp [hstate]) ?_)
    rw [Client.settle_state, hstate]
    rwa [hstate] at hp
  | process hopen timeout events =>
    exact h.call hopen (h.unfailed hopen) (progress_processLoop hp timeout _) (by simp)
  | processFailed hopen timeout e =>
    have hresult : callOutcome .processLoopFailed (.error e : Except TransportError (List Event)) =
        .failed .processLoopFailed := rfl
    exact hresult ▸ h.called hopen (h.unfailed hopen) rfl rfl fun _ hok => by cases hok
  | deliver event =>
    rcases c.eventMoments_cases event with heq | ⟨message, -, heq⟩
    · exact hquiet (by rw [heq]; rfl) (h.deliver (hsource event [] heq))
    · exact hquiet (by rw [heq]; rfl) (h.deliver (hsource event [.keep message] heq))

end CallInvariant

theorem Client.HasPast.callInvariant {past : List Moment} {c : Client} (h : c.HasPast past)
    (hsourced : Sourced past) : CallInvariant (past.filter Moment.isCall) c := by
  induction h with
  | new h =>
    refine ⟨inOrder_nil, ?_, List.forall_mem_nil _⟩
    rw [(new_cases h).1]
    exact List.forall_mem_nil _
  | @next past now c c' h hs ih =>
    rw [List.filter_append]
    refine (ih hsourced.of_append).step hs fun event after hnow => ?_
    exact hsourced past event after (hnow ▸ rfl)

/-! ## Between two requests -/

section Runs

variable {σ : Type} {host : Host σ} {s t : Session σ}

/-- A request is made in the turn. -/
def Turn.Requests (turn : Turn σ) (host : Host σ) : Prop :=
  ∃ m ∈ turn.log host, m.isPublish = true

/-- An event is received in the turn. -/
def Turn.Gets (turn : Turn σ) (host : Host σ) (event : Event) : Prop :=
  ∃ wait events, .processLoop wait (.ok events) ∈ turn.log host ∧ event ∈ events

/-- Before the next request, a message has been received that a turn then finds kept, and reads as a
response that leaves the operation pending. -/
def Deferred (host : Host σ) (first : Turn σ) (between : List (Turn σ)) : Prop :=
  ∃ earlier later rest message response, between = earlier ++ later :: rest ∧
    (∃ turn ∈ first :: earlier, turn.Gets host (.publish message)) ∧
    later.session.client.message = some message ∧ later.Reads response ∧
    response.operationStatus.isPending = true

/-- The turn of a request starts in the step that requests. -/
theorem Turn.Requests.state_eq {turn : Turn σ} (h : turn.Requests host) :
    turn.session.client.state = .request := by
  obtain ⟨m, hmem, hpublish⟩ := h
  rw [log_eq] at hmem
  rcases List.mem_append.mp hmem with hmem | hmem
  · have hcall := Option.mem_toList.mp hmem
    cases hstate : turn.session.client.state with
    | request => rfl
    | connect =>
      simp only [Session.actCall?, hstate] at hcall
      split at hcall
      next =>
        cases hcall
        cases hpublish
      next => cases hcall
    | subscribe =>
      simp only [Session.actCall?, hstate] at hcall
      cases hcall
      cases hpublish
    | init | subscribing | requesting | response | waiting | complete =>
      simp only [Session.actCall?, hstate] at hcall
      cases hcall
  · split at hmem
    next => cases hmem
    next =>
      obtain rfl := List.mem_singleton.mp hmem
      cases hpublish

theorem Turn.Requests.requests_ne_nil {turn : Turn σ} (h : turn.Requests host) :
    requests (turn.log host) ≠ [] := by
  obtain ⟨m, hmem, hpublish⟩ := h
  intro hnil
  have hnone := List.filterMap_eq_nil_iff.mp hnil m hmem
  cases m with
  | publish => cases hnone
  | connect | subscribe | processLoop | deliver | keep | read | drop => cases hpublish

/-- A message that is kept in a turn is received in it. -/
theorem Turn.gets_of_keep_mem {turn : Turn σ} {message : Message}
    (h : .keep message ∈ turn.moments host) : turn.Gets host (.publish message) := by
  rw [moments, Session.turnMoments] at h
  rcases List.mem_append.mp h with hact | hprocess
  · exact absurd hact (keep_notMem_actMoments turn.session host message)
  · split at hprocess
    next => cases hprocess
    next hopen =>
      have hopen : ¬(turn.acted host).client.state = .complete := hopen
      rw [Session.processMoments_eq] at hprocess
      split at hprocess
      next events hresult =>
        refine ⟨turn.wait, events, ?_, ?_⟩
        · have hresult : (host.processLoop turn.wait (turn.acted host).outside).1 = .ok events :=
            hresult
          rw [log_eq, if_neg hopen, hresult]
          exact List.mem_append_right _ List.mem_cons_self
        · have hbatch : .keep message ∈ (turn.session.act host).client.batchMoments events :=
            (List.mem_cons.mp hprocess).resolve_left (by simp)
          exact Client.mem_of_keep_mem_batchMoments hbatch
      next => simp at hprocess

/-- A message that turns have led to has been received in one of them, unless it was there before. -/
theorem Session.Leads.gets {turns : List (Turn σ)} (h : s.Leads host turns t) {message : Message}
    (hbefore : s.client.message = none) (hm : t.client.message = some message) :
    ∃ turn ∈ turns, turn.Gets host (.publish message) := by
  obtain ⟨now, hsteps, hkept⟩ := h.steps
  rcases hsteps.message_cases hm with hm | hkeep
  · rw [hbefore] at hm
    cases hm
  · have hmem : message ∈ now.filterMap Moment.kept? := List.mem_filterMap.mpr ⟨_, hkeep, rfl⟩
    rw [hkept Moment.kept? rfl, List.mem_filterMap] at hmem
    obtain ⟨m, hmem, hmessage⟩ := hmem
    obtain ⟨turn, hturn, hmem⟩ := List.mem_flatMap.mp hmem
    cases m with
    | keep message' =>
      obtain rfl := Option.some.inj hmessage
      exact ⟨turn, hturn, Turn.gets_of_keep_mem hmem⟩
    | connect | subscribe | publish | processLoop | deliver | read | drop => cases hmessage

/-- Between two requests a response that leaves the operation pending is read. The counts say so: at
both of them there are as many requests as there are pending responses. -/
theorem Session.IsNew.pendings_ne_nil (h : s.IsNew) {before between after : List (Turn σ)}
    {first second : Turn σ} (hleads : s.Leads host (before ++ first :: between ++ second :: after) t)
    (hfirst : first.Requests host) (hsecond : second.Requests host) :
    between.filterMap Turn.pending? ≠ [] := by
  obtain ⟨hsecondLeads, -⟩ := hleads.of_turn
  obtain ⟨hfirstLeads, -⟩ := hsecondLeads.of_turn
  have hcounts := (h.pollingInvariant hfirstLeads).counts
  have hcounts' := (h.pollingInvariant hsecondLeads).counts
  rw [hfirst.state_eq] at hcounts
  rw [hsecond.state_eq, List.flatMap_append, List.filterMap_append, requests_append,
    List.flatMap_cons, requests_append] at hcounts'
  have hpositive := List.length_pos_iff.mpr hfirst.requests_ne_nil
  have hnone : first.pending? = none := if_neg (by rw [hfirst.state_eq]; decide)
  rw [List.filterMap_cons_none hnone] at hcounts'
  intro hnil
  simp only [WorkflowState.Counts, List.length_append, hnil, List.length_nil] at hcounts hcounts'
  omega

/-- When a request is made no message is kept, so the message of that response is received in between
as well. -/
theorem Session.IsNew.deferred (h : s.IsNew) {before between after : List (Turn σ)}
    {first second : Turn σ} (hleads : s.Leads host (before ++ first :: between ++ second :: after) t)
    (hfirst : first.Requests host) (hsecond : second.Requests host) :
    Deferred host first between := by
  obtain ⟨response, hresponse⟩ :=
    List.exists_mem_of_ne_nil _ (h.pendings_ne_nil hleads hfirst hsecond)
  obtain ⟨later, hlater, hpending⟩ := List.mem_filterMap.mp hresponse
  obtain ⟨hreads, hpending⟩ := Turn.pending?_eq_some_iff.mp hpending
  obtain ⟨earlier, rest, rfl⟩ := List.append_of_mem hlater
  obtain ⟨message, hm, -⟩ := hreads.2
  refine ⟨earlier, later, rest, message, response, rfl, ?_, hm, hreads, hpending⟩
  obtain ⟨hfirstLeads, hnext⟩ := hleads.of_turn.1.of_turn
  obtain ⟨_, _, _, _, _, hnew⟩ := h
  obtain ⟨past, hsteps, -⟩ := hfirstLeads.steps
  have hempty := ((Client.HasPast.new hnew).steps hsteps).message_eq_none
    (by rw [hfirst.state_eq]; decide) (by rw [hfirst.state_eq]; decide)
  obtain ⟨hreached, -⟩ := hnext.of_turn
  exact (Leads.turn .refl hreached).gets hempty hm

/-! ## Runs -/

theorem Session.IsNew.callInvariant (h : s.IsNew) (host : Host σ) (operations : List (Operation σ)) :
    CallInvariant (s.callLog host operations) (s.applyAll host operations).client := by
  rw [Session.callLog_eq]
  exact (h.run host operations).hasPast.callInvariant (h.run host operations).sourced

/-- The calls that the host gets in a run are made in its turns, and each of them is allowed by those
before it. A turn makes at most one call that connects, subscribes or publishes, and then at most one
that sends and receives. Between two requests a response that leaves the operation pending is
received, kept and read. Once a call has failed, every registration answers with its failure: the one
in which it has failed and the ones after it. -/
theorem Session.IsNew.call_order (h : s.IsNew) (host : Host σ) (operations : List (Operation σ)) :
    s.callLog host operations = (s.turnsAlong host operations).flatMap (Turn.log · host) ∧
    InOrder (s.callLog host operations) ∧
    (∀ turn : Turn σ, IsTurn (calls (turn.log host))) ∧
    (∀ before first between second after,
      s.turnsAlong host operations = before ++ first :: between ++ second :: after →
      first.Requests host → second.Requests host → Deferred host first between) ∧
    ∀ timeout limit (hlimit : 0 < limit),
      ∀ m ∈ s.callLog host (operations ++ [.register timeout limit hlimit]), ∀ failure,
        m.failure? = some failure →
        ((s.applyAll host operations).register host timeout limit hlimit).1 = .error failure := by
  refine ⟨s.callLog_eq_flatMap host operations, (h.callInvariant host operations).inOrder,
    fun turn => turn.isTurn_log host, ?_, ?_⟩
  · intro before first between second after hturns
    exact h.deferred (hturns ▸ s.turnsAlong_leads host operations)
  · intro timeout limit hlimit m hm failure hfailure
    have hlast : s.applyAll host (operations ++ [.register timeout limit hlimit]) =
        ((s.applyAll host operations).register host timeout limit hlimit).2 :=
      List.foldl_concat ..
    obtain ⟨hstate, hresult⟩ := (h.callInvariant host _).failed m hm failure hfailure
    rw [hlast] at hstate hresult
    show ((s.applyAll host operations).register host timeout limit hlimit).2.client.outcome = _
    rw [Client.outcome, hstate, hresult]
    rfl

/-- A session that breaks down after the subscription: the registration that follows fails in the
same way. -/
theorem call_order_broken : ∃ s : Session Script, s.IsNew ∧
    InOrder (s.callLog .scripted [.register 1000]) ∧
    ((s.applyAll .scripted [.register 1000]).register .scripted 0).1 = .error .processLoopFailed := by
  let s : Session Script := .scripted [.ok [], .error .timeout]
  have hnew : s.IsNew := Session.isNew_scripted _
  obtain ⟨-, horder, -, -, hfailed⟩ := hnew.call_order .scripted [.register 1000]
  have hlog : ((s.callLog .scripted ([.register 1000] ++ [.register 0])).any fun m =>
      m.failure? = some .processLoopFailed) = true := by
    decide +kernel
  obtain ⟨m, hm, hfailure⟩ := List.any_eq_true.mp hlog
  exact ⟨s, hnew, horder, hfailed 0 _ _ m hm _ (of_decide_eq_true hfailure)⟩

end Runs

end DeviceTrust.Provisioning
