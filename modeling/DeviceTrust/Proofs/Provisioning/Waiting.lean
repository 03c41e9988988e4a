import DeviceTrust.Proofs.Provisioning.Completion

/-!
# Polls are on time

A response that leaves the operation pending asks for a delay. Until the clock shows a time after
this delay, each turn does nothing but send and receive, and pays no attention to what it receives.
The first turn that finds such a time goes on to the next request, and the turn after that one asks
for the status of the operation.

The clock may stand still or go back; only what a turn reads counts.

Results:
* `Turn.onlyReceives`: a turn in which events are of no effect.
* `Turn.acted_of_pending`, `Turn.acted_of_early`, `Turn.acted_of_late`: what the action makes of a
  client that reads a pending response, that waits, and that has waited for long enough.
* `Session.Leads.awaits`: the client still waits after any number of early turns.
* `Run.poll_timing`: the turns from a pending response to the next request, in every run.
-/

namespace DeviceTrust.Provisioning

variable {σ : Type} {host : Host σ}

/-! ## Turns that only send and receive -/

/-- The only call that the host gets in the turn is that of sending and receiving, and what is received
is of no effect. -/
structure Turn.OnlyReceives (turn : Turn σ) (host : Host σ) : Prop where
  call : ∃ result, turn.log host = [.processLoop turn.wait result]
  ignores : ∀ events, .processLoop turn.wait (.ok events) ∈ turn.log host →
    (turn.after host).client = (turn.acted host).client

theorem Turn.onlyReceives {turn : Turn σ} (hcall : turn.session.actCall? host = none)
    (hdeaf : ¬(turn.acted host).client.state.Listens)
    (hopen : (turn.acted host).client.state ≠ .complete) : turn.OnlyReceives host := by
  have hlog : turn.log host =
      [.processLoop turn.wait (host.processLoop turn.wait (turn.acted host).outside).1] := by
    rw [log_eq, hcall, if_neg hopen]
    rfl
  refine ⟨⟨_, hlog⟩, fun events hevents => ?_⟩
  have hafter : turn.after host = (turn.acted host).process host turn.wait := if_neg hopen
  rcases hrun : host.processLoop turn.wait (turn.acted host).outside with ⟨result, outside⟩
  rw [hlog, hrun] at hevents
  obtain ⟨-, rfl⟩ := Moment.processLoop.inj (List.mem_singleton.mp hevents)
  rw [hafter, Session.process, hrun]
  exact Client.handleEvents_of_deaf hdeaf events

theorem Turn.OnlyReceives.client_eq {turn : Turn σ} (h : turn.OnlyReceives host)
    (hunfailed : Unfailed (turn.log host)) :
    (turn.after host).client = (turn.acted host).client := by
  obtain ⟨result, hlog⟩ := h.call
  have hmem : .processLoop turn.wait result ∈ turn.log host := hlog ▸ List.mem_singleton_self _
  cases result with
  | ok events => exact h.ignores events hmem
  | error e => cases hunfailed _ hmem

/-! ## Waiting -/

/-- The client waits until a time after `deadline` to ask again for what the response has left
pending. -/
structure Client.Awaits (c : Client) (response : RegistrationResponse) (deadline : UInt64) :
    Prop where
  state : c.state = .waiting
  response : c.response = some response
  deadline : c.retryDeadline = deadline

namespace Turn

variable {turn : Turn σ} {response : RegistrationResponse} {deadline : UInt64}

/-- A pending response is waited for. -/
theorem acted_of_pending (host : Host σ) (h : turn.Reads response)
    (hpending : response.operationStatus.isPending = true) :
    (turn.acted host).client.Awaits response (turn.clock host + response.pollDelay) ∧
      turn.session.actCall? host = none := by
  obtain ⟨hstate, message, hm, hcarries⟩ := h
  have hread := readResponse_eq_some_iff.mpr hcarries
  have hnext : turn.session.client.state.next response.result = .waiting := by
    rw [hstate, RegistrationResponse.result_of_pending hpending]
    rfl
  constructor
  · rw [acted, Session.act, hstate]
    simp only [Session.readMessage, hm, hread, Session.accept, if_pos hpending]
    exact ⟨hnext, rfl, rfl⟩
  · rw [Session.actCall?, hstate]

theorem actCall?_of_awaits (h : turn.session.client.Awaits response deadline) :
    turn.session.actCall? host = none := by
  rw [Session.actCall?, h.state]

/-- As long as the time has not come, the action changes nothing. -/
theorem acted_of_early (h : turn.session.client.Awaits response deadline)
    (htime : turn.clock host ≤ deadline) : (turn.acted host).client = turn.session.client := by
  have hearly : ¬turn.session.client.retryDeadline < turn.clock host := by
    rw [h.deadline]
    exact UInt64.not_lt.mpr htime
  have hacted : turn.acted host = { turn.session with
      outside := (host.now turn.session.outside).2 } := by
    rw [acted, Session.act, h.state]
    exact if_neg hearly
  rw [hacted]

/-- Once it has come, the action goes on to the next request. -/
theorem acted_of_late (h : turn.session.client.Awaits response deadline)
    (htime : deadline < turn.clock host) : (turn.acted host).client.state = .request ∧
      (turn.acted host).client.response = some response := by
  have hlate : turn.session.client.retryDeadline < turn.clock host := by
    rw [h.deadline]
    exact htime
  have hacted : turn.acted host = {
      client := { turn.session.client with retryDeadline := 0 }.settle .success
      outside := (host.now turn.session.outside).2 } := by
    rw [acted, Session.act, h.state]
    exact if_pos hlate
  rw [hacted]
  constructor
  · rw [Client.settle_state, h.state]
    rfl
  · exact h.response

theorem onlyReceives_of_awaits (hcall : turn.session.actCall? host = none)
    (h : (turn.acted host).client.Awaits response deadline) : turn.OnlyReceives host := by
  refine onlyReceives hcall ?_ ?_
  · rw [h.state]
    decide
  · rw [h.state]
    decide

theorem onlyReceives_of_early (h : turn.session.client.Awaits response deadline)
    (htime : turn.clock host ≤ deadline) : turn.OnlyReceives host := by
  refine onlyReceives_of_awaits (actCall?_of_awaits h) (?_ : Client.Awaits _ response deadline)
  rw [acted_of_early h htime]
  exact h

theorem onlyReceives_of_late (h : turn.session.client.Awaits response deadline)
    (htime : deadline < turn.clock host) : turn.OnlyReceives host := by
  have hstate := (acted_of_late h htime).1
  refine onlyReceives (actCall?_of_awaits h) ?_ ?_
  · rw [hstate]
    decide
  · rw [hstate]
    decide

end Turn

theorem Session.Rests.awaits {s t : Session σ} {response : RegistrationResponse}
    {deadline : UInt64} (h : s.Rests host t) (hs : s.client.Awaits response deadline) :
    t.client.Awaits response deadline := by
  obtain ⟨hstate, hresponse, hdeadline⟩ := h.keeps (by simp [hs.state])
  exact ⟨hstate.trans hs.state, hresponse.trans hs.response, hdeadline.trans hs.deadline⟩

/-- The client still waits after any number of turns that are too early. -/
theorem Session.Leads.awaits {s u : Session σ} {response : RegistrationResponse}
    {deadline : UInt64} {waits rest : List (Turn σ)} {turn : Turn σ}
    (h : s.Leads host (waits ++ turn :: rest) u) (hs : s.client.Awaits response deadline)
    (hunfailed : ∀ t ∈ waits, Unfailed (t.log host)) (hwaits : ∀ t ∈ waits, t.clock host ≤ deadline) :
    turn.session.client.Awaits response deadline ∧ (turn.after host).Leads host rest u := by
  induction waits generalizing s with
  | nil =>
    cases h with
    | turn hrest hnext => exact ⟨hrest.awaits hs, hnext⟩
  | cons early waits ih =>
    cases h with
    | turn hrest hnext =>
      have hearly := hrest.awaits hs
      have htime := hwaits early List.mem_cons_self
      have hafter : (early.after host).client = early.session.client := by
        rw [(Turn.onlyReceives_of_early hearly htime).client_eq (hunfailed early List.mem_cons_self),
          Turn.acted_of_early hearly htime]
      refine ih hnext (hafter ▸ hearly) (fun t ht => ?_) fun t ht => ?_
      · exact hunfailed t (List.mem_cons_of_mem early ht)
      · exact hwaits t (List.mem_cons_of_mem early ht)

/-! ## The request that follows -/

/-- The first call that the host gets in the turn asks for the status of the operation that the
response names; or it gets none and the turn completes the workflow. -/
def Turn.Asks (turn : Turn σ) (host : Host σ) (response : RegistrationResponse) : Prop :=
  (∃ payload result, (turn.log host).head? =
    some (.publish (queryTopic response.operationId) payload .atMostOnce result)) ∨
  turn.log host = [] ∧ (turn.after host).client.state = .complete

theorem Turn.asks {turn : Turn σ} {response : RegistrationResponse}
    (hsize : minimumBufferSize ≤ turn.session.client.buffer.length)
    (hstate : turn.session.client.state = .request)
    (hresponse : turn.session.client.response = some response) : turn.Asks host response := by
  cases hrequest : turn.session.client.request? with
  | none =>
    obtain ⟨hlog, hcomplete, -⟩ := log_of_request?_eq_none hstate hsize hrequest host
    exact .inr ⟨hlog, hcomplete⟩
  | some request =>
    obtain ⟨topic, payload⟩ := request
    obtain ⟨rfl, -⟩ := Client.request?_eq_some_iff.mp hrequest
    obtain ⟨result, hhead⟩ := head?_log_of_request?_eq_some hstate hsize hrequest host
    have htopic : turn.session.client.requestTopic = queryTopic response.operationId := by
      rw [Client.requestTopic, hresponse]
    exact .inl ⟨payload, result, htopic ▸ hhead⟩

/-! ## Runs -/

/-- The seconds until the next poll: those that the service asks for, or else three. -/
def RegistrationResponse.delay (response : RegistrationResponse) : Nat :=
  if 0 < response.retryAfter.toNat then response.retryAfter.toNat else 3

theorem RegistrationResponse.toNat_pollDelay (response : RegistrationResponse) :
    response.pollDelay.toNat = response.delay := by
  rw [pollDelay, delay]
  by_cases hzero : response.retryAfter = 0
  · rw [if_pos hzero, hzero]
    rfl
  · have hpos : 0 < response.retryAfter.toNat := by
      rw [Nat.pos_iff_ne_zero]
      intro h
      exact hzero (UInt32.toNat_inj.mp h)
    rw [if_neg hzero, if_pos hpos]
    exact UInt32.toNat_toUInt64 _

variable {operations : List (Operation σ)} {past : List Moment} {s : Session σ}

/-- The turns from a pending response to the next request. The host gets all its calls in turns. Let
the turn `first` read the response at the time `t`, and let `turn` be a later one such that no turn
between them has read a time after `t + delay`, and no call has failed. The turn `first` only sends
and receives. If `turn` does not read such a time either, the client still waits and this turn does
not change it, and only sends and receives. Otherwise `turn` goes on to the next request, and it also
only sends and receives; and the turn after it asks for the status of the operation, or completes the
workflow. -/
theorem Run.poll_timing (h : Run host operations past s) (later : List (Operation σ))
    {before waits rest : List (Turn σ)} {first turn : Turn σ} {response : RegistrationResponse}
    (hturns : s.turnsAlong host later = before ++ first :: (waits ++ turn :: rest))
    (hreads : first.Reads response) (hpending : response.operationStatus.isPending = true)
    (hfits : (first.clock host).toNat + response.delay < UInt64.size)
    (hunfailed : ∀ t ∈ first :: waits, Unfailed (t.log host))
    (hwaits : ∀ t ∈ waits, (t.clock host).toNat ≤ (first.clock host).toNat + response.delay) :
    s.callLog host later = (s.turnsAlong host later).flatMap (Turn.log · host) ∧
    first.OnlyReceives host ∧
    ((turn.clock host).toNat ≤ (first.clock host).toNat + response.delay →
      turn.session.client.state = .waiting ∧
      (turn.acted host).client = turn.session.client ∧ turn.OnlyReceives host) ∧
    ((first.clock host).toNat + response.delay < (turn.clock host).toNat →
      turn.session.client.state = .waiting ∧
      (turn.acted host).client.state = .request ∧ turn.OnlyReceives host ∧
      (Unfailed (turn.log host) → ∀ next ∈ rest.head?, next.Asks host response)) := by
  -- the deadline is the sum itself, as it does not overflow
  have hdeadline : (first.clock host + response.pollDelay).toNat =
      (first.clock host).toNat + response.delay := by
    rw [UInt64.toNat_add, response.toNat_pollDelay, Nat.mod_eq_of_lt hfits]
  simp only [← hdeadline, ← UInt64.le_iff_toNat_le, ← UInt64.lt_iff_toNat_lt] at hwaits ⊢
  have hall := hturns ▸ s.turnsAlong_leads host later
  obtain ⟨-, hnext⟩ := hall.of_turn
  obtain ⟨hawaits, hcall⟩ := Turn.acted_of_pending host hreads hpending
  have hfirst := Turn.onlyReceives_of_awaits hcall hawaits
  have hafter : (first.after host).client.Awaits response (first.clock host + response.pollDelay) :=
    hfirst.client_eq (hunfailed first List.mem_cons_self) ▸ hawaits
  obtain ⟨hturn, hrest⟩ := hnext.awaits hafter
    (fun t ht => hunfailed t (List.mem_cons_of_mem first ht)) hwaits
  refine ⟨s.callLog_eq_flatMap host later, hfirst, fun htime => ?_, fun htime => ?_⟩
  · exact ⟨hturn.state, Turn.acted_of_early hturn htime, Turn.onlyReceives_of_early hturn htime⟩
  · obtain ⟨hstate, hresponse⟩ := Turn.acted_of_late hturn htime
    have honly := Turn.onlyReceives_of_late hturn htime
    refine ⟨hturn.state, hstate, honly, fun hturnUnfailed next hmem => ?_⟩
    obtain ⟨rest, rfl⟩ := List.head?_eq_some_iff.mp hmem
    have hclient := honly.client_eq hturnUnfailed
    cases hrest with
    | turn hrests _ =>
      obtain ⟨hnextState, hnextResponse, -⟩ := hrests.keeps (by simp [hclient, hstate])
      have hsplit : before ++ first :: (waits ++ turn :: next :: rest) =
          (before ++ first :: waits ++ [turn]) ++ next :: rest := by simp
      obtain ⟨now, hsteps, -⟩ := (hsplit ▸ hall).of_turn.1.steps
      have hsize := (h.hasPast.steps hsteps).pollingInvariant.size
      refine Turn.asks hsize (hnextState.trans ?_) (hnextResponse.trans ?_)
      · rw [hclient, hstate]
      · rw [hclient, hresponse]

/-- A service that asks for fifteen seconds, with a clock that goes on by ten in each turn: one turn
is too early, and ignores another response, and the one after it goes on. -/
theorem poll_timing_delayed : ∃ (host : Host Script) (s : Session Script)
    (response : RegistrationResponse) (first early turn next : Turn Script)
    (before rest : List (Turn Script)), Run host [] [] s ∧
    s.turnsAlong host [.register 3500] = before ++ first :: ([early] ++ turn :: next :: rest) ∧
    first.Reads response ∧ (first.clock host).toNat + response.delay = 75 ∧
    (early.clock host).toNat = 70 ∧ (turn.clock host).toNat = 80 ∧
    first.OnlyReceives host ∧ (turn.acted host).client.state = .request ∧
    next.Asks host response := by
  let message : Message := {
    topic := "$dps/registrations/res/202/?$rid=1&retry-after=15"
    payload := utf8 "\x7b\"operationId\":\"4\",\"status\":\"assigning\"\x7d" }
  let response : RegistrationResponse := ⟨202, "4", .assigning, 15, .empty⟩
  let script : Script := [.ok [], .ok [.suback 1], .ok [.publish message], .ok [],
    .ok [.publish message], .ok [], .ok []]
  let host : Host Script := { Host.scripted with
    now := fun script => (100 - 10 * UInt64.ofNat script.length, script) }
  let turns := (Session.scripted script).turnsAlong host [.register 3500]
  have hlength : turns.length = 7 := by decide +kernel
  let turn (i : Fin 7) : Turn Script := turns.get (i.cast (by decide +kernel))
  have hturns : turns = turns.take 3 ++ turn 3 :: ([turn 4] ++ turn 5 :: turn 6 ::
      turns.drop 7) := by
    show turns = turns.take 3 ++ turns[3] :: ([turns[4]] ++ turns[5] :: turns[6] :: turns.drop 7)
    rw [List.singleton_append, ← List.drop_eq_getElem_cons, ← List.drop_eq_getElem_cons,
      ← List.drop_eq_getElem_cons, ← List.drop_eq_getElem_cons, List.take_append_drop]
  have hrun : Run host [] [] (.scripted script) := .ofScript host script
  have hread : message.readResponse = .ok (some response) := by decide +kernel
  obtain ⟨hstate, hmessage, hdeadline, hearly, hlate⟩ :
      (turn 3).session.client.state = .response ∧
      (turn 3).session.client.message = some message ∧
      ((turn 3).clock host).toNat + response.delay = 75 ∧
      ((turn 4).clock host).toNat = 70 ∧ ((turn 5).clock host).toNat = 80 := by
    decide +kernel
  have hreads : (turn 3).Reads response :=
    ⟨hstate, message, hmessage, readResponse_eq_some_iff.mp hread⟩
  have hall : ∀ i, ((turn i).log host).all (·.failure?.isNone) = true := by
    decide +kernel
  have hunfailed (i : Fin 7) : Unfailed ((turn i).log host) := fun m hm =>
    Option.isNone_iff_eq_none.mp (List.all_eq_true.mp (hall i) m hm)
  obtain ⟨-, hfirst, -, hnext⟩ := hrun.poll_timing [.register 3500] hturns hreads rfl
    (by rw [hdeadline]; decide) (by simp [hunfailed]) (by simp [hdeadline, hearly])
  obtain ⟨-, hrequest, -, hasks⟩ := hnext (by rw [hdeadline, hlate]; decide)
  exact ⟨host, _, response, _, _, _, _, _, _, hrun, hturns, hreads, hdeadline, hearly, hlate,
    hfirst, hrequest, hasks (hunfailed 5) _ rfl⟩

end DeviceTrust.Provisioning
