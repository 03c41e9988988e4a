import DeviceTrust.Proofs.Provisioning.Completion
import DeviceTrust.Proofs.Provisioning.Credentials

/-!
# What the working buffer holds does not matter

A client builds what it sends in a buffer that its caller lends, the credentials first and the
requests later, over each other and with some text left where one did not fit. None of this shows:
with another buffer of the required size, whatever it holds and however long it is, the same calls
are made and the same answers given, from any state on. So no byte that has been left in the buffer
is sent later, and a larger buffer has no room for longer texts.

Results:
* `Host.prepareConnect_matches`, `Host.prepareRequest_matches`: what is built does not depend on the
  buffer.
* `Session.tick_together`, `Session.run_together`: one turn, and all that are taken.
* `Session.transcript_together`: sequences of operations, from any state on.
* `buffer_irrelevant`: two clients from their creation.
-/

namespace DeviceTrust.Provisioning

/-! ## Another buffer -/

namespace Client

/-- The client with another working buffer. -/
def withBuffer (client : Client) (buffer : Bytes) : Client :=
  { client with buffer := buffer }

variable {c : Client}

theorem new_withBuffer {endpoint idScope registrationId userAgent : String} {buffer buffer' : Bytes}
    (h : minimumBufferSize ≤ buffer.length) (h' : minimumBufferSize ≤ buffer'.length) :
    Client.new endpoint idScope registrationId userAgent buffer' =
      (Client.new endpoint idScope registrationId userAgent buffer).map (·.withBuffer buffer') := by
  rw [Client.new, Client.new, if_neg (Nat.not_lt.mpr h), if_neg (Nat.not_lt.mpr h')]
  split <;> rfl

theorem receive_withBuffer (c : Client) (buffer : Bytes) (message : Message) :
    (c.withBuffer buffer).receive message = (c.receive message).withBuffer buffer := by
  simp only [receive, apply_ite (withBuffer · buffer)]
  rfl

theorem handleEvent_withBuffer (c : Client) (buffer : Bytes) (event : Event) :
    (c.withBuffer buffer).handleEvent event = (c.handleEvent event).withBuffer buffer := by
  cases event with
  | suback packetId =>
    simp only [handleEvent, apply_ite (withBuffer · buffer)]
    rfl
  | publish message => exact c.receive_withBuffer buffer message
  | other packetType => rfl

theorem handleEvents_withBuffer (c : Client) (buffer : Bytes) (events : List Event) :
    (c.withBuffer buffer).handleEvents events = (c.handleEvents events).withBuffer buffer := by
  induction events generalizing c with
  | nil => rfl
  | cons event events ih =>
    show ((c.withBuffer buffer).handleEvent event).handleEvents events = _
    rw [handleEvent_withBuffer, ih]
    rfl

theorem batchMoments_withBuffer (c : Client) (buffer : Bytes) (events : List Event) :
    (c.withBuffer buffer).batchMoments events = c.batchMoments events := by
  induction events generalizing c with
  | nil => rfl
  | cons event events ih =>
    rw [batchMoments, batchMoments, handleEvent_withBuffer, ih]
    rfl

theorem setSymmetricKey_withBuffer (c : Client) (buffer encoded : Bytes) (hmac : HmacFunction Id) :
    (c.withBuffer buffer).setSymmetricKey encoded hmac =
      ((c.setSymmetricKey encoded hmac).1,
        (c.setSymmetricKey encoded hmac).2.withBuffer buffer) := by
  simp only [setSymmetricKey]
  cases SymmetricKey.ofEncoded encoded hmac <;> rfl

theorem setRegistrationPayload_withBuffer (c : Client) (buffer payload : Bytes) :
    (c.withBuffer buffer).setRegistrationPayload payload =
      ((c.setRegistrationPayload payload).1,
        (c.setRegistrationPayload payload).2.withBuffer buffer) := by
  have hstate : (c.withBuffer buffer).state = c.state := rfl
  simp only [setRegistrationPayload, hstate]
  split
  next => rfl
  next => split <;> rfl

end Client

variable {σ : Type}

namespace Session

/-- The session whose client has another working buffer. -/
def withBuffer (s : Session σ) (buffer : Bytes) : Session σ :=
  { s with client := s.client.withBuffer buffer }

/-- The sessions differ in their working buffers at most, and these have the required size. -/
structure Matches (s t : Session σ) : Prop where
  client_eq : t.client = s.client.withBuffer t.client.buffer
  outside_eq : t.outside = s.outside
  size : minimumBufferSize ≤ s.client.buffer.length
  size' : minimumBufferSize ≤ t.client.buffer.length

variable {s t : Session σ}

theorem matches_withBuffer {buffer : Bytes} (hsize : minimumBufferSize ≤ s.client.buffer.length)
    (hbuffer : minimumBufferSize ≤ buffer.length) : s.Matches (s.withBuffer buffer) :=
  ⟨rfl, rfl, hsize, hbuffer⟩

theorem Matches.eq_withBuffer (h : s.Matches t) : t = s.withBuffer t.client.buffer := by
  obtain ⟨client, outside⟩ := t
  obtain rfl := h.outside_eq
  exact congrArg (Session.mk · s.outside) h.client_eq

theorem Matches.withBuffer {buffer : Bytes} (h : s.Matches t)
    (hbuffer : minimumBufferSize ≤ buffer.length) : s.Matches (t.withBuffer buffer) := by
  rw [h.eq_withBuffer]
  exact matches_withBuffer h.size hbuffer

/-- The working buffer has no part in the operation. -/
def IgnoresBuffer (operation : Session σ → Session σ) : Prop :=
  ∀ s buffer, operation (s.withBuffer buffer) = (operation s).withBuffer buffer

theorem IgnoresBuffer.matches {operation : Session σ → Session σ}
    (hoperation : IgnoresBuffer operation) (h : s.Matches t) :
    (operation s).Matches (operation t) := by
  have hself : operation s = (operation s).withBuffer s.client.buffer :=
    hoperation s s.client.buffer
  have hbuffer : (operation s).client.buffer = s.client.buffer := by
    rw [hself]
    rfl
  rw [h.eq_withBuffer, hoperation]
  exact matches_withBuffer (hbuffer ▸ h.size) h.size'

theorem settle_ignoresBuffer (result : ActionResult) :
    IgnoresBuffer fun s : Session σ => s.settle result :=
  fun _ _ => rfl

theorem start_ignoresBuffer : IgnoresBuffer (start : Session σ → Session σ) := by
  intro s buffer
  simp only [start, apply_ite (withBuffer · buffer)]
  rfl

theorem accept_ignoresBuffer (host : Host σ) (response : RegistrationResponse) :
    IgnoresBuffer fun s => s.accept host response := by
  intro s buffer
  simp only [accept, apply_ite (withBuffer · buffer)]
  rfl

theorem readMessage_ignoresBuffer (host : Host σ) : IgnoresBuffer fun s => s.readMessage host := by
  intro s buffer
  have hmessage : (s.withBuffer buffer).client.message = s.client.message := rfl
  simp only [readMessage, hmessage]
  cases s.client.message with
  | none => rfl
  | some message =>
    simp only
    cases message.readResponse with
    | error failure => rfl
    | ok found =>
      cases found with
      | none => rfl
      | some response =>
        let taken : Session σ := { s with client := { s.client with message := none } }
        exact accept_ignoresBuffer host response taken buffer

theorem checkDeadline_ignoresBuffer (host : Host σ) :
    IgnoresBuffer fun s => s.checkDeadline host := by
  intro s buffer
  simp only [checkDeadline, apply_ite (withBuffer · buffer)]
  rfl

theorem process_ignoresBuffer (host : Host σ) (wait : Nat) :
    IgnoresBuffer fun s => s.process host wait := by
  intro s buffer
  have houtside : (s.withBuffer buffer).outside = s.outside := rfl
  simp only [process, houtside]
  rcases host.processLoop wait s.outside with ⟨e | events, outside⟩
  · rfl
  · exact congrArg (Session.mk · outside) (s.client.handleEvents_withBuffer buffer events)

theorem processMoments_withBuffer (s : Session σ) (buffer : Bytes) (host : Host σ) (wait : Nat) :
    (s.withBuffer buffer).processMoments host wait = s.processMoments host wait := by
  have houtside : (s.withBuffer buffer).outside = s.outside := rfl
  rw [processMoments_eq, processMoments_eq, houtside]
  cases (host.processLoop wait s.outside).1 with
  | error e => rfl
  | ok events =>
    exact congrArg (.processLoop wait (.ok events) :: ·)
      (s.client.batchMoments_withBuffer buffer events)

end Session

/-! ## Building what is sent -/

section Building

variable {α β : Type} {s t : Session σ} {action : Action σ α} {next : α → Action σ β}
  {failures : List Failure} {P : α → Prop}

/-- What builds in matching sessions leaves matching sessions, if it leaves the same outside. -/
theorem Builds.matches (hbuilds : Builds action failures P) (h : s.Matches t)
    (houtside : (action.run.run t).2.outside = (action.run.run s).2.outside) :
    (action.run.run s).2.Matches (action.run.run t).2 := by
  obtain ⟨⟨buffer, hlength, hclient⟩, -⟩ := hbuilds s
  obtain ⟨⟨buffer', hlength', hclient'⟩, -⟩ := hbuilds t
  refine ⟨?_, houtside, ?_, ?_⟩
  · rw [hclient', hclient, h.client_eq]
    rfl
  · rw [hclient]
    exact hlength ▸ h.size
  · rw [hclient']
    exact hlength' ▸ h.size'

/-- The action leaves the outside as it is. -/
def KeepsOutside (action : Action σ α) : Prop :=
  ∀ s : Session σ, (action.run.run s).2.outside = s.outside

theorem KeepsOutside.bind (h : KeepsOutside action) (hnext : ∀ a, KeepsOutside (next a)) :
    KeepsOutside (action >>= next) := by
  intro s
  have houtside := h s
  rw [run_bind]
  rcases hrun : action.run.run s with ⟨e | a, s'⟩
  · rwa [hrun] at houtside
  · rw [hrun] at houtside
    exact (hnext a s').trans houtside

theorem keepsOutside_pure (a : α) : KeepsOutside (pure a : Action σ α) :=
  fun _ => rfl

theorem keepsOutside_throw (failure : Failure) : KeepsOutside (throw failure : Action σ α) :=
  fun _ => rfl

theorem keepsOutside_ofExcept (step : Except Failure α) :
    KeepsOutside (ofExcept step : Action σ α) := by
  cases step with
  | error failure => exact keepsOutside_throw failure
  | ok a => exact keepsOutside_pure a

theorem keepsOutside_client : KeepsOutside (Action.client : Action σ Client) :=
  fun _ => rfl

theorem keepsOutside_within (region : Region) (operation : Bytes → α × Bytes) :
    KeepsOutside (Action.within region operation : Action σ α) :=
  fun _ => rfl

theorem keepsOutside_readBytes (region : Region) (length : Nat) :
    KeepsOutside (Action.readBytes region length : Action σ Bytes) :=
  fun _ => rfl

theorem keepsOutside_readText (region : Region) (length : Nat) :
    KeepsOutside (Action.readText region length : Action σ String) := by
  refine (keepsOutside_readBytes region length).bind fun bytes => ?_
  split
  next => exact keepsOutside_pure _
  next => exact keepsOutside_throw _

end Building

namespace Host

variable {s t : Session σ} (host : Host σ)

theorem readConnectInfo_keepsOutside (registrationId : String) (userNameLength : Nat)
    (passwordLength : Option Nat) :
    KeepsOutside (readConnectInfo registrationId userNameLength passwordLength : Action σ _) := by
  refine (keepsOutside_readText _ _).bind fun username => ?_
  cases passwordLength with
  | none => exact keepsOutside_pure _
  | some length =>
    simp only [map_eq_pure_bind, bind_assoc, pure_bind]
    exact (keepsOutside_readText _ _).bind fun password => keepsOutside_pure _

theorem prepareRequest_keepsOutside :
    KeepsOutside (prepareRequest : Action σ (String × Bytes)) :=
  keepsOutside_client.bind fun _ =>
    (keepsOutside_within _ _).bind fun _ => (keepsOutside_ofExcept _).bind fun _ =>
    (keepsOutside_within _ _).bind fun _ => (keepsOutside_ofExcept _).bind fun _ =>
    (keepsOutside_readText _ _).bind fun _ => (keepsOutside_readBytes _ _).bind fun _ =>
    keepsOutside_pure _

/-- The clock is read if there is a key to sign with. -/
theorem buildPassword_outside (s : Session σ) : (host.buildPassword.run.run s).2.outside =
    if s.client.key.isSome then (host.now s.outside).2 else s.outside := by
  cases hkey : s.client.key with
  | none =>
    rw [host.run_buildPassword_of_none hkey]
    rfl
  | some key =>
    rw [host.run_buildPassword_of_some hkey rfl]
    rfl

/-- The clock is read if there is a key to sign with, once the user name has been built. -/
theorem prepareConnect_outside (hsize : minimumBufferSize ≤ s.client.buffer.length) :
    (host.prepareConnect.run.run s).2.outside =
      if s.client.key.isSome ∧ (utf8 (userName s.client.idScope s.client.registrationId
        s.client.userAgent)).length ≤ userNameMax then (host.now s.outside).2 else s.outside := by
  generalize hname : userName s.client.idScope s.client.registrationId s.client.userAgent = name
  by_cases hroom : (utf8 name).length ≤ userNameMax
  · have hbuild := host.buildPassword_outside (s.put userNameRegion (utf8 name))
    rw [host.run_prepareConnect_of_le hsize hname hroom, run_bind]
    simp only [hroom, and_true]
    rcases hrun : host.buildPassword.run.run (s.put userNameRegion (utf8 name)) with
      ⟨e | length, s'⟩
    · rwa [hrun] at hbuild
    · rw [hrun] at hbuild
      exact (readConnectInfo_keepsOutside _ _ length s').trans hbuild
  · rw [host.run_prepareConnect_of_lt hsize hname (Nat.not_le.mp hroom), if_neg (hroom ·.2)]
    rfl

/-- The credentials do not depend on the buffer that they are built in. -/
theorem prepareConnect_matches (h : s.Matches t) :
    (host.prepareConnect.run.run t).1 = (host.prepareConnect.run.run s).1 ∧
    (host.prepareConnect.run.run s).2.Matches (host.prepareConnect.run.run t).2 := by
  -- the client alone decides whether the clock is read, and what the credentials are at a time
  refine ⟨?_, host.prepareConnect_builds.matches h ?_⟩
  · rw [host.prepareConnect_fst h.size, host.prepareConnect_fst h.size', h.client_eq, h.outside_eq]
    rfl
  · rw [host.prepareConnect_outside h.size, host.prepareConnect_outside h.size', h.client_eq,
      h.outside_eq]
    rfl

/-- Requests do not depend on the buffer that they are built in. -/
theorem prepareRequest_matches (h : s.Matches t) :
    (prepareRequest.run.run t).1 = (prepareRequest.run.run s).1 ∧
    (prepareRequest.run.run s).2.Matches (prepareRequest.run.run t).2 := by
  refine ⟨?_, prepareRequest_builds.matches h ?_⟩
  · rw [prepareRequest_fst h.size, prepareRequest_fst h.size', h.client_eq]
    rfl
  · rw [prepareRequest_keepsOutside s, prepareRequest_keepsOutside t, h.outside_eq]

end Host

/-! ## Limits -/

/-- What is sent is within its limits. -/
def Moment.WithinLimits : Moment → Prop
  | .connect info _ =>
    (utf8 info.username).length ≤ 256 ∧ ∀ text, info.password = some text → (utf8 text).length ≤ 256
  | .publish topic payload _ _ => (utf8 topic).length ≤ 128 ∧ payload.length ≤ 512
  | _ => True

theorem Client.connectInfo_withinLimits {client : Client} {time : UInt64} {info : ConnectInfo}
    (h : client.connectInfo time = .ok info) (result : Except TransportError Unit) :
    (Moment.connect info result).WithinLimits := by
  obtain ⟨username, husername, h⟩ := bind_eq_ok_iff.mp h
  obtain ⟨password, hpassword, h⟩ := bind_eq_ok_iff.mp h
  obtain rfl := Except.ok.inj h
  obtain ⟨rfl, hroom⟩ := boundedText_eq_ok_iff.mp husername
  refine ⟨hroom, fun text htext => ?_⟩
  obtain rfl : password = some text := htext
  rw [Client.password] at hpassword
  split at hpassword
  next => cases hpassword
  next key _ =>
    split at hpassword
    next => cases hpassword
    next token htoken =>
      obtain rfl := Option.some.inj (Except.ok.inj hpassword)
      exact key.length_token _ _ _ htoken

theorem Client.request?_withinLimits {client : Client} {topic : String} {payload : Bytes}
    (h : client.request? = some (topic, payload)) (qos : QoS)
    (result : Except TransportError Unit) :
    (Moment.publish topic payload qos result).WithinLimits :=
  (Client.request?_eq_some_iff.mp h).2.2

theorem Session.processMoments_withinLimits (s : Session σ) (host : Host σ) (wait : Nat) :
    ∀ m ∈ s.processMoments host wait, m.WithinLimits := by
  rw [processMoments_eq]
  split
  next events _ =>
    refine List.forall_mem_cons.mpr ⟨trivial, fun m hm => ?_⟩
    rcases Client.of_mem_batchMoments hm with ⟨event, -, rfl⟩ | ⟨message, -, rfl⟩ <;> trivial
  next => exact List.forall_mem_singleton.mpr trivial

/-! ## Sessions side by side -/

/-- Two sessions have come to matching ones, and the same happened in both, within the limits. -/
structure Together (s t : Session σ) (now now' : List Moment) : Prop where
  matched : s.Matches t
  same : now' = now
  limited : ∀ m ∈ now, m.WithinLimits

namespace Together

variable {s t u v : Session σ} {now now' later later' : List Moment}

theorem silent (h : s.Matches t) : Together s t [] [] :=
  ⟨h, rfl, List.forall_mem_nil _⟩

theorem single {m m' : Moment} (h : s.Matches t) (hsame : m' = m) (hlimits : m.WithinLimits) :
    Together s t [m] [m'] :=
  ⟨h, congrArg (List.singleton ·) hsame, List.forall_mem_singleton.mpr hlimits⟩

theorem append (h : Together s t now now') (hlater : Together u v later later') :
    Together u v (now ++ later) (now' ++ later') :=
  ⟨hlater.matched, congrArg₂ (· ++ ·) h.same hlater.same,
    List.forall_mem_append.mpr ⟨h.limited, hlater.limited⟩⟩

end Together

namespace Session

variable {s t : Session σ} {host : Host σ}

theorem Matches.state_eq (h : s.Matches t) : t.client.state = s.client.state := by
  rw [h.client_eq]
  rfl

/-- A call of the session, and the step of the workflow by its result. -/
theorem call_together {β : Type} (h : s.Matches t) (call : σ → Except TransportError β × σ)
    (failure : Failure) (moment : Except TransportError β → Moment)
    (hlimits : ∀ result, (moment result).WithinLimits) :
    Together
      ({ s with outside := (call s.outside).2 }.settle (callOutcome failure (call s.outside).1))
      ({ t with outside := (call t.outside).2 }.settle (callOutcome failure (call t.outside).1))
      [moment (call s.outside).1] [moment (call t.outside).1] := by
  have hcall : IgnoresBuffer fun s : Session σ =>
      { s with outside := (call s.outside).2 }.settle (callOutcome failure (call s.outside).1) :=
    fun _ _ => rfl
  refine .single (hcall.matches h) ?_ (hlimits _)
  rw [h.outside_eq]

theorem connect_together (h : s.Matches t) (hstate : s.client.state = .connect) :
    Together (s.act host) (t.act host) (s.actMoments host) (t.actMoments host) := by
  obtain ⟨hsame, hmatches⟩ := host.prepareConnect_matches h
  have hinfo := host.prepareConnect_fst h.size
  rw [act, act, actMoments_eq, actMoments_eq, actCall?, actCall?, readMoments, readMoments, h.state_eq,
    hstate]
  simp only [perform_connect]
  rcases hrun : host.prepareConnect.run.run s with ⟨result, s'⟩
  rcases hrun' : host.prepareConnect.run.run t with ⟨result', t'⟩
  rw [hrun, hrun'] at hsame hmatches
  rw [hrun] at hinfo
  obtain rfl : result' = result := hsame
  cases result' with
  | error failure => exact .silent ((settle_ignoresBuffer _).matches hmatches)
  | ok info =>
    exact call_together hmatches (host.connect info) .connectFailed (.connect info)
      (Client.connectInfo_withinLimits hinfo.symm)

theorem subscribe_together (h : s.Matches t) (hstate : s.client.state = .subscribe) :
    Together (s.act host) (t.act host) (s.actMoments host) (t.actMoments host) := by
  rw [act, act, actMoments_eq, actMoments_eq, actCall?, actCall?, readMoments, readMoments, h.state_eq,
    hstate]
  simp only [perform_subscribe]
  exact call_together h (host.subscribe responseFilter .atMostOnce) .subscribeFailed
    (.subscribe responseFilter .atMostOnce) fun _ => trivial

theorem request_together (h : s.Matches t) (hstate : s.client.state = .request) :
    Together (s.act host) (t.act host) (s.actMoments host) (t.actMoments host) := by
  obtain ⟨hsame, hmatches⟩ := Host.prepareRequest_matches h
  have hrequest {request : String × Bytes} (hok : (Host.prepareRequest.run.run s).1 = .ok request) :
      s.client.request? = some request := Host.request?_eq_some h.size hok
  rw [act, act, actMoments_eq, actMoments_eq, actCall?, actCall?, readMoments, readMoments, h.state_eq,
    hstate]
  simp only [perform_request]
  rcases hrun : Host.prepareRequest.run.run s with ⟨result, s'⟩
  rcases hrun' : Host.prepareRequest.run.run t with ⟨result', t'⟩
  rw [hrun, hrun'] at hsame hmatches
  rw [hrun] at hrequest
  obtain rfl : result' = result := hsame
  cases result' with
  | error failure => exact .silent ((settle_ignoresBuffer _).matches hmatches)
  | ok request =>
    obtain ⟨topic, payload⟩ := request
    exact call_together hmatches (host.publish topic payload .atMostOnce) .publishFailed
      (.publish topic payload .atMostOnce) (Client.request?_withinLimits (hrequest rfl) .atMostOnce)

theorem response_together (h : s.Matches t) (hstate : s.client.state = .response) :
    Together (s.act host) (t.act host) (s.actMoments host) (t.actMoments host) := by
  have hmessage : t.client.message = s.client.message := by
    rw [h.client_eq]
    rfl
  have hmatches := (readMessage_ignoresBuffer host).matches h
  rw [act, act, actMoments_eq, actMoments_eq, actCall?, actCall?, readMoments, readMoments, h.state_eq,
    hstate]
  simp only [hmessage]
  cases s.client.message with
  | none => exact .silent hmatches
  | some message => exact .single hmatches rfl trivial

theorem act_together (h : s.Matches t) (host : Host σ) :
    Together (s.act host) (t.act host) (s.actMoments host) (t.actMoments host) := by
  cases hstate : s.client.state with
  | connect => exact connect_together h hstate
  | subscribe => exact subscribe_together h hstate
  | request => exact request_together h hstate
  | response => exact response_together h hstate
  | waiting =>
    rw [act, act, actMoments_eq, actMoments_eq, actCall?, actCall?, readMoments, readMoments, h.state_eq,
    hstate]
    exact .silent ((checkDeadline_ignoresBuffer host).matches h)
  | init | subscribing | requesting | complete =>
    rw [act, act, actMoments_eq, actMoments_eq, actCall?, actCall?, readMoments, readMoments, h.state_eq,
    hstate]
    exact .silent h

theorem process_together (h : s.Matches t) (host : Host σ) (wait : Nat) :
    Together (s.process host wait) (t.process host wait) (s.processMoments host wait)
      (t.processMoments host wait) := by
  refine ⟨(process_ignoresBuffer host wait).matches h, ?_, s.processMoments_withinLimits host wait⟩
  rw [h.eq_withBuffer]
  exact s.processMoments_withBuffer _ host wait

/-- One turn. -/
theorem tick_together (h : s.Matches t) (host : Host σ) (wait : Nat) :
    Together (s.tick host wait) (t.tick host wait) (s.turnMoments host wait)
      (t.turnMoments host wait) := by
  have hact := act_together h host
  rw [tick, tick, turnMoments, turnMoments]
  simp only [hact.matched.state_eq]
  refine hact.append ?_
  split
  next => exact .silent hact.matched
  next => exact process_together hact.matched host wait

/-- The turns that are taken. -/
theorem run_together (h : s.Matches t) (host : Host σ) (remaining limit : Nat) (hlimit : 0 < limit) :
    Together (s.run host remaining limit hlimit) (t.run host remaining limit hlimit)
      (s.runMoments host remaining limit hlimit) (t.runMoments host remaining limit hlimit) := by
  fun_induction runMoments s host remaining limit hlimit generalizing t with
  | case1 s remaining hstate =>
    have hstate' : t.client.state = .complete := h.state_eq.trans hstate
    rw [runMoments, if_pos hstate', run, if_pos hstate, run, if_pos hstate']
    exact .silent h
  | case2 s remaining hstate ih =>
    -- neither workflow completes before the other one, as both are at the same step
    have hstate' : t.client.state ≠ .complete := h.state_eq ▸ hstate
    have hturn := tick_together h host (min remaining limit)
    by_cases hle : remaining ≤ limit
    · rw [if_pos hle, List.append_nil, run, if_neg hstate, if_pos hle, run, if_neg hstate',
        if_pos hle, runMoments, if_neg hstate', if_pos hle, List.append_nil]
      exact hturn
    · have hmoments : t.runMoments host remaining limit hlimit =
          t.turnMoments host (min remaining limit) ++
            (t.tick host (min remaining limit)).runMoments host (remaining - limit) limit hlimit := by
        rw [runMoments, if_neg hstate', if_neg hle]
      have hrun : t.run host remaining limit hlimit =
          (t.tick host (min remaining limit)).run host (remaining - limit) limit hlimit := by
        rw [run, if_neg hstate', if_neg hle]
      rw [hrun, hmoments, if_neg hle, run, if_neg hstate, if_neg hle]
      exact hturn.append (ih hle hturn.matched)

end Session

/-! ## Sequences of operations -/

/-- What an operation gives its caller. -/
inductive Answer where
  | register (result : Except Failure RegistrationStatus)
  | setSymmetricKey (result : Except Error Unit)
  | setRegistrationPayload (result : Except Failure Unit)
  | nothing

namespace Session

variable {s t : Session σ}

/-- What an operation gives its caller. -/
def answer (s : Session σ) (host : Host σ) : Operation σ → Answer
  | .register timeout limit hlimit => .register (s.register host timeout limit hlimit).1
  | .setSymmetricKey encoded hmac => .setSymmetricKey (s.client.setSymmetricKey encoded hmac).1
  | .setRegistrationPayload payload =>
    .setRegistrationPayload (s.client.setRegistrationPayload payload).1
  | .deinit | .outside _ => .nothing

/-- What can be told of a sequence of operations from outside: what happens in each of them, and
what it gives its caller. -/
def transcript (s : Session σ) (host : Host σ) : List (Operation σ) → List (List Moment × Answer)
  | [] => []
  | operation :: operations =>
    (s.moments host operation, s.answer host operation) ::
      (s.apply host operation).transcript host operations

theorem register_together (h : s.Matches t) (host : Host σ) (timeout limit : Nat)
    (hlimit : 0 < limit) :
    Together (s.register host timeout limit hlimit).2 (t.register host timeout limit hlimit).2
        (s.registerMoments host timeout limit hlimit)
        (t.registerMoments host timeout limit hlimit) ∧
      (t.register host timeout limit hlimit).1 = (s.register host timeout limit hlimit).1 := by
  have hrun := run_together (start_ignoresBuffer.matches h) host timeout limit hlimit
  refine ⟨hrun, ?_⟩
  rw [register, register, hrun.matched.client_eq]
  rfl

/-- One operation: the caller of either session is given the same. -/
theorem apply_together (h : s.Matches t) (host : Host σ) (operation : Operation σ) :
    Together (s.apply host operation) (t.apply host operation) (s.moments host operation)
        (t.moments host operation) ∧
      t.answer host operation = s.answer host operation := by
  cases operation with
  | register timeout limit hlimit =>
    obtain ⟨htogether, hresult⟩ := register_together h host timeout limit hlimit
    exact ⟨htogether, congrArg Answer.register hresult⟩
  | setSymmetricKey encoded hmac =>
    have hset : IgnoresBuffer fun s : Session σ => s.apply host (.setSymmetricKey encoded hmac) :=
      fun s buffer => congrArg (fun result => Session.mk result.2 s.outside)
        (s.client.setSymmetricKey_withBuffer buffer encoded hmac)
    refine ⟨.silent (hset.matches h), ?_⟩
    rw [answer, answer, h.client_eq, Client.setSymmetricKey_withBuffer]
  | setRegistrationPayload payload =>
    have hset : IgnoresBuffer fun s : Session σ => s.apply host (.setRegistrationPayload payload) :=
      fun s buffer => congrArg (fun result => Session.mk result.2 s.outside)
        (s.client.setRegistrationPayload_withBuffer buffer payload)
    refine ⟨.silent (hset.matches h), ?_⟩
    rw [answer, answer, h.client_eq, Client.setRegistrationPayload_withBuffer]
  | deinit =>
    have hdrop : IgnoresBuffer fun s : Session σ => s.apply host .deinit := fun _ _ => rfl
    exact ⟨.single (hdrop.matches h) rfl trivial, rfl⟩
  | outside change =>
    have hchange : IgnoresBuffer fun s : Session σ => s.apply host (.outside change) :=
      fun _ _ => rfl
    exact ⟨.silent (hchange.matches h), rfl⟩

/-- Any sequence of operations. -/
theorem transcript_together (h : s.Matches t) (host : Host σ) (operations : List (Operation σ)) :
    (s.applyAll host operations).Matches (t.applyAll host operations) ∧
    t.transcript host operations = s.transcript host operations ∧
    ∀ entry ∈ s.transcript host operations, ∀ m ∈ entry.1, m.WithinLimits := by
  induction operations generalizing s t with
  | nil => exact ⟨h, rfl, List.forall_mem_nil _⟩
  | cons operation operations ih =>
    obtain ⟨htogether, hanswer⟩ := apply_together h host operation
    obtain ⟨hmatches, hlater, hlimits⟩ := ih htogether.matched
    refine ⟨hmatches, ?_, List.forall_mem_cons.mpr ⟨htogether.limited, hlimits⟩⟩
    rw [transcript, transcript, hanswer, htogether.same, hlater]

theorem Matches.answersAs (h : s.Matches t) : t.client.AnswersAs s.client := by
  rw [h.client_eq]
  exact Client.answersAs_of_eq rfl rfl rfl

end Session

/-- Two clients are created with the same texts and with working buffers of 640 bytes or more, which
may differ in their lengths and in what they hold. Either none can be created, or whatever is done
to them, with whatever host: the same happens to both, and they give the same answers; what is sent
is within the same limits; and what happens later does not depend on what is in the buffer by then.
With `Host.recorded` for the host, the outside that both leave holds the calls they made. -/
theorem buffer_irrelevant {buffer buffer' : Bytes} (hsize : 640 ≤ buffer.length)
    (hsize' : 640 ≤ buffer'.length) (endpoint idScope registrationId userAgent : String) :
    (∃ failure,
      Client.new endpoint idScope registrationId userAgent buffer = .error failure ∧
      Client.new endpoint idScope registrationId userAgent buffer' = .error failure) ∨
    ∃ client client',
      Client.new endpoint idScope registrationId userAgent buffer = .ok client ∧
      Client.new endpoint idScope registrationId userAgent buffer' = .ok client' ∧
      ∀ (host : Host σ) (outside : σ) (operations : List (Operation σ)),
        let s : Session σ := ⟨client, outside⟩
        let t : Session σ := ⟨client', outside⟩
        t.transcript host operations = s.transcript host operations ∧
        (t.applyAll host operations).client.AnswersAs (s.applyAll host operations).client ∧
        (t.applyAll host operations).outside = (s.applyAll host operations).outside ∧
        (∀ entry ∈ t.transcript host operations, ∀ m ∈ entry.1, m.WithinLimits) ∧
        ∀ (content : Bytes) (later : List (Operation σ)), 640 ≤ content.length →
          ((t.applyAll host operations).withBuffer content).transcript host later =
            (s.applyAll host operations).transcript host later := by
  have hnew' : Client.new endpoint idScope registrationId userAgent buffer' =
      (Client.new endpoint idScope registrationId userAgent buffer).map (·.withBuffer buffer') :=
    Client.new_withBuffer hsize hsize'
  cases hnew : Client.new endpoint idScope registrationId userAgent buffer with
  | error failure =>
    rw [hnew] at hnew'
    exact .inl ⟨failure, rfl, hnew'⟩
  | ok client =>
    rw [hnew] at hnew'
    refine .inr ⟨client, _, rfl, hnew', fun host outside operations => ?_⟩
    have hbuffer : 640 ≤ client.buffer.length := Client.size_of_new hnew
    have hmatches : Session.Matches ⟨client, outside⟩ ⟨client.withBuffer buffer', outside⟩ :=
      Session.matches_withBuffer hbuffer hsize'
    obtain ⟨hafter, hsame, hlimits⟩ := Session.transcript_together hmatches host operations
    refine ⟨hsame, hafter.answersAs, hafter.outside_eq, hsame ▸ hlimits, ?_⟩
    intro content later hcontent
    exact (Session.transcript_together (hafter.withBuffer hcontent) host later).2.1

/-- A buffer of zeros and a longer one that is full of text: the device is assigned with either of
them, and what happens is the same. -/
theorem buffer_irrelevant_longer : ∃ client' script now,
    Client.new "global" "scope" "device" "" (List.replicate 700 65) = .ok client' ∧
    (Session.scripted script).transcript .scripted [.register 2000] =
      [(now, .register (.ok .assigned))] ∧
    Session.transcript ⟨client', script⟩ .scripted [.register 2000] =
      [(now, .register (.ok .assigned))] := by
  let message : Message := {
    topic := "$dps/registrations/res/200/?$rid=1"
    payload := utf8 "\x7b\"operationId\":\"4\",\"status\":\"assigned\"\x7d" }
  let s : Session Script := .scripted [.ok [], .ok [.suback 1], .ok [.publish message]]
  have hassigned : (s.register .scripted 2000).1 = .ok .assigned :=
    Client.outcome_eq_assigned_iff.mpr (by decide +kernel)
  have htranscript : s.transcript .scripted [.register 2000] =
      [(s.registerMoments .scripted 2000, .register (.ok .assigned))] := by
    rw [← hassigned]
    rfl
  have hsize : 640 ≤ (List.replicate minimumBufferSize (0 : UInt8)).length :=
    List.length_replicate.ge
  have hsize' : 640 ≤ (List.replicate 700 (65 : UInt8)).length := by
    rw [List.length_replicate]
    decide
  obtain ⟨failure, hfailure, -⟩ | ⟨client, client', hnew, hnew', hsame⟩ :=
    buffer_irrelevant (σ := Script) hsize hsize' "global" "scope" "device" ""
  · rw [Session.new_scripted s.outside] at hfailure
    cases hfailure
  · obtain rfl : s.client = client :=
      Except.ok.inj ((Session.new_scripted s.outside).symm.trans hnew)
    obtain ⟨hsame, -⟩ := hsame .scripted s.outside [.register 2000]
    exact ⟨client', s.outside, _, hnew', htranscript, hsame.trans htranscript⟩

end DeviceTrust.Provisioning
