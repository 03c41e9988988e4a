import DeviceTrust.Proofs.Provisioning.Moment
import DeviceTrust.Proofs.Sequence

/-!
# Watching a host

A host that is watched notes every call of its session with its result, in a state beside that of
the host. Watching changes nothing of what happens, and what is noted are the calls among the
moments, in order, whatever is done with them.

Results:
* `Session.actMoments_eq`, `Session.processMoments_eq`: the moments of the two halves of a turn.
* `Session.tick_watched`, `Session.register_watched`, `Session.apply_watched`: turns, registrations
  and other operations with a watched host.
* `Session.tick_recorded`: the calls that `Host.recorded` keeps in a turn.
* `Session.callLog_eq`: the calls that the host gets in a sequence of operations.
-/

namespace DeviceTrust.Provisioning

variable {σ ω : Type}

/-- What has been noted after some moments: their calls. -/
def noted (note : Moment → ω → ω) (moments : List Moment) (w : ω) : ω :=
  (moments.filter Moment.isCall).foldl (fun w m => note m w) w

theorem noted_append (note : Moment → ω → ω) (past now : List Moment) (w : ω) :
    noted note (past ++ now) w = noted note now (noted note past w) := by
  rw [noted, List.filter_append, List.foldl_append, noted, noted]

/-! ## Building requests -/

/-- The action does what the other one does and leaves the state beside as it is. -/
def Mirrors {α : Type} (ω : Type) (watched : Action (σ × ω) α) (action : Action σ α) : Prop :=
  ∀ (s : Session σ) (w : ω), watched.run.run (s.beside w) =
    ((action.run.run s).1, (action.run.run s).2.beside w)

section Mirrors

variable {α β : Type} {watched : Action (σ × ω) α} {action : Action σ α}
  {watchedNext : α → Action (σ × ω) β} {next : α → Action σ β}

theorem Mirrors.bind (h : Mirrors ω watched action)
    (hnext : ∀ a, Mirrors ω (watchedNext a) (next a)) :
    Mirrors ω (watched >>= watchedNext) (action >>= next) := by
  intro s w
  rw [run_bind, run_bind, h s w]
  rcases action.run.run s with ⟨_ | a, s'⟩
  · rfl
  · exact hnext a s' w

theorem mirrors_pure (a : α) : Mirrors ω (pure a : Action (σ × ω) α) (pure a) :=
  fun _ _ => rfl

theorem mirrors_throw (failure : Failure) :
    Mirrors ω (throw failure : Action (σ × ω) α) (throw failure) :=
  fun _ _ => rfl

theorem mirrors_ofExcept (step : Except Failure α) :
    Mirrors ω (ofExcept step : Action (σ × ω) α) (ofExcept step) := by
  cases step with
  | error failure => exact mirrors_throw failure
  | ok a => exact mirrors_pure a

theorem mirrors_client : Mirrors ω (Action.client : Action (σ × ω) Client) Action.client :=
  fun _ _ => rfl

theorem mirrors_now (host : Host σ) (note : Moment → ω → ω) :
    Mirrors ω (Action.call (host.watched note).now) (Action.call host.now) :=
  fun _ _ => rfl

theorem mirrors_within (region : Region) (operation : Bytes → α × Bytes) :
    Mirrors ω (Action.within region operation : Action (σ × ω) α)
      (Action.within region operation) :=
  fun _ _ => rfl

theorem mirrors_readBytes (region : Region) (length : Nat) :
    Mirrors ω (Action.readBytes region length : Action (σ × ω) Bytes)
      (Action.readBytes region length) :=
  mirrors_client.bind fun _ => mirrors_pure _

theorem mirrors_readText (region : Region) (length : Nat) :
    Mirrors ω (Action.readText region length : Action (σ × ω) String)
      (Action.readText region length) := by
  refine (mirrors_readBytes region length).bind fun bytes => ?_
  cases bytes.text? with
  | some text => exact mirrors_pure text
  | none => exact mirrors_throw .failed

end Mirrors

variable (host : Host σ) (note : Moment → ω → ω)

theorem mirrors_buildPassword :
    Mirrors ω (host.watched note).buildPassword host.buildPassword := by
  refine mirrors_client.bind fun client => ?_
  cases client.key with
  | none => exact mirrors_pure none
  | some key =>
    refine (mirrors_now host note).bind fun time => ?_
    refine (mirrors_within passwordRegion _).bind fun written => ?_
    cases written with
    | ok length => exact mirrors_pure (some length)
    | error e => exact mirrors_throw .tokenGenerationFailed

theorem mirrors_prepareConnect :
    Mirrors ω (host.watched note).prepareConnect host.prepareConnect := by
  refine mirrors_client.bind fun client => ?_
  refine (mirrors_within userNameRegion _).bind fun written => ?_
  refine (mirrors_ofExcept written).bind fun userNameLength => ?_
  refine (mirrors_buildPassword host note).bind fun passwordLength => ?_
  refine (mirrors_readText userNameRegion userNameLength).bind fun username => ?_
  cases passwordLength with
  | none => exact mirrors_pure _
  | some length =>
    simp only [map_eq_pure_bind, bind_assoc, pure_bind]
    exact (mirrors_readText passwordRegion length).bind fun password => mirrors_pure _

theorem mirrors_prepareRequest :
    Mirrors ω (Host.prepareRequest : Action (σ × ω) (String × Bytes)) Host.prepareRequest := by
  refine mirrors_client.bind fun client => ?_
  refine (mirrors_within topicRegion _).bind fun written => ?_
  refine (mirrors_ofExcept _).bind fun topicLength => ?_
  refine (mirrors_within payloadRegion _).bind fun written => ?_
  refine (mirrors_ofExcept _).bind fun payloadLength => ?_
  refine (mirrors_readText topicRegion topicLength).bind fun topic => ?_
  exact (mirrors_readBytes payloadRegion payloadLength).bind fun payload => mirrors_pure _

/-! ## Actions that call -/

/-- A request is prepared as a pair, and then published. -/
theorem Host.requestAction_eq : host.requestAction = prepareRequest >>= fun request =>
    Action.call (host.publish request.1 request.2 .atMostOnce) >>= fun result =>
      Action.check .publishFailed result := rfl

/-- The outcome of an action after its call. -/
def callOutcome {α : Type} (failure : Failure) : Except TransportError α → ActionResult
  | .ok _ => .success
  | .error _ => .failed failure

namespace Session

/-- An action that prepares a call, makes it, and fails with `failure` if the call does. -/
theorem perform_prepared {α β : Type} (s : Session σ) (prepare : Action σ α)
    (call : α → σ → Except TransportError β × σ) (failure : Failure)
    {finish : Except TransportError β → Action σ Unit}
    (hfinish : ∀ result, finish result = Action.check failure result >>= fun _ => pure ()) :
    s.perform (prepare >>= fun a => Action.call (call a) >>= finish) = match prepare.run.run s with
      | (.ok a, s') => { s' with outside := (call a s'.outside).2 }.settle
          (callOutcome failure (call a s'.outside).1)
      | (.error e, s') => s'.settle (.failed e) := by
  rw [perform, run_bind]
  rcases prepare.run.run s with ⟨e | a, s'⟩
  · rfl
  · have hcall : (Action.call (call a)).run.run s' =
        (.ok (call a s'.outside).1, { s' with outside := (call a s'.outside).2 }) := rfl
    simp only [run_bind, hcall, hfinish]
    cases (call a s'.outside).1 <;> rfl

theorem perform_connect (s : Session σ) (host : Host σ) :
    s.perform host.connectAction = match host.prepareConnect.run.run s with
      | (.ok info, s') => { s' with outside := (host.connect info s'.outside).2 }.settle
          (callOutcome .connectFailed (host.connect info s'.outside).1)
      | (.error e, s') => s'.settle (.failed e) := by
  rw [Host.connectAction]
  refine (s.perform_prepared host.prepareConnect host.connect .connectFailed
    fun _ => (bind_pure _).symm).trans ?_
  rcases host.prepareConnect.run.run s with ⟨_ | _, _⟩ <;> rfl

theorem perform_subscribe (s : Session σ) (host : Host σ) :
    s.perform host.subscribeAction =
      { s with outside := (host.subscribe responseFilter .atMostOnce s.outside).2 }.settle
        (callOutcome .subscribeFailed (host.subscribe responseFilter .atMostOnce s.outside).1) :=
  s.perform_prepared (pure ()) (fun _ => host.subscribe responseFilter .atMostOnce) .subscribeFailed
    fun _ => rfl

theorem perform_request (s : Session σ) (host : Host σ) :
    s.perform host.requestAction = match Host.prepareRequest.run.run s with
      | (.ok (topic, payload), s') =>
        { s' with outside := (host.publish topic payload .atMostOnce s'.outside).2 }.settle
          (callOutcome .publishFailed (host.publish topic payload .atMostOnce s'.outside).1)
      | (.error e, s') => s'.settle (.failed e) := by
  rw [host.requestAction_eq]
  refine (s.perform_prepared Host.prepareRequest
    (fun request => host.publish request.1 request.2 .atMostOnce) .publishFailed
    fun _ => (bind_pure _).symm).trans ?_
  rcases Host.prepareRequest.run.run s with ⟨_ | _, _⟩ <;> rfl

/-- The call of the action of the current step, with its result. -/
def actCall? (s : Session σ) (host : Host σ) : Option Moment :=
  match s.client.state with
  | .connect =>
    match host.prepareConnect.run.run s with
    | (.ok info, s) => some (.connect info (host.connect info s.outside).1)
    | (.error _, _) => none
  | .subscribe =>
    some (.subscribe responseFilter .atMostOnce
      (host.subscribe responseFilter .atMostOnce s.outside).1)
  | .request =>
    match Host.prepareRequest.run.run s with
    | (.ok (topic, payload), s) =>
      some (.publish topic payload .atMostOnce (host.publish topic payload .atMostOnce s.outside).1)
    | (.error _, _) => none
  | .init | .subscribing | .requesting | .response | .waiting | .complete => none

/-! ## Turns -/

variable {note} in
/-- An action with a watched host: it is the same action, and its call is noted. -/
theorem act_watched (s : Session σ) (w : ω) :
    (s.beside w).act (host.watched note) =
      (s.act host).beside ((s.actCall? host).elim w (note · w)) := by
  have hclient : (s.beside w).client = s.client := rfl
  unfold act actCall?
  rw [hclient]
  cases hstate : s.client.state with
  | init | subscribing | requesting | complete => rfl
  | connect =>
    simp only [perform_connect, mirrors_prepareConnect host note s w]
    rcases host.prepareConnect.run.run s with ⟨_ | info, s'⟩ <;> rfl
  | subscribe =>
    simp only [perform_subscribe]
    rfl
  | request =>
    simp only [perform_request, mirrors_prepareRequest s w]
    rcases Host.prepareRequest.run.run s with ⟨_ | ⟨topic, payload⟩, s'⟩ <;> rfl
  | response =>
    simp only [readMessage, hclient]
    cases s.client.message with
    | none => rfl
    | some message =>
      simp only
      rcases message.readResponse with failure | _ | response
      · rfl
      · rfl
      · simp only [accept]
        split <;> rfl
  | waiting =>
    have hnow : (host.watched note).now (s.beside w).outside =
        ((host.now s.outside).1, (host.now s.outside).2, w) := rfl
    simp only [checkDeadline, hnow, hclient]
    split <;> rfl

theorem process_watched (s : Session σ) (w : ω) (wait : Nat) :
    (s.beside w).process (host.watched note) wait =
      (s.process host wait).beside
        (note (.processLoop wait (host.processLoop wait s.outside).1) w) := by
  have hcall : (host.watched note).processLoop wait (s.beside w).outside =
      ((host.processLoop wait s.outside).1, (host.processLoop wait s.outside).2,
        note (.processLoop wait (host.processLoop wait s.outside).1) w) := rfl
  unfold process
  rw [hcall]
  rcases host.processLoop wait s.outside with ⟨e | events, outside⟩ <;> rfl

theorem actMoments_eq (s : Session σ) :
    s.actMoments host = (s.actCall? host).toList ++ s.readMoments := by
  rw [actMoments, Host.logged, act_watched]
  cases s.actCall? host <;> rfl

theorem processMoments_eq (s : Session σ) (wait : Nat) :
    s.processMoments host wait = match (host.processLoop wait s.outside).1 with
      | .ok events => .processLoop wait (.ok events) :: s.client.batchMoments events
      | .error e => [.processLoop wait (.error e)] := by
  have hmade : ((s.beside []).process host.logged wait).outside.2 =
      [.processLoop wait (host.processLoop wait s.outside).1] := by
    rw [Host.logged, process_watched]
    rfl
  rw [processMoments, hmade]
  cases (host.processLoop wait s.outside).1 with
  | error e => rfl
  | ok events => exact congrArg (_ :: ·) (List.append_nil _)

theorem isCall_of_actCall? {s : Session σ} {m : Moment} (h : s.actCall? host = some m) :
    m.isCall = true := by
  unfold actCall? at h
  repeat' split at h
  all_goals
    cases h
    try rfl

theorem noted_actMoments (s : Session σ) (w : ω) :
    noted note (s.actMoments host) w = (s.actCall? host).elim w (note · w) := by
  have hread : s.readMoments.filter Moment.isCall = [] := by
    unfold readMoments
    repeat' split
    all_goals rfl
  rw [actMoments_eq, noted, List.filter_append, hread, List.append_nil]
  cases hcall : s.actCall? host with
  | none => rfl
  | some m =>
    rw [Option.toList_some, List.filter_cons_of_pos (isCall_of_actCall? host hcall)]
    rfl

theorem filter_batchMoments (c : Client) (events : List Event) :
    (c.batchMoments events).filter Moment.isCall = [] := by
  refine List.filter_eq_nil_iff.mpr fun m hm => ?_
  rcases Client.of_mem_batchMoments hm with ⟨event, -, rfl⟩ | ⟨message, -, rfl⟩ <;>
    simp [Moment.isCall]

theorem noted_processMoments (s : Session σ) (w : ω) (wait : Nat) :
    noted note (s.processMoments host wait) w =
      note (.processLoop wait (host.processLoop wait s.outside).1) w := by
  rw [processMoments_eq, noted]
  cases (host.processLoop wait s.outside).1 with
  | error e => rfl
  | ok events =>
    rw [List.filter_cons_of_pos rfl, filter_batchMoments]
    rfl

/-- A turn with a watched host: it is the same turn, and its calls are noted. -/
theorem tick_watched (s : Session σ) (w : ω) (wait : Nat) :
    (s.beside w).tick (host.watched note) wait =
      (s.tick host wait).beside (noted note (s.turnMoments host wait) w) := by
  simp only [tick, turnMoments, act_watched, noted_append, noted_actMoments]
  by_cases h : (s.act host).client.state = .complete
  · rw [if_pos h, if_pos h]
    exact if_pos h
  · rw [if_neg h, if_neg h, noted_processMoments, ← process_watched]
    exact if_neg h

variable {limit : Nat} {hlimit : 0 < limit}

theorem run_watched (s : Session σ) (w : ω) (remaining : Nat) :
    (s.beside w).run (host.watched note) remaining limit hlimit =
      (s.run host remaining limit hlimit).beside
        (noted note (s.runMoments host remaining limit hlimit) w) := by
  fun_induction run s host remaining limit hlimit generalizing w with
  | case1 s remaining h =>
    rw [runMoments, if_pos h, run]
    exact if_pos h
  | case2 s remaining h s' hle =>
    rw [runMoments, if_neg h, if_pos hle, List.append_nil, run, if_pos hle, tick_watched]
    exact if_neg h
  | case3 s remaining h s' hle ih =>
    rw [runMoments, if_neg h, if_neg hle, noted_append, ← ih, run, if_neg hle, tick_watched]
    exact if_neg h

theorem start_beside (s : Session σ) (w : ω) : (s.beside w).start = s.start.beside w := by
  by_cases h : s.client.state = .init
  · rw [start, start, if_pos h]
    exact if_pos h
  · rw [start, start, if_neg h]
    exact if_neg h

/-- A registration with a watched host: it is the same registration, and its calls are noted. -/
theorem register_watched (s : Session σ) (w : ω) (timeout : Nat) :
    (s.beside w).register (host.watched note) timeout limit hlimit =
      ((s.register host timeout limit hlimit).1, (s.register host timeout limit hlimit).2.beside
        (noted note (s.registerMoments host timeout limit hlimit) w)) := by
  simp only [register, start_beside, run_watched]
  rfl

/-! ## Operations -/

/-- Any operation with a watched host. -/
theorem apply_watched (s : Session σ) (w : ω) (operation : Operation σ) :
    (s.beside w).apply (host.watched note) operation.beside =
      (s.apply host operation).beside (noted note (s.moments host operation) w) := by
  cases operation with
  | register timeout limit hlimit =>
    exact congrArg Prod.snd (s.register_watched host note w timeout)
  | setSymmetricKey | setRegistrationPayload | deinit | outside => rfl

theorem applyAll_watched (s : Session σ) (w : ω) (operations : List (Operation σ)) :
    (s.beside w).applyAll (host.watched note) (operations.map Operation.beside) =
      (s.applyAll host operations).beside (noted note (s.momentsAlong host operations) w) := by
  induction operations generalizing s w with
  | nil => rfl
  | cons operation operations ih =>
    have hfirst := s.apply_watched host note w operation
    rw [momentsAlong, noted_append]
    refine Eq.trans ?_ (ih (s.apply host operation) (noted note (s.moments host operation) w))
    exact congrArg (applyAll · (host.watched note) (operations.map Operation.beside)) hfirst

theorem noted_log (moments log : List Moment) :
    noted (fun call log => log ++ [call]) moments log = log ++ moments.filter Moment.isCall := by
  rw [noted]
  generalize moments.filter Moment.isCall = made
  induction made generalizing log with
  | nil => exact (List.append_nil log).symm
  | cons call made ih => exact (ih (log ++ [call])).trans (List.append_assoc log [call] made)

/-- What the host gets are the calls among the moments. -/
theorem callLog_eq (s : Session σ) (operations : List (Operation σ)) :
    s.callLog host operations = (s.momentsAlong host operations).filter Moment.isCall := by
  rw [callLog, Host.logged, applyAll_watched, noted_log]
  rfl

/-! ## Recording -/

/-- Keeps a call, the last one first. -/
def keepCall (m : Moment) (log : List Call) : List Call :=
  match m.call? with
  | some call => call :: log
  | none => log

theorem recorded_eq_watched : host.recorded = host.watched keepCall := rfl

theorem noted_keepCall (moments : List Moment) (log : List Call) :
    noted keepCall moments log = (calls moments).reverse ++ log := by
  induction moments generalizing log with
  | nil => rfl
  | cons m moments ih =>
    have hstep : noted keepCall (m :: moments) log = noted keepCall moments (keepCall m log) := by
      cases m <;> rfl
    rw [hstep, ih, keepCall]
    cases m <;> simp [calls, List.filterMap_cons]

theorem tick_recorded (s : Session σ) (log : List Call) (wait : Nat) :
    (s.beside log).tick host.recorded wait =
      (s.tick host wait).beside ((calls (s.turnMoments host wait)).reverse ++ log) := by
  rw [recorded_eq_watched, tick_watched, noted_keepCall]

end Session

end DeviceTrust.Provisioning
