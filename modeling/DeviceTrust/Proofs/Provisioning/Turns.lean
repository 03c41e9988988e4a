import DeviceTrust.Proofs.Provisioning.FinalResult

/-!
# The turns of a run

A registration takes turns, and a run is a sequence of turns with operations of the caller in
between. `Session.turnsAlong` lists the turns of a sequence of operations, each with the session that
it starts from, so that properties over time can be said of places in this list. What a turn calls is
what its host gets, and all calls of a run are made in its turns.

Between two turns the workflow rests: the caller can change the key, and may drop a message, but the
step of the workflow and the last response stay as they are.

Results:
* `Turn.log_eq`: the calls of a turn.
* `Session.callLog_eq_flatMap`: the calls of a run are those of its turns.
* `Session.turnsAlong_leads`: each turn starts where the one before it has ended, after a rest.
* `Session.Leads.steps`: what has happened before a turn, up to what the caller has dropped.
* `Session.Rests.keeps`: what stays while the workflow rests.
-/

namespace DeviceTrust.Provisioning

variable {σ : Type}

/-! ## Turns -/

/-- A turn: the session that it starts from, and how long it may send and receive. -/
structure Turn (σ : Type) where
  session : Session σ
  wait : Nat

namespace Turn

/-- The turn reads a response. -/
def Reads (turn : Turn σ) (response : RegistrationResponse) : Prop :=
  turn.session.client.state = .response ∧
    ∃ message, turn.session.client.message = some message ∧ message.Carries response

variable (turn : Turn σ) (host : Host σ)

/-- What the clock shows at the start of the turn, which is what its action reads. -/
def clock : UInt64 :=
  (host.now turn.session.outside).1

/-- The session after the action of the turn. -/
def acted : Session σ :=
  turn.session.act host

/-- The session after the turn. -/
def after : Session σ :=
  turn.session.tick host turn.wait

/-- The calls that the host gets in the turn, with the results that it gives, in order. -/
def log : List Moment :=
  ((turn.session.beside []).tick host.logged turn.wait).outside.2

/-- What happens in the turn. -/
def moments : List Moment :=
  turn.session.turnMoments host turn.wait

theorem log_eq_filter : turn.log host = (turn.moments host).filter Moment.isCall := by
  rw [log, Host.logged, Session.tick_watched, Session.noted_log]
  rfl

/-- The call of the action, if it makes one, and then the one that sends and receives, unless the
action has completed the workflow. -/
theorem log_eq : turn.log host = (turn.session.actCall? host).toList ++
    if (turn.acted host).client.state = .complete then []
    else [.processLoop turn.wait (host.processLoop turn.wait (turn.acted host).outside).1] := by
  have hact : (turn.session.beside []).act host.logged =
      (turn.acted host).beside (turn.session.actCall? host).toList := by
    rw [Host.logged, Session.act_watched]
    cases turn.session.actCall? host <;> rfl
  have hclient : ((turn.acted host).beside (turn.session.actCall? host).toList).client =
      (turn.acted host).client := rfl
  simp only [log, Session.tick, hact, hclient]
  split
  next => exact (List.append_nil _).symm
  next =>
    rw [Host.logged, Session.process_watched]
    rfl

end Turn

namespace Session

/-- The turns that are taken in the time `remaining`. -/
def runTurns (s : Session σ) (host : Host σ) (remaining : Nat) (limit : Nat := processLoopTimeout)
    (hlimit : 0 < limit := by exact DeviceTrust.Provisioning.processLoopTimeout_pos) :
    List (Turn σ) :=
  if s.client.state = .complete then []
  else
    ⟨s, min remaining limit⟩ ::
      if remaining ≤ limit then []
      else (s.tick host (min remaining limit)).runTurns host (remaining - limit) limit hlimit
termination_by remaining
decreasing_by omega

/-- The turns of an operation. -/
def turns (s : Session σ) (host : Host σ) : Operation σ → List (Turn σ)
  | .register timeout limit hlimit => s.start.runTurns host timeout limit hlimit
  | .setSymmetricKey _ _ | .setRegistrationPayload _ | .deinit | .outside _ => []

/-- The turns of a sequence of operations. -/
def turnsAlong (s : Session σ) (host : Host σ) : List (Operation σ) → List (Turn σ)
  | [] => []
  | operation :: operations =>
    s.turns host operation ++ (s.apply host operation).turnsAlong host operations

theorem runMoments_eq (s : Session σ) (host : Host σ) (remaining limit : Nat) (hlimit : 0 < limit) :
    s.runMoments host remaining limit hlimit =
      (s.runTurns host remaining limit hlimit).flatMap (Turn.moments · host) := by
  fun_induction runTurns s host remaining limit hlimit with
  | case1 s remaining hstate =>
    rw [runMoments, if_pos hstate]
    rfl
  | case2 s remaining hstate ih =>
    rw [runMoments, if_neg hstate, List.flatMap_cons]
    refine congrArg (s.turnMoments host _ ++ ·) ?_
    split
    next => rfl
    next hle => exact ih hle

/-- The calls of a run are those of its turns. -/
theorem callLog_eq_flatMap (s : Session σ) (host : Host σ) (operations : List (Operation σ)) :
    s.callLog host operations = (s.turnsAlong host operations).flatMap (Turn.log · host) := by
  rw [callLog_eq]
  induction operations generalizing s with
  | nil => rfl
  | cons operation operations ih =>
    have hfirst : (s.moments host operation).filter Moment.isCall =
        (s.turns host operation).flatMap (Turn.log · host) := by
      cases operation with
      | register timeout limit hlimit =>
        have hmoments := s.start.runMoments_eq host timeout limit hlimit
        rw [moments, registerMoments, hmoments, List.filter_flatMap]
        exact congrArg (List.flatMap · _) (funext fun turn => (turn.log_eq_filter host).symm)
      | setSymmetricKey | setRegistrationPayload | deinit | outside => rfl
    rw [momentsAlong, turnsAlong, List.filter_append, List.flatMap_append, hfirst, ih]

end Session

/-! ## From turn to turn -/

/-- What may happen between two turns: operations of the caller that take none, and the start of the
workflow. -/
inductive Session.Rests (host : Host σ) (s : Session σ) : Session σ → Prop where
  | refl : Rests host s s
  | operation {t : Session σ} (h : Rests host s t) (operation : Operation σ)
      (hrest : operation.isRegister = false) : Rests host s (t.apply host operation)
  | start {t : Session σ} (h : Rests host s t) : Rests host s t.start

/-- The turns lead from one session to another, with rests between them. -/
inductive Session.Leads (host : Host σ) : Session σ → List (Turn σ) → Session σ → Prop where
  | rest {s t : Session σ} (h : s.Rests host t) : Leads host s [] t
  | turn {s t : Session σ} {turn : Turn σ} {turns : List (Turn σ)} (h : s.Rests host turn.session)
      (hnext : Leads host (turn.after host) turns t) : Leads host s (turn :: turns) t

namespace Session

variable {host : Host σ} {s t u : Session σ} {turns turns' : List (Turn σ)} {turn : Turn σ}

theorem Rests.trans (h : s.Rests host t) (h' : t.Rests host u) : s.Rests host u := by
  induction h' with
  | refl => exact h
  | operation _ operation hrest ih => exact ih.operation operation hrest
  | start _ ih => exact ih.start

theorem Leads.of_rests (h : s.Rests host t) (hleads : t.Leads host turns u) :
    s.Leads host turns u := by
  cases hleads with
  | rest hrest => exact .rest (h.trans hrest)
  | turn hrest hnext => exact .turn (h.trans hrest) hnext

theorem Leads.append (h : s.Leads host turns t) (h' : t.Leads host turns' u) :
    s.Leads host (turns ++ turns') u := by
  induction h with
  | rest hrest => exact h'.of_rests hrest
  | turn hrest _ ih => exact .turn hrest (ih h')

theorem Leads.of_append (h : s.Leads host (turns ++ turns') u) :
    ∃ t, s.Leads host turns t ∧ t.Leads host turns' u := by
  induction turns generalizing s with
  | nil => exact ⟨s, .rest .refl, h⟩
  | cons turn turns ih =>
    cases h with
    | turn hrest hnext =>
      obtain ⟨t, hturns, hturns'⟩ := ih hnext
      exact ⟨t, .turn hrest hturns, hturns'⟩

/-- A turn starts where the turns before it have led. -/
theorem Leads.of_turn (h : s.Leads host (turns ++ turn :: turns') u) :
    s.Leads host turns turn.session ∧ (turn.after host).Leads host turns' u := by
  obtain ⟨t, hturns, hturn⟩ := h.of_append
  cases hturn with
  | turn hrest hnext => exact ⟨List.append_nil turns ▸ hturns.append (.rest hrest), hnext⟩

theorem runTurns_leads (s : Session σ) (host : Host σ) (remaining limit : Nat) (hlimit : 0 < limit) :
    s.Leads host (s.runTurns host remaining limit hlimit) (s.run host remaining limit hlimit) := by
  fun_induction run s host remaining limit hlimit with
  | case1 s remaining hstate =>
    rw [runTurns, if_pos hstate]
    exact .rest .refl
  | case2 s remaining hstate s' hle =>
    rw [runTurns, if_neg hstate, if_pos hle]
    exact .turn .refl (.rest .refl)
  | case3 s remaining hstate s' hle ih =>
    rw [runTurns, if_neg hstate, if_neg hle]
    exact .turn .refl ih

theorem turns_leads (s : Session σ) (host : Host σ) (operation : Operation σ) :
    s.Leads host (s.turns host operation) (s.apply host operation) := by
  cases operation with
  | register timeout limit hlimit =>
    exact (s.start.runTurns_leads host timeout limit hlimit).of_rests (Rests.refl.start)
  | setSymmetricKey | setRegistrationPayload | deinit | outside =>
    exact .rest (Rests.refl.operation _ rfl)

/-- Each turn of a sequence of operations starts where the one before it has ended, after a rest. -/
theorem turnsAlong_leads (s : Session σ) (host : Host σ) (operations : List (Operation σ)) :
    s.Leads host (s.turnsAlong host operations) (s.applyAll host operations) := by
  induction operations generalizing s with
  | nil => exact .rest .refl
  | cons operation operations ih => exact (s.turns_leads host operation).append (ih _)

/-! ## What stays -/

/-- While the workflow rests its step stays, and so do the last response and the time of the next
poll. -/
theorem Rests.keeps (h : s.Rests host t) (hstate : s.client.state ≠ .init) :
    t.client.state = s.client.state ∧ t.client.response = s.client.response ∧
      t.client.retryDeadline = s.client.retryDeadline := by
  induction h with
  | refl => exact ⟨rfl, rfl, rfl⟩
  | @operation t _ operation hrest ih =>
    have hstarted : t.client.state ≠ .init := fun hinit => hstate (ih.1.symm.trans hinit)
    suffices h : (t.apply host operation).client.state = t.client.state ∧
        (t.apply host operation).client.response = t.client.response ∧
        (t.apply host operation).client.retryDeadline = t.client.retryDeadline from
      ⟨h.1.trans ih.1, h.2.1.trans ih.2.1, h.2.2.trans ih.2.2⟩
    cases operation with
    | register => cases hrest
    | setSymmetricKey encoded hmac =>
      simp only [apply, Client.setSymmetricKey]
      cases SymmetricKey.ofEncoded encoded hmac <;> exact ⟨rfl, rfl, rfl⟩
    | setRegistrationPayload payload =>
      simp only [apply, Client.setRegistrationPayload, if_pos hstarted]
      split <;> exact ⟨rfl, rfl, rfl⟩
    | deinit | outside => exact ⟨rfl, rfl, rfl⟩
  | @start t _ ih =>
    have hstarted : t.client.state ≠ .init := fun hinit => hstate (ih.1.symm.trans hinit)
    rw [Session.start, if_neg hstarted]
    exact ih

theorem Rests.steps (h : s.Rests host t) :
    ∃ now, s.client.Steps now t.client ∧ ∀ m ∈ now, m = .drop := by
  induction h with
  | refl => exact ⟨[], .refl _, List.forall_mem_nil _⟩
  | @operation t _ operation hrest ih =>
    obtain ⟨now, hnow, hdrop⟩ := ih
    refine ⟨_, hnow.trans (t.apply_steps host operation), List.forall_mem_append.mpr ⟨hdrop, ?_⟩⟩
    cases operation with
    | register => cases hrest
    | deinit => exact List.forall_mem_singleton.mpr rfl
    | setSymmetricKey | setRegistrationPayload | outside => exact List.forall_mem_nil _
  | @start t _ ih =>
    obtain ⟨now, hnow, hdrop⟩ := ih
    exact ⟨_, hnow.trans t.start_steps, List.forall_mem_append.mpr ⟨hdrop, List.forall_mem_nil _⟩⟩

/-- What has happened once the turns have been taken: what happens in them, and what the caller has
dropped in between. -/
theorem Leads.steps (h : s.Leads host turns t) : ∃ now, s.client.Steps now t.client ∧
    ∀ {α : Type} (f : Moment → Option α), f .drop = none →
      now.filterMap f = (turns.flatMap (Turn.moments · host)).filterMap f := by
  have hdropped {now : List Moment} (hnow : ∀ m ∈ now, m = .drop) {α : Type}
      (f : Moment → Option α) (hf : f .drop = none) : now.filterMap f = [] :=
    List.filterMap_eq_nil_iff.mpr fun m hm => hnow m hm ▸ hf
  induction h with
  | rest hrest =>
    obtain ⟨now, hnow, hdrop⟩ := hrest.steps
    exact ⟨now, hnow, hdropped hdrop⟩
  | @turn s t first turns hrest _ ih =>
    obtain ⟨dropped, hfirst, hdrop⟩ := hrest.steps
    obtain ⟨now, hnow, hkept⟩ := ih
    refine ⟨_, (hfirst.trans (first.session.tick_steps host first.wait)).trans hnow,
      fun f hf => ?_⟩
    rw [List.filterMap_append, List.filterMap_append, hdropped hdrop f hf, List.nil_append,
      hkept f hf, List.flatMap_cons, List.filterMap_append]
    rfl

end Session

end DeviceTrust.Provisioning
