import DeviceTrust.Proofs.Provisioning.Turns
import Mathlib.Data.List.Basic

/-!
# The custom payload of a client

A caller can set a custom payload until the first registration starts the workflow, and set it again:
the last one that is accepted counts. From then on it stays, so the client has the same one in every
turn.

Results:
* `Client.Steps.payload_eq`: once the workflow has started, no step changes the payload.
* `Session.Reaches.payload_eq`: what a registration goes through.
* `Run.payload_eq`: the payload of a client is the one that its caller has set last in time.
* `Session.payload_of_mem_turnsAlong`: the payload in each turn.
-/

namespace DeviceTrust.Provisioning

variable {c : Client} {past now : List Moment}

/-! ## Steps -/

theorem WorkflowState.next_ne_init (state : WorkflowState) (result : ActionResult) :
    state.next result ≠ .init := by
  cases state <;> cases result <;> simp [next]

theorem Client.handleEvent_payload (h : c.state ≠ .init) (event : Event) :
    (c.handleEvent event).state ≠ .init ∧ (c.handleEvent event).payload = c.payload := by
  cases event with
  | other packetType => exact ⟨h, rfl⟩
  | suback packetId =>
    show (if c.state = .subscribing then c.settle .success else c).state ≠ .init ∧ _
    rw [handleEvent]
    split
    next => exact ⟨WorkflowState.next_ne_init _ _, rfl⟩
    next => exact ⟨h, rfl⟩
  | publish message =>
    rw [handleEvent]
    rcases c.receive_cases message with ⟨-, heq⟩ | ⟨-, -, heq⟩ | ⟨hkeeps, lastResult, heq⟩
    · rw [heq]
      exact ⟨h, rfl⟩
    · rw [heq]
      exact ⟨WorkflowState.next_ne_init _ _, rfl⟩
    · rw [heq]
      exact ⟨by simp, rfl⟩

/-- Once the workflow has started, the payload stays. -/
theorem Client.Step.payload_eq {d : Client} (hs : c.Step now d) (h : c.state ≠ .init) :
    d.state ≠ .init ∧ d.payload = c.payload := by
  cases hs with
  | setKey | deinit | readOther | process => exact ⟨h, rfl⟩
  | setPayload hstate => exact absurd hstate h
  | deliver event => exact handleEvent_payload h event
  | start | connect | connectFailed | subscribe | publish | publishFailed | readNothing | readFailed
    | read | poll | processFailed => exact ⟨WorkflowState.next_ne_init _ _, rfl⟩

theorem Client.Steps.payload_eq {d : Client} (hs : c.Steps now d) (h : c.state ≠ .init) :
    d.state ≠ .init ∧ d.payload = c.payload := by
  induction hs with
  | refl => exact ⟨h, rfl⟩
  | tail _ hs ih =>
    obtain ⟨hstate, hpayload⟩ := hs.payload_eq ih.1
    exact ⟨hstate, hpayload.trans ih.2⟩

variable {σ : Type} {host : Host σ} {operations : List (Operation σ)} {s t : Session σ}

/-! ## Accepted payloads -/

/-- The payload that an operation sets before the first registration; an empty one is refused. -/
def Operation.payload? : Operation σ → Option Bytes
  | .setRegistrationPayload payload => if payload.isEmpty then none else some payload
  | _ => none

/-- The last custom payload that is accepted before the first registration. -/
def acceptedPayload (operations : List (Operation σ)) : Option Bytes :=
  ((operations.takeWhile fun operation => !operation.isRegister).filterMap
    Operation.payload?).getLast?

theorem acceptedPayload_append (h : ∀ operation ∈ operations, operation.isRegister = false)
    (operation : Operation σ) : acceptedPayload (operations ++ [operation]) =
      operation.payload?.or (acceptedPayload operations) := by
  have hall : ∀ operation ∈ operations, (!operation.isRegister) = true := fun operation hmem => by
    simp [h operation hmem]
  have hself : operations.takeWhile (fun operation => !operation.isRegister) = operations :=
    List.takeWhile_eq_self_iff.mpr hall
  rw [acceptedPayload, List.takeWhile_append_of_pos hall, acceptedPayload, hself,
    List.filterMap_append, List.getLast?_append]
  cases operation with
  | register => rfl
  | setRegistrationPayload payload =>
    by_cases hempty : payload.isEmpty = true <;>
      simp [Operation.isRegister, Operation.payload?, hempty]
  | setSymmetricKey | deinit | outside => rfl

/-- The first registration settles the payload. -/
theorem acceptedPayload_append_of_registered
    (h : ¬∀ operation ∈ operations, operation.isRegister = false) (operation : Operation σ) :
    acceptedPayload (operations ++ [operation]) = acceptedPayload operations := by
  have hstop : (operations.takeWhile fun operation => !operation.isRegister).length ≠
      operations.length := by
    intro hlength
    have hself := (List.takeWhile_prefix _).eq_of_length hlength
    refine h fun operation hmem => ?_
    simpa using List.takeWhile_eq_self_iff.mp hself operation hmem
  rw [acceptedPayload, List.takeWhile_append, if_neg hstop, acceptedPayload]

theorem acceptedPayload_cons (operation : Operation σ) (operations : List (Operation σ)) :
    acceptedPayload (operation :: operations) =
      if operation.isRegister then none
      else (acceptedPayload operations).or operation.payload? := by
  cases operation with
  | register => rfl
  | setRegistrationPayload payload =>
    cases hempty : payload.isEmpty with
    | true => simp [acceptedPayload, Operation.isRegister, Operation.payload?, hempty]
    | false =>
      simp [acceptedPayload, Operation.isRegister, Operation.payload?, hempty, List.getLast?_cons]
  | setSymmetricKey | deinit | outside =>
    simp [acceptedPayload, Operation.isRegister, Operation.payload?]

/-! ## Registrations -/

/-- The sessions that a registration goes through: it starts the workflow and takes turns. -/
inductive Session.Reaches (s : Session σ) (host : Host σ) : List Moment → Session σ → Prop where
  | start : Reaches s host [] s.start
  | turn {now : List Moment} {t : Session σ} (h : Reaches s host now t) (wait : Nat) :
      Reaches s host (now ++ t.turnMoments host wait) (t.tick host wait)

theorem Session.run_reaches (t : Session σ) (host : Host σ) (remaining limit : Nat)
    (hlimit : 0 < limit) : ∀ now, s.Reaches host now t →
      s.Reaches host (now ++ t.runMoments host remaining limit hlimit)
        (t.run host remaining limit hlimit) := by
  fun_induction run t host remaining limit hlimit with
  | case1 t remaining hstate =>
    intro now ht
    rw [runMoments, if_pos hstate, List.append_nil]
    exact ht
  | case2 t remaining hstate t' hle =>
    intro now ht
    rw [runMoments, if_neg hstate, if_pos hle, List.append_nil]
    exact ht.turn _
  | case3 t remaining hstate t' hle ih =>
    intro now ht
    rw [runMoments, if_neg hstate, if_neg hle, ← List.append_assoc]
    exact ih _ (ht.turn _)

/-- The end of a registration is reached by it. -/
theorem Session.register_reaches (s : Session σ) (host : Host σ) (timeout limit : Nat)
    (hlimit : 0 < limit) : s.Reaches host (s.registerMoments host timeout limit hlimit)
      (s.register host timeout limit hlimit).2 :=
  run_reaches s.start host timeout limit hlimit [] .start

theorem Session.Reaches.steps (h : s.Reaches host now t) : s.client.Steps now t.client := by
  induction h with
  | start => exact s.start_steps
  | turn h wait ih => exact ih.trans (Session.tick_steps _ host wait)

/-- The start of the workflow does not change the payload. -/
theorem Session.start_payload (s : Session σ) :
    s.start.client.state ≠ .init ∧ s.start.client.payload = s.client.payload := by
  unfold start
  split
  next => exact ⟨WorkflowState.next_ne_init _ _, rfl⟩
  next hstate => exact ⟨hstate, rfl⟩

/-- A registration does not change the payload. -/
theorem Session.Reaches.payload_eq (h : s.Reaches host now t) :
    t.client.state ≠ .init ∧ t.client.payload = s.client.payload := by
  induction h with
  | start => exact s.start_payload
  | @turn now t h wait ih =>
    obtain ⟨hstate, hpayload⟩ := (t.tick_steps host wait).payload_eq ih.1
    exact ⟨hstate, hpayload.trans ih.2⟩

/-! ## Runs -/

/-- What an operation makes of a client whose workflow has not started. -/
theorem Session.apply_of_init (s : Session σ) (hstate : s.client.state = .init) (host : Host σ)
    (operation : Operation σ) :
    ((s.apply host operation).client.state = .init ↔ operation.isRegister = false) ∧
      (s.apply host operation).client.payload = operation.payload?.or s.client.payload := by
  cases operation with
  | register timeout limit hlimit =>
    obtain ⟨hstate', hsame⟩ := (s.register_reaches host timeout limit hlimit).payload_eq
    exact ⟨⟨fun h => absurd h hstate', fun h => by cases h⟩, hsame⟩
  | setRegistrationPayload payload =>
    simp only [apply, Client.setRegistrationPayload, Operation.payload?]
    split
    next => exact ⟨⟨fun _ => rfl, fun _ => hstate⟩, rfl⟩
    next =>
      rw [if_neg (not_not.mpr hstate)]
      exact ⟨⟨fun _ => rfl, fun _ => hstate⟩, rfl⟩
  | setSymmetricKey encoded hmac =>
    simp only [apply, Client.setSymmetricKey]
    split
    next => exact ⟨⟨fun _ => rfl, fun _ => hstate⟩, rfl⟩
    next => exact ⟨⟨fun _ => rfl, fun _ => hstate⟩, rfl⟩
  | deinit | outside => exact ⟨⟨fun _ => rfl, fun _ => hstate⟩, rfl⟩

/-- A client has the payload that has been accepted last, and its workflow starts with the first
registration. -/
theorem Run.payload_eq (h : Run host operations past s) :
    (s.client.state = .init ↔ ∀ operation ∈ operations, operation.isRegister = false) ∧
      s.client.payload = acceptedPayload operations := by
  induction h with
  | new h outside =>
    rw [Client.eq_of_new h]
    exact ⟨⟨fun _ => List.forall_mem_nil _, fun _ => rfl⟩, rfl⟩
  | @next operations past s h operation ih =>
    obtain ⟨hinit, hpayload⟩ := ih
    by_cases hfresh : ∀ operation ∈ operations, operation.isRegister = false
    · obtain ⟨hstate, hsame⟩ := s.apply_of_init (hinit.mpr hfresh) host operation
      rw [acceptedPayload_append hfresh, ← hpayload, hstate, List.forall_mem_append,
        List.forall_mem_singleton]
      exact ⟨⟨fun h => ⟨hfresh, h⟩, And.right⟩, hsame⟩
    · obtain ⟨hstate, hsame⟩ := (s.apply_steps host operation).payload_eq (mt hinit.mp hfresh)
      rw [acceptedPayload_append_of_registered hfresh, ← hpayload, List.forall_mem_append]
      exact ⟨⟨fun h => absurd h hstate, fun h => absurd h.1 hfresh⟩, hsame⟩

/-- Every turn has the payload that has been accepted last before the first registration. -/
theorem Session.payload_of_mem_turnsAlong {turn : Turn σ} (hstate : s.client.state = .init)
    (hmem : turn ∈ s.turnsAlong host operations) : turn.session.client.state ≠ .init ∧
      turn.session.client.payload = (acceptedPayload operations).or s.client.payload := by
  induction operations generalizing s with
  | nil => cases hmem
  | cons operation operations ih =>
    rw [acceptedPayload_cons]
    cases hregister : operation.isRegister with
    | false =>
      obtain ⟨hinit, hpayload⟩ := s.apply_of_init hstate host operation
      have hturns : s.turns host operation = [] := by
        cases operation with
        | register => cases hregister
        | setSymmetricKey | setRegistrationPayload | deinit | outside => rfl
      rw [turnsAlong, hturns, List.nil_append] at hmem
      rw [if_neg (by decide), Option.or_assoc, ← hpayload]
      exact ih (hinit.mpr hregister) hmem
    | true =>
      rw [if_pos rfl, Option.none_or]
      cases operation with
      | register timeout limit hlimit =>
        have hleads : s.start.Leads host (s.turnsAlong host (.register timeout limit hlimit ::
            operations)) _ := (s.start.runTurns_leads host timeout limit hlimit).append
          (turnsAlong_leads _ host operations)
        obtain ⟨before, after, hturns⟩ := List.append_of_mem hmem
        obtain ⟨now, hsteps, -⟩ := (hturns ▸ hleads).of_turn.1.steps
        obtain ⟨hstarted, hpayload⟩ := hsteps.payload_eq s.start_payload.1
        exact ⟨hstarted, hpayload.trans s.start_payload.2⟩
      | setSymmetricKey | setRegistrationPayload | deinit | outside => cases hregister

end DeviceTrust.Provisioning
