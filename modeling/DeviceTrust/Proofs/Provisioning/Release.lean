import DeviceTrust.Proofs.Provisioning.Refusals

/-!
# Releasing the message that is kept

A caller can make a client drop the message that it keeps. A message is kept from the turn that
receives it to the next one, which reads it; whatever else happens in between, it goes with the step
of the workflow in which a response is to be read. In all other steps there is nothing to drop, so
nothing can be told of a release. In this step the workflow stays where it is, without anything to
read, and the next registration completes it at once.

Results:
* `Session.ignores_of_eq`: a use that leaves the session as it is.
* `Session.afterUses_of_released`: what can be done to a client that has nothing to read.
* `Session.register_of_released`: the registration that completes its workflow.
* `Run.release_transparent`: releases from any session that a run has reached.
-/

namespace DeviceTrust.Provisioning

/-! ## Dropping a message -/

namespace Client

variable {c : Client}

theorem deinit_deinit (c : Client) : c.deinit.deinit = c.deinit :=
  deinit_of_message_eq_none rfl

/-- Nothing but the message is dropped. -/
theorem deinit_withMessage (c : Client) : { c.deinit with message := c.message } = c := rfl

end Client

variable {σ : Type}

/-- The use is a registration. -/
def Use.Registers (use : Use σ) : Prop :=
  ∃ operation, use = .operation operation ∧ operation.isRegister = true

namespace Session

variable {s : Session σ}

/-- The use has no effect on what is done later, whatever this is and with whatever host: it leads
to the same session, and what can be told of it is the same. -/
def Ignores (s : Session σ) (use : Use σ) : Prop :=
  ∀ (host : Host σ) (later : List (Use σ)),
    s.afterUses host (use :: later) = s.afterUses host later ∧
    s.dialogue host (use :: later) =
      (s.useMoments host use, s.reply host use) :: s.dialogue host later

theorem ignores_of_eq {use : Use σ} (h : ∀ host, s.afterUse host use = s) : s.Ignores use := by
  intro host later
  rw [afterUses, dialogue, h]
  exact ⟨rfl, rfl⟩

theorem ignores_deinit (h : s.client.message = none) : s.Ignores (.operation .deinit) :=
  ignores_of_eq fun _ => congrArg (Session.mk · s.outside) (Client.deinit_of_message_eq_none h)

/-! ## Nothing to read -/

/-- A response is to be read, but there is none. -/
structure Released (s : Session σ) : Prop where
  state : s.client.state = .response
  message : s.client.message = none

theorem released_of_deinit (h : s.client.state = .response) (host : Host σ) :
    (s.afterUse host (.operation .deinit)).Released :=
  ⟨h, rfl⟩

/-- Only a registration changes more than the key of the client. -/
theorem afterUse_of_released (h : s.Released) (host : Host σ) {use : Use σ}
    (huse : ¬use.Registers) : (s.afterUse host use).client =
      { s.client with key := (s.afterUse host use).client.key } := by
  cases use with
  | getDeviceAndHub | getExtendedCode => rfl
  | operation operation =>
    have hrest : operation.isRegister = false :=
      Bool.eq_false_iff.mpr fun hregister => huse ⟨operation, rfl, hregister⟩
    exact apply_of_started (by simp [h.state]) h.message host hrest

/-- As long as there is no registration, nothing but the key changes. -/
theorem afterUses_of_released (h : s.Released) (host : Host σ) {uses : List (Use σ)}
    (huses : ∀ use ∈ uses, ¬use.Registers) : (s.afterUses host uses).client =
      { s.client with key := (s.afterUses host uses).client.key } := by
  induction uses generalizing s with
  | nil => rfl
  | cons use uses ih =>
    obtain ⟨huse, hrest⟩ := List.forall_mem_cons.mp huses
    have hfirst := afterUse_of_released h host huse
    have hreleased : (s.afterUse host use).Released := by
      constructor
      · rw [hfirst]
        exact h.state
      · rw [hfirst]
        exact h.message
    rw [afterUses, ih hreleased hrest, hfirst]

/-- The next registration has nothing to read. It completes the workflow before anything is sent or
received. -/
theorem register_of_released (h : s.Released) (host : Host σ) (timeout limit : Nat)
    (hlimit : 0 < limit) :
    s.register host timeout limit hlimit =
        (.error .invalidResponse, s.settle (.failed .invalidResponse)) ∧
      s.registerMoments host timeout limit hlimit = [] := by
  have hstart : s.start = s := if_neg (by simp [h.state])
  have hact : s.act host = s.settle (.failed .invalidResponse) := by
    rw [act, h.state]
    simp only [readMessage, h.message]
  have hmoments : s.actMoments host = [] := by
    rw [actMoments_eq, actCall?, readMoments, h.state]
    simp only [h.message]
    rfl
  have hcomplete : (s.start.act host).client.state = .complete := by
    rw [hstart, hact]
    exact WorkflowState.next_failed _ _
  obtain ⟨hregister, hregisterMoments⟩ :=
    register_of_act_complete (by simp [hstart, h.state]) hcomplete timeout hlimit
  rw [hregister, hregisterMoments, hstart, hact, hmoments,
    ← s.client.outcome_settle_failed .invalidResponse]
  exact ⟨rfl, rfl⟩

theorem answersAtOnce_of_released (h : s.Released) (host : Host σ) (timeout limit : Nat)
    (hlimit : 0 < limit) : s.AnswersAtOnce host timeout limit hlimit (.error .invalidResponse) := by
  obtain ⟨hregister, hmoments⟩ := register_of_released h host timeout limit hlimit
  rw [AnswersAtOnce, hregister, hmoments]
  exact ⟨rfl, rfl, rfl⟩

end Session

/-! ## Releases in a run -/

variable {host : Host σ} {operations : List (Operation σ)} {past : List Moment} {s : Session σ}

/-- Releasing the message of a client, from any session that a run has reached.

Unless a response is to be read, the client stays as it is, and so does all that is done later.

If a response is to be read, nothing but the message is dropped: the step of the workflow stays, and
so does the response that has been read before, also while the caller does other things. The next
registration completes the workflow with an invalid response. It makes no call and leaves everything
outside as it is, and it keeps the response that has been read before as well.

A second release behind the first one changes nothing, wherever the workflow stands. -/
theorem Run.release_transparent (h : Run host operations past s) :
    (s.client.state ≠ .response →
      s.client.deinit = s.client ∧ s.Ignores (.operation .deinit)) ∧
    (s.client.state = .response →
      s.client.deinit.message = none ∧ { s.client.deinit with message := s.client.message } = s.client ∧
      ∀ (later : Host σ) (uses : List (Use σ)), (∀ use ∈ uses, ¬use.Registers) →
        let t := s.afterUses later (.operation .deinit :: uses)
        t.client = { s.client with message := none, key := t.client.key } ∧
        ∀ timeout limit hlimit,
          t.AnswersAtOnce later timeout limit hlimit (.error .invalidResponse) ∧
          (t.register later timeout limit hlimit).2.client =
            { t.client with state := .complete, lastResult := .failed .invalidResponse }) ∧
    s.client.deinit.deinit = s.client.deinit ∧
    ∀ later, (s.afterUse later (.operation .deinit)).Ignores (.operation .deinit) := by
  refine ⟨fun hstate => ?_, fun hstate => ?_, s.client.deinit_deinit, fun later => ?_⟩
  · have hmessage : s.client.message = none := h.consistent_and_heeded.1.message_eq_none hstate
    exact ⟨Client.deinit_of_message_eq_none hmessage, Session.ignores_deinit hmessage⟩
  · refine ⟨rfl, s.client.deinit_withMessage, fun later uses huses => ?_⟩
    have hclient := Session.afterUses_of_released (Session.released_of_deinit hstate later) later huses
    intro t
    have ht : t.client = { s.client with message := none, key := t.client.key } := hclient
    have hreleased : t.Released := by
      constructor
      · rw [ht]
        exact hstate
      · rw [ht]
    refine ⟨ht, fun timeout limit hlimit => ?_⟩
    refine ⟨Session.answersAtOnce_of_released hreleased later timeout limit hlimit, ?_⟩
    rw [(Session.register_of_released hreleased later timeout limit hlimit).1]
    show t.client.settle _ = _
    rw [Client.settle, WorkflowState.next_failed]
  · exact Session.ignores_deinit rfl

/-- A device that has been told to wait, and keeps the answer to its next request: what it has been
told before outlives the release, and the next registration fails. Without the release it reads the
answer, and then there is nothing to drop. -/
theorem release_transparent_second : ∃ (host : Host Script) (past : List Moment) (s : Session Script)
    (response : RegistrationResponse) (t : Session Script),
    Run host [.register 3000] past s ∧ s.client.state = .response ∧ s.client.message.isSome = true ∧
    t = s.afterUses host [.operation .deinit, .getExtendedCode] ∧ t.client.message = none ∧
    t.client.response = some response ∧
    t.AnswersAtOnce host 500 processLoopTimeout processLoopTimeout_pos (.error .invalidResponse) ∧
    (s.register host 500).2.client.deinit = (s.register host 500).2.client := by
  let message : Message := {
    topic := "$dps/registrations/res/202/?$rid=1"
    payload := utf8 "\x7b\"operationId\":\"4\",\"status\":\"assigning\"\x7d" }
  let response : RegistrationResponse := ⟨202, "4", .assigning, 0, .empty⟩
  let script : Script := [.ok [], .ok [.suback 1], .ok [.publish message], .ok [], .ok [],
    .ok [.publish message], .ok []]
  -- the time goes on with the script
  let host : Host Script := { Host.scripted with
    now := fun script => (100 - 10 * UInt64.ofNat script.length, script) }
  let s : Session Script := Session.apply (.scripted script) host (.register 3000)
  have hrun : Run host [.register 3000] _ s := (Run.ofScript host script).next (.register 3000)
  obtain ⟨hstate, hmessage, hresponse⟩ : s.client.state = .response ∧
      s.client.message.isSome = true ∧ s.client.response = some response := by
    decide +kernel
  have hwaiting : (s.apply host (.register 500)).client.state ≠ .response := by
    decide +kernel
  have huses : ∀ use ∈ ([.getExtendedCode] : List (Use Script)), ¬use.Registers := by
    simp [Use.Registers]
  obtain ⟨ht, hregister⟩ :=
    (hrun.release_transparent.2.1 hstate).2.2 host [.getExtendedCode] huses
  refine ⟨host, _, s, response, _, hrun, hstate, hmessage, rfl, ?_, ?_, (hregister 500 _ _).1, ?_⟩
  · rw [ht]
  · rw [ht]
    exact hresponse
  · exact ((hrun.next (.register 500)).release_transparent.1 hwaiting).1

end DeviceTrust.Provisioning
