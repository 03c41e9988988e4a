import DeviceTrust.Proofs.Provisioning.WorkingBuffer

/-!
# Refused calls change nothing

A key or a custom payload that is refused leaves the client as it is, and so does asking for a result
that is not there. The caller's buffers keep every byte when the hub and the device id are not both
there or do not both fit; otherwise each of the two is written at the start of its buffer, and the bytes
behind it stay.

So a refused call can be left out of any sequence of calls, and no other call can tell the difference.

Results:
* `Client.setSymmetricKey_of_error`, `Client.setRegistrationPayload_of_error`,
  `Client.getDeviceAndHub_of_error`: calls that are refused.
* `Client.getDeviceAndHub_of_ok`: what is written when the result is there.
* `Session.dialogue_unrefused`: sequences of calls without those that are refused.
* `Session.refusals`: all of this, for every session.
-/

namespace DeviceTrust.Provisioning

/-! ## One call -/

namespace Client

variable {c c' : Client} {hostname deviceId hostname' deviceId' : Bytes}

theorem setSymmetricKey_of_error {encoded : Bytes} {hmac : HmacFunction Id} {e : Error}
    (h : c.setSymmetricKey encoded hmac = (.error e, c')) : c' = c := by
  unfold setSymmetricKey at h
  split at h
  next => exact (Prod.mk.inj h).2.symm
  next => cases (Prod.mk.inj h).1

theorem setRegistrationPayload_of_error {payload : Bytes} {failure : Failure}
    (h : c.setRegistrationPayload payload = (.error failure, c')) : c' = c := by
  unfold setRegistrationPayload at h
  split at h
  next => exact (Prod.mk.inj h).2.symm
  next =>
    split at h
    next => exact (Prod.mk.inj h).2.symm
    next => cases (Prod.mk.inj h).1

theorem getDeviceAndHub_of_error {failure : Failure}
    (h : c.getDeviceAndHub hostname deviceId = (.error failure, hostname', deviceId')) :
    hostname' = hostname ∧ deviceId' = deviceId := by
  unfold getDeviceAndHub at h
  split at h
  next =>
    obtain ⟨-, hbuffers⟩ := Prod.mk.inj h
    obtain ⟨rfl, rfl⟩ := Prod.mk.inj hbuffers
    exact ⟨rfl, rfl⟩
  next =>
    dsimp only at h
    split at h
    next =>
      obtain ⟨-, hbuffers⟩ := Prod.mk.inj h
      obtain ⟨rfl, rfl⟩ := Prod.mk.inj hbuffers
      exact ⟨rfl, rfl⟩
    next => cases (Prod.mk.inj h).1

/-- The text takes the first bytes of the buffer, and the bytes behind it have stayed. -/
structure Occupies (text before after : Bytes) : Prop where
  fits : text.length ≤ before.length
  take_eq : after.take text.length = text
  drop_eq : after.drop text.length = before.drop text.length

theorem occupies_fill {text buffer : Bytes} (h : text.length ≤ buffer.length) :
    Occupies text buffer (Bytes.fill buffer text) := by
  refine ⟨h, Bytes.take_fill h, ?_⟩
  rw [Bytes.fill, List.take_of_length_le h, List.drop_left]

theorem assignedState_of_ok {state : RegistrationState} (h : c.assignedState = .ok state) :
    c.state = .complete ∧ ∃ response, c.response = some response ∧ response.state = state := by
  unfold assignedState at h
  split at h
  next => cases h
  next hstate =>
    refine ⟨not_not.mp hstate, ?_⟩
    split at h
    next => cases h
    next response hresponse _ => exact ⟨response, hresponse, Except.ok.inj h⟩
    next => cases h

/-- The hub and the device id of the response are given in two buffers. -/
structure Gives (c : Client) (response : RegistrationResponse) (lengths : Nat × Nat)
    (hostname deviceId hostname' deviceId' : Bytes) : Prop where
  complete : c.state = .complete
  response_eq : c.response = some response
  lengths_eq : lengths =
    ((utf8 response.state.assignedHub).length, (utf8 response.state.deviceId).length)
  hub : Occupies (utf8 response.state.assignedHub) hostname hostname'
  device : Occupies (utf8 response.state.deviceId) deviceId deviceId'

theorem getDeviceAndHub_of_ok {lengths : Nat × Nat}
    (h : c.getDeviceAndHub hostname deviceId = (.ok lengths, hostname', deviceId')) :
    ∃ response, c.Gives response lengths hostname deviceId hostname' deviceId' := by
  unfold getDeviceAndHub at h
  split at h
  next => cases (Prod.mk.inj h).1
  next state hassigned =>
    dsimp only at h
    split at h
    next => cases (Prod.mk.inj h).1
    next hroom =>
      obtain ⟨hlengths, hbuffers⟩ := Prod.mk.inj h
      obtain ⟨rfl, rfl⟩ := Prod.mk.inj hbuffers
      obtain ⟨hstate, response, hresponse, rfl⟩ := assignedState_of_ok hassigned
      rw [not_or, Nat.not_lt, Nat.not_lt] at hroom
      exact ⟨response, hstate, hresponse, (Except.ok.inj hlengths).symm, occupies_fill hroom.1,
        occupies_fill hroom.2⟩

end Client

/-! ## Sequences of calls -/

variable {σ : Type}

/-- What can be done to a session, and what it can be asked for. -/
inductive Use (σ : Type) where
  | operation (operation : Operation σ)
  | getDeviceAndHub (hostname deviceId : Bytes)
  | getExtendedCode

/-- What the caller is left with: an answer, and its buffers if it has lent some. -/
inductive Reply where
  | answer (answer : Answer)
  | deviceAndHub (result : Except Failure (Nat × Nat)) (hostname deviceId : Bytes)
  | extendedCode (result : Except Failure UInt32)

/-- Whether a key, a payload or the request for a result has been refused. -/
def Reply.isRefusal : Reply → Bool
  | .answer (.setSymmetricKey (.error _)) | .answer (.setRegistrationPayload (.error _))
  | .deviceAndHub (.error _) _ _ | .extendedCode (.error _) => true
  | .answer _ | .deviceAndHub _ _ _ | .extendedCode _ => false

namespace Session

/-- What the caller is left with. -/
def reply (s : Session σ) (host : Host σ) : Use σ → Reply
  | .operation operation => .answer (s.answer host operation)
  | .getDeviceAndHub hostname deviceId =>
    .deviceAndHub (s.client.getDeviceAndHub hostname deviceId).1
      (s.client.getDeviceAndHub hostname deviceId).2.1
      (s.client.getDeviceAndHub hostname deviceId).2.2
  | .getExtendedCode => .extendedCode s.client.getExtendedCode

/-- The session after a use; asking for a result leaves it as it is. -/
def afterUse (s : Session σ) (host : Host σ) : Use σ → Session σ
  | .operation operation => s.apply host operation
  | .getDeviceAndHub _ _ | .getExtendedCode => s

/-- What happens in a use. -/
def useMoments (s : Session σ) (host : Host σ) : Use σ → List Moment
  | .operation operation => s.moments host operation
  | .getDeviceAndHub _ _ | .getExtendedCode => []

/-- The session after a sequence of uses. -/
def afterUses (s : Session σ) (host : Host σ) : List (Use σ) → Session σ
  | [] => s
  | use :: uses => (s.afterUse host use).afterUses host uses

/-- What can be told of a sequence of uses from outside: what happens in each of them, and what the
caller is left with. -/
def dialogue (s : Session σ) (host : Host σ) : List (Use σ) → List (List Moment × Reply)
  | [] => []
  | use :: uses =>
    (s.useMoments host use, s.reply host use) :: (s.afterUse host use).dialogue host uses

/-- The sequence without the uses that are refused. -/
def unrefused (s : Session σ) (host : Host σ) : List (Use σ) → List (Use σ)
  | [] => []
  | use :: uses =>
    if (s.reply host use).isRefusal then (s.afterUse host use).unrefused host uses
    else use :: (s.afterUse host use).unrefused host uses

variable {s : Session σ} {host : Host σ}

/-- A use that is refused leaves no trace. -/
theorem afterUse_of_refusal {use : Use σ} (h : (s.reply host use).isRefusal = true) :
    s.afterUse host use = s ∧ s.useMoments host use = [] := by
  cases use with
  | getDeviceAndHub hostname deviceId => exact ⟨rfl, rfl⟩
  | getExtendedCode => exact ⟨rfl, rfl⟩
  | operation operation =>
    cases operation with
    | register | deinit | outside => cases h
    | setSymmetricKey encoded hmac =>
      rcases hset : s.client.setSymmetricKey encoded hmac with ⟨e | _, c⟩
      · refine ⟨?_, rfl⟩
        rw [afterUse, apply, hset, Client.setSymmetricKey_of_error hset]
      · simp [reply, answer, hset, Reply.isRefusal] at h
    | setRegistrationPayload payload =>
      rcases hset : s.client.setRegistrationPayload payload with ⟨failure | _, c⟩
      · refine ⟨?_, rfl⟩
        rw [afterUse, apply, hset, Client.setRegistrationPayload_of_error hset]
      · simp [reply, answer, hset, Reply.isRefusal] at h

/-- A sequence of uses without those that are refused leads to the same session, and what can be told
of the others is the same. -/
theorem dialogue_unrefused (s : Session σ) (host : Host σ) (uses : List (Use σ)) :
    s.afterUses host (s.unrefused host uses) = s.afterUses host uses ∧
    s.dialogue host (s.unrefused host uses) =
      (s.dialogue host uses).filter fun entry => !entry.2.isRefusal := by
  induction uses generalizing s with
  | nil => exact ⟨rfl, rfl⟩
  | cons use uses ih =>
    obtain ⟨hafter, hdialogue⟩ := ih (s.afterUse host use)
    rw [unrefused, dialogue]
    split
    next hrefused =>
      obtain ⟨hsame, -⟩ := afterUse_of_refusal hrefused
      rw [hsame] at hafter hdialogue ⊢
      rw [List.filter_cons_of_neg (by simpa using hrefused), afterUses, hsame]
      exact ⟨hafter, hdialogue⟩
    next hrefused =>
      rw [List.filter_cons_of_pos (by simpa using hrefused), afterUses, afterUses, dialogue]
      exact ⟨hafter, congrArg _ hdialogue⟩

/-- Calls that are refused change nothing, in any session. A key or a custom payload that is refused
leaves the whole client as it is, and asking in vain for the hub and the device id leaves both buffers
as they are, whichever of the two would fit; asking for a result never changes the client. If the
hub and the device id are given, each is written in the first bytes of its buffer, as many as it has, and
the other bytes stay. So the refused calls can be left out of any sequence of calls: it leads to the
same session, and the same happens in the other calls, which leave the caller with the same. -/
theorem refusals (s : Session σ) (host : Host σ) :
    (∀ encoded hmac e c, s.client.setSymmetricKey encoded hmac = (.error e, c) → c = s.client) ∧
    (∀ payload failure c, s.client.setRegistrationPayload payload = (.error failure, c) →
      c = s.client) ∧
    (∀ hostname deviceId failure hostname' deviceId', s.client.getDeviceAndHub hostname deviceId =
      (.error failure, hostname', deviceId') → hostname' = hostname ∧ deviceId' = deviceId) ∧
    (∀ hostname deviceId lengths hostname' deviceId', s.client.getDeviceAndHub hostname deviceId =
      (.ok lengths, hostname', deviceId') →
      ∃ response, s.client.Gives response lengths hostname deviceId hostname' deviceId') ∧
    (∀ use, (s.reply host use).isRefusal = true → ∀ later,
      s.afterUses host (use :: later) = s.afterUses host later ∧
      s.dialogue host (use :: later) = ([], s.reply host use) :: s.dialogue host later) ∧
    ∀ uses, s.afterUses host (s.unrefused host uses) = s.afterUses host uses ∧
      s.dialogue host (s.unrefused host uses) =
        (s.dialogue host uses).filter fun entry => !entry.2.isRefusal := by
  refine ⟨?_, ?_, ?_, ?_, ?_, s.dialogue_unrefused host⟩
  · intro encoded hmac e c h
    exact Client.setSymmetricKey_of_error h
  · intro payload failure c h
    exact Client.setRegistrationPayload_of_error h
  · intro hostname deviceId failure hostname' deviceId' h
    exact Client.getDeviceAndHub_of_error h
  · intro hostname deviceId lengths hostname' deviceId' h
    exact Client.getDeviceAndHub_of_ok h
  · intro use hrefused later
    obtain ⟨hsame, hmoments⟩ := afterUse_of_refusal hrefused
    rw [afterUses, dialogue, hsame, hmoments]
    exact ⟨rfl, rfl⟩

/-- A device that has been assigned: its device id does not fit, and then both texts do. -/
theorem refusals_assigned : ∃ s : Session Script, ∃ hostname deviceId response,
    s.client.getDeviceAndHub (List.replicate 4 0) [0] =
      (.error .failed, List.replicate 4 0, [0]) ∧
    s.client.getDeviceAndHub (List.replicate 4 0) (List.replicate 8 0) =
      (.ok (3, 6), hostname, deviceId) ∧
    s.client.Gives response (3, 6) (List.replicate 4 0) (List.replicate 8 0) hostname deviceId ∧
    ∀ timeout, s.dialogue .scripted
        [.getDeviceAndHub (List.replicate 4 0) [0], .operation (.register timeout)] =
      ([], .deviceAndHub (.error .failed) (List.replicate 4 0) [0]) ::
        s.dialogue .scripted [.operation (.register timeout)] := by
  let message : Message := {
    topic := "$dps/registrations/res/200/?$rid=1"
    payload := utf8 ("\x7b\"operationId\":\"4\",\"status\":\"assigned\"," ++
      "\"registrationState\":\x7b\"assignedHub\":\"hub\",\"deviceId\":\"device\"\x7d\x7d") }
  let s : Session Script := ((Session.scripted
    [.ok [], .ok [.suback 1], .ok [.publish message]]).register .scripted 2000).2
  have hrefused : s.client.getDeviceAndHub (List.replicate 4 0) [0] =
      (.error .failed, List.replicate 4 0, [0]) := by
    decide +kernel
  have hgiven : s.client.getDeviceAndHub (List.replicate 4 0) (List.replicate 8 0) =
      (.ok (3, 6), utf8 "hub" ++ [0], utf8 "device" ++ [0, 0]) := by
    decide +kernel
  obtain ⟨-, -, -, hgives, hlater, -⟩ := s.refusals .scripted
  obtain ⟨response, hresponse⟩ := hgives _ _ _ _ _ hgiven
  refine ⟨s, _, _, response, hrefused, hgiven, hresponse, fun timeout => ?_⟩
  have hreply : s.reply .scripted (.getDeviceAndHub (List.replicate 4 0) [0]) =
      .deviceAndHub (.error .failed) (List.replicate 4 0) [0] := by
    rw [reply, hrefused]
  rw [(hlater _ (congrArg Reply.isRefusal hreply) _).2, hreply]

end Session

end DeviceTrust.Provisioning
