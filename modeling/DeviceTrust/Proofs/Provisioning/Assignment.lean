import DeviceTrust.Proofs.Provisioning.FinalResult

/-!
# Assignments need not name a hub

A response is an assignment by its status, by the word for the status of its operation, and by an
operation id that is there. The state of the registration has no part in this. Where it is missing or
null, or one of its members is, an empty text stands for what is missing, and the workflow completes
with success all the same.

So a client that answers with an assignment has a hub and a device id to give if the response names
both of them, and an empty text in the place of one that it does not name.

Results:
* `ofDocument_of_assigns`, `assigns_of_ofDocument`: what makes a response an assignment.
* `ResponseDocument.state_named_iff`: when there are a hub and a device id to give.
* `Run.assignment`: both directions, for every run.
* `assignment_unnamed`: an assignment to nowhere.
-/

namespace DeviceTrust.Provisioning

/-! ## Words -/

/-- The word for a status. -/
def OperationStatus.word : OperationStatus → String
  | .unassigned => "unassigned"
  | .assigning => "assigning"
  | .assigned => "assigned"
  | .failed => "failed"
  | .disabled => "disabled"

theorem OperationStatus.ofWord?_eq_some_iff {word : String} {status : OperationStatus} :
    OperationStatus.ofWord? word = some status ↔ word = status.word := by
  unfold OperationStatus.ofWord?
  cases status <;> grind [OperationStatus.word]

theorem OperationStatus.ofWord?_eq_none_iff {word : String} :
    OperationStatus.ofWord? word = none ↔ ∀ status : OperationStatus, word ≠ status.word := by
  simp only [Option.eq_none_iff_forall_ne_some, ne_eq, OperationStatus.ofWord?_eq_some_iff]

/-! ## Documents -/

namespace ResponseDocument

/-- The hub that the document names. -/
def hub? (document : ResponseDocument) : Option String :=
  document.registrationState.bind StateDocument.assignedHub

/-- The device that the document names. -/
def device? (document : ResponseDocument) : Option String :=
  document.registrationState.bind StateDocument.deviceId

/-- What the document says of the registration, with empty texts for what is missing. -/
def state (document : ResponseDocument) : RegistrationState :=
  (document.registrationState.map StateDocument.toState).getD .empty

/-- The document names a hub and a device, and neither name is empty. -/
structure Names (document : ResponseDocument) : Prop where
  hub : ∃ hub, document.hub? = some hub ∧ hub ≠ ""
  device : ∃ device, document.device? = some device ∧ device ≠ ""

/-- The document says that the device has been assigned. -/
structure Assigns (document : ResponseDocument) (topic : ResponseTopic) : Prop where
  status_lt : topic.status < errorStatus
  operationId : document.operationId.isSome
  word : document.status = some "assigned"

variable {document : ResponseDocument} {topic : ResponseTopic}

theorem state_assignedHub (document : ResponseDocument) :
    document.state.assignedHub = document.hub?.getD "" := by
  rw [state, hub?]
  cases document.registrationState <;> rfl

theorem state_deviceId (document : ResponseDocument) :
    document.state.deviceId = document.device?.getD "" := by
  rw [state, device?]
  cases document.registrationState <;> rfl

theorem getD_ne_empty_iff {name : Option String} :
    name.getD "" ≠ "" ↔ ∃ text, name = some text ∧ text ≠ "" := by
  cases name with
  | none => simp
  | some text => simp

theorem state_named_iff : document.state.assignedHub ≠ "" ∧ document.state.deviceId ≠ "" ↔
    document.Names := by
  rw [state_assignedHub, state_deviceId, getD_ne_empty_iff, getD_ne_empty_iff]
  exact ⟨fun ⟨hhub, hdevice⟩ => ⟨hhub, hdevice⟩, fun h => ⟨h.hub, h.device⟩⟩

theorem operation?_eq_some_iff {operationId word : String} :
    document.operation? topic = some (operationId, word) ↔
      topic.status < errorStatus ∧ document.operationId = some operationId ∧
        document.status = some word := by
  unfold operation?
  split
  next hlt => cases document.operationId <;> cases document.status <;> simp [hlt]
  next hle => simp [hle]

theorem assigns_iff : document.Assigns topic ↔
    ∃ operationId, document.operation? topic = some (operationId, "assigned") := by
  constructor
  · intro h
    obtain ⟨operationId, hid⟩ := Option.isSome_iff_exists.mp h.operationId
    exact ⟨operationId, operation?_eq_some_iff.mpr ⟨h.status_lt, hid, h.word⟩⟩
  · rintro ⟨operationId, hoperation⟩
    obtain ⟨hlt, hid, hword⟩ := operation?_eq_some_iff.mp hoperation
    exact ⟨hlt, Option.isSome_iff_exists.mpr ⟨operationId, hid⟩, hword⟩

end ResponseDocument

/-! ## Responses -/

section Responses

variable {message : Message} {topic : ResponseTopic} {document : ResponseDocument}
  {response : RegistrationResponse}

/-- A document that says so gives an assignment, with the state that it gives. -/
theorem ofDocument_of_assigns (h : document.Assigns topic) :
    ∃ response, RegistrationResponse.ofDocument topic document = .ok response ∧
      response.operationStatus = .assigned ∧ response.state = document.state := by
  obtain ⟨operationId, hoperation⟩ := ResponseDocument.assigns_iff.mp h
  rw [RegistrationResponse.ofDocument, hoperation]
  exact ⟨_, rfl, rfl, rfl⟩

/-- No other document gives an assignment. -/
theorem assigns_of_ofDocument (h : RegistrationResponse.ofDocument topic document = .ok response)
    (hstatus : response.operationStatus = .assigned) :
    document.Assigns topic ∧ response.state = document.state := by
  rw [RegistrationResponse.ofDocument] at h
  split at h
  next operationId word hoperation =>
    split at h
    next => cases h
    next operationStatus hword =>
      obtain rfl := Except.ok.inj h
      obtain rfl : operationStatus = .assigned := hstatus
      obtain rfl := OperationStatus.ofWord?_eq_some_iff.mp hword
      exact ⟨ResponseDocument.assigns_iff.mpr ⟨operationId, hoperation⟩, rfl⟩
  next =>
    split at h
    next => cases h
    next =>
      obtain rfl := Except.ok.inj h
      cases hstatus

/-- The message has the topic and the document. -/
structure Message.Has (message : Message) (topic : ResponseTopic) (document : ResponseDocument) :
    Prop where
  topic_eq : readResponseTopic message.topic = .ok (some topic)
  document_eq : ResponseDocument.reader.readDocument message.payload = .ok document

theorem Message.Has.carries (h : message.Has topic document)
    (hresponse : RegistrationResponse.ofDocument topic document = .ok response) :
    message.Carries response := by
  refine ⟨topic, h.topic_eq, ?_⟩
  rw [RegistrationResponse.read, h.document_eq]
  exact mapError_eq_ok_iff.mpr hresponse

theorem Message.Carries.has (h : message.Carries response) : ∃ topic document,
    message.Has topic document ∧ RegistrationResponse.ofDocument topic document = .ok response := by
  obtain ⟨topic, htopic, hread⟩ := h
  rw [RegistrationResponse.read] at hread
  split at hread
  next => cases hread
  next document hdocument =>
    exact ⟨topic, document, ⟨htopic, hdocument⟩, mapError_eq_ok_iff.mp hread⟩

end Responses

/-! ## Runs -/

section Runs

variable {σ : Type} {host : Host σ} {operations : List (Operation σ)} {past : List Moment}
  {s : Session σ} {limit : Nat} {hlimit : 0 < limit}

/-- An assignment that has been kept is the answer of the next registration, whatever it names. -/
theorem Session.assigned_of_assigns {message : Message} {topic : ResponseTopic}
    {document : ResponseDocument} (hstate : s.client.state = .response)
    (hm : s.client.message = some message) (hhas : message.Has topic document)
    (hassigns : document.Assigns topic) (host : Host σ) (timeout : Nat) :
    s.AnswersAtOnce host timeout limit hlimit (.ok .assigned) ∧
      (s.register host timeout limit hlimit).2.client.Shows document.state := by
  obtain ⟨response, hresponse, hstatus, hsame⟩ := ofDocument_of_assigns hassigns
  have hcarries := hhas.carries hresponse
  have hfinal : response.operationStatus.isPending = false := by
    rw [hstatus]
    rfl
  refine ⟨answersAtOnce_of_assigned hstate hm hcarries hstatus host timeout, ?_⟩
  rw [(register_final hstate hm hcarries hfinal host timeout).1, ← hsame]
  exact Client.shows_of_complete (s.client.conclude_state hstate hfinal)
    (RegistrationResponse.result_eq_success_iff.mpr hstatus) rfl

/-- A registration answers with an assignment if the response kept last says that the device has been
assigned, and not otherwise. What the client gives for the hub and the device id is what the
document of this response names, and an empty text for what it does not name. So both are there if
the document names both, but nothing makes it do so. -/
theorem Run.assignment (h : Run host operations past s) (timeout : Nat) :
    let result := s.register host timeout limit hlimit
    (result.1 = .ok .assigned → ∃ message topic document,
      lastKept? (past ++ s.registerMoments host timeout limit hlimit) = some message ∧
      message.Has topic document ∧ document.Assigns topic ∧
      result.2.client.Shows document.state ∧
      (document.state.assignedHub ≠ "" ∧ document.state.deviceId ≠ "" ↔ document.Names)) ∧
    ∀ message topic document, s.client.state = .response → s.client.message = some message →
      message.Has topic document → document.Assigns topic →
      s.AnswersAtOnce host timeout limit hlimit (.ok .assigned) ∧
        result.2.client.Shows document.state := by
  intro result
  have hinvariant : ResultInvariant (past ++ s.registerMoments host timeout limit hlimit)
      result.2.client :=
    (h.next (.register timeout limit hlimit)).hasPast.resultInvariant
  constructor
  · intro hassigned
    obtain ⟨message, response, hkept, hcarries, hstatus, -, hshows⟩ :=
      hinvariant.of_assigned hassigned
    obtain ⟨topic, document, hhas, hresponse⟩ := hcarries.has
    obtain ⟨hassigns, hsame⟩ := assigns_of_ofDocument hresponse hstatus
    rw [hsame] at hshows
    exact ⟨message, topic, document, hkept, hhas, hassigns, hshows, ResponseDocument.state_named_iff⟩
  · intro message topic document hstate hm hhas hassigns
    exact Session.assigned_of_assigns hstate hm hhas hassigns host timeout

/-- A device that is assigned to a hub that the response names. -/
theorem assignment_named : ∃ message topic document, ∃ s : Session Script,
    (s.register .scripted 2000).1 = .ok .assigned ∧
    lastKept? (s.registerMoments .scripted 2000) = some message ∧ message.Has topic document ∧
    document.Names ∧ document.state.assignedHub ≠ "" ∧ document.state.deviceId ≠ "" ∧
    (s.register .scripted 2000).2.client.Shows document.state := by
  let message : Message := {
    topic := "$dps/registrations/res/200/?$rid=1"
    payload := utf8 ("\x7b\"operationId\":\"4\",\"status\":\"assigned\"," ++
      "\"registrationState\":\x7b\"assignedHub\":\"hub\",\"deviceId\":\"device\"\x7d\x7d") }
  let s : Session Script := .scripted [.ok [], .ok [.suback 1], .ok [.publish message]]
  have hrun : Run .scripted [] [] s := .scripted _
  have hassigned : (s.register .scripted 2000).1 = .ok .assigned := by
    decide +kernel
  have hlast : lastKept? (s.registerMoments .scripted 2000) = some message := by
    decide +kernel
  have hdocument : ResponseDocument.reader.readDocument message.payload =
      .ok ⟨some "4", some "assigned", some ⟨some "hub", some "device", none, none⟩, none, none,
        none⟩ := by
    decide +kernel
  obtain ⟨message', topic, document, hkept, hhas, -, hshows, hnamed⟩ :=
    (hrun.assignment 2000).1 hassigned
  obtain rfl : message = message' := Option.some.inj (hlast.symm.trans hkept)
  obtain rfl := Except.ok.inj (hdocument.symm.trans hhas.document_eq)
  have hnames := hnamed.mp ⟨by decide, by decide⟩
  exact ⟨message, topic, _, s, hassigned, hlast, hhas, hnames, by decide, by decide, hshows⟩

/-- A device that is assigned by a response without a state: its hub and its device id are empty. -/
theorem assignment_unnamed : ∃ message topic document, ∃ s : Session Script,
    Run .scripted [] [] s ∧ (s.register .scripted 2000).1 = .ok .assigned ∧
    lastKept? (s.registerMoments .scripted 2000) = some message ∧ message.Has topic document ∧
    document.registrationState = none ∧ ∀ hostname deviceId,
      (s.register .scripted 2000).2.client.getDeviceAndHub hostname deviceId =
        (.ok (0, 0), hostname, deviceId) := by
  let message : Message := {
    topic := "$dps/registrations/res/200/?$rid=1"
    payload := utf8 "\x7b\"operationId\":\"4\",\"status\":\"assigned\"\x7d" }
  let s : Session Script := .scripted [.ok [], .ok [.suback 1], .ok [.publish message]]
  have hassigned : (s.register .scripted 2000).1 = .ok .assigned := by
    decide +kernel
  have hresponse : (s.register .scripted 2000).2.client.response =
      some ⟨200, "4", .assigned, 0, .empty⟩ := by
    decide +kernel
  have hlast : lastKept? (s.registerMoments .scripted 2000) = some message := by
    decide +kernel
  obtain ⟨hstate, hresult⟩ := Client.outcome_eq_assigned_iff.mp hassigned
  have hhas : message.Has ⟨200, 1, 0⟩ ⟨some "4", some "assigned", none, none, none, none⟩ :=
    ⟨by decide +kernel, by decide +kernel⟩
  have hshows := Client.shows_of_complete hstate hresult hresponse
  refine ⟨message, _, _, s, .scripted _, hassigned, hlast, hhas, rfl, fun hostname deviceId => ?_⟩
  exact hshows hostname deviceId (Nat.zero_le _) (Nat.zero_le _)

end Runs

end DeviceTrust.Provisioning
