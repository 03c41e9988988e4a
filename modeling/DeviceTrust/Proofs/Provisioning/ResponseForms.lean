import DeviceTrust.Proofs.Json.RecordForms
import DeviceTrust.Proofs.Provisioning.Classification

/-!
# The forms of responses

A response is written as an object, and so is the state of the registration in it. But each of the two
can also be a list, which has one element for each member and tells them apart by their places. Such
a payload is read as the object would be: it can assign a device, or leave its registration pending.

No payload in another form is a response, so none can do either.

Results:
* `RegistrationResponse.isResponsePayload_of_read`: what can be read at all.
* `RegistrationResponse.read_iff_of_members`: objects and lists with the same members.
* `Client.HasPast.readInvariant`: what has been read in the past of a client.
* `Run.response_forms`: the forms of all responses of a run.
* `response_forms_list`: a list that assigns a device.
-/

namespace DeviceTrust.Provisioning

open Json (IsList IsObject IsRecord Members Schema Slot nullValue quoted)

/-! ## Forms -/

/-- The members of a registration state, in the order of a list. -/
def StateDocument.names : List String :=
  ["assignedHub", "deviceId", "errorCode", "errorMessage"]

/-- The members of a response, in the order of a list. -/
def ResponseDocument.names : List String :=
  ["operationId", "status", "registrationState", "errorCode", "trackingId", "message"]

/-- The members hold a registration state that is null, an object or a list, if it is there. -/
def ResponseDocument.HasRecordState (members : Members) : Prop :=
  ∀ value, ("registrationState", value) ∈ members →
    value = nullValue ∨ ∃ inner, IsRecord StateDocument.names value inner

/-- The payload is an object, or a list with one element for each member of a response, and so is the
registration state in it, unless it is null or missing. -/
def IsResponsePayload (payload : Bytes) : Prop :=
  ∃ members, IsRecord ResponseDocument.names payload members ∧
    ResponseDocument.HasRecordState members

/-! ## Schemas -/

namespace StateDocument

theorem schema_sound : ∀ slot ∈ schema.slots, slot.reader.Sound slot.Means := by
  simp only [schema, textSlot, codeSlot, List.forall_mem_cons, List.not_mem_nil, false_implies,
    implies_true, and_true]
  exact ⟨Json.Reader.text_sound, Json.Reader.text_sound, Json.Reader.code_sound,
    Json.Reader.text_sound⟩

theorem schema_determined : schema.Determined := by
  constructor
  · intro document document' h
    simp only [schema, textSlot, codeSlot, List.forall_mem_cons, List.not_mem_nil, false_implies,
      implies_true, and_true] at h
    cases document
    cases document'
    rwa [mk.injEq]
  · simp only [schema, textSlot, codeSlot, List.forall_mem_cons, List.not_mem_nil, false_implies,
      implies_true, and_true]
    exact ⟨fun _ _ _ => Json.Quotes.unique, fun _ _ _ => Json.Quotes.unique,
      fun _ _ _ => Json.IsCode.unique, fun _ _ _ => Json.Quotes.unique⟩

end StateDocument

namespace ResponseDocument

/-- The field that holds the registration state, in either form. -/
def formSlot : Slot ResponseDocument where
  name := "registrationState"
  Contents := StateDocument
  reader := StateDocument.reader
  get := registrationState
  set x d := { d with registrationState := x }
  Domain v := ∃ inner, IsRecord StateDocument.names v inner ∧ StateDocument.schema.Covers inner
  Means v state := ∃ inner, IsRecord StateDocument.names v inner ∧
    StateDocument.schema.Fits inner ∧ StateDocument.schema.Holds inner state
  reads := StateDocument.schema.reads_record
  get_set := stateSlot.get_set

/-- The fields of a response, whose registration state is in either form. -/
def formSchema : Schema ResponseDocument where
  slots := schema.slots.set 2 formSlot
  empty := schema.empty
  apart := by
    simp only [schema, List.set_cons_succ, List.set_cons_zero, List.pairwise_cons,
      List.forall_mem_cons, List.not_mem_nil, false_implies, implies_true, and_true,
      List.Pairwise.nil]
    refine ⟨⟨?_, ?_, ?_, ?_, ?_⟩, ⟨?_, ?_, ?_, ?_⟩, ⟨?_, ?_, ?_⟩, ⟨?_, ?_⟩, ?_⟩ <;>
      exact ⟨by decide, fun _ _ => rfl, fun _ _ => rfl⟩
  get_empty := by simp [schema, textSlot, codeSlot, formSlot]

theorem formSchema_reader : formSchema.reader = ResponseDocument.reader := rfl

variable {members : Members} {document : ResponseDocument}

theorem HasRecordState.covers (h : HasRecordState members) : formSchema.Covers members := by
  have hstate : ∀ value, ("registrationState", value) ∈ members → value ≠ nullValue →
      ∃ inner, IsRecord StateDocument.names value inner ∧ StateDocument.schema.Covers inner := by
    intro value hmem hne
    obtain ⟨inner, hinner⟩ := (h value hmem).resolve_left hne
    exact ⟨inner, hinner, StateDocument.covers inner⟩
  simpa [Schema.Covers, formSchema, schema, textSlot, codeSlot, formSlot] using hstate

theorem hasRecordState_of_fits (h : formSchema.Fits members) : HasRecordState members := by
  intro value hmem
  have hslot : formSlot ∈ formSchema.slots := by simp [formSchema, schema]
  obtain ⟨_ | state, hstate⟩ := (h formSlot hslot).means value hmem
  · exact .inl hstate
  · obtain ⟨-, inner, hinner, -⟩ := hstate
    exact .inr ⟨inner, hinner⟩

theorem formSlot_sound : formSlot.reader.Sound formSlot.Means :=
  StateDocument.schema.reader_sound StateDocument.schema_sound

theorem formSchema_sound : ∀ slot ∈ formSchema.slots, slot.reader.Sound slot.Means := by
  simp only [formSchema, schema, List.set_cons_succ, List.set_cons_zero, List.forall_mem_cons,
    List.not_mem_nil, false_implies, implies_true, and_true]
  exact ⟨Json.Reader.text_sound, Json.Reader.text_sound, formSlot_sound, Json.Reader.code_sound,
    Json.Reader.text_sound, Json.Reader.text_sound⟩

theorem formSlot_means_unique {value : Bytes} {state state' : StateDocument}
    (h : formSlot.Means value state) (h' : formSlot.Means value state') : state = state' := by
  obtain ⟨inner, hinner, hfits, hholds⟩ := h
  obtain ⟨inner', hinner', -, hholds'⟩ := h'
  obtain rfl := hinner.unique hinner'
  exact StateDocument.schema_determined.holds_unique hfits hholds hholds'

theorem formSchema_determined : formSchema.Determined := by
  constructor
  · intro document document' h
    simp only [formSchema, schema, textSlot, codeSlot, List.set_cons_succ, List.set_cons_zero,
      List.forall_mem_cons, List.not_mem_nil, false_implies, implies_true, and_true] at h
    cases document
    cases document'
    rwa [mk.injEq]
  · simp only [formSchema, schema, List.set_cons_succ, List.set_cons_zero, List.forall_mem_cons,
      List.not_mem_nil, false_implies, implies_true, and_true]
    exact ⟨fun _ _ _ => Json.Quotes.unique, fun _ _ _ => Json.Quotes.unique,
      fun _ _ _ => formSlot_means_unique, fun _ _ _ => Json.IsCode.unique,
      fun _ _ _ => Json.Quotes.unique, fun _ _ _ => Json.Quotes.unique⟩

/-- What can be read of a payload in either form. -/
theorem readDocument_iff {payload : Bytes} (hrecord : IsRecord names payload members)
    (hstate : HasRecordState members) :
    reader.readDocument payload = .ok document ↔
      formSchema.Fits members ∧ formSchema.Holds members document := by
  rw [← formSchema_reader]
  exact formSchema_determined.readDocument_iff hrecord hstate.covers

/-- A payload that can be read is in one of the forms. -/
theorem isResponsePayload_of_readDocument {payload : Bytes}
    (h : reader.readDocument payload = .ok document) : IsResponsePayload payload := by
  rw [← formSchema_reader] at h
  obtain ⟨members, hrecord, hfits, -⟩ := formSchema.of_readDocument formSchema_sound h
  exact ⟨members, hrecord, hasRecordState_of_fits hfits⟩

end ResponseDocument

/-! ## Responses -/

namespace RegistrationResponse

variable {topic : ResponseTopic} {payload payload' : Bytes} {members : Members}
  {response : RegistrationResponse}

theorem read_eq_ok_iff : read topic payload = .ok response ↔ ∃ document,
    ResponseDocument.reader.readDocument payload = .ok document ∧
      ofDocument topic document = .ok response := by
  rw [read]
  cases ResponseDocument.reader.readDocument payload with
  | error e =>
    constructor
    · intro h
      cases h
    · rintro ⟨_, h, -⟩
      cases h
  | ok document =>
    constructor
    · intro h
      exact ⟨document, rfl, mapError_eq_ok_iff.mp h⟩
    · rintro ⟨_, hdocument, h⟩
      obtain rfl := Except.ok.inj hdocument
      exact mapError_eq_ok_iff.mpr h

/-- What can be read at all. -/
theorem isResponsePayload_of_read (h : read topic payload = .ok response) :
    IsResponsePayload payload := by
  obtain ⟨document, hdocument, -⟩ := read_eq_ok_iff.mp h
  exact ResponseDocument.isResponsePayload_of_readDocument hdocument

/-- Payloads with the same members are the same response, in whichever form they are. -/
theorem read_iff_of_members (hrecord : IsRecord ResponseDocument.names payload members)
    (hrecord' : IsRecord ResponseDocument.names payload' members)
    (hstate : ResponseDocument.HasRecordState members) :
    read topic payload = .ok response ↔ read topic payload' = .ok response := by
  simp only [read_eq_ok_iff, ResponseDocument.readDocument_iff hrecord hstate,
    ResponseDocument.readDocument_iff hrecord' hstate]

end RegistrationResponse

theorem Message.Carries.isResponsePayload {message : Message} {response : RegistrationResponse}
    (h : message.Carries response) : IsResponsePayload message.payload := by
  obtain ⟨topic, -, hread⟩ := h
  exact RegistrationResponse.isResponsePayload_of_read hread

/-! ## What has been read -/

variable {past now : List Moment} {c c' : Client}

/-- What the past of a client tells about the responses that it has read: each was in its message, and
one that is pending has been read if the client waits. -/
structure ReadInvariant (past : List Moment) (c : Client) : Prop where
  carries : ∀ message response, .read message (.ok (some response)) ∈ past →
    message.Carries response
  waits : c.state = .waiting → ∃ message response, .read message (.ok (some response)) ∈ past ∧
    response.operationStatus.isPending = true

namespace ReadInvariant

/-- A change in which no response is read and after which the client does not begin to wait. -/
theorem quiet (h : ReadInvariant past c)
    (hnow : ∀ message response, .read message (.ok (some response)) ∉ now)
    (hstate : c'.state = .waiting → c.state = .waiting) : ReadInvariant (past ++ now) c' := by
  constructor
  · intro message response hmem
    rcases List.mem_append.mp hmem with hmem | hmem
    · exact h.carries message response hmem
    · exact absurd hmem (hnow message response)
  · intro hwaits
    obtain ⟨message, response, hmem, hpending⟩ := h.waits (hstate hwaits)
    exact ⟨message, response, List.mem_append_left _ hmem, hpending⟩

theorem deliver (h : ReadInvariant past c) (event : Event) :
    ReadInvariant (past ++ c.eventMoments event) (c.handleEvent event) := by
  refine h.quiet ?_ ?_
  · intro message response
    rcases c.eventMoments_cases event with heq | ⟨kept, -, heq⟩ <;> simp [heq]
  · cases event with
    | other packetType => exact id
    | suback packetId =>
      show (if c.state = .subscribing then c.settle .success else c).state = .waiting → _
      split
      next hstate => simp [hstate, WorkflowState.next]
      next => exact id
    | publish message =>
      show (c.receive message).state = .waiting → _
      rcases c.receive_cases message with ⟨-, heq⟩ | ⟨-, -, heq⟩ | ⟨-, lastResult, heq⟩
      · rw [heq]
        exact id
      · simp [heq]
      · simp [heq]

theorem step (h : ReadInvariant past c) (hs : c.Step now c') : ReadInvariant (past ++ now) c' := by
  cases hs with
  | start hstate => exact h.quiet (by simp) (by simp [hstate, WorkflowState.next])
  | setKey key => exact h.quiet (by simp) id
  | setPayload hstate payload => exact h.quiet (by simp) id
  | deinit => exact h.quiet (by simp) id
  | connect hstate buffer info result =>
    refine h.quiet (by simp) ?_
    cases result <;> simp [hstate, callOutcome, WorkflowState.next]
  | connectFailed hstate buffer hfailure => exact h.quiet (by simp) (by simp)
  | subscribe hstate result =>
    refine h.quiet (by simp) ?_
    cases result <;> simp [hstate, callOutcome, WorkflowState.next]
  | publish hstate buffer topic payload result =>
    refine h.quiet (by simp) ?_
    cases result <;> simp [hstate, callOutcome, WorkflowState.next]
  | publishFailed hstate buffer => exact h.quiet (by simp) (by simp)
  | readNothing hstate hm => exact h.quiet (by simp) (by simp)
  | readFailed hstate hm hr => exact h.quiet (by simp) (by simp)
  | readOther hstate hm hr => exact h.quiet (by simp) id
  | @read hstate message response hm hr deadline =>
    constructor
    · intro message' response' hmem
      rcases List.mem_append.mp hmem with hmem | hmem
      · exact h.carries message' response' hmem
      · obtain ⟨rfl, heq⟩ := Moment.read.inj (List.mem_singleton.mp hmem)
        obtain rfl := Option.some.inj (Except.ok.inj heq)
        exact readResponse_eq_some_iff.mp hr
    · intro hwaits
      refine ⟨message, response, by simp, ?_⟩
      cases hpending : response.operationStatus.isPending with
      | true => rfl
      | false =>
        have hcomplete := RegistrationResponse.next_result_of_not_pending hpending
        rw [Client.settle_state, hstate, hcomplete] at hwaits
        cases hwaits
  | poll hstate => exact h.quiet (by simp) (by simp [hstate, WorkflowState.next])
  | process hstate timeout events => exact h.quiet (by simp) id
  | processFailed hstate timeout e => exact h.quiet (by simp) (by simp)
  | deliver event => exact h.deliver event

end ReadInvariant

theorem Client.HasPast.readInvariant (h : c.HasPast past) : ReadInvariant past c := by
  induction h with
  | new h =>
    obtain ⟨hstate, -⟩ := Client.new_cases h
    exact ⟨by simp, by simp [hstate]⟩
  | next _ hs ih => exact ih.step hs

/-! ## Runs -/

section Runs

variable {σ : Type} {host : Host σ} {operations : List (Operation σ)} {s : Session σ}

/-- The forms of responses. A payload is a response only if it is an object or a list, and so is the
registration state in it, and its members decide which response it is, but not its form. So a
registration that answers with an assignment has come to a message in one of the forms, and so has
every registration that goes on after a response that leaves it pending. -/
theorem Run.response_forms (h : Run host operations past s) (timeout : Nat) {limit : Nat}
    {hlimit : 0 < limit} :
    let result := s.register host timeout limit hlimit
    let moments := past ++ s.registerMoments host timeout limit hlimit
    (∀ topic payload response, RegistrationResponse.read topic payload = .ok response →
      IsResponsePayload payload) ∧
    (∀ payload payload' members, IsRecord ResponseDocument.names payload members →
      IsRecord ResponseDocument.names payload' members →
      ResponseDocument.HasRecordState members → ∀ topic response,
      RegistrationResponse.read topic payload = .ok response ↔
        RegistrationResponse.read topic payload' = .ok response) ∧
    (result.1 = .ok .assigned → ∃ message, lastKept? moments = some message ∧
      IsResponsePayload message.payload) ∧
    (∀ message response, .read message (.ok (some response)) ∈ moments →
      IsResponsePayload message.payload) ∧
    (result.2.client.state = .waiting → ∃ message response,
      .read message (.ok (some response)) ∈ moments ∧
      response.operationStatus.isPending = true ∧ IsResponsePayload message.payload) := by
  intro result moments
  have hpast : result.2.client.HasPast moments :=
    (h.next (.register timeout limit hlimit)).hasPast
  have hreads := hpast.readInvariant
  refine ⟨?_, ?_, ?_, ?_, ?_⟩
  · intro topic payload response hread
    exact RegistrationResponse.isResponsePayload_of_read hread
  · intro payload payload' members hrecord hrecord' hstate topic response
    exact RegistrationResponse.read_iff_of_members hrecord hrecord' hstate
  · intro hassigned
    obtain ⟨message, response, hkept, hcarries, -⟩ := hpast.resultInvariant.of_assigned hassigned
    exact ⟨message, hkept, hcarries.isResponsePayload⟩
  · intro message response hmem
    exact (hreads.carries message response hmem).isResponsePayload
  · intro hwaits
    obtain ⟨message, response, hmem, hpending⟩ := hreads.waits hwaits
    exact ⟨message, response, hmem, hpending,
      (hreads.carries message response hmem).isResponsePayload⟩

/-- A device that is assigned by an object. -/
theorem response_forms_object : ∃ message, ∃ s : Session Script,
    (s.register .scripted 2000).1 = .ok .assigned ∧
    lastKept? (s.registerMoments .scripted 2000) = some message ∧
    IsResponsePayload message.payload := by
  let message : Message := {
    topic := "$dps/registrations/res/200/?$rid=1"
    payload := utf8 ("\x7b\"operationId\":\"4\",\"status\":\"assigned\"," ++
      "\"registrationState\":\x7b\"assignedHub\":\"hub\",\"deviceId\":\"device\"\x7d\x7d") }
  let s : Session Script := .scripted [.ok [], .ok [.suback 1], .ok [.publish message]]
  have hassigned : (s.register .scripted 2000).1 = .ok .assigned := by
    decide +kernel
  obtain ⟨-, -, hkept, -⟩ := (Run.scripted s.outside).response_forms 2000
  obtain ⟨message', hlast, hpayload⟩ := hkept hassigned
  exact ⟨message', s, hassigned, hlast, hpayload⟩

/-- A device that is assigned by a list, and one whose state is a list in an object: none of the lists is
an object, and all of them are read. -/
theorem response_forms_list :
    (∃ message elements, ∃ s : Session Script, Run .scripted [] [] s ∧
      IsList message.payload elements ∧ (∀ members, ¬ IsObject message.payload members) ∧
      (s.register .scripted 2000).1 = .ok .assigned ∧
      lastKept? (s.registerMoments .scripted 2000) = some message) ∧
    ∃ payload members value elements response, IsObject payload members ∧
      ("registrationState", value) ∈ members ∧ value ≠ nullValue ∧ IsList value elements ∧
      (∀ inner, ¬ IsObject value inner) ∧
      RegistrationResponse.read ⟨200, 1, 0⟩ payload = .ok response ∧
      response.operationStatus = .assigned := by
  have hblank := Json.isBlank_nil
  constructor
  · let message : Message := {
      topic := "$dps/registrations/res/200/?$rid=1"
      payload := utf8 "[\"4\",\"assigned\",[\"hub\",\"device\",null,null],null,null,null]" }
    let s : Session Script := .scripted [.ok [], .ok [.suback 1], .ok [.publish message]]
    have hassigned : (s.register .scripted 2000).1 = .ok .assigned := by
      decide +kernel
    have hlast : lastKept? (s.registerMoments .scripted 2000) = some message := by
      decide +kernel
    have hdocument : ResponseDocument.reader.readDocument message.payload =
        .ok ⟨some "4", some "assigned", some ⟨some "hub", some "device", none, none⟩, none, none,
          none⟩ := by
      decide +kernel
    obtain ⟨members, hrecord, -⟩ := ResponseDocument.isResponsePayload_of_readDocument hdocument
    cases hrecord with
    | object hobject => exact absurd hobject.head?_skipSpace (by decide)
    | list hlist _ =>
      exact ⟨message, _, s, .scripted _, hlist, fun _ hobject => hobject.not_isList hlist, hassigned,
        hlast⟩
  · let texts := [("operationId", "4"), ("status", "assigned")]
    let inside : Bytes := quoted "hub" ++ 44 :: (quoted "device" ++ 44 :: (nullValue ++ 44 :: nullValue))
    let value : Bytes := 91 :: (inside ++ [93])
    have hnull : Json.IsValue nullValue := .word (by decide)
    have hinside : Json.IsElements true inside
        [quoted "hub", quoted "device", nullValue, nullValue] :=
      .element .first hblank (Json.isValue_quoted (by decide))
        (.element (.later hblank) hblank (Json.isValue_quoted (by decide))
          (.element (.later hblank) hblank hnull (.element (.later hblank) hblank hnull
            (.stop hblank))))
    have hlist : IsList value _ := ⟨[], inside, [], hblank, hblank, rfl, hinside⟩
    have hname : Json.Spells (utf8 "registrationState") (utf8 "registrationState") :=
      Json.spells_utf8 (by decide)
    have htexts : Json.AreUnescaped texts := by decide
    have hmembers := Json.IsMembers.cons hblank hname hblank hblank hinside.isValue hblank
      (Json.isMembers_writeMembers htexts (by decide))
    have hobject := (⟨[], _, [], hblank, hblank, rfl, .inr hmembers⟩ : IsObject _ _)
    refine ⟨_, _, value, _, ⟨200, "4", .assigned, 0, ⟨"hub", "device", 0, "", ""⟩⟩, hobject,
      List.mem_cons_self, by decide, hlist, fun _ hinner => hinner.not_isList hlist, ?_, rfl⟩
    decide +kernel

end Runs

end DeviceTrust.Provisioning
