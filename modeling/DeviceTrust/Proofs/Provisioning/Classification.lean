import DeviceTrust.Proofs.Json.Record
import DeviceTrust.Proofs.Json.Writing
import DeviceTrust.Proofs.Provisioning.Assignment

/-!
# What responses say

A response is classified by the status in its topic and by ten members of its payload, of which four
stand in the state of the registration. Where they stand, what stands beside them and whether one
that is missing is null or absent makes no difference.

Results:
* `StateDocument.fits_iff`, `ResponseDocument.fits_iff`: which payloads can be read.
* `ResponseDocument.IsOf.unique`: a payload gives one document.
* `classifies_ofDocument`, `Classifies.unique`: what a document says under its topic.
* `RegistrationResponse.read_classified`: the reading of every payload that is an object.
-/

namespace DeviceTrust.Provisioning

open Json (AreUnescaped IsCode IsObject Members Quotes Schema Slot nullValue quoted)

/-! ## Documents -/

namespace StateDocument

/-- The document holds what the members of a registration state give. -/
structure IsOf (document : StateDocument) (members : Members) : Prop where
  assignedHub : members.Gives "assignedHub" Quotes document.assignedHub
  deviceId : members.Gives "deviceId" Quotes document.deviceId
  errorCode : members.Gives "errorCode" IsCode document.errorCode
  errorMessage : members.Gives "errorMessage" Quotes document.errorMessage

/-- A member of a registration state is repeated, or neither null nor of its kind. -/
def Misfits (members : Members) : Prop :=
  (∃ name ∈ ["assignedHub", "deviceId", "errorCode", "errorMessage"],
    1 < members.occurrences name) ∨
  (∃ name ∈ ["assignedHub", "deviceId", "errorMessage"], members.Spoils name Quotes) ∨
  members.Spoils "errorCode" IsCode

end StateDocument

namespace ResponseDocument

/-- The document holds what the members of a response give. -/
structure IsOf (document : ResponseDocument) (members : Members) : Prop where
  operationId : members.Gives "operationId" Quotes document.operationId
  status : members.Gives "status" Quotes document.status
  registrationState : members.Gives "registrationState"
    (fun value state => ∃ inner, IsObject value inner ∧ state.IsOf inner)
    document.registrationState
  errorCode : members.Gives "errorCode" IsCode document.errorCode
  trackingId : members.Gives "trackingId" Quotes document.trackingId
  message : members.Gives "message" Quotes document.message

/-- A member of a response is repeated, or neither null nor of its kind, or it is a registration
state in which this is so. -/
def Misfits (members : Members) : Prop :=
  (∃ name ∈ ["operationId", "status", "registrationState", "errorCode", "trackingId", "message"],
    1 < members.occurrences name) ∨
  (∃ name ∈ ["operationId", "status", "trackingId", "message"], members.Spoils name Quotes) ∨
  members.Spoils "errorCode" IsCode ∨
  ∃ value inner, ("registrationState", value) ∈ members ∧ IsObject value inner ∧
    StateDocument.Misfits inner

end ResponseDocument

/-! ## Schemas -/

/-- A field that holds a text. -/
def textSlot {ρ : Type} (name : String) (get : ρ → Option String)
    (set : Option String → ρ → ρ) (get_set : ∀ x record, get (set x record) = x) : Slot ρ where
  name := name
  Contents := String
  reader := .text
  get := get
  set := set
  Domain _ := True
  Means := Quotes
  reads := Json.Reader.text_reads
  get_set := get_set

/-- A field that holds a code. -/
def codeSlot {ρ : Type} (name : String) (get : ρ → Option UInt32)
    (set : Option UInt32 → ρ → ρ) (get_set : ∀ x record, get (set x record) = x) : Slot ρ where
  name := name
  Contents := UInt32
  reader := .code
  get := get
  set := set
  Domain _ := True
  Means := IsCode
  reads := Json.Reader.code_reads
  get_set := get_set

namespace StateDocument

/-- The fields of a registration state with what they hold. -/
def schema : Schema StateDocument where
  slots := [
    textSlot "assignedHub" assignedHub (fun x d => { d with assignedHub := x }) fun _ _ => rfl,
    textSlot "deviceId" deviceId (fun x d => { d with deviceId := x }) fun _ _ => rfl,
    codeSlot "errorCode" errorCode (fun x d => { d with errorCode := x }) fun _ _ => rfl,
    textSlot "errorMessage" errorMessage (fun x d => { d with errorMessage := x }) fun _ _ => rfl]
  empty := ⟨none, none, none, none⟩
  apart := by
    simp only [List.pairwise_cons, List.forall_mem_cons, List.not_mem_nil, false_implies,
      implies_true, and_true, List.Pairwise.nil]
    refine ⟨⟨?_, ?_, ?_⟩, ⟨?_, ?_⟩, ?_⟩ <;>
      exact ⟨by decide, fun _ _ => rfl, fun _ _ => rfl⟩
  get_empty := by simp [textSlot, codeSlot]

theorem schema_reader : schema.reader = StateDocument.reader := rfl

variable {members : Members} {document document' : StateDocument}

theorem covers (members : Members) : schema.Covers members := by
  simp [Schema.Covers, schema, textSlot, codeSlot]

theorem fits_iff : schema.Fits members ↔ ¬ Misfits members := by
  simp only [Schema.fits_iff, schema, textSlot, codeSlot, Misfits, List.forall_mem_cons,
    List.not_mem_nil, false_implies, implies_true, and_true, not_or, not_exists, not_and]
  exact and_congr_right fun _ =>
    ⟨fun ⟨hhub, hdevice, hcode, hmessage⟩ => ⟨⟨hhub, hdevice, hmessage⟩, hcode⟩,
      fun ⟨⟨hhub, hdevice, hmessage⟩, hcode⟩ => ⟨hhub, hdevice, hcode, hmessage⟩⟩

theorem holds_iff : schema.Holds members document ↔ document.IsOf members := by
  simp only [Schema.Holds, schema, textSlot, codeSlot, List.forall_mem_cons, List.not_mem_nil,
    false_implies, implies_true, and_true]
  exact ⟨fun ⟨hhub, hdevice, hcode, hmessage⟩ => ⟨hhub, hdevice, hcode, hmessage⟩,
    fun h => ⟨h.assignedHub, h.deviceId, h.errorCode, h.errorMessage⟩⟩

/-- Members that fit give one document. -/
theorem IsOf.unique (hfits : ¬ Misfits members) (h : document.IsOf members)
    (h' : document'.IsOf members) : document = document' := by
  have honce := fun slot hslot => (fits_iff.mpr hfits slot hslot).once
  simp only [schema, textSlot, codeSlot, List.forall_mem_cons, List.not_mem_nil, false_implies,
    implies_true, and_true] at honce
  obtain ⟨hhub, hdevice, hcode, hmessage⟩ := honce
  cases document
  cases document'
  rw [mk.injEq]
  exact ⟨h.assignedHub.text_unique hhub h'.assignedHub,
    h.deviceId.text_unique hdevice h'.deviceId,
    h.errorCode.code_unique hcode h'.errorCode,
    h.errorMessage.text_unique hmessage h'.errorMessage⟩

end StateDocument

namespace ResponseDocument

/-- The members hold a registration state that is an object, if it is there. -/
def HasObjectState (members : Members) : Prop :=
  ∀ value, ("registrationState", value) ∈ members →
    value = nullValue ∨ ∃ inner, IsObject value inner

/-- The field that holds the registration state. -/
def stateSlot : Slot ResponseDocument where
  name := "registrationState"
  Contents := StateDocument
  reader := StateDocument.reader
  get := registrationState
  set x d := { d with registrationState := x }
  Domain v := ∃ inner, IsObject v inner ∧ StateDocument.schema.Covers inner
  Means v state := ∃ inner, IsObject v inner ∧ StateDocument.schema.Fits inner ∧
    StateDocument.schema.Holds inner state
  reads := StateDocument.schema.reads
  get_set _ _ := rfl

/-- The fields of a response with what they hold. -/
def schema : Schema ResponseDocument where
  slots := [
    textSlot "operationId" operationId (fun x d => { d with operationId := x }) fun _ _ => rfl,
    textSlot "status" status (fun x d => { d with status := x }) fun _ _ => rfl,
    stateSlot,
    codeSlot "errorCode" errorCode (fun x d => { d with errorCode := x }) fun _ _ => rfl,
    textSlot "trackingId" trackingId (fun x d => { d with trackingId := x }) fun _ _ => rfl,
    textSlot "message" message (fun x d => { d with message := x }) fun _ _ => rfl]
  empty := ⟨none, none, none, none, none, none⟩
  apart := by
    simp only [List.pairwise_cons, List.forall_mem_cons, List.not_mem_nil, false_implies,
      implies_true, and_true, List.Pairwise.nil]
    refine ⟨⟨?_, ?_, ?_, ?_, ?_⟩, ⟨?_, ?_, ?_, ?_⟩, ⟨?_, ?_, ?_⟩, ⟨?_, ?_⟩, ?_⟩ <;>
      exact ⟨by decide, fun _ _ => rfl, fun _ _ => rfl⟩
  get_empty := by simp [textSlot, codeSlot, stateSlot]

theorem schema_reader : schema.reader = ResponseDocument.reader := rfl

variable {members : Members} {document document' : ResponseDocument}

theorem HasObjectState.covers (h : HasObjectState members) : schema.Covers members := by
  have hstate : ∀ value, ("registrationState", value) ∈ members → value ≠ nullValue →
      ∃ inner, IsObject value inner ∧ StateDocument.schema.Covers inner := by
    intro value hmem hne
    obtain ⟨inner, hinner⟩ := (h value hmem).resolve_left hne
    exact ⟨inner, hinner, StateDocument.covers inner⟩
  simpa [Schema.Covers, schema, textSlot, codeSlot, stateSlot] using hstate

/-- A registration state that is an object is read unless one of its own members does not fit. -/
theorem spoils_state_iff (h : HasObjectState members) :
    members.Spoils "registrationState" stateSlot.Means ↔
      ∃ value inner, ("registrationState", value) ∈ members ∧ IsObject value inner ∧
        StateDocument.Misfits inner := by
  constructor
  · rintro ⟨value, hmem, hne, hnone⟩
    obtain ⟨inner, hinner⟩ := (h value hmem).resolve_left hne
    refine ⟨value, inner, hmem, hinner, ?_⟩
    by_contra hmisfits
    have hfits := StateDocument.fits_iff.mpr hmisfits
    obtain ⟨state, hholds⟩ := Schema.exists_holds hinner (StateDocument.covers inner) hfits
    exact hnone ⟨state, inner, hinner, hfits, hholds⟩
  · rintro ⟨value, inner, hmem, hinner, hmisfits⟩
    refine ⟨value, hmem, ?_, ?_⟩
    · rintro rfl
      exact Json.not_isObject_nullValue hinner
    · rintro ⟨state, inner', hinner', hfits, -⟩
      obtain rfl := hinner.unique hinner'
      exact StateDocument.fits_iff.mp hfits hmisfits

theorem fits_iff (h : HasObjectState members) : schema.Fits members ↔ ¬ Misfits members := by
  have hstate := spoils_state_iff h
  simp only [Schema.fits_iff, schema, textSlot, codeSlot, Misfits, ← hstate, List.forall_mem_cons,
    List.not_mem_nil, false_implies, implies_true, and_true, not_or, not_exists, not_and]
  exact and_congr_right fun _ =>
    ⟨fun ⟨hid, hstatus, hstate, hcode, htracking, hmessage⟩ =>
        ⟨⟨hid, hstatus, htracking, hmessage⟩, hcode, hstate⟩,
      fun ⟨⟨hid, hstatus, htracking, hmessage⟩, hcode, hstate⟩ =>
        ⟨hid, hstatus, hstate, hcode, htracking, hmessage⟩⟩

theorem isOf_of_holds (h : schema.Holds members document) : document.IsOf members := by
  simp only [Schema.Holds, schema, textSlot, codeSlot, List.forall_mem_cons, List.not_mem_nil,
    false_implies, implies_true, and_true] at h
  obtain ⟨hid, hstatus, hstate, hcode, htracking, hmessage⟩ := h
  refine ⟨hid, hstatus, hstate.mono ?_, hcode, htracking, hmessage⟩
  rintro value state ⟨inner, hinner, -, hholds⟩
  exact ⟨inner, hinner, StateDocument.holds_iff.mp hholds⟩

/-- Members that fit give one document. -/
theorem IsOf.unique (hstate : HasObjectState members) (hfits : ¬ Misfits members)
    (h : document.IsOf members) (h' : document'.IsOf members) : document = document' := by
  have honce := fun slot hslot => ((fits_iff hstate).mpr hfits slot hslot).once
  simp only [schema, textSlot, codeSlot, stateSlot, List.forall_mem_cons, List.not_mem_nil,
    false_implies, implies_true, and_true] at honce
  obtain ⟨hid, hstatus, hregistration, hcode, htracking, hmessage⟩ := honce
  have hinner : ∀ value (state state' : StateDocument), ("registrationState", value) ∈ members →
      (∃ inner, IsObject value inner ∧ state.IsOf inner) →
      (∃ inner, IsObject value inner ∧ state'.IsOf inner) → state = state' := by
    rintro value state state' hmem ⟨inner, hobject, hof⟩ ⟨inner', hobject', hof'⟩
    obtain rfl := hobject.unique hobject'
    refine hof.unique (fun hmisfits => hfits ?_) hof'
    exact .inr (.inr (.inr ⟨value, inner, hmem, hobject, hmisfits⟩))
  cases document
  cases document'
  rw [mk.injEq]
  exact ⟨h.operationId.text_unique hid h'.operationId,
    h.status.text_unique hstatus h'.status,
    h.registrationState.unique hregistration hinner h'.registrationState,
    h.errorCode.code_unique hcode h'.errorCode,
    h.trackingId.text_unique htracking h'.trackingId,
    h.message.text_unique hmessage h'.message⟩

/-- What is read of a payload. -/
theorem readDocument_reads {payload : Bytes} (hobject : IsObject payload members)
    (hstate : HasObjectState members) :
    (∃ document : ResponseDocument, ¬ Misfits members ∧ document.IsOf members ∧
      reader.readDocument payload = .ok document) ∨
    (Misfits members ∧ ∃ e, reader.readDocument payload = .error e) := by
  have hread := Schema.readDocument_reads hobject hstate.covers
  rw [schema_reader, fits_iff hstate, not_not] at hread
  rcases hread with ⟨document, hfits, hholds, hread⟩ | hread
  · exact .inl ⟨document, hfits, isOf_of_holds hholds, hread⟩
  · exact .inr hread

end ResponseDocument

/-! ## Classification -/

/-- What a document says of the registration: texts are empty and the code is zero where it says
nothing, and there is no tracking id. -/
def ResponseDocument.registered (document : ResponseDocument) : RegistrationState where
  assignedHub := (document.registrationState.bind (·.assignedHub)).getD ""
  deviceId := (document.registrationState.bind (·.deviceId)).getD ""
  extendedErrorCode := (document.registrationState.bind (·.errorCode)).getD 0
  errorMessage := (document.registrationState.bind (·.errorMessage)).getD ""
  errorTrackingId := ""

/-- What a document says of an error, in the same way. -/
def ResponseDocument.reported (document : ResponseDocument) : RegistrationState where
  assignedHub := ""
  deviceId := ""
  extendedErrorCode := document.errorCode.getD 0
  errorMessage := document.message.getD ""
  errorTrackingId := document.trackingId.getD ""

/-- What a response is, by its status, the delay that it asks for and its document. -/
inductive Classifies (status : UInt16) (retryAfter : UInt32) (document : ResponseDocument) :
    Except Failure RegistrationResponse → Prop where
  /-- An operation whose status is known by its word. -/
  | operation {operationId : String} {operationStatus : OperationStatus} (hstatus : status < 300)
      (hid : document.operationId = some operationId)
      (hword : document.status = some operationStatus.word) :
      Classifies status retryAfter document
        (.ok ⟨status, operationId, operationStatus, retryAfter, document.registered⟩)
  /-- An operation with another word. -/
  | unknown {operationId word : String} (hstatus : status < 300)
      (hid : document.operationId = some operationId) (hword : document.status = some word)
      (hunknown : ∀ operationStatus : OperationStatus, word ≠ operationStatus.word) :
      Classifies status retryAfter document (.error .failed)
  /-- No operation, but an error by the status or by the code. -/
  | rejected
      (hnone : ¬(status < 300 ∧ document.operationId.isSome ∧ document.status.isSome))
      (herror : 300 ≤ status ∨ document.errorCode.isSome) :
      Classifies status retryAfter document
        (.ok ⟨status, "", .failed, retryAfter, document.reported⟩)
  /-- Neither of the two. -/
  | empty
      (hnone : ¬(status < 300 ∧ document.operationId.isSome ∧ document.status.isSome))
      (hstatus : status < 300) (hcode : document.errorCode = none) :
      Classifies status retryAfter document (.error .failed)

section Classification

variable {topic topic' : ResponseTopic} {document : ResponseDocument}
  {result : Except Failure RegistrationResponse}

theorem ResponseDocument.state_eq_registered (document : ResponseDocument) :
    document.state = document.registered := by
  rw [state, registered]
  cases document.registrationState <;> rfl

theorem ResponseDocument.operation?_eq_none_iff : document.operation? topic = none ↔
    ¬(topic.status < 300 ∧ document.operationId.isSome ∧ document.status.isSome) := by
  rw [Option.eq_none_iff_forall_ne_some]
  constructor
  · rintro hnone ⟨hlt, hid, hword⟩
    obtain ⟨operationId, hid⟩ := Option.isSome_iff_exists.mp hid
    obtain ⟨word, hword⟩ := Option.isSome_iff_exists.mp hword
    exact hnone (operationId, word) (operation?_eq_some_iff.mpr ⟨hlt, hid, hword⟩)
  · rintro hnone ⟨operationId, word⟩ hoperation
    obtain ⟨hlt, hid, hword⟩ := operation?_eq_some_iff.mp hoperation
    exact hnone ⟨hlt, hid ▸ rfl, hword ▸ rfl⟩

theorem classifies_ofDocument (topic : ResponseTopic) (document : ResponseDocument) :
    Classifies topic.status topic.retryAfter document
      (RegistrationResponse.ofDocument topic document) := by
  unfold RegistrationResponse.ofDocument
  split
  next operationId word hoperation =>
    obtain ⟨hlt, hid, hword⟩ := ResponseDocument.operation?_eq_some_iff.mp hoperation
    split
    next hnone => exact .unknown hlt hid hword (OperationStatus.ofWord?_eq_none_iff.mp hnone)
    next operationStatus hstatus =>
      have hstate := document.state_eq_registered
      rw [ResponseDocument.state] at hstate
      rw [hstate]
      exact .operation hlt hid (hword.trans (congrArg some
        (OperationStatus.ofWord?_eq_some_iff.mp hstatus)))
  next hnone =>
    have hnone := ResponseDocument.operation?_eq_none_iff.mp hnone
    split
    next hempty => exact .empty hnone hempty.1 (Option.isNone_iff_eq_none.mp hempty.2)
    next herror =>
      refine .rejected hnone ?_
      by_cases hlt : topic.status < errorStatus
      · have hcode : document.errorCode ≠ none := fun hnone => herror ⟨hlt, hnone ▸ rfl⟩
        exact .inr (Option.isSome_iff_ne_none.mpr hcode)
      · exact .inl (UInt16.not_lt.mp hlt)

theorem Classifies.ofDocument_eq (h : Classifies topic.status topic.retryAfter document result) :
    RegistrationResponse.ofDocument topic document = result := by
  cases h with
  | operation hstatus hid hword =>
    have hoperation := ResponseDocument.operation?_eq_some_iff.mpr ⟨hstatus, hid, hword⟩
    rw [RegistrationResponse.ofDocument, hoperation, ← document.state_eq_registered]
    simp only [OperationStatus.ofWord?_eq_some_iff.mpr rfl]
    rfl
  | unknown hstatus hid hword hunknown =>
    have hoperation := ResponseDocument.operation?_eq_some_iff.mpr ⟨hstatus, hid, hword⟩
    rw [RegistrationResponse.ofDocument, hoperation]
    simp only [OperationStatus.ofWord?_eq_none_iff.mpr hunknown]
  | rejected hnone herror =>
    rw [RegistrationResponse.ofDocument, ResponseDocument.operation?_eq_none_iff.mpr hnone]
    refine if_neg ?_
    rintro ⟨hlt, hcode⟩
    rcases herror with hle | hsome
    · exact absurd hlt (UInt16.not_lt.mpr hle)
    · rw [Option.isNone_iff_eq_none.mp hcode] at hsome
      cases hsome
  | empty hnone hstatus hcode =>
    rw [RegistrationResponse.ofDocument, ResponseDocument.operation?_eq_none_iff.mpr hnone]
    exact if_pos ⟨hstatus, hcode ▸ rfl⟩

/-- A document is one thing under a status and a delay. -/
theorem Classifies.unique {status : UInt16} {retryAfter : UInt32}
    {result' : Except Failure RegistrationResponse}
    (h : Classifies status retryAfter document result)
    (h' : Classifies status retryAfter document result') : result = result' := by
  have hresult : RegistrationResponse.ofDocument ⟨status, 0, retryAfter⟩ document = result :=
    h.ofDocument_eq
  exact hresult.symm.trans h'.ofDocument_eq

end Classification

/-! ## Payloads -/

open ResponseDocument (HasObjectState Misfits)

section Payloads

variable {topic : ResponseTopic} {payload : Bytes} {members : Members}
  {document : ResponseDocument}

theorem RegistrationResponse.read_of_misfits (hobject : IsObject payload members)
    (hstate : HasObjectState members) (hmisfits : Misfits members) :
    ∃ fault, read topic payload = .error (.json fault) := by
  rcases ResponseDocument.readDocument_reads hobject hstate with ⟨-, hfits, -⟩ | ⟨-, e, hread⟩
  · exact absurd hmisfits hfits
  · exact ⟨e, by rw [read, hread]⟩

theorem RegistrationResponse.read_of_isOf (hobject : IsObject payload members)
    (hstate : HasObjectState members) (hfits : ¬ Misfits members)
    (hof : document.IsOf members) :
    read topic payload = (ofDocument topic document).mapError .failure := by
  rcases ResponseDocument.readDocument_reads hobject hstate with
    ⟨document', -, hof', hread⟩ | ⟨hmisfits, -⟩
  · obtain rfl := hof.unique hstate hfits hof'
    rw [read, hread]
  · exact absurd hmisfits hfits

theorem ResponseDocument.exists_isOf (hobject : IsObject payload members)
    (hstate : HasObjectState members) (hfits : ¬ Misfits members) :
    ∃ document : ResponseDocument, document.IsOf members := by
  rcases ResponseDocument.readDocument_reads hobject hstate with
    ⟨document, -, hof, -⟩ | ⟨hmisfits, -⟩
  · exact ⟨document, hof⟩
  · exact absurd hmisfits hfits

theorem not_spoils_texts {texts : List (String × String)} (h : AreUnescaped texts)
    (name : String) : ¬ Members.Spoils (texts.map fun m => (m.1, quoted m.2)) name Quotes := by
  rintro ⟨value, hmem, -, hnone⟩
  obtain ⟨m, hm, heq⟩ := List.mem_map.mp hmem
  obtain ⟨-, rfl⟩ := Prod.mk.inj heq
  exact hnone ⟨m.2, Json.quotes_quoted (h m hm).2⟩

end Payloads

/-- What is read of every payload that is an object, and whose registration state is one if it is
there. It is a fault of the document iff a member misfits. Otherwise the members give one document,
and the response is what that document is under the status and the delay of its topic. So two
payloads whose members give the same document are the same under the same status and delay. -/
theorem RegistrationResponse.read_classified (topic : ResponseTopic) (payload : Bytes)
    (members : Members) (hobject : IsObject payload members) (hstate : HasObjectState members) :
    (Misfits members → ∃ fault, read topic payload = .error (.json fault)) ∧
    (¬ Misfits members → ∃ document : ResponseDocument, document.IsOf members ∧
      (∀ document' : ResponseDocument, document'.IsOf members → document' = document) ∧
      ∃ result, Classifies topic.status topic.retryAfter document result ∧
        read topic payload = result.mapError .failure) ∧
    ∀ (topic' : ResponseTopic) (payload' : Bytes) (members' : Members)
      (document : ResponseDocument), IsObject payload' members' → HasObjectState members' →
      ¬ Misfits members → ¬ Misfits members' → document.IsOf members → document.IsOf members' →
      topic'.status = topic.status → topic'.retryAfter = topic.retryAfter →
      read topic' payload' = read topic payload := by
  refine ⟨read_of_misfits hobject hstate, fun hfits => ?_, ?_⟩
  · obtain ⟨document, hof⟩ := ResponseDocument.exists_isOf hobject hstate hfits
    exact ⟨document, hof, fun document' hof' => hof'.unique hstate hfits hof, _,
      classifies_ofDocument topic document, read_of_isOf hobject hstate hfits hof⟩
  · intro topic' payload' members' document hobject' hstate' hfits hfits' hof hof' hstatus hdelay
    rw [read_of_isOf hobject hstate hfits hof, read_of_isOf hobject' hstate' hfits' hof']
    have hclass := classifies_ofDocument topic' document
    rw [hstatus, hdelay] at hclass
    rw [hclass.unique (classifies_ofDocument topic document)]

/-- A response whose registration state comes first and does not name its errors. -/
theorem RegistrationResponse.read_classified_assigned : ∃ payload members,
    IsObject payload members ∧ HasObjectState members ∧ ¬ Misfits members ∧
    read ⟨200, 1, 3⟩ payload =
      .ok ⟨200, "4.1", .assigned, 3, ⟨"hub", "device", 0, "", ""⟩⟩ := by
  let stateTexts := [("deviceId", "device"), ("assignedHub", "hub"), ("etag", "x")]
  let texts := [("status", "assigned"), ("operationId", "4.1")]
  let value := utf8 (Json.writeObject stateTexts)
  let inner : Members := stateTexts.map fun m => (m.1, quoted m.2)
  let members : Members := ("registrationState", value) :: texts.map fun m => (m.1, quoted m.2)
  let inside : Bytes := 34 :: (utf8 "registrationState" ++ 34 :: 58 ::
    (value ++ 44 :: utf8 (Json.writeMembers texts)))
  have hstateTexts : AreUnescaped stateTexts := by decide
  have htexts : AreUnescaped texts := by decide
  have hvalue := Json.isValue_writeObject hstateTexts (by decide)
  have hinner : IsObject value inner := Json.isObject_writeObject hstateTexts (by decide)
  have hname : Json.Spells (utf8 "registrationState") (utf8 "registrationState") :=
    Json.spells_utf8 (by decide)
  have hinside : Json.IsMembers inside members := by
    have hrest := Json.isMembers_writeMembers htexts (by decide)
    have hblank := Json.isBlank_nil
    simpa [inside] using Json.IsMembers.cons hblank hname hblank hblank hvalue hblank hrest
  have hobject : IsObject (123 :: (inside ++ [125])) members :=
    ⟨[], inside, [], Json.isBlank_nil, Json.isBlank_nil, rfl, .inr hinside⟩
  have hstate : HasObjectState members := by
    intro value' hmem
    obtain rfl : value' = value := by simpa [members, texts] using hmem
    exact .inr ⟨inner, hinner⟩
  have hstateFits : ¬ StateDocument.Misfits inner := by
    rintro (⟨name, hname, hcount⟩ | ⟨name, -, hspoils⟩ | ⟨code, hcode, -⟩)
    · revert name
      decide
    · exact not_spoils_texts hstateTexts name hspoils
    · simp [inner, stateTexts] at hcode
  have hfits : ¬ Misfits members := by
    rintro (⟨name, hname, hcount⟩ | ⟨name, hname, value', hmem, hspoils⟩ | ⟨code, hcode, -⟩ |
      ⟨value', inner', hmem, hinner', hmisfits⟩)
    · revert name
      decide
    · rcases List.mem_cons.mp hmem with heq | hmem
      · obtain ⟨rfl, -⟩ := Prod.mk.inj heq
        exact absurd hname (by decide)
      · exact not_spoils_texts htexts name ⟨value', hmem, hspoils⟩
    · simp [members, texts] at hcode
    · obtain rfl : value' = value := by simpa [members, texts] using hmem
      exact hstateFits (hinner.unique hinner' ▸ hmisfits)
  let state : StateDocument := ⟨some "hub", some "device", none, none⟩
  have hstateOf : state.IsOf inner := by
    refine ⟨⟨quoted "hub", ?_, by decide, Json.quotes_quoted (by decide)⟩,
      ⟨quoted "device", ?_, by decide, Json.quotes_quoted (by decide)⟩, fun _ hmem => ?_,
      fun _ hmem => ?_⟩
    · simp [inner, stateTexts]
    · simp [inner, stateTexts]
    · simp [inner, stateTexts] at hmem
    · simp [inner, stateTexts] at hmem
  let document : ResponseDocument :=
    ⟨some "4.1", some "assigned", some state, none, none, none⟩
  have hof : document.IsOf members := by
    refine ⟨⟨quoted "4.1", ?_, by decide, Json.quotes_quoted (by decide)⟩,
      ⟨quoted "assigned", ?_, by decide, Json.quotes_quoted (by decide)⟩,
      ⟨value, List.mem_cons_self, ?_, inner, hinner, hstateOf⟩, fun _ hmem => ?_, fun _ hmem => ?_,
      fun _ hmem => ?_⟩
    · simp [members, texts]
    · simp [members, texts]
    · intro hnull
      exact Json.not_isObject_nullValue (hnull ▸ hinner)
    · simp [members, texts] at hmem
    · simp [members, texts] at hmem
    · simp [members, texts] at hmem
  have hclass : Classifies 200 3 document
      (.ok ⟨200, "4.1", .assigned, 3, ⟨"hub", "device", 0, "", ""⟩⟩) :=
    .operation (by decide) rfl rfl
  refine ⟨_, members, hobject, hstate, hfits, ?_⟩
  obtain ⟨-, hread, -⟩ := read_classified ⟨200, 1, 3⟩ _ members hobject hstate
  obtain ⟨document', -, hunique, result, hresult, hread⟩ := hread hfits
  obtain rfl := hunique document hof
  rw [hread, hresult.unique hclass]
  rfl

end DeviceTrust.Provisioning
