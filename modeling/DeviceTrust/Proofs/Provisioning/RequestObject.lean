import DeviceTrust.Proofs.Json.Record
import DeviceTrust.Proofs.Json.Trimming
import DeviceTrust.Proofs.Json.Writing
import DeviceTrust.Proofs.Provisioning.Request

/-!
# Payloads of requests are objects of one or two members

A payload is read back by the grammar as an object that names the device and has the custom payload as
its second member, if there is one. Neither the name nor the custom payload can add a member, change
the other one or end the object.

Results:
* `requestPayload_eq_ok_iff_trim`: which payloads there are.
* `isObject_payloadText`: the members of a payload.
* `writeRequestPayload_members`: what is written, and what can be told from it.
-/

namespace DeviceTrust.Provisioning

/-! ## Custom payloads -/

/-- One JSON value in valid UTF-8, and nothing but white space around it. -/
def IsCustomPayload (payload : Bytes) : Prop :=
  Json.IsValue (Json.trim payload) ∧ (Json.trim payload).isText = true

section Payload

variable {registrationId registrationId' : String} {custom custom' : Option Bytes}
  {text buffer : Bytes}

theorem requestPayload_eq_ok_iff_trim : requestPayload registrationId custom = .ok text ↔
    (∀ payload ∈ custom, IsCustomPayload payload) ∧
      text = payloadText registrationId (custom.map Json.trim) := by
  rw [requestPayload_eq_ok_iff]
  constructor
  · intro h
    cases h with
    | plain =>
      refine ⟨fun payload hpayload => ?_, (payloadText_none registrationId).symm⟩
      cases hpayload
    | custom hu hvalue htext hw =>
      have htrim := Json.trim_value hu hvalue hw
      refine ⟨fun payload hpayload => ?_, ?_⟩
      · obtain rfl := Option.some.inj hpayload
        rw [IsCustomPayload, htrim]
        exact ⟨hvalue, htext⟩
      · rw [Option.map_some, htrim, payloadText_some]
  · rintro ⟨hcustom, rfl⟩
    cases custom with
    | none =>
      rw [Option.map_none, payloadText_none]
      exact .plain
    | some payload =>
      obtain ⟨hvalue, htext⟩ := hcustom payload rfl
      obtain ⟨u, w, hu, hw, hpayload⟩ := Json.exists_isBlank_trim payload
      have hrequest := @IsRequestPayload.custom registrationId _ _ _ hu hvalue htext hw
      rw [← hpayload, ← payloadText_some registrationId] at hrequest
      exact hrequest

theorem requestPayload_eq_error_iff :
    (∃ e, requestPayload registrationId custom = .error e) ↔
      ∃ payload, custom = some payload ∧ ¬IsCustomPayload payload := by
  have hok : (∃ text, requestPayload registrationId custom = .ok text) ↔
      ∀ payload ∈ custom, IsCustomPayload payload := by
    simp only [requestPayload_eq_ok_iff_trim, exists_and_left, exists_eq, and_true]
  constructor
  · rintro ⟨e, he⟩
    by_contra hnone
    obtain ⟨text, htext⟩ := hok.mpr fun payload hpayload =>
      by_contra fun hcustom => hnone ⟨payload, hpayload, hcustom⟩
    rw [htext] at he
    cases he
  · rintro ⟨payload, hpayload, hcustom⟩
    cases hresult : requestPayload registrationId custom with
    | error e => exact ⟨e, rfl⟩
    | ok text => exact absurd (hok.mp ⟨text, hresult⟩ payload hpayload) hcustom

/-! ## The object -/

/-- The members of a payload: the value that names the device, and the custom payload. -/
def requestMembers (id : Bytes) (custom : Option Bytes) : Json.Members :=
  ("registrationId", id) :: (custom.map fun value => ("payload", value)).toList

theorem requestMembers_inj {id id' : Bytes} :
    requestMembers id custom = requestMembers id' custom' ↔ id = id' ∧ custom = custom' := by
  constructor
  · intro h
    obtain ⟨hid, hcustom⟩ := List.cons.inj h
    refine ⟨(Prod.mk.inj hid).2, ?_⟩
    cases custom with
    | none =>
      cases custom' with
      | none => rfl
      | some value' => cases hcustom
    | some value =>
      cases custom' with
      | none => cases hcustom
      | some value' => exact congrArg some (Prod.mk.inj (List.cons.inj hcustom).1).2
  · rintro ⟨rfl, rfl⟩
    rfl

theorem isObject_payloadText (registrationId : String)
    (hcustom : ∀ value ∈ custom, Json.IsValue value) :
    Json.IsObject (payloadText registrationId custom)
      (requestMembers (utf8 (Json.quote registrationId)) custom) := by
  have hid := (Json.quotes_quote registrationId).isValue
  have hname : Json.Spells (utf8 "registrationId") (utf8 "registrationId") :=
    Json.spells_utf8 (by decide)
  have hstart : utf8 "\x7b\"registrationId\":" =
      123 :: 34 :: (utf8 "registrationId" ++ [34, 58]) := by decide
  have hstop : utf8 "\x7d" = [125] := by decide
  cases custom with
  | none =>
    have hmembers := Json.IsMembers.last Json.isBlank_nil hname Json.isBlank_nil Json.isBlank_nil
      hid Json.isBlank_nil
    refine ⟨[], _, [], Json.isBlank_nil, Json.isBlank_nil, ?_, .inr hmembers⟩
    rw [payloadText_none, hstart, hstop]
    simp
  | some value =>
    have hpayload : Json.Spells (utf8 "payload") (utf8 "payload") := Json.spells_utf8 (by decide)
    have hmiddle : utf8 ",\"payload\":" = 44 :: 34 :: (utf8 "payload" ++ [34, 58]) := by decide
    have hlast := Json.IsMembers.last Json.isBlank_nil hpayload Json.isBlank_nil Json.isBlank_nil
      (hcustom value rfl) Json.isBlank_nil
    have hmembers := Json.IsMembers.cons Json.isBlank_nil hname Json.isBlank_nil Json.isBlank_nil
      hid Json.isBlank_nil hlast
    refine ⟨[], _, [], Json.isBlank_nil, Json.isBlank_nil, ?_, .inr hmembers⟩
    rw [payloadText_some, hstart, hmiddle, hstop]
    simp

/-- A payload is valid UTF-8, as its values are. -/
theorem isText_payloadText (registrationId : String)
    (hcustom : ∀ value ∈ custom, value.isText = true) :
    (payloadText registrationId custom).isText = true := by
  cases custom with
  | none =>
    rw [payloadText_none, ← utf8_append, ← utf8_append, Bytes.isText, text?_utf8]
    rfl
  | some value =>
    obtain ⟨text, htext⟩ := Option.isSome_iff_exists.mp (hcustom value rfl)
    rw [payloadText_some, Bytes.text?_eq_some_iff.mp htext]
    simp only [← utf8_append, Bytes.isText, text?_utf8]
    rfl

/-! ## Writing -/

/-- The size of a payload. Besides the two values there are 19 bytes around the first one and 11 in
front of the second one. -/
def requestSize (registrationId : String) (custom : Option Bytes) : Nat :=
  (utf8 (Json.quote registrationId)).length + 19 +
    (custom.map fun payload => (Json.trim payload).length + 11).getD 0

theorem length_payloadText (registrationId : String) (custom : Option Bytes) :
    (payloadText registrationId (custom.map Json.trim)).length =
      requestSize registrationId custom := by
  have hstart : (utf8 "\x7b\"registrationId\":").length = 18 := by decide
  have hmiddle : (utf8 ",\"payload\":").length = 11 := by decide
  have hstop : (utf8 "\x7d").length = 1 := by decide
  cases custom with
  | none =>
    simp only [Option.map_none, payloadText_none, List.length_append, hstart, hstop, requestSize,
      Option.getD_none]
    omega
  | some payload =>
    simp only [Option.map_some, payloadText_some, List.length_append, hstart, hmiddle, hstop,
      requestSize, Option.getD_some]
    omega

/-- The text that is written into a buffer, if there is no error. -/
def writtenRequest? (registrationId : String) (custom : Option Bytes) (buffer : Bytes) :
    Option Bytes :=
  match writeRequestPayload registrationId custom buffer with
  | (.ok length, buffer) => some (buffer.take length)
  | (.error _, _) => none

theorem writtenRequest?_eq_some_iff : writtenRequest? registrationId custom buffer = some text ↔
    requestPayload registrationId custom = .ok text ∧ text.length ≤ buffer.length := by
  cases hpayload : requestPayload registrationId custom with
  | error e => simp [writtenRequest?, writeRequestPayload_eq, hpayload]
  | ok text' =>
    by_cases hfits : text'.length ≤ buffer.length
    · rw [writtenRequest?, writeRequestPayload_of_le hpayload hfits]
      show some ((Bytes.fill buffer text').take text'.length) = some text ↔ _
      rw [Bytes.take_fill hfits, Option.some.injEq, Except.ok.injEq]
      constructor
      · rintro rfl
        exact ⟨rfl, hfits⟩
      · exact And.left
    · have hlt := writeRequestPayload_of_lt hpayload (Nat.lt_of_not_le hfits)
      rw [writtenRequest?]
      split
      next heq =>
        rw [heq] at hlt
        cases hlt
      next =>
        simp only [reduceCtorEq, Except.ok.injEq, false_iff, not_and]
        rintro rfl
        exact hfits

theorem writeRequestPayload_eq_json_iff :
    (∃ e, (writeRequestPayload registrationId custom buffer).1 = .error (.json e)) ↔
      ∃ e, requestPayload registrationId custom = .error e := by
  constructor
  · rintro ⟨e, he⟩
    cases hpayload : requestPayload registrationId custom with
    | error e' => exact ⟨e', rfl⟩
    | ok text =>
      by_cases hfits : text.length ≤ buffer.length
      · rw [writeRequestPayload_of_le hpayload hfits] at he
        cases he
      · rw [writeRequestPayload_of_lt hpayload (Nat.lt_of_not_le hfits)] at he
        cases he
  · rintro ⟨e, he⟩
    exact ⟨e, writeRequestPayload_of_error he buffer⟩

theorem of_writtenRequest? (h : writtenRequest? registrationId custom buffer = some text) :
    (∀ payload ∈ custom, IsCustomPayload payload) ∧
      text = payloadText registrationId (custom.map Json.trim) :=
  requestPayload_eq_ok_iff_trim.mp (writtenRequest?_eq_some_iff.mp h).1

theorem writtenRequest?_of_le (hcustom : ∀ payload ∈ custom, IsCustomPayload payload)
    (hroom : requestSize registrationId custom ≤ buffer.length) :
    writtenRequest? registrationId custom buffer =
      some (payloadText registrationId (custom.map Json.trim)) := by
  rw [writtenRequest?_eq_some_iff, requestPayload_eq_ok_iff_trim, length_payloadText]
  exact ⟨⟨hcustom, rfl⟩, hroom⟩

/-- What is written can be read back as the name of the device and the custom payload. -/
theorem isObject_writtenRequest? (h : writtenRequest? registrationId custom buffer = some text) :
    Json.IsObject text
      (requestMembers (utf8 (Json.quote registrationId)) (custom.map Json.trim)) := by
  obtain ⟨hcustom, rfl⟩ := of_writtenRequest? h
  refine isObject_payloadText registrationId fun value hvalue => ?_
  obtain ⟨payload, hmem, rfl⟩ := Option.map_eq_some_iff.mp hvalue
  exact (hcustom payload hmem).1

theorem isText_writtenRequest? (h : writtenRequest? registrationId custom buffer = some text) :
    text.isText = true := by
  obtain ⟨hcustom, rfl⟩ := of_writtenRequest? h
  refine isText_payloadText registrationId fun value hvalue => ?_
  obtain ⟨payload, hmem, rfl⟩ := Option.map_eq_some_iff.mp hvalue
  exact (hcustom payload hmem).2

theorem writtenRequest?_inj {buffer' : Bytes}
    (h : writtenRequest? registrationId custom buffer = some text)
    (h' : writtenRequest? registrationId' custom' buffer' = some text) :
    registrationId = registrationId' ∧ custom.map Json.trim = custom'.map Json.trim := by
  have hmembers := (isObject_writtenRequest? h).unique (isObject_writtenRequest? h')
  obtain ⟨hid, hcustom⟩ := requestMembers_inj.mp hmembers
  have hquotes := Json.quotes_quote registrationId
  rw [hid] at hquotes
  exact ⟨hquotes.unique (Json.quotes_quote registrationId'), hcustom⟩

end Payload

/-- A request fails because of JSON iff its custom payload is not one value. Otherwise an object is
written, if there is room for it. The object has the name of the device as its first member, which
stands for this name alone, and the custom payload without the white space around it as its second
one, and no other member. Two requests are written the same only if they agree in both. -/
theorem writeRequestPayload_members (registrationId : String) (custom : Option Bytes)
    (buffer : Bytes) :
    ((∃ e, (writeRequestPayload registrationId custom buffer).1 = .error (.json e)) ↔
      ∃ payload, custom = some payload ∧ ¬IsCustomPayload payload) ∧
    ((∀ payload, custom = some payload → IsCustomPayload payload) →
      requestSize registrationId custom ≤ buffer.length →
      ∃ text id, writtenRequest? registrationId custom buffer = some text ∧
        text.isText = true ∧
        (∀ members, Json.IsObject text members ↔ members = ("registrationId", id) ::
          (custom.map fun payload => ("payload", Json.trim payload)).toList) ∧
        ∀ name, Json.Quotes id name ↔ name = registrationId) ∧
    ∀ registrationId' custom' buffer' text,
      writtenRequest? registrationId custom buffer = some text →
      writtenRequest? registrationId' custom' buffer' = some text →
        registrationId = registrationId' ∧ custom.map Json.trim = custom'.map Json.trim := by
  refine ⟨?_, fun hcustom hroom => ?_,
    fun registrationId' custom' buffer' text => writtenRequest?_inj⟩
  · rw [writeRequestPayload_eq_json_iff]
    exact requestPayload_eq_error_iff
  · have hwritten := writtenRequest?_of_le hcustom hroom
    have hobject := isObject_writtenRequest? hwritten
    have hquotes := Json.quotes_quote registrationId
    rw [requestMembers, Option.map_map] at hobject
    refine ⟨_, _, hwritten, isText_writtenRequest? hwritten,
      fun members => ⟨fun h => h.unique hobject, ?_⟩, fun name => ⟨fun h => h.unique hquotes, ?_⟩⟩
    · rintro rfl
      exact hobject
    · rintro rfl
      exact hquotes

/-- A name that tries to add a member stays a name. -/
theorem writeRequestPayload_members_quoted :
    ∃ id, (∀ members, Json.IsObject (utf8
        "\x7b\"registrationId\":\"a\\\",\\\"payload\\\":\\\"\\n\",\"payload\":[1]\x7d") members ↔
      members = [("registrationId", id), ("payload", utf8 "[1]")]) ∧
      ∀ name, Json.Quotes id name ↔ name = "a\",\"payload\":\"\n" := by
  have hwritten : writtenRequest? "a\",\"payload\":\"\n" (some (utf8 " [1]\n"))
      (List.replicate 100 0) = some (utf8
        "\x7b\"registrationId\":\"a\\\",\\\"payload\\\":\\\"\\n\",\"payload\":[1]\x7d") := by
    decide +kernel
  have htrim : Json.trim (utf8 " [1]\n") = utf8 "[1]" := by decide +kernel
  obtain ⟨-, hmembers, -⟩ := writeRequestPayload_members "a\",\"payload\":\"\n"
    (some (utf8 " [1]\n")) (List.replicate 100 0)
  obtain ⟨text, id, htext, -, hobject, hquotes⟩ :=
    hmembers (of_writtenRequest? hwritten).1 (by decide)
  obtain rfl := Option.some.inj (htext.symm.trans hwritten)
  rw [Option.map_some, htrim] at hobject
  exact ⟨id, hobject, hquotes⟩

end DeviceTrust.Provisioning
