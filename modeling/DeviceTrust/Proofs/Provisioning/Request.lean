import DeviceTrust.Proofs.Json.Value
import DeviceTrust.Proofs.Provisioning.Moment
import DeviceTrust.Proofs.Region
import DeviceTrust.Proofs.Sequence

/-!
# Requests are read back as they were written

The payload of a request is JSON around a custom payload, if that is JSON itself. A request is built
in two regions of the working buffer, its topic in the first one and its payload in the one behind
it, and is published from there. What is published is the topic and the payload themselves, whatever
the buffer held before, if both fit; and nothing is published otherwise.

Results:
* `requestPayload_eq_ok_iff`: the payload of a request.
* `Region.read_first_write_fill`: a text that is written into a region is read back.
* `Host.prepareRequest_fst`: what is published from a buffer of the required size.
-/

namespace DeviceTrust

theorem Region.read_first_write_fill {region : Region} {memory text : Bytes}
    (hfits : region.Fits memory) (h : text.length ≤ region.length) :
    (region.first text.length).read (region.write (Bytes.fill (region.read memory) text) memory) =
      text := by
  have hlength : (region.read memory).length = region.length := length_read hfits
  rw [read_first h, read_write hfits (by rw [Bytes.length_fill, hlength])]
  exact Bytes.take_fill (by rwa [hlength])

namespace Provisioning

/-! ## Payloads -/

/-- The payload of a request names the device. A custom payload is one JSON value, which is embedded
without the white space around it. -/
inductive IsRequestPayload (registrationId : String) : Option Bytes → Bytes → Prop where
  | plain : IsRequestPayload registrationId none
      (utf8 "\x7b\"registrationId\":" ++ utf8 (Json.quote registrationId) ++ utf8 "\x7d")
  | custom {u value w : Bytes} (hu : Json.IsBlank u) (hvalue : Json.IsValue value)
      (htext : value.isText = true) (hw : Json.IsBlank w) :
      IsRequestPayload registrationId (some (u ++ (value ++ w)))
        (utf8 "\x7b\"registrationId\":" ++ utf8 (Json.quote registrationId) ++
          utf8 ",\"payload\":" ++ value ++ utf8 "\x7d")

theorem readCustomPayload_eq_ok_iff {payload value : Bytes} :
    readCustomPayload payload = .ok value ↔ ∃ u w, Json.IsBlank u ∧ Json.IsValue value ∧
      value.isText = true ∧ Json.IsBlank w ∧ payload = u ++ (value ++ w) := by
  constructor
  · intro h
    obtain ⟨⟨v, rest⟩, hraw, h⟩ := bind_eq_ok_iff.mp h
    obtain ⟨⟨⟩, hend, hv⟩ := bind_eq_ok_iff.mp h
    obtain ⟨u, hu, hvalue, htext, hpayload⟩ := Json.of_rawValue hraw
    obtain rfl : v = value := Except.ok.inj hv
    exact ⟨u, rest, hu, hvalue, htext, Json.checkEnd_eq_ok_iff.mp hend, hpayload⟩
  · rintro ⟨u, w, hu, hvalue, htext, hw, rfl⟩
    have hends : Bytes.Ends Json.extendsNumber w := by
      simpa using hw.ends (Bytes.ends_nil : Bytes.Ends Json.extendsNumber [])
    refine bind_eq_ok_iff.mpr ⟨_, Json.rawValue_append hu hvalue htext hends, ?_⟩
    exact bind_eq_ok_iff.mpr ⟨(), Json.checkEnd_eq_ok_iff.mpr hw, rfl⟩

theorem payloadText_none (registrationId : String) : payloadText registrationId none =
    utf8 "\x7b\"registrationId\":" ++ utf8 (Json.quote registrationId) ++ utf8 "\x7d" := by
  simp only [payloadText, utf8_append, List.append_nil]

theorem payloadText_some (registrationId : String) (value : Bytes) :
    payloadText registrationId (some value) =
      utf8 "\x7b\"registrationId\":" ++ utf8 (Json.quote registrationId) ++
        utf8 ",\"payload\":" ++ value ++ utf8 "\x7d" := by
  simp only [payloadText, utf8_append, List.append_assoc]

theorem requestPayload_eq_ok_iff {registrationId : String} {custom : Option Bytes}
    {payload : Bytes} : requestPayload registrationId custom = .ok payload ↔
      IsRequestPayload registrationId custom payload := by
  constructor
  · intro h
    cases custom with
    | none =>
      obtain rfl := Except.ok.inj h
      rw [payloadText_none]
      exact .plain
    | some custom =>
      cases hread : readCustomPayload custom with
      | error e =>
        rw [requestPayload, hread] at h
        cases h
      | ok value =>
        rw [requestPayload, hread] at h
        obtain rfl := Except.ok.inj h
        obtain ⟨u, w, hu, hvalue, htext, hw, rfl⟩ := readCustomPayload_eq_ok_iff.mp hread
        rw [Function.comp_apply, payloadText_some]
        exact .custom hu hvalue htext hw
  · intro h
    cases h with
    | plain => rw [requestPayload, payloadText_none]
    | custom hu hvalue htext hw =>
      rw [requestPayload, readCustomPayload_eq_ok_iff.mpr ⟨_, _, hu, hvalue, htext, hw, rfl⟩,
        ← payloadText_some]
      rfl

theorem IsRequestPayload.unique {registrationId : String} {custom : Option Bytes}
    {payload payload' : Bytes} (h : IsRequestPayload registrationId custom payload)
    (h' : IsRequestPayload registrationId custom payload') : payload = payload' :=
  Except.ok.inj ((requestPayload_eq_ok_iff.mpr h).symm.trans (requestPayload_eq_ok_iff.mpr h'))

/-! ## Writing into the working buffer -/

/-- The topic and the payload of the next request; `none` if the payload is refused or one of them
does not fit. -/
def Client.request? (client : Client) : Option (String × Bytes) :=
  match requestPayload client.registrationId client.payload with
  | .error _ => none
  | .ok payload =>
    if (utf8 client.requestTopic).length ≤ topicMax ∧ payload.length ≤ requestPayloadMax then
      some (client.requestTopic, payload)
    else none

section Writing

variable {σ α β ε : Type} {s : Session σ} {region : Region}

/-- The session after a text has been written into a region of the working buffer. -/
def Session.put (s : Session σ) (region : Region) (text : Bytes) : Session σ :=
  { s with client := { s.client with
      buffer := region.write (Bytes.fill (region.read s.client.buffer) text) s.client.buffer } }

theorem Session.length_put (s : Session σ) (region : Region) (text : Bytes) :
    (s.put region text).client.buffer.length = s.client.buffer.length :=
  Region.length_write _ _ _

theorem Session.read_put_of_apart {other : Region} (hfits : region.Fits s.client.buffer)
    (hapart : other.Apart region) (text : Bytes) :
    other.read (s.put region text).client.buffer = other.read s.client.buffer :=
  (Region.confines_write hfits _).read_eq hapart

theorem run_within (s : Session σ) (region : Region) (operation : Bytes → α × Bytes) :
    (Action.within region operation).run.run s =
      (.ok (operation (region.read s.client.buffer)).1, { s with client := { s.client with
        buffer := region.write (operation (region.read s.client.buffer)).2 s.client.buffer } }) :=
  rfl

/-- A text that has been written is followed by its length. -/
theorem run_written_bind {operation : Bytes → Except ε Nat × Bytes} {text : Bytes}
    (h : operation (region.read s.client.buffer) =
      (.ok text.length, Bytes.fill (region.read s.client.buffer) text)) (next : Nat → Action σ β) :
    (Action.within region operation >>= fun written =>
      ofExcept (written.mapError fun _ => Failure.failed) >>= next).run.run s =
      (next text.length).run.run (s.put region text) := by
  rw [run_bind, run_within, h]
  rfl

/-- A text that is refused ends the action. -/
theorem run_refused_bind {operation : Bytes → Except ε Nat × Bytes} {e : ε}
    (h : (operation (region.read s.client.buffer)).1 = .error e) (next : Nat → Action σ β) :
    ((Action.within region operation >>= fun written =>
      ofExcept (written.mapError fun _ => Failure.failed) >>= next).run.run s).1 =
      .error .failed := by
  rw [run_bind, run_within, h]
  rfl

theorem run_readText_bind {n : Nat} {text : String} (next : String → Action σ β)
    (h : (region.first n).read s.client.buffer = utf8 text) :
    (Action.readText region n >>= next).run.run s = (next text).run.run s := by
  have hbytes : (Action.readBytes region n).run.run s = (.ok (utf8 text), s) := by
    rw [← h]
    rfl
  have htext : (Action.readText region n).run.run s = (.ok text, s) := by
    rw [Action.readText, run_bind, hbytes]
    simp only [text?_utf8]
    rfl
  rw [run_bind, htext]

theorem writeText_of_le {text buffer : Bytes} (h : text.length ≤ buffer.length) :
    writeText text buffer = (.ok text.length, Bytes.fill buffer text) := by
  rw [writeText, if_pos h]

theorem writeText_fst_of_lt {text buffer : Bytes} (h : buffer.length < text.length) :
    (writeText text buffer).1 = .error .outOfMemory := by
  rw [writeText, if_neg (Nat.not_le.mpr h)]

variable {registrationId : String} {custom : Option Bytes}

theorem writeRequestPayload_of_error {e : Json.Error}
    (h : requestPayload registrationId custom = .error e) (buffer : Bytes) :
    (writeRequestPayload registrationId custom buffer).1 = .error (.json e) := by
  rw [writeRequestPayload_eq, h]

theorem writeRequestPayload_of_le {text buffer : Bytes}
    (h : requestPayload registrationId custom = .ok text) (hfits : text.length ≤ buffer.length) :
    writeRequestPayload registrationId custom buffer =
      (.ok text.length, Bytes.fill buffer text) := by
  simp only [writeRequestPayload_eq, h, writeText_of_le hfits]
  rfl

theorem writeRequestPayload_of_lt {text buffer : Bytes}
    (h : requestPayload registrationId custom = .ok text) (hfits : buffer.length < text.length) :
    (writeRequestPayload registrationId custom buffer).1 = .error (.failure .outOfMemory) := by
  simp only [writeRequestPayload_eq, h, writeText_fst_of_lt hfits]
  rfl

end Writing

/-! ## The request that is published -/

/-- A buffer of the required size has room for every region within this size. -/
theorem fits_of_size {region : Region} {buffer : Bytes} (h : minimumBufferSize ≤ buffer.length)
    (hregion : region.offset + region.length ≤ minimumBufferSize) : region.Fits buffer :=
  Nat.le_trans hregion h

theorem topicRegion_apart : topicRegion.Apart payloadRegion := by
  decide

/-- What is published from a buffer of the required size: the topic is read back after the payload
has been written behind it. -/
theorem Host.prepareRequest_fst {σ : Type} {s : Session σ}
    (h : minimumBufferSize ≤ s.client.buffer.length) :
    (prepareRequest.run.run s).1 = match s.client.request? with
      | some request => .ok request
      | none => .error .failed := by
  have htopicRoom : (topicRegion.read s.client.buffer).length = topicMax :=
    Region.length_read (fits_of_size h (by decide))
  have hclient : Action.client.run.run s = (.ok s.client, s) := rfl
  rw [prepareRequest, run_bind, hclient, Client.request?]
  simp only [Client.writeTopic_eq]
  by_cases htopic : (utf8 s.client.requestTopic).length ≤ topicMax
  · let s' : Session σ := s.put topicRegion (utf8 s.client.requestTopic)
    have h' : minimumBufferSize ≤ s'.client.buffer.length := by rwa [Session.length_put]
    have hpayloadRoom : (payloadRegion.read s'.client.buffer).length = requestPayloadMax :=
      Region.length_read (fits_of_size h' (by decide))
    simp only [run_written_bind (writeText_of_le (htopicRoom ▸ htopic))]
    cases hpayload : requestPayload s.client.registrationId s.client.payload with
    | error e =>
      exact run_refused_bind (s := s') (writeRequestPayload_of_error hpayload _) _
    | ok payload =>
      by_cases hfits : payload.length ≤ requestPayloadMax
      · have hwritten := writeRequestPayload_of_le hpayload (hpayloadRoom.symm ▸ hfits)
        have htopicRead : (topicRegion.first (utf8 s.client.requestTopic).length).read
            (s'.put payloadRegion payload).client.buffer = utf8 s.client.requestTopic := by
          rw [Session.read_put_of_apart (fits_of_size h' (by decide)) (topicRegion_apart.first _)]
          exact Region.read_first_write_fill (fits_of_size h (by decide)) htopic
        have hpayloadRead : (payloadRegion.first payload.length).read
            (s'.put payloadRegion payload).client.buffer = payload :=
          Region.read_first_write_fill (fits_of_size h' (by decide)) hfits
        simp only [htopic, hfits, and_self, if_true]
        rw [run_written_bind (s := s') hwritten, run_readText_bind _ htopicRead]
        exact congrArg (fun payload => Except.ok (s.client.requestTopic, payload)) hpayloadRead
      · have hlong : (payloadRegion.read s'.client.buffer).length < payload.length := by omega
        simp only [hfits, and_false, if_false]
        exact run_refused_bind (s := s') (writeRequestPayload_of_lt hpayload hlong) _
  · have hlong : (topicRegion.read s.client.buffer).length <
        (utf8 s.client.requestTopic).length := by omega
    simp only [htopic, false_and, if_false]
    rw [run_refused_bind (writeText_fst_of_lt hlong)]
    cases requestPayload s.client.registrationId s.client.payload <;> rfl

theorem Client.request?_eq_some_iff {client : Client} {topic : String} {payload : Bytes} :
    client.request? = some (topic, payload) ↔ topic = client.requestTopic ∧
      IsRequestPayload client.registrationId client.payload payload ∧
      (utf8 topic).length ≤ topicMax ∧ payload.length ≤ requestPayloadMax := by
  rw [← requestPayload_eq_ok_iff, Client.request?]
  cases requestPayload client.registrationId client.payload with
  | error e => simp
  | ok text =>
    simp only [Except.ok.injEq]
    constructor
    · intro h
      split at h
      next hfits =>
        obtain ⟨rfl, rfl⟩ := Prod.mk.inj (Option.some.inj h)
        exact ⟨rfl, rfl, hfits⟩
      next => cases h
    · rintro ⟨rfl, rfl, hfits⟩
      exact if_pos hfits

theorem Client.request?_eq_none_iff {client : Client} : client.request? = none ↔
    topicMax < (utf8 client.requestTopic).length ∨
      ∀ payload, IsRequestPayload client.registrationId client.payload payload →
        requestPayloadMax < payload.length := by
  rw [Option.eq_none_iff_forall_ne_some]
  constructor
  · intro h
    refine Classical.or_iff_not_imp_left.mpr fun htopic payload hpayload => ?_
    refine Nat.lt_of_not_le fun hroom => ?_
    exact h (client.requestTopic, payload) (Client.request?_eq_some_iff.mpr
      ⟨rfl, hpayload, Nat.le_of_not_lt htopic, hroom⟩)
  · rintro h ⟨topic, payload⟩ hrequest
    obtain ⟨rfl, hpayload, htopic, hroom⟩ := Client.request?_eq_some_iff.mp hrequest
    rcases h with hlong | hlong
    · omega
    · have := hlong payload hpayload
      omega

theorem Host.request?_eq_some {σ : Type} {s : Session σ} {request : String × Bytes}
    (h : minimumBufferSize ≤ s.client.buffer.length)
    (hok : (prepareRequest.run.run s).1 = .ok request) : s.client.request? = some request := by
  rw [prepareRequest_fst h] at hok
  cases hrequest : s.client.request? with
  | none =>
    rw [hrequest] at hok
    cases hok
  | some request' =>
    rw [hrequest] at hok
    exact congrArg some (Except.ok.inj hok)

end Provisioning

end DeviceTrust
