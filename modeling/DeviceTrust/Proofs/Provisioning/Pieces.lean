import DeviceTrust.Proofs.Bytes
import DeviceTrust.Proofs.Json.Writing
import DeviceTrust.Provisioning.Request

/-!
# Texts are written in pieces

What a device sends is written in pieces: the parts of a format, the bytes of a percent-encoded text,
runs and escapes of a quoted one, and a custom payload as it is. Together the pieces are the text, so
writing them comes to writing the text at once.

Results:
* `flatten_payloadPieces`, `flatten_tokenPieces`: the pieces together.
* `writePieces_eq`: pieces are written as their text is.
* `writeUserName_eq`, `writeRegisterTopic_eq`, `writeQueryTopic_eq`, `writeRequestPayload_eq`: the
  writers of requests.
-/

namespace DeviceTrust

/-! ## Pieces of texts -/

theorem flatten_map_utf8 (pieces : List String) :
    (pieces.map utf8).flatten = utf8 (String.ofList (pieces.flatMap String.toList)) := by
  induction pieces with
  | nil => rfl
  | cons piece pieces ih =>
    rw [List.map_cons, List.flatten_cons, List.flatMap_cons, String.ofList_append, utf8_append,
      String.ofList_toList, ih]

theorem Percent.flatten_pieces (text : String) :
    ((pieces text).map utf8).flatten = utf8 (encode text) := by
  rw [flatten_map_utf8, utf8_inj, ← String.toList_inj, String.toList_ofList, toList_encode, pieces,
    List.flatMap_assoc]
  congr 1
  funext b
  rw [escapePieces, escape]
  split
  next => simp
  next => simp

theorem Json.flatten_contentPieces (run text : List Char) :
    (contentPieces run text).flatMap String.toList = run ++ text.flatMap escapeChar := by
  fun_induction contentPieces run text with
  | case1 => rfl
  | case2 run h => simp
  | case3 run c text hplain ih => simp [ih, hplain]
  | case4 c text hescape rest ih => simp [rest, ih]
  | case5 run c text hescape rest h ih => simp [rest, ih]

theorem Json.flatten_quotePieces (text : String) :
    ((quotePieces text).map utf8).flatten = utf8 (quote text) := by
  rw [flatten_map_utf8, quotePieces, quote]
  simp [flatten_contentPieces]

namespace Provisioning

variable (idScope registrationId userAgent operationId : String)

theorem flatten_payloadPieces (custom : Option Bytes) :
    (payloadPieces registrationId custom).flatten = payloadText registrationId custom := by
  have hkey : "\x7b" ++ Json.quote "registrationId" ++ ":" = "\x7b\"registrationId\":" := by
    decide +kernel
  have hpayload : "," ++ Json.quote "payload" ++ ":" = ",\"payload\":" := by decide +kernel
  cases custom <;>
    simp only [payloadPieces, payloadText, ← hkey, ← hpayload, List.map_append, List.map_cons,
      List.map_nil, List.flatten_append, List.flatten_cons, List.flatten_nil,
      Json.flatten_quotePieces, utf8_append, List.append_assoc, List.append_nil]

theorem flatten_tokenPieces (expiry : UInt64) (tag : Bytes) :
    ((tokenPieces idScope registrationId expiry tag).map utf8).flatten =
      utf8 (tokenText idScope registrationId expiry tag) := by
  unfold tokenPieces tokenText
  generalize encodeTag tag = signature, toString expiry.toNat = time
  simp only [List.map_append, List.map_cons, List.map_nil, List.flatten_append, List.flatten_cons,
    List.flatten_nil, Percent.flatten_pieces, utf8_append, List.append_assoc, List.append_nil]

/-! ## Writing pieces -/

theorem writePieces_eq (pieces : List Bytes) : writePieces pieces = writeText pieces.flatten := by
  funext buffer
  have hroom : (Cursor.start buffer).room = buffer := rfl
  rw [writePieces, Cursor.writeEach_eq, hroom, writeText]
  by_cases h : pieces.flatten.length ≤ buffer.length
  · simp only [decide_eq_true h]
    rw [if_pos h, Cursor.memory_advance_start, Cursor.position_advance_start h]
  · simp only [decide_eq_false h]
    rw [if_neg h, Cursor.memory_advance_start]

theorem writeUserName_eq : writeUserName idScope registrationId userAgent =
    writeText (utf8 (userName idScope registrationId userAgent)) := by
  funext buffer
  rw [writeUserName, writePieces_eq, userName]
  congr 1
  simp only [List.map_append, List.map_cons, List.map_nil, List.flatten_append, List.flatten_cons,
    List.flatten_nil, Percent.flatten_pieces, utf8_append, List.append_assoc, List.nil_append]

theorem writeRegisterTopic_eq : writeRegisterTopic = writeText (utf8 registerTopic) := by
  funext buffer
  rw [writeRegisterTopic, writePieces_eq, List.flatten_singleton]

theorem writeQueryTopic_eq :
    writeQueryTopic operationId = writeText (utf8 (queryTopic operationId)) := by
  have htopic : queryTopic operationId =
      "$dps/registrations/GET/iotdps-get-operationstatus/?$rid=1" ++ "&operationId=" ++ operationId :=
    rfl
  funext buffer
  rw [writeQueryTopic, writePieces_eq, htopic]
  congr 1
  simp only [List.map_cons, List.map_nil, List.flatten_cons, List.flatten_nil, utf8_append,
    List.append_assoc, List.append_nil]

variable {registrationId} {custom : Option Bytes}

theorem requestPayload_eq_map (registrationId : String) (custom : Option Bytes) :
    requestPayload registrationId custom =
      (custom.mapM readCustomPayload).map (payloadText registrationId) := by
  cases custom with
  | none => rfl
  | some payload =>
    rw [requestPayload]
    cases h : readCustomPayload payload <;> simp [h] <;> rfl

/-- The payload of a request is written at once, if the custom payload is read. -/
theorem writeRequestPayload_eq (registrationId : String) (custom : Option Bytes) (buffer : Bytes) :
    writeRequestPayload registrationId custom buffer =
      match requestPayload registrationId custom with
      | .error e => (.error (.json e), buffer)
      | .ok text => ((writeText text buffer).1.mapError .failure, (writeText text buffer).2) := by
  rw [writeRequestPayload, requestPayload_eq_map]
  cases custom.mapM readCustomPayload with
  | error e => rfl
  | ok custom =>
    simp only [writePieces_eq, flatten_payloadPieces]
    rfl

end Provisioning

end DeviceTrust
