import DeviceTrust.Proofs.Provisioning.Credentials
import DeviceTrust.Proofs.Provisioning.RequestObject

/-!
# Texts fit exactly or are refused

Every writer of this library writes one text, which does not depend on the buffer that it is given. A
buffer that has as many bytes as the text holds it afterwards, and the bytes behind it stay as they
were; one byte less, and the buffer is refused. This does not depend on the pieces that the text is
put together from, nor on where the end of the buffer cuts them. So what is read back from a buffer
is the text that was written, and never anything that is not text.

Results:
* `WritesWhole.of_pieces`: pieces that are a text together.
* `writesWhole_requestPayload`, `SymmetricKey.writesWhole_password`: the writers that can fail for
  another reason.
* `Host.run_connectAction_ne_failed`, `Host.run_requestAction_eq_failed_iff`: the actions.
* `writers_exact`: all of this for every writer and every run.
-/

namespace DeviceTrust.Provisioning

/-! ## Writers -/

/-- The writer gives the length of the text and leaves the text in front of the bytes that were behind
it, if the buffer has room for all of it, and otherwise it refuses the buffer. -/
structure WritesWhole {ε : Type} (text : String) (refusal : ε)
    (write : Bytes → Except ε Nat × Bytes) : Prop where
  ok : ∀ buffer, (utf8 text).length ≤ buffer.length →
    write buffer = (.ok (utf8 text).length, utf8 text ++ buffer.drop (utf8 text).length)
  refused : ∀ buffer, buffer.length < (utf8 text).length → (write buffer).1 = .error refusal

section Writers

variable {ε ε' : Type} {text : String} {refusal : ε} {write : Bytes → Except ε Nat × Bytes}

theorem writesWhole_writeText (text : String) :
    WritesWhole text Failure.outOfMemory (writeText (utf8 text)) where
  ok buffer h := by rw [writeText_of_le h, Bytes.fill, List.take_of_length_le h]
  refused buffer h := writeText_fst_of_lt h

/-- Pieces may be cut anywhere. -/
theorem WritesWhole.of_pieces {pieces : List Bytes} (h : pieces.flatten = utf8 text) :
    WritesWhole text Failure.outOfMemory (writePieces pieces) := by
  rw [writePieces_eq, h]
  exact writesWhole_writeText text

theorem WritesWhole.mapError (h : WritesWhole text refusal write) (f : ε → ε') :
    WritesWhole text (f refusal) fun buffer => ((write buffer).1.mapError f, (write buffer).2) where
  ok buffer hroom := by
    rw [h.ok buffer hroom]
    rfl
  refused buffer hroom := by
    rw [h.refused buffer hroom]
    rfl

end Writers

/-! ## Payloads and tokens -/

section Payloads

variable {registrationId : String} {custom : Option Bytes}

theorem writesWhole_requestPayload (hcustom : ∀ payload ∈ custom, IsCustomPayload payload) :
    ∃ text, utf8 text = payloadText registrationId (custom.map Json.trim) ∧
      WritesWhole text (Error.failure .outOfMemory) (writeRequestPayload registrationId custom) := by
  have hpayload := requestPayload_eq_ok_iff_trim.mpr
    ⟨hcustom, (rfl : payloadText registrationId (custom.map Json.trim) = _)⟩
  have htext : (payloadText registrationId (custom.map Json.trim)).isText = true := by
    refine isText_payloadText registrationId fun value hvalue => ?_
    obtain ⟨payload, hmem, rfl⟩ := Option.map_eq_some_iff.mp hvalue
    exact (hcustom payload hmem).2
  obtain ⟨text, htext⟩ := Option.isSome_iff_exists.mp htext
  have htext := Bytes.text?_eq_some_iff.mp htext
  have hwrite : writeRequestPayload registrationId custom = fun buffer =>
      ((writeText (utf8 text) buffer).1.mapError .failure, (writeText (utf8 text) buffer).2) := by
    funext buffer
    simp only [writeRequestPayload_eq, hpayload, htext]
  refine ⟨text, htext.symm, ?_⟩
  rw [hwrite]
  exact (writesWhole_writeText text).mapError _

end Payloads

namespace SymmetricKey

variable {σ : Type} (key : SymmetricKey (StateM σ)) (idScope registrationId : String)
  (expiry : UInt64) (s : σ)

/-- What is written for a tag is its token. -/
theorem writesWhole_password {tag : Bytes}
    (htag : (key.tagCall idScope registrationId expiry s).1 = .ok tag) :
    WritesWhole (tokenText idScope registrationId expiry tag) (Error.failure .outOfMemory)
      fun buffer => ((key.writePassword idScope registrationId expiry buffer).run s).1 := by
  have hwrite (buffer : Bytes) :
      ((key.writePassword idScope registrationId expiry buffer).run s).1 =
        writeToken idScope registrationId expiry buffer (.ok tag) := by
    rw [run_writePassword, htag]
  simp only [hwrite, writeToken]
  exact (writesWhole_writeText _).mapError Error.failure

/-- The token in a buffer of its own. -/
theorem run_password_eq : ((key.password idScope registrationId expiry).run s).1 =
    boundedToken idScope registrationId expiry
      (key.tagCall idScope registrationId expiry s).1 := by
  rw [password_eq, StateT.run_map]
  rfl

end SymmetricKey

/-! ## Actions -/

theorem Client.connectInfo_ne_failed (client : Client) (time : UInt64) :
    client.connectInfo time ≠ .error .failed := by
  intro h
  have hname : boundedText userNameMax
      (userName client.idScope client.registrationId client.userAgent) ≠ .error .failed := by
    rw [boundedText]
    split <;> simp
  have hpassword : client.password time ≠ .error .failed := by
    rw [password]
    split
    next => simp
    next => split <;> simp
  obtain ⟨username, -, h⟩ := of_bind_eq_error h hname
  obtain ⟨password, -, h⟩ := of_bind_eq_error h hpassword
  cases h

namespace Host

variable {σ : Type} {host : Host σ} {s : Session σ}

/-- A call that is checked fails in its own way. -/
theorem run_call_check_ne {α : Type} {failure failure' : Failure} (h : failure' ≠ failure)
    (call : σ → Except TransportError α × σ) (s : Session σ) :
    ((Action.call call >>= fun result => Action.check failure result).run.run s).1 ≠
      .error failure' := by
  have hcall : (Action.call call).run.run s =
      (.ok (call s.outside).1, { s with outside := (call s.outside).2 }) := rfl
  rw [run_bind, hcall]
  cases (call s.outside).1 with
  | ok a => exact fun heq => by cases heq
  | error e => exact fun heq => h (Except.error.inj heq).symm

/-- Connecting never fails because of what is read back from the buffer. -/
theorem run_connectAction_ne_failed (hsize : minimumBufferSize ≤ s.client.buffer.length) :
    (host.connectAction.run.run s).1 ≠ .error .failed := by
  have hinfo := host.prepareConnect_fst hsize
  rw [connectAction, run_bind]
  rcases hrun : host.prepareConnect.run.run s with ⟨result, t⟩
  rw [hrun] at hinfo
  obtain rfl : result = _ := hinfo
  cases hresult : s.client.connectInfo (host.now s.outside).1 with
  | error failure =>
    rintro ⟨⟩
    exact s.client.connectInfo_ne_failed _ hresult
  | ok info => exact run_call_check_ne (by decide) _ t

/-- Requesting fails in this way only if there is no request that fits. -/
theorem run_requestAction_eq_failed_iff (hsize : minimumBufferSize ≤ s.client.buffer.length) :
    (host.requestAction.run.run s).1 = .error .failed ↔ s.client.request? = none := by
  have hrequest := prepareRequest_fst hsize
  rw [requestAction_eq, run_bind]
  rcases hrun : prepareRequest.run.run s with ⟨result, t⟩
  rw [hrun] at hrequest
  obtain rfl : result = _ := hrequest
  cases s.client.request? with
  | none => simp
  | some request =>
    simp only [reduceCtorEq, iff_false]
    exact run_call_check_ne (by decide) _ t

end Host

/-! ## All writers -/

/-- Every writer writes one text, whatever buffer it is given, if it has room for the text, and refuses
every smaller buffer, wherever the text is cut into pieces. This holds for the payload of a request
unless the custom payload is refused, and for a token unless there is no tag. A token of its own is
the text that is written, if this has at most 256 bytes. In a run no action fails because what it
reads back from its buffer is not text: connecting never fails in this way, and requesting only if
its topic or its payload does not fit. -/
theorem writers_exact {σ τ : Type} (host : Host σ) (key : SymmetricKey (StateM τ)) :
    (∀ pieces text, pieces.flatten = utf8 text →
      WritesWhole text Failure.outOfMemory (writePieces pieces)) ∧
    (∀ idScope registrationId userAgent, WritesWhole (userName idScope registrationId userAgent)
      Failure.outOfMemory (writeUserName idScope registrationId userAgent)) ∧
    WritesWhole registerTopic Failure.outOfMemory writeRegisterTopic ∧
    (∀ operationId, WritesWhole (queryTopic operationId) Failure.outOfMemory
      (writeQueryTopic operationId)) ∧
    (∀ registrationId custom, (∀ payload ∈ custom, IsCustomPayload payload) →
      ∃ text, utf8 text = payloadText registrationId (custom.map Json.trim) ∧
        WritesWhole text (Error.failure .outOfMemory)
          (writeRequestPayload registrationId custom)) ∧
    (∀ idScope registrationId expiry s tag,
      ((key.hmac key.secret (utf8 (signedText idScope registrationId expiry))).run s).1 = .ok tag →
      WritesWhole (tokenText idScope registrationId expiry tag) (Error.failure .outOfMemory)
        fun buffer => ((key.writePassword idScope registrationId expiry buffer).run s).1) ∧
    (∀ idScope registrationId expiry s,
      ((key.password idScope registrationId expiry).run s).1 =
        match ((key.hmac key.secret (utf8 (signedText idScope registrationId expiry))).run s).1 with
        | .error e => .error e
        | .ok tag =>
          if (utf8 (tokenText idScope registrationId expiry tag)).length ≤ 256 then
            .ok (tokenText idScope registrationId expiry tag)
          else .error (.failure .outOfMemory)) ∧
    ∀ operations past s now t, Run host operations past s → s.Reaches host now t →
      (host.connectAction.run.run t).1 ≠ .error .failed ∧
      ((host.requestAction.run.run t).1 = .error .failed ↔
        128 < (utf8 t.client.requestTopic).length ∨
          ∀ payload, IsRequestPayload t.client.registrationId t.client.payload payload →
            512 < payload.length) := by
  refine ⟨fun pieces text => .of_pieces, fun idScope registrationId userAgent => ?_, ?_,
    fun operationId => ?_,
    fun registrationId custom => writesWhole_requestPayload,
    fun idScope registrationId expiry s tag => key.writesWhole_password idScope registrationId expiry s,
    fun idScope registrationId expiry s => ?_, fun operations past s now t h ht => ?_⟩
  · rw [writeUserName_eq]
    exact writesWhole_writeText _
  · rw [writeRegisterTopic_eq]
    exact writesWhole_writeText _
  · rw [writeQueryTopic_eq]
    exact writesWhole_writeText _
  · rw [key.run_password_eq, SymmetricKey.tagCall]
    cases ((key.hmac key.secret (utf8 (signedText idScope registrationId expiry))).run s).1 with
    | error e => rfl
    | ok tag =>
      simp only [SymmetricKey.boundedToken]
      split
      next hle =>
        rw [boundedText_of_le (show _ ≤ passwordMax from hle)]
        rfl
      next hlt =>
        rw [boundedText_of_lt (show passwordMax < _ from Nat.not_le.mp hlt)]
        rfl
  · have hsize := (h.hasPast.steps ht.steps).pollingInvariant.size
    exact ⟨Host.run_connectAction_ne_failed hsize,
      (Host.run_requestAction_eq_failed_iff hsize).trans Client.request?_eq_none_iff⟩

/-- Buffers of exactly the size of a text, and smaller ones: the cut is inside an encoded byte of a user
name, between a custom payload and the piece behind it, and inside the time of a token. -/
theorem writers_exact_boundary :
    (writeUserName "scope" "device" "a b" (List.replicate 69 0)).1 = .ok 69 ∧
    (writeUserName "scope" "device" "a b" (List.replicate 67 0)).1 = .error .outOfMemory ∧
    (writeRequestPayload "device" (some (utf8 " [1] ")) (List.replicate 41 0)).1 = .ok 41 ∧
    (writeRequestPayload "device" (some (utf8 " [1] ")) (List.replicate 40 0)).1 =
      .error (.failure .outOfMemory) ∧
    ∃ key : SymmetricKey (StateM Nat),
      ((key.writePassword "a&b" "ü" 3600 (List.replicate 80 0)).run 0).1.1 = .ok 80 ∧
      ((key.writePassword "a&b" "ü" 3600 (List.replicate 79 0)).run 0).1.1 =
        .error (.failure .outOfMemory) := by
  obtain ⟨-, hname, -, -, hpayload, htoken, -⟩ := writers_exact Host.scripted
    ⟨[], SymmetricKey.countedHmac [255, 255, 255]⟩
  have hsize {text : String} {ε : Type} {refusal : ε} {write : Bytes → Except ε Nat × Bytes}
      (h : WritesWhole text refusal write) {n m : Nat} (hn : (utf8 text).length = n) (hm : m < n) :
      (write (List.replicate n 0)).1 = .ok n ∧ (write (List.replicate m 0)).1 = .error refusal := by
    subst hn
    refine ⟨?_, h.refused _ (by rwa [List.length_replicate])⟩
    rw [h.ok _ (by rw [List.length_replicate])]
  have hread : requestPayload "device" (some (utf8 " [1] ")) =
      .ok (payloadText "device" ((some (utf8 " [1] ")).map Json.trim)) := by
    decide +kernel
  obtain ⟨text, htext, hwhole⟩ := hpayload "device" (some (utf8 " [1] "))
    (requestPayload_eq_ok_iff_trim.mp hread).1
  have hlength : (utf8 text).length = 41 := by
    rw [htext]
    decide +kernel
  obtain ⟨hname, hname'⟩ := hsize (hname "scope" "device" "a b") (n := 69) (m := 67)
    (by decide +kernel) (by decide)
  obtain ⟨hpayload, hpayload'⟩ := hsize hwhole hlength (m := 40) (by decide)
  obtain ⟨htoken, htoken'⟩ := hsize (htoken "a&b" "ü" 3600 0 [255, 255, 255] rfl) (n := 80)
    (m := 79) (by decide +kernel) (by decide)
  exact ⟨hname, hname', hpayload, hpayload', _, htoken, htoken'⟩

end DeviceTrust.Provisioning
