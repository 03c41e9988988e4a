import DeviceTrust.Proofs.Jws.CheckedAuthentication
import DeviceTrust.Proofs.Jws.Outcome

/-!
# An authentication has no faults

For every manifest, JWS, list of root keys and memory the authentication with checked access comes to
an end without a fault, and its result is that of the total form. The two can differ in the memory
only after a text has turned out not to be base64, of which a decoder may have written a part.

Results:
* `Agrees.bind`: agreement is composed step by step.
* `decode_agrees`, `within_agrees`: the operations of the authentication.
* `run_decode_of_le`: what a decoder does to a region with enough space.
* `authentication_faultless`: the whole authentication, and each of its steps, for any input.
-/

namespace DeviceTrust.Jws.Checked

variable {α β : Type}

/-! ## Agreement -/

/-- On memories of `size` bytes the checked operation has no fault and the same result as the total
one, for which `post` holds. After a success the memory is the same as well. -/
def Agrees (size : Nat) (checked : Scratch α) (operation : Jws.Scratch α) (post : α → Prop) :
    Prop :=
  ∀ memory : Bytes, memory.length = size → ∃ left : Bytes, left.length = size ∧
    checked.run.run memory = .ok ((operation.run.run memory).1, left) ∧
    ∀ a, (operation.run.run memory).1 = .ok a → left = (operation.run.run memory).2 ∧ post a

theorem checked_run_bind (checked : Scratch α) (next : α → Scratch β) (memory : Bytes) :
    (checked >>= next).run.run memory = checked.run.run memory >>= fun
      | (.ok a, memory') => (next a).run.run memory'
      | (.error e, memory') => .ok (.error e, memory') := by
  rw [ExceptT.run_bind, StateT.run_bind]
  congr 1
  funext ⟨result, memory'⟩
  cases result <;> rfl

variable {size : Nat}

theorem Agrees.bind {checked : Scratch α} {operation : Jws.Scratch α} {post : α → Prop}
    {checkedNext : α → Scratch β} {next : α → Jws.Scratch β} {post' : β → Prop}
    (h : Agrees size checked operation post)
    (hnext : ∀ a, post a → Agrees size (checkedNext a) (next a) post') :
    Agrees size (checked >>= checkedNext) (operation >>= next) post' := by
  intro memory hmemory
  obtain ⟨left, hleft, hrun, hok⟩ := h memory hmemory
  rw [checked_run_bind, run_bind, hrun]
  rcases hresult : operation.run.run memory with ⟨e | a, memory'⟩
  · exact ⟨left, hleft, rfl, nofun⟩
  · rw [hresult] at hok
    obtain ⟨rfl, hpost⟩ := hok a rfl
    exact hnext a hpost left hleft

theorem pure_agrees {post : α → Prop} {a : α} (h : post a) :
    Agrees size (pure a) (pure a) post :=
  fun memory hmemory => ⟨memory, hmemory, rfl, fun _ ha => ⟨rfl, Except.ok.inj ha ▸ h⟩⟩

theorem throw_agrees {post : α → Prop} (e : Error) :
    Agrees size (throw e) (throw e) post :=
  fun memory hmemory => ⟨memory, hmemory, rfl, nofun⟩

theorem ofExcept_agrees {post : α → Prop} {plain : Except Error α}
    (h : ∀ a, plain = .ok a → post a) : Agrees size (ofExcept plain) (ofExcept plain) post := by
  cases plain with
  | error e => exact throw_agrees e
  | ok a => exact pure_agrees (h a rfl)

theorem step_agrees {post : α → Prop} {step : Except Fault (Except Error α)}
    {plain : Except Error α} (hstep : step = .ok plain) (h : ∀ a, plain = .ok a → post a) :
    Agrees size (Scratch.step step) (ofExcept plain) post := by
  subst hstep
  exact ofExcept_agrees h

/-! ## Operations on the memory -/

/-- The region lies in every memory of `size` bytes. -/
def InSize (size : Nat) (region : Region) : Prop :=
  region.offset + region.length ≤ size

variable {region : Region} {memory : Bytes}

theorem InSize.fits (h : InSize size region) (hmemory : memory.length = size) :
    region.Fits memory := by
  unfold Region.Fits
  rw [hmemory]
  exact h

theorem InSize.first (h : InSize size region) (n : Nat) : InSize size (region.first n) :=
  (Nat.add_le_add_left (Nat.min_le_right n region.length) region.offset).trans h

theorem run_check (access : Except Fault α) (memory : Bytes) :
    (Scratch.check access).run.run memory = access.map fun a => (.ok a, memory) := by
  cases access <;> rfl

theorem run_read (h : region.Fits memory) :
    (Scratch.read region).run.run memory = .ok (.ok (region.read memory), memory) := by
  rw [Scratch.read, checked_run_bind]
  show (Scratch.check (region.load memory)).run.run memory = _
  rw [run_check, Region.load_eq h]
  rfl

theorem run_write {content : Bytes} (h : region.Fits memory)
    (hcontent : content.length = region.length) :
    (Scratch.write region content).run.run memory = .ok (.ok (), region.write content memory) := by
  rw [Scratch.write, checked_run_bind]
  show (Scratch.check (region.store content memory) >>= set).run.run memory = _
  rw [checked_run_bind, run_check, Region.store_eq h hcontent]
  rfl

/-- An operation on the contents of a region, which keeps their length. -/
theorem run_within {operation : Bytes → Except Fault (Except Error α × Bytes)}
    {result : Except Error α} {left : Bytes} (h : region.Fits memory)
    (hoperation : operation (region.read memory) = .ok (result, left))
    (hleft : left.length = region.length) :
    (Scratch.within region operation).run.run memory =
      .ok (result, region.write left memory) := by
  rw [Scratch.within, checked_run_bind, run_read h]
  show (Scratch.check (operation (region.read memory)) >>= _).run.run memory = _
  rw [checked_run_bind, run_check, hoperation]
  show (Scratch.write region left >>= _).run.run memory = _
  rw [checked_run_bind, run_write h hleft]
  cases result <;> rfl

theorem read_agrees (h : InSize size region) :
    Agrees size (Scratch.read region) (Jws.Scratch.read region) (fun _ => True) :=
  fun memory hmemory => ⟨memory, hmemory, run_read (h.fits hmemory), fun _ _ => ⟨rfl, trivial⟩⟩

theorem write_agrees {content : Bytes} (h : InSize size region)
    (hcontent : content.length = region.length) :
    Agrees size (Scratch.write region content) (Jws.Scratch.write region content)
      (fun _ => True) :=
  fun memory hmemory => ⟨region.write content memory,
    (Region.length_write region content memory).trans hmemory,
    run_write (h.fits hmemory) hcontent, fun _ _ => ⟨rfl, trivial⟩⟩

theorem readField_agrees (h : InSize size region) (name : String) :
    Agrees size (Scratch.readField name region) (Jws.Scratch.readField name region)
      (fun _ => True) := by
  refine (read_agrees h).bind fun content _ => ?_
  have hfield : Agrees size (ofExcept (Jws.readField name content))
      (ofExcept (Jws.readField name content)) (fun _ => True) :=
    ofExcept_agrees fun _ _ => trivial
  exact hfield.bind fun field _ => pure_agrees trivial

theorem within_agrees {checked : Bytes → Except Fault (Except Error α × Bytes)}
    {operation : Bytes → Except Error α × Bytes} (h : InSize size region)
    (hchecked : ∀ content, checked content = .ok (operation content))
    (hlength : ∀ content, (operation content).2.length = content.length) :
    Agrees size (Scratch.within region checked) (Jws.Scratch.within region operation)
      (fun _ => True) := by
  intro memory hmemory
  have hfits := h.fits hmemory
  have hrun : (Scratch.within region checked).run.run memory =
      .ok ((operation (region.read memory)).1,
        region.write (operation (region.read memory)).2 memory) :=
    run_within hfits (hchecked _) ((hlength _).trans (Region.length_read hfits))
  rw [Jws.run_within]
  exact ⟨_, (Region.length_write _ _ _).trans hmemory, hrun, fun _ _ => ⟨rfl, trivial⟩⟩

theorem length_verifySignature (message signature modulus exponent memory : Bytes) :
    (Jws.verifySignature message signature modulus exponent memory).2.length =
      memory.length := by
  by_cases hmemory : memory.length < verificationSize
  · rw [Jws.verifySignature, if_pos hmemory]
  · exact (verifySignature_eq _ _ _ _ (Nat.le_of_not_lt hmemory)).2

theorem verifySignature_agrees (h : InSize size region)
    (message signature modulus exponent : Bytes) :
    Agrees size (Scratch.verifySignature message signature modulus exponent region)
      (Jws.Scratch.verifySignature message signature modulus exponent region) (fun _ => True) :=
  within_agrees h (verifySignature_eq_ok message signature modulus exponent)
    (length_verifySignature message signature modulus exponent)

/-! ## Decoding -/

theorem run_decode (alphabet : Base64.Alphabet) (text : Bytes) (region : Region)
    (memory : Bytes) : (Jws.Scratch.decode alphabet text region).run.run memory =
      ((decodeInto alphabet text (region.read memory)).1.map region.first,
        region.write (decodeInto alphabet text (region.read memory)).2 memory) := by
  rw [Jws.Scratch.decode, DeviceTrust.run_bind, Jws.run_within]
  cases (decodeInto alphabet text (region.read memory)).1 <;> rfl

/-- Bytes that fit into the first part of a region are written into the region. -/
theorem write_fill_first {bytes : Bytes} {n : Nat} (hfits : region.Fits memory)
    (hn : n ≤ region.length) (hbytes : bytes.length ≤ n) :
    (region.first n).write (Bytes.fill ((region.first n).read memory) bytes) memory =
      region.write (Bytes.fill (region.read memory) bytes) memory := by
  have hfirst : (region.first n).Fits memory := InSize.first hfits n
  refine List.ext_getElem? fun i => ?_
  simp only [Region.getElem?_write, Bytes.getElem?_fill, Region.getElem?_read, Bytes.length_fill,
    Region.length_read hfirst, Region.length_read hfits]
  simp only [Region.first, Nat.min_eq_left hn]
  grind

theorem step_decodedLength {text : Bytes} {n : Nat} (h : Base64.decodedLength text = .ok n) :
    Scratch.step ((decodedLength text).map (Except.mapError .base64)) = pure n := by
  rw [decodedLength_eq, h]
  rfl

/-- A part at the start of a region. -/
theorem check_range {n : Nat} (h : n ≤ region.length) :
    Scratch.check (region.range 0 n) = pure (region.first n) := by
  rw [Region.range_eq (Nat.zero_le n) h, Region.first, Nat.min_eq_left h]
  rfl

/-- What the decoder does to a region that has room for what the text is told to hold. -/
theorem run_decoder {decoder : Decoder} (hdecoder : decoder.IsBase64)
    (alphabet : Base64.Alphabet) {text : Bytes} {required : Nat}
    (hrequired : Base64.decodedLength text = .ok required) (hroom : required ≤ region.length)
    (hfits : region.Fits memory) : ∃ left : Bytes,
      (region.first required).Confines memory left ∧
      (Scratch.within (region.first required) fun content =>
        (decoder alphabet text content).map fun (result, left) =>
          (result.mapError .base64, left)).run.run memory =
        .ok (((Base64.decode alphabet text).map List.length).mapError .base64, left) ∧
      ∀ bytes, Base64.decode alphabet text = .ok bytes →
        left = region.write (Bytes.fill (region.read memory) bytes) memory := by
  have hlength : (region.first required).length = required := Nat.min_eq_left hroom
  have hfirst : (region.first required).Fits memory := InSize.first hfits required
  have hcontent := Region.length_read hfirst
  obtain ⟨left, hleft, hrun, hok⟩ :=
    hdecoder.reads hrequired (Nat.le_of_eq (hcontent.trans hlength).symm) alphabet
  refine ⟨(region.first required).write left memory, Region.confines_write hfirst left,
    run_within hfirst (by rw [hrun]; rfl) (hleft.trans hcontent), fun bytes hbytes => ?_⟩
  rw [hok bytes hbytes]
  exact write_fill_first hfits hroom (Nat.le_of_eq (Base64.length_of_decode hrequired hbytes))

theorem run_decode_of_error (decoder : Decoder) (alphabet : Base64.Alphabet) {text : Bytes}
    {e : Base64.DecodeError} (h : Base64.decodedLength text = .error e) (region : Region)
    (memory : Bytes) : (Scratch.decode decoder alphabet text region).run.run memory =
      .ok (.error (.base64 e), memory) := by
  rw [Scratch.decode, decodedLength_eq, h]
  rfl

theorem run_decode_of_lt (decoder : Decoder) (alphabet : Base64.Alphabet) {text : Bytes}
    {required : Nat} (hrequired : Base64.decodedLength text = .ok required)
    (hroom : region.length < required) (memory : Bytes) :
    (Scratch.decode decoder alphabet text region).run.run memory =
      .ok (.error .insufficientSpace, memory) := by
  rw [Scratch.decode, step_decodedLength hrequired, pure_bind, if_pos hroom]
  rfl

/-- The number of bytes that is worked out first is enough for the decoder, whatever the text. After
an error the memory may hold a part of the text, but nothing more is done with it. -/
theorem run_decode_of_le {decoder : Decoder} (hdecoder : decoder.IsBase64)
    (alphabet : Base64.Alphabet) {text : Bytes} {required : Nat}
    (hrequired : Base64.decodedLength text = .ok required) (hroom : required ≤ region.length)
    (hfits : region.Fits memory) : ∃ left : Bytes,
      (region.first required).Confines memory left ∧
      (Scratch.decode decoder alphabet text region).run.run memory =
        .ok (((Base64.decode alphabet text).map fun _ => region.first required).mapError .base64,
          left) ∧
      ∀ bytes, Base64.decode alphabet text = .ok bytes →
        left = region.write (Bytes.fill (region.read memory) bytes) memory := by
  obtain ⟨left, hconfines, hrun, hok⟩ :=
    run_decoder hdecoder alphabet hrequired hroom hfits
  refine ⟨left, hconfines, ?_, hok⟩
  rw [Scratch.decode, step_decodedLength hrequired, pure_bind, if_neg (Nat.not_lt.mpr hroom)]
  dsimp only
  rw [check_range hroom, pure_bind, checked_run_bind, hrun]
  cases hdecode : Base64.decode alphabet text with
  | error e => rfl
  | ok bytes =>
    have hbytes := Base64.length_of_decode hrequired hdecode
    show (Scratch.check (region.range 0 bytes.length)).run.run left = _
    rw [hbytes, check_range hroom]
    rfl

theorem decode_agrees {decoder : Decoder} (hdecoder : decoder.IsBase64) (h : InSize size region)
    (alphabet : Base64.Alphabet) (text : Bytes) :
    Agrees size (Scratch.decode decoder alphabet text region)
      (Jws.Scratch.decode alphabet text region) (InSize size) := by
  intro memory hmemory
  have hfits := h.fits hmemory
  rw [run_decode, decodeInto, Region.length_read hfits]
  cases hrequired : Base64.decodedLength text with
  | error e => exact ⟨memory, hmemory, run_decode_of_error decoder alphabet hrequired _ _, nofun⟩
  | ok required =>
    dsimp only
    by_cases hroom : region.length < required
    · rw [if_pos hroom]
      exact ⟨memory, hmemory, run_decode_of_lt decoder alphabet hrequired hroom memory, nofun⟩
    · obtain ⟨left, hconfines, hrun, hok⟩ :=
        run_decode_of_le hdecoder alphabet hrequired (Nat.le_of_not_lt hroom) hfits
      rw [if_neg hroom]
      refine ⟨left, hconfines.length_eq.trans hmemory, ?_⟩
      cases hdecode : Base64.decode alphabet text with
      | error e =>
        rw [hdecode] at hrun
        exact ⟨hrun, nofun⟩
      | ok bytes =>
        rw [hdecode, ← Base64.length_of_decode hrequired hdecode] at hrun
        refine ⟨hrun, fun part hpart => ⟨hok bytes hdecode, ?_⟩⟩
        rw [← Except.ok.inj hpart]
        exact h.first _

/-! ## Segments and regions -/

/-- The segments go with the text that the signature covers. -/
theorem split_agrees {next : Compact × Bytes → Scratch β} {plainNext : Compact → Jws.Scratch β}
    {post : β → Prop} (text : Bytes)
    (h : ∀ jws, Agrees size (next (jws, jws.signedContent)) (plainNext jws) post) :
    Agrees size (Scratch.step (split text) >>= next)
      (ofExcept (Compact.split text) >>= plainNext) post := by
  rw [split_eq]
  cases Compact.split text with
  | error e => exact throw_agrees e
  | ok jws => exact h jws

theorem carve_eq (phase : Phase) (length : Nat) :
    carve phase length = .ok (phase.carve length) := by
  rw [carve, Phase.carve]
  by_cases hroom : phase.rest.length < length
  · rw [if_pos hroom, if_pos hroom]
    rfl
  · rw [if_neg hroom, if_neg hroom, Region.splitAt_eq (Nat.le_of_not_lt hroom)]
    rfl

/-- What is carved, and what is left of the phase, lies in the memory. -/
theorem carve_agrees {phase : Phase} (h : InSize size phase.rest) (length : Nat) :
    Agrees size (Scratch.step (carve phase length)) (ofExcept (phase.carve length))
      (fun (region, phase) =>
        region.length = length ∧ InSize size region ∧ InSize size phase.rest) := by
  refine step_agrees (carve_eq phase length) fun (region, rest) hcarve => ?_
  unfold InSize at h
  rw [Phase.carve] at hcarve
  split at hcarve
  next => cases hcarve
  next hroom =>
    obtain ⟨rfl, rfl⟩ := Prod.mk.inj (Except.ok.inj hcarve)
    refine ⟨rfl, ?_, ?_⟩
    · show phase.rest.offset + length ≤ size
      omega
    · show phase.rest.offset + length + (phase.rest.length - length) ≤ size
      omega

theorem layoutOfSize_eq (size : Nat) : layoutOfSize size = .ok (Layout.ofSize size) := by
  have hscratch : jwsHeaderSize + jwkPayloadSize ≤ scratchSize := by decide
  rw [layoutOfSize, Layout.ofSize]
  by_cases hsize : size < scratchSize
  · rw [if_pos hsize, if_pos hsize]
    rfl
  · rw [if_neg hsize, if_neg hsize]
    have hheader : (Region.whole size).splitAt jwsHeaderSize =
        .ok (⟨0, jwsHeaderSize⟩, ⟨jwsHeaderSize, size - jwsHeaderSize⟩) := by
      rw [Region.splitAt_eq (by show jwsHeaderSize ≤ size; omega), Region.whole, Nat.zero_add]
    have hkeyPayload : Region.splitAt ⟨jwsHeaderSize, size - jwsHeaderSize⟩ jwkPayloadSize =
        .ok (⟨jwsHeaderSize, jwkPayloadSize⟩, ⟨jwsHeaderSize + jwkPayloadSize,
          size - (jwsHeaderSize + jwkPayloadSize)⟩) := by
      rw [Region.splitAt_eq (by show jwkPayloadSize ≤ size - jwsHeaderSize; omega), Nat.sub_sub]
    simp only [bind, Except.bind, hheader, hkeyPayload]
    rfl

/-- The three regions lie in the memory. -/
theorem layout_agrees : Agrees size Scratch.layout Jws.Scratch.layout (fun layout =>
    InSize size layout.header ∧ InSize size layout.keyPayload ∧
      InSize size layout.phase.rest) := by
  have hscratch : jwsHeaderSize + jwkPayloadSize ≤ scratchSize := by decide
  have hstep : Agrees size (Scratch.step (layoutOfSize size)) (ofExcept (Layout.ofSize size))
      (fun layout => InSize size layout.header ∧ InSize size layout.keyPayload ∧
        InSize size layout.phase.rest) := by
    refine step_agrees (layoutOfSize_eq size) fun layout hlayout => ?_
    rw [Layout.ofSize] at hlayout
    split at hlayout
    next => cases hlayout
    next hsize =>
      rw [← Except.ok.inj hlayout]
      refine ⟨?_, ?_, ?_⟩
      · show 0 + jwsHeaderSize ≤ size
        omega
      · show jwsHeaderSize + jwkPayloadSize ≤ size
        omega
      · show jwsHeaderSize + jwkPayloadSize + (size - (jwsHeaderSize + jwkPayloadSize)) ≤ size
        omega
  intro memory hmemory
  have hchecked : Scratch.layout.run.run memory =
      (Scratch.step (layoutOfSize memory.length)).run.run memory := by
    rw [Scratch.layout, checked_run_bind]
    rfl
  have hplain : Jws.Scratch.layout.run.run memory =
      (ofExcept (Layout.ofSize memory.length) : Jws.Scratch Layout).run.run memory := by
    rw [Jws.Scratch.layout, run_bind]
    rfl
  rw [hchecked, hplain, hmemory]
  exact hstep memory hmemory

/-! ## The phases -/

variable {decoder : Decoder} {layout : Layout}

theorem verifySigningKey_agrees (hdecoder : decoder.IsBase64)
    (hkeyPayload : InSize size layout.keyPayload) (hphase : InSize size layout.phase.rest)
    (text : Bytes) (rootKeys : List RootKey) :
    Agrees size (verifySigningKey decoder text rootKeys layout)
      (Jws.verifySigningKey text rootKeys layout) (fun _ => True) := by
  refine split_agrees text fun jwk => ?_
  refine (carve_agrees hphase _).bind fun (region₁, phase₁) ⟨_, hregion₁, hphase₁⟩ => ?_
  refine (decode_agrees hdecoder hregion₁ _ _).bind fun header hheader => ?_
  refine (decode_agrees hdecoder hkeyPayload _ _).bind fun payload hpayload => ?_
  refine (carve_agrees hphase₁ _).bind fun (region₂, phase₂) ⟨_, hregion₂, hphase₂⟩ => ?_
  refine (decode_agrees hdecoder hregion₂ _ _).bind fun signature hsignature => ?_
  refine (readField_agrees hheader _).bind fun keyId _ => ?_
  cases RootKey.find? rootKeys keyId with
  | none => exact throw_agrees _
  | some rootKey =>
    refine (carve_agrees hphase₂ _).bind fun (region₃, _) ⟨_, hregion₃, _⟩ => ?_
    refine (read_agrees hsignature).bind fun content _ => ?_
    refine (verifySignature_agrees hregion₃ _ _ _ _).bind fun _ _ => ?_
    refine (readField_agrees hpayload _).bind fun modulus _ => ?_
    refine (readField_agrees hpayload _).bind fun exponent _ => ?_
    refine (readField_agrees hpayload _).bind fun algorithm _ => ?_
    split
    next => exact pure_agrees trivial
    next => exact throw_agrees _

theorem verifyManifestSignature_agrees (hdecoder : decoder.IsBase64)
    (hphase : InSize size layout.phase.rest) (jws : Compact) (key : SigningKey) :
    Agrees size (verifyManifestSignature decoder jws jws.signedContent key layout)
      (Jws.verifyManifestSignature jws key layout) (fun _ => True) := by
  refine (carve_agrees hphase _).bind fun (region₁, phase₁) ⟨_, hregion₁, hphase₁⟩ => ?_
  refine (decode_agrees hdecoder hregion₁ _ _).bind fun signature hsignature => ?_
  refine (carve_agrees hphase₁ _).bind fun (region₂, phase₂) ⟨_, hregion₂, hphase₂⟩ => ?_
  refine (decode_agrees hdecoder hregion₂ _ _).bind fun modulus hmodulus => ?_
  refine (carve_agrees hphase₂ _).bind fun (region₃, phase₃) ⟨_, hregion₃, hphase₃⟩ => ?_
  refine (decode_agrees hdecoder hregion₃ _ _).bind fun exponent hexponent => ?_
  refine (carve_agrees hphase₃ _).bind fun (region₄, _) ⟨_, hregion₄, _⟩ => ?_
  refine (read_agrees hsignature).bind fun _ _ => (read_agrees hmodulus).bind fun _ _ => ?_
  exact (read_agrees hexponent).bind fun _ _ => verifySignature_agrees hregion₄ _ _ _ _

theorem checkDigest_agrees (hdecoder : decoder.IsBase64)
    (hphase : InSize size layout.phase.rest) (manifest : Bytes) (jws : Compact) :
    Agrees size (checkDigest decoder manifest jws layout) (Jws.checkDigest manifest jws layout)
      (fun _ => True) := by
  refine (carve_agrees hphase _).bind fun (region₁, phase₁) ⟨_, hregion₁, hphase₁⟩ => ?_
  refine (decode_agrees hdecoder hregion₁ _ _).bind fun payload hpayload => ?_
  refine (readField_agrees hpayload _).bind fun encoded _ => ?_
  refine (carve_agrees hphase₁ _).bind fun (region₂, phase₂) ⟨_, hregion₂, hphase₂⟩ => ?_
  refine (decode_agrees hdecoder hregion₂ _ _).bind fun attested hattested => ?_
  refine (read_agrees hattested).bind fun content _ => ?_
  split
  next => exact throw_agrees _
  next =>
    refine (carve_agrees hphase₂ _).bind fun (calculated, _) ⟨hlength, hcalculated, _⟩ => ?_
    have hdigest : (Sha256.digest manifest).length = calculated.length :=
      (Sha256.length_digest manifest).trans hlength.symm
    refine (write_agrees hcalculated hdigest).bind fun _ _ => ?_
    refine (read_agrees hattested).bind fun _ _ => (read_agrees hcalculated).bind fun _ _ => ?_
    split
    next => exact throw_agrees _
    next => exact pure_agrees trivial

theorem authenticate_agrees (hdecoder : decoder.IsBase64) (manifest jws : Bytes)
    (rootKeys : List RootKey) :
    Agrees size (authenticate decoder manifest jws rootKeys)
      (Jws.authenticate manifest jws rootKeys) (fun _ => True) := by
  refine layout_agrees.bind fun layout ⟨hheader, hkeyPayload, hphase⟩ => ?_
  refine split_agrees jws fun outer => ?_
  refine (decode_agrees hdecoder hheader _ _).bind fun header hheader => ?_
  refine (readField_agrees hheader _).bind fun embedded _ => ?_
  refine (verifySigningKey_agrees hdecoder hkeyPayload hphase _ _).bind fun key _ => ?_
  refine (verifyManifestSignature_agrees hdecoder hphase _ _).bind fun _ _ => ?_
  exact checkDigest_agrees hdecoder hphase _ _

/-! ## Any input -/

/-- No input ends an authentication by a fault, given a decoder that needs no more memory than it
says. Whatever the manifest, the JWS, the root keys and the memory, and for any bytes that a step may
be given: every range lies inside of what it is taken from and both sides of every copy have one
length. A text is never found to hold fewer bytes than are read of it, also where it is not base64;
no power is taken modulo zero, none is longer than its key, and the end of a filler lies inside of its
block. The results are those of the total forms. -/
theorem authentication_faultless {decoder : Decoder} (hdecoder : decoder.IsBase64) :
    (∀ (manifest jws : Bytes) (rootKeys : List RootKey) (scratch : Bytes),
      ∃ left : Bytes, left.length = scratch.length ∧
        authenticateManifest decoder manifest jws rootKeys scratch =
          .ok ((Jws.authenticateManifest manifest jws rootKeys scratch).1, left) ∧
        ((Jws.authenticateManifest manifest jws rootKeys scratch).1 = .ok () →
          left = (Jws.authenticateManifest manifest jws rootKeys scratch).2)) ∧
    (∀ text : Bytes,
      split text = .ok ((Compact.split text).map fun jws => (jws, jws.signedContent))) ∧
    (∀ (alphabet : Base64.Alphabet) (text : Bytes) (region : Region) (memory : Bytes),
      region.Fits memory → ∃ left : Bytes, left.length = memory.length ∧
        (Scratch.decode decoder alphabet text region).run.run memory =
          .ok (((Jws.Scratch.decode alphabet text region).run.run memory).1, left)) ∧
    (∀ (alphabet : Base64.Alphabet) (text : Bytes) (required : Nat),
      Base64.decodedLength text = .ok required →
        (Base64.packLeading alphabet text).length ≤ required ∧
        ∀ bytes, Base64.decode alphabet text = .ok bytes → bytes.length = required) ∧
    (∀ block : Bytes, blockContent block = .ok (Rsa.blockContent? block)) ∧
    ∀ message signature modulus exponent memory : Bytes,
      verifySignature message signature modulus exponent memory =
        .ok (Jws.verifySignature message signature modulus exponent memory) := by
  refine ⟨?_, split_eq, ?_, ?_, blockContent_eq, verifySignature_eq_ok⟩
  · intro manifest jws rootKeys scratch
    obtain ⟨left, hleft, hrun, hok⟩ :=
      authenticate_agrees hdecoder manifest jws rootKeys scratch rfl
    exact ⟨left, hleft, hrun, fun h => (hok () h).1⟩
  · intro alphabet text region memory hfits
    obtain ⟨left, hleft, hrun, -⟩ := decode_agrees hdecoder hfits alphabet text memory rfl
    exact ⟨left, hleft, hrun⟩
  · intro alphabet text required hrequired
    exact ⟨Base64.length_packLeading_le_decodedLength alphabet hrequired,
      fun bytes hbytes => Base64.length_of_decode hrequired hbytes⟩

/-- A JWS with a document that has no members, padding inside of a text, and a signature without
bytes under a modulus without bytes. -/
theorem authentication_faultless_hostile :
    (∃ left : Bytes, left.length = 3358 ∧
      authenticateManifest leadingDecoder [] [101, 51, 48, 46, 101, 51, 48, 46, 65, 65] []
        (List.replicate 3358 0) = .ok (.error (.missingField "sjwk"), left)) ∧
    (Base64.decodedLength [81, 61, 81, 81, 61, 61] = .ok 3 ∧
      (Base64.packLeading .standard [81, 61, 81, 81, 61, 61]).length ≤ 3) ∧
    ∃ left, verifySignature [] [] [] [2] (List.replicate 416 0) =
      .ok (.error .signatureMismatch, left) := by
  obtain ⟨hauthenticate, -, -, hlength, -, hverify⟩ :=
    authentication_faultless leadingDecoder_isBase64
  have hrequired : Base64.decodedLength [81, 61, 81, 81, 61, 61] = .ok 3 := by decide
  refine ⟨?_, ⟨hrequired, (hlength .standard _ 3 hrequired).1⟩, ?_⟩
  · obtain ⟨left, hleft, hrun, -⟩ := hauthenticate [] [101, 51, 48, 46, 101, 51, 48, 46, 65, 65] []
      (List.replicate 3358 0)
    have houtcome : outcome [] [101, 51, 48, 46, 101, 51, 48, 46, 65, 65] [] =
        .error (.missingField "sjwk") := by decide +kernel
    have hsize : scratchSize ≤ (List.replicate 3358 (0 : UInt8)).length := by
      rw [List.length_replicate]
      decide
    rw [authenticateManifest_fst_eq, if_pos hsize, houtcome] at hrun
    exact ⟨left, by rw [hleft, List.length_replicate], hrun⟩
  · refine ⟨(Jws.verifySignature [] [] [] [2] (List.replicate 416 0)).2, ?_⟩
    have hmismatch : (Jws.verifySignature [] [] [] [2] (List.replicate 416 0)).1 =
        .error .signatureMismatch := by
      rw [Jws.verifySignature, if_neg (by rw [List.length_replicate]; decide)]
      rfl
    rw [hverify, ← hmismatch]

end DeviceTrust.Jws.Checked
