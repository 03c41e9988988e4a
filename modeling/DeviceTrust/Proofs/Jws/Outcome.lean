import DeviceTrust.Jws.Authentication
import DeviceTrust.Proofs.Jws.Simulation

/-!
# The outcome of an authentication

The authentication without a memory, in six stages, and that the one in a memory of the required
size ends in the same way. What the memory holds at first, and how much larger it is, plays no part.

Results:
* `verifySigningKey_simulates`, `verifyManifestSignature_simulates`, `checkDigest_simulates`: one
  phase each.
* `authenticateManifest_fst_eq`: the outcome in a memory of the required size.
-/

namespace DeviceTrust.Jws

/-! ## The stages -/

/-- The parts of a signing key that are read before its signature is verified. -/
structure KeyDocument where
  jws : Compact
  payload : Bytes
  signature : Bytes
  keyId : String

/-- Cuts the JWS and reads the signing key that it embeds. -/
def openManifest (jws : Bytes) : Except Error (Compact × String) := do
  let outer ← Compact.split jws
  let header ← decodeAtMost .urlSafe jwsHeaderSize outer.header
  let embedded ← fieldText "sjwk" header
  return (outer, embedded)

/-- Reads a signing key up to its key id. -/
def openKey (text : Bytes) : Except Error KeyDocument := do
  let jwk ← Compact.split text
  let header ← decodeAtMost .urlSafe jwkHeaderSize jwk.header
  let payload ← decodeAtMost .urlSafe jwkPayloadSize jwk.payload
  let signature ← decodeAtMost .urlSafe signatureSize jwk.signature
  let keyId ← fieldText "kid" header
  return ⟨jwk, payload, signature, keyId⟩

/-- Checks the signature of a signing key with the root key that it names. -/
def checkRoot (rootKeys : List RootKey) (document : KeyDocument) : Except Error Unit :=
  match RootKey.find? rootKeys document.keyId with
  | none => .error .rootKeyNotFound
  | some rootKey =>
    checkSignature document.jws.signedContent document.signature rootKey.modulus rootKey.exponent

/-- Reads the key itself. -/
def readKey (document : KeyDocument) : Except Error SigningKey := do
  let modulus ← fieldText "n" document.payload
  let exponent ← fieldText "e" document.payload
  let algorithm ← fieldText "alg" document.payload
  if algorithm = rs256 then return ⟨modulus, exponent⟩ else throw .unsupportedAlgorithm

/-- Checks the signature of the JWS with the signing key. -/
def checkOuter (outer : Compact) (key : SigningKey) : Except Error Unit := do
  let signature ← decodeAtMost .urlSafe signatureSize outer.signature
  let modulus ← decodeAtMost .standard modulusSize (utf8 key.modulus)
  let exponent ← decodeAtMost .standard exponentSize (utf8 key.exponent)
  checkSignature outer.signedContent signature modulus exponent

/-- Compares the digest that the payload attests with `digest`. -/
def checkAttested (digest : Bytes) (outer : Compact) : Except Error Unit := do
  let payload ← decodeAtMost .urlSafe jwsPayloadSize outer.payload
  let encoded ← fieldText "sha256" payload
  let attested ← decodeAtMost .standard digestSize (utf8 encoded)
  if attested.length ≠ digestSize then throw .invalidDigestLength
  if attested ≠ digest then throw .digestMismatch

/-- Reads and verifies the signing key. -/
def signingKey (text : Bytes) (rootKeys : List RootKey) : Except Error SigningKey := do
  let document ← openKey text
  checkRoot rootKeys document
  readKey document

/-- The outcome of an authentication. -/
def outcome (manifest jws : Bytes) (rootKeys : List RootKey) : Except Error Unit := do
  let (outer, embedded) ← openManifest jws
  let key ← signingKey (utf8 embedded) rootKeys
  checkOuter outer key
  checkAttested (Sha256.digest manifest) outer

/-! ## The layout -/

/-- Where the payload of the signing key lies. -/
def keyPayloadRegion : Region :=
  ⟨jwsHeaderSize, jwkPayloadSize⟩

/-- The layout of a memory of `size` bytes. -/
def plainLayout (size : Nat) : Layout where
  header := ⟨0, jwsHeaderSize⟩
  keyPayload := keyPayloadRegion
  shared := ⟨jwsHeaderSize + jwkPayloadSize, size - (jwsHeaderSize + jwkPayloadSize)⟩

/-- The `length` bytes of the shared region behind its first `before` ones. -/
def sharedRegion (before length : Nat) : Region :=
  ⟨jwsHeaderSize + jwkPayloadSize + before, length⟩

/-- A phase of which `before` bytes have been taken. -/
def sharedPhase (size before : Nat) : Phase :=
  ⟨⟨jwsHeaderSize + jwkPayloadSize + before, size - (jwsHeaderSize + jwkPayloadSize) - before⟩⟩

theorem plainLayout_phase (size : Nat) : (plainLayout size).phase = sharedPhase size 0 := by
  simp only [Layout.phase, plainLayout, sharedPhase, Nat.add_zero, Nat.sub_zero]

theorem plainLayout_keyPayload (size : Nat) :
    (plainLayout size).keyPayload = keyPayloadRegion := rfl

theorem Layout.ofSize_eq {size : Nat} (h : scratchSize ≤ size) :
    Layout.ofSize size = .ok (plainLayout size) := by
  rw [ofSize, if_neg (Nat.not_lt.mpr h)]
  rfl

theorem keyPayloadRegion_fits {memory : Bytes} (h : scratchSize ≤ memory.length) :
    keyPayloadRegion.Fits memory := by
  have : jwsHeaderSize + jwkPayloadSize ≤ scratchSize := by decide
  simp only [Region.Fits, keyPayloadRegion]
  omega

theorem sharedRegion_fits {size before length : Nat} {memory : Bytes}
    (hmemory : memory.length = size)
    (hsize : scratchSize ≤ size)
    (hlength : before + length + (jwsHeaderSize + jwkPayloadSize) ≤ scratchSize) :
    (sharedRegion before length).Fits memory := by
  simp only [Region.Fits, sharedRegion]
  omega

variable {size : Nat} {memory : Bytes}

theorem Simulates.carve {γ δ : Type} {before length : Nat} {next : Region × Phase → Scratch γ}
    {plain : Except Error δ} {post : γ → δ → Bytes → Prop} (hsize : scratchSize ≤ size)
    (hlength : before + length + (jwsHeaderSize + jwkPayloadSize) ≤ scratchSize)
    (h : Simulates memory
      (next (sharedRegion before length, sharedPhase size (before + length))) plain
      post) :
    Simulates memory (ofExcept ((sharedPhase size before).carve length) >>= next) plain post := by
  refine Simulates.ofExcept_bind ?_ h
  have hroom : ¬(sharedPhase size before).rest.length < length := by
    simp only [sharedPhase]
    omega
  rw [Phase.carve, if_neg hroom]
  simp only [sharedRegion, sharedPhase, Nat.add_assoc, Nat.sub_sub]

/-- What is decoded into the next part of a phase is stored there. -/
theorem shared_decode_simulates {before length : Nat} (hmemory : memory.length = size)
    (hsize : scratchSize ≤ size)
    (hlength : before + length + (jwsHeaderSize + jwkPayloadSize) ≤ scratchSize)
    (alphabet : Base64.Alphabet) (text : Bytes) :
    Simulates memory (Scratch.decode alphabet text (sharedRegion before length))
      (decodeAtMost alphabet length text) (fun part bytes memory' =>
        Stored (sharedRegion before length) part bytes memory' ∧
          (sharedRegion before length).Confines memory memory' ∧ memory'.length = size) := by
  refine (decode_simulates (sharedRegion_fits hmemory hsize hlength) alphabet text).mono ?_
  rintro part bytes memory' ⟨hpart, hconfines⟩
  exact ⟨hpart, hconfines, hconfines.length_eq.trans hmemory⟩

/-! ## The phases -/

theorem verifySigningKey_simulates (hmemory : memory.length = size) (hsize : scratchSize ≤ size)
    (text : Bytes) (rootKeys : List RootKey) :
    Simulates memory (verifySigningKey text rootKeys (plainLayout size)) (signingKey text rootKeys)
      (fun a b memory' => a = b ∧ memory'.length = size) := by
  rw [verifySigningKey, signingKey, plainLayout_phase, plainLayout_keyPayload]
  simp only [openKey, bind_assoc, pure_bind]
  refine (ofExcept_simulates _).bind ?_
  rintro jwk _ _ ⟨rfl, rfl⟩
  refine Simulates.carve hsize (by decide) ?_
  refine (shared_decode_simulates hmemory hsize (by decide) _ _).bind ?_
  rintro header headerBytes memory₁ ⟨hheader, -, hmemory₁⟩
  refine (decode_simulates (keyPayloadRegion_fits (hsize.trans_eq hmemory₁.symm)) _ _).bind ?_
  rintro payload payloadBytes memory₂ ⟨hpayload, hconfines₂⟩
  have hmemory₂ := hconfines₂.length_eq.trans hmemory₁
  have hheader := hheader.keep hconfines₂ (by decide)
  refine Simulates.carve hsize (by decide) ?_
  refine (shared_decode_simulates hmemory₂ hsize (by decide) _ _).bind ?_
  rintro signature signatureBytes memory₃ ⟨hsignature, hconfines₃, hmemory₃⟩
  have hheader := hheader.keep hconfines₃ (by decide)
  have hpayload := hpayload.keep hconfines₃ (by decide)
  refine (readField_simulates hheader.read_eq "kid").bind ?_
  rintro keyId _ _ ⟨rfl, rfl⟩
  rw [checkRoot]
  cases RootKey.find? rootKeys keyId with
  | none => rfl
  | some rootKey =>
    refine Simulates.carve hsize (by decide) ?_
    refine Simulates.read_bind ?_
    rw [hsignature.read_eq]
    refine (verifySignature_simulates (sharedRegion_fits hmemory₃ hsize (by decide)) (by decide)
      _ _ _ _).bind ?_
    rintro _ _ memory₄ hconfines₄
    have hmemory₄ := hconfines₄.length_eq.trans hmemory₃
    have hpayload := hpayload.keep hconfines₄ (by decide)
    rw [readKey]
    refine (readField_simulates hpayload.read_eq "n").bind ?_
    rintro modulus _ _ ⟨rfl, rfl⟩
    refine (readField_simulates hpayload.read_eq "e").bind ?_
    rintro exponent _ _ ⟨rfl, rfl⟩
    refine (readField_simulates hpayload.read_eq "alg").bind ?_
    rintro algorithm _ _ ⟨rfl, rfl⟩
    split
    next => exact ⟨_, _, rfl, rfl, hmemory₄⟩
    next => rfl

theorem verifyManifestSignature_simulates (hmemory : memory.length = size)
    (hsize : scratchSize ≤ size) (jws : Compact) (key : SigningKey) :
    Simulates memory (verifyManifestSignature jws key (plainLayout size)) (checkOuter jws key)
      (fun _ _ memory' => memory'.length = size) := by
  rw [verifyManifestSignature, checkOuter, plainLayout_phase]
  refine Simulates.carve hsize (by decide) ?_
  refine (shared_decode_simulates hmemory hsize (by decide) _ _).bind ?_
  rintro signature signatureBytes memory₁ ⟨hsignature, -, hmemory₁⟩
  refine Simulates.carve hsize (by decide) ?_
  refine (shared_decode_simulates hmemory₁ hsize (by decide) _ _).bind ?_
  rintro modulus modulusBytes memory₂ ⟨hmodulus, hconfines₂, hmemory₂⟩
  have hsignature := hsignature.keep hconfines₂ (by decide)
  refine Simulates.carve hsize (by decide) ?_
  refine (shared_decode_simulates hmemory₂ hsize (by decide) _ _).bind ?_
  rintro exponent exponentBytes memory₃ ⟨hexponent, hconfines₃, hmemory₃⟩
  have hsignature := hsignature.keep hconfines₃ (by decide)
  have hmodulus := hmodulus.keep hconfines₃ (by decide)
  refine Simulates.carve hsize (by decide) ?_
  refine Simulates.read_bind (Simulates.read_bind (Simulates.read_bind ?_))
  rw [hsignature.read_eq, hmodulus.read_eq, hexponent.read_eq]
  refine (verifySignature_simulates (sharedRegion_fits hmemory₃ hsize (by decide)) (by decide)
    _ _ _ _).mono ?_
  rintro _ _ memory₄ hconfines₄
  exact hconfines₄.length_eq.trans hmemory₃

theorem checkDigest_simulates (hmemory : memory.length = size) (hsize : scratchSize ≤ size)
    (manifest : Bytes) (jws : Compact) :
    Simulates memory (checkDigest manifest jws (plainLayout size))
      (checkAttested (Sha256.digest manifest) jws) (fun _ _ _ => True) := by
  rw [checkDigest, checkAttested, plainLayout_phase]
  refine Simulates.carve hsize (by decide) ?_
  refine (shared_decode_simulates hmemory hsize (by decide) _ _).bind ?_
  rintro payload payloadBytes memory₁ ⟨hpayload, -, hmemory₁⟩
  refine (readField_simulates hpayload.read_eq "sha256").bind ?_
  rintro encoded _ _ ⟨rfl, rfl⟩
  refine Simulates.carve hsize (by decide) ?_
  refine (shared_decode_simulates hmemory₁ hsize (by decide) _ _).bind ?_
  rintro attested attestedBytes memory₂ ⟨hattested, -, hmemory₂⟩
  refine Simulates.read_bind ?_
  rw [hattested.read_eq]
  by_cases hlength : attestedBytes.length ≠ digestSize
  · simp only [if_pos hlength]
    rfl
  simp only [if_neg hlength]
  refine Simulates.carve hsize (by decide) ?_
  -- the calculated digest is laid down behind the attested one
  have hfits : (sharedRegion (0 + jwsPayloadSize + digestSize) digestSize).Fits memory₂ :=
    sharedRegion_fits hmemory₂ hsize (by decide)
  have hattested := hattested.keep (Region.confines_write hfits (Sha256.digest manifest))
    (by decide)
  have hcalculated := Region.read_write hfits (Sha256.length_digest manifest)
  refine Simulates.write_bind (Simulates.read_bind (Simulates.read_bind ?_))
  rw [hattested.read_eq, hcalculated]
  split
  next => rfl
  next => exact ⟨_, _, rfl, trivial⟩

/-! ## The whole authentication -/

theorem run_layout (hsize : scratchSize ≤ memory.length) :
    Scratch.layout.run.run memory = (.ok (plainLayout memory.length), memory) := by
  rw [Scratch.layout, run_bind]
  show (ofExcept (m := Scratch) (Layout.ofSize memory.length)).run.run memory = _
  rw [Layout.ofSize_eq hsize]
  rfl

theorem run_layout_of_lt (h : memory.length < scratchSize) :
    Scratch.layout.run.run memory = (.error .outOfMemory, memory) := by
  rw [Scratch.layout, run_bind]
  show (ofExcept (m := Scratch) (Layout.ofSize memory.length)).run.run memory = _
  rw [Layout.ofSize, if_pos h]
  rfl

theorem authenticate_simulates (hsize : scratchSize ≤ memory.length) (manifest jws : Bytes)
    (rootKeys : List RootKey) :
    Simulates memory (authenticate manifest jws rootKeys) (outcome manifest jws rootKeys)
      (fun _ _ _ => True) := by
  have hheader : (plainLayout memory.length).header.Fits memory := by
    have : jwsHeaderSize ≤ scratchSize := by decide
    simp only [Region.Fits, plainLayout]
    omega
  rw [authenticate, outcome]
  simp only [openManifest, bind_assoc, pure_bind]
  unfold Simulates
  rw [run_bind, run_layout hsize]
  refine (ofExcept_simulates _).bind ?_
  rintro outer _ _ ⟨rfl, rfl⟩
  refine (decode_simulates hheader _ _).bind ?_
  rintro header headerBytes memory₁ ⟨hstored, hconfines⟩
  refine (readField_simulates hstored.read_eq "sjwk").bind ?_
  rintro embedded _ _ ⟨rfl, rfl⟩
  refine (verifySigningKey_simulates hconfines.length_eq hsize _ _).bind ?_
  rintro key _ memory₂ ⟨rfl, hmemory₂⟩
  refine (verifyManifestSignature_simulates hmemory₂ hsize _ _).bind ?_
  rintro _ _ memory₃ hmemory₃
  exact checkDigest_simulates hmemory₃ hsize manifest outer

/-- A memory that is too small is refused before anything is written. -/
theorem authenticateManifest_of_lt {scratch : Bytes} (h : scratch.length < scratchSize)
    (manifest jws : Bytes) (rootKeys : List RootKey) :
    authenticateManifest manifest jws rootKeys scratch = (.error .outOfMemory, scratch) := by
  rw [authenticateManifest, authenticate, run_bind, run_layout_of_lt h]

/-- The outcome of an authentication depends on the size of the scratch memory only, and on that
only by its least size. -/
theorem authenticateManifest_fst_eq (manifest jws : Bytes) (rootKeys : List RootKey)
    (scratch : Bytes) :
    (authenticateManifest manifest jws rootKeys scratch).1 =
      if scratchSize ≤ scratch.length then outcome manifest jws rootKeys
      else .error .outOfMemory := by
  split
  next hsize =>
    have hsim := authenticate_simulates hsize manifest jws rootKeys
    unfold Simulates at hsim
    rw [authenticateManifest]
    cases houtcome : outcome manifest jws rootKeys with
    | error e => rwa [houtcome] at hsim
    | ok u =>
      rw [houtcome] at hsim
      obtain ⟨a, memory', hrun, -⟩ := hsim
      rw [hrun]
  next hsize => rw [authenticateManifest_of_lt (Nat.lt_of_not_le hsize)]

end DeviceTrust.Jws
