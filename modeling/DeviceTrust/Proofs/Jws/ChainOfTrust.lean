import DeviceTrust.Proofs.Jws.Compact
import DeviceTrust.Proofs.Jws.Field
import DeviceTrust.Proofs.Jws.Outcome

/-!
# The chain of trust

What makes a manifest authentic, as a chain of facts about the texts alone: the JWS embeds a signing
key, the first root key that the signing key names has signed it, the signing key has signed the
JWS, and the JWS attests the digest of the manifest.

Results:
* `authenticateManifest_eq_ok_iff`: a manifest is authenticated iff the chain of trust holds.
-/

namespace DeviceTrust.Jws

/-! ## The links -/

/-- The text is the base64 text of `bytes`, of which there are at most `limit`. -/
structure Encodes (alphabet : Base64.Alphabet) (limit : Nat) (text bytes : Bytes) : Prop where
  isEncoding : Base64.IsEncoding alphabet text bytes
  length_le : bytes.length ≤ limit

/-- The text is a JWS whose header embeds the text of a signing key. -/
structure Embeds (text : Bytes) (outer : Compact) (embedded : String) : Prop where
  wellFormed : outer.WellFormed
  text_eq : text = outer.join
  header : ∃ header, Encodes .urlSafe jwsHeaderSize outer.header header ∧
    Json.HasText header "sjwk" embedded

/-- The text of a signing key is a JWS with these parts. -/
structure KeyDocument.IsOf (document : KeyDocument) (text : Bytes) : Prop where
  wellFormed : document.jws.WellFormed
  text_eq : text = document.jws.join
  header : ∃ header, Encodes .urlSafe jwkHeaderSize document.jws.header header ∧
    Json.HasText header "kid" document.keyId
  payload : Encodes .urlSafe jwkPayloadSize document.jws.payload document.payload
  signature : Encodes .urlSafe signatureSize document.jws.signature document.signature

/-- The text is a JWS that embeds the signing key. -/
def EmbedsKey (text : Bytes) (outer : Compact) (document : KeyDocument) : Prop :=
  ∃ embedded, Embeds text outer embedded ∧ document.IsOf (utf8 embedded)

/-- The first of the keys that has the id. -/
def RootKey.IsFirst (keys : List RootKey) (id : String) (key : RootKey) : Prop :=
  key.id = id ∧ ∃ before after, keys = before ++ key :: after ∧ ∀ k ∈ before, k.id ≠ id

/-- The first root key that the signing key names has signed it. -/
def KeyDocument.IsRootSigned (document : KeyDocument) (rootKeys : List RootKey) : Prop :=
  ∃ rootKey, RootKey.IsFirst rootKeys document.keyId rootKey ∧
    IsSignature document.jws.signedContent document.signature rootKey.modulus rootKey.exponent

/-- The payload of the signing key is this key, for RS256. -/
structure KeyDocument.Carries (document : KeyDocument) (key : SigningKey) : Prop where
  modulus : Json.HasText document.payload "n" key.modulus
  exponent : Json.HasText document.payload "e" key.exponent
  algorithm : Json.HasText document.payload "alg" rs256

/-- The key has signed the JWS. -/
def Compact.IsSignedBy (outer : Compact) (key : SigningKey) : Prop :=
  ∃ signature modulus exponent, Encodes .urlSafe signatureSize outer.signature signature ∧
    Encodes .standard modulusSize (utf8 key.modulus) modulus ∧
    Encodes .standard exponentSize (utf8 key.exponent) exponent ∧
    IsSignature outer.signedContent signature modulus exponent

/-- The payload of the JWS attests the digest. -/
def Compact.Attests (outer : Compact) (digest : Bytes) : Prop :=
  ∃ payload encoded, Encodes .urlSafe jwsPayloadSize outer.payload payload ∧
    Json.HasText payload "sha256" encoded ∧ Base64.IsEncoding .standard (utf8 encoded) digest

/-! ## Stages that succeed -/

theorem encodes_iff {alphabet : Base64.Alphabet} {limit : Nat} {text bytes : Bytes} :
    Encodes alphabet limit text bytes ↔ decodeAtMost alphabet limit text = .ok bytes := by
  rw [decodeAtMost_eq_ok_iff]
  exact ⟨fun h => ⟨h.isEncoding, h.length_le⟩, fun h => ⟨h.1, h.2⟩⟩

theorem fieldText_eq_ok_iff {name text : String} {document : Bytes} :
    fieldText name document = .ok text ↔ Json.HasText document name text :=
  readField_eq_ok_iff

theorem openManifest_eq_ok_iff {text : Bytes} {outer : Compact} {embedded : String} :
    openManifest text = .ok (outer, embedded) ↔ Embeds text outer embedded := by
  simp only [openManifest, bind_eq_ok_iff, Compact.split_eq_ok_iff, ← encodes_iff,
    fieldText_eq_ok_iff, pure, Except.pure, Except.ok.injEq, Prod.mk.injEq]
  constructor
  · rintro ⟨_, ⟨hwell, htext⟩, header, hheader, _, hfield, rfl, rfl⟩
    exact ⟨hwell, htext, header, hheader, hfield⟩
  · rintro ⟨hwell, htext, header, hheader, hfield⟩
    exact ⟨_, ⟨hwell, htext⟩, header, hheader, _, hfield, rfl, rfl⟩

theorem openKey_eq_ok_iff {text : Bytes} {document : KeyDocument} :
    openKey text = .ok document ↔ document.IsOf text := by
  simp only [openKey, bind_eq_ok_iff, Compact.split_eq_ok_iff, ← encodes_iff,
    fieldText_eq_ok_iff, pure, Except.pure, Except.ok.injEq]
  constructor
  · rintro ⟨_, ⟨hwell, htext⟩, header, hheader, _, hpayload, _, hsignature, _, hkeyId, rfl⟩
    exact ⟨hwell, htext, ⟨header, hheader, hkeyId⟩, hpayload, hsignature⟩
  · rintro ⟨hwell, htext, ⟨header, hheader, hkeyId⟩, hpayload, hsignature⟩
    exact ⟨_, ⟨hwell, htext⟩, header, hheader, _, hpayload, _, hsignature, _, hkeyId, rfl⟩

theorem find?_eq_some_iff {keys : List RootKey} {id : String} {key : RootKey} :
    RootKey.find? keys id = some key ↔ RootKey.IsFirst keys id key := by
  simp only [RootKey.find?, List.find?_eq_some_iff_append, RootKey.IsFirst, beq_iff_eq,
    Bool.not_eq_eq_eq_not, Bool.not_true, beq_eq_false_iff_ne]

theorem checkRoot_eq_ok_iff {rootKeys : List RootKey} {document : KeyDocument} :
    checkRoot rootKeys document = .ok () ↔ document.IsRootSigned rootKeys := by
  rw [checkRoot, KeyDocument.IsRootSigned]
  simp only [← find?_eq_some_iff]
  cases RootKey.find? rootKeys document.keyId with
  | none => simp
  | some rootKey => simp [checkSignature_eq_ok_iff]

theorem readKey_eq_ok_iff {document : KeyDocument} {key : SigningKey} :
    readKey document = .ok key ↔ document.Carries key := by
  simp only [readKey, bind_eq_ok_iff, fieldText_eq_ok_iff]
  constructor
  · rintro ⟨modulus, hmodulus, exponent, hexponent, algorithm, halgorithm, h⟩
    split at h
    next hrs256 =>
      obtain rfl := Except.ok.inj h
      exact ⟨hmodulus, hexponent, hrs256 ▸ halgorithm⟩
    next => cases h
  · rintro ⟨hmodulus, hexponent, halgorithm⟩
    exact ⟨_, hmodulus, _, hexponent, _, halgorithm, by rw [if_pos rfl]; rfl⟩

theorem checkOuter_eq_ok_iff {outer : Compact} {key : SigningKey} :
    checkOuter outer key = .ok () ↔ outer.IsSignedBy key := by
  simp only [checkOuter, bind_eq_ok_iff, ← encodes_iff, checkSignature_eq_ok_iff,
    Compact.IsSignedBy]
  constructor
  · rintro ⟨signature, hsignature, modulus, hmodulus, exponent, hexponent, h⟩
    exact ⟨signature, modulus, exponent, hsignature, hmodulus, hexponent, h⟩
  · rintro ⟨signature, modulus, exponent, hsignature, hmodulus, hexponent, h⟩
    exact ⟨signature, hsignature, modulus, hmodulus, exponent, hexponent, h⟩

theorem checkAttested_eq_ok_iff {digest : Bytes} {outer : Compact}
    (hdigest : digest.length = digestSize) :
    checkAttested digest outer = .ok () ↔ outer.Attests digest := by
  simp only [checkAttested, bind_eq_ok_iff, ← encodes_iff, fieldText_eq_ok_iff, Compact.Attests]
  constructor
  · rintro ⟨payload, hpayload, encoded, hencoded, attested, hattested, h⟩
    split at h
    next => cases h
    next =>
      split at h
      next => cases h
      next heq =>
        obtain rfl := not_ne_iff.mp heq
        exact ⟨payload, encoded, hpayload, hencoded, hattested.isEncoding⟩
  · rintro ⟨payload, encoded, hpayload, hencoded, hattested⟩
    refine ⟨payload, hpayload, encoded, hencoded, digest, ⟨hattested, hdigest.le⟩, ?_⟩
    rw [if_neg (not_ne_iff.mpr hdigest), if_neg (not_ne_iff.mpr rfl)]
    rfl

/-! ## The outcome -/

theorem outcome_eq_ok_iff {manifest jws : Bytes} {rootKeys : List RootKey} :
    outcome manifest jws rootKeys = .ok () ↔ ∃ outer document key,
      EmbedsKey jws outer document ∧ document.IsRootSigned rootKeys ∧ document.Carries key ∧
        outer.IsSignedBy key ∧ outer.Attests (Sha256.digest manifest) := by
  simp only [outcome, signingKey, bind_eq_ok_iff, Prod.exists, openManifest_eq_ok_iff,
    openKey_eq_ok_iff, Unique.exists_iff, PUnit.default_eq_unit, checkRoot_eq_ok_iff,
    readKey_eq_ok_iff, checkOuter_eq_ok_iff,
    checkAttested_eq_ok_iff (Sha256.length_digest manifest)]
  constructor
  · rintro ⟨outer, embedded, hembeds, key, ⟨document, hdocument, hroot, hkey⟩, hsigned, hattests⟩
    exact ⟨outer, document, key, ⟨embedded, hembeds, hdocument⟩, hroot, hkey, hsigned, hattests⟩
  · rintro ⟨outer, document, key, ⟨embedded, hembeds, hdocument⟩, hroot, hkey, hsigned, hattests⟩
    exact ⟨outer, embedded, hembeds, key, ⟨document, hdocument, hroot, hkey⟩, hsigned, hattests⟩

/-- A manifest is authenticated iff the scratch memory is large enough and the chain of trust holds
from the root keys to the digest of the manifest. -/
theorem authenticateManifest_eq_ok_iff (manifest jws : Bytes) (rootKeys : List RootKey)
    (scratch : Bytes) :
    (authenticateManifest manifest jws rootKeys scratch).1 = .ok () ↔
      3358 ≤ scratch.length ∧ ∃ outer document key, EmbedsKey jws outer document ∧
        document.IsRootSigned rootKeys ∧ document.Carries key ∧ outer.IsSignedBy key ∧
        outer.Attests (Sha256.digest manifest) := by
  have hscratch : scratchSize = 3358 := rfl
  rw [authenticateManifest_fst_eq, ← outcome_eq_ok_iff, hscratch]
  split
  next hsize => exact (and_iff_right hsize).symm
  next hsize => exact ⟨fun h => (nomatch h), fun h => absurd h.1 hsize⟩

end DeviceTrust.Jws
