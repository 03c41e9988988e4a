import DeviceTrust.Proofs.Base64.Text
import DeviceTrust.Proofs.Jws.ChainOfTrust
import DeviceTrust.Proofs.Jws.Verification

/-!
# Signed chains authenticate

A chain is made of two keys: the root key signs a document that holds the signing key, and the
signing key signs the digest of a manifest in a JWS that embeds this document. A chain that has been
signed so authenticates the manifest, as long as its documents fit into the memory that is set aside
for them and its public exponents are not too large.

Results:
* `isSignature_sign`: a signature that has been made is valid.
* `Chain.embeds`, `Chain.keyDocument_isOf`, `Chain.carries`, `Chain.attests`: what the texts of a
  chain hold.
* `authenticateManifest_chain`: a signed chain is authentic.
* `authenticateManifest_exponentTooLarge`: one whose root key has a larger exponent is refused.
-/

namespace DeviceTrust.Jws

/-! ## Signatures -/

section Signatures

variable {key : Rsa.PrivateKey} {limit : Nat} {modulus exponent : Bytes}

/-- A signature that has been made is valid. -/
theorem isSignature_sign (h : key.IsSound limit) (hlimit : limit ≤ Rsa.maxExponent)
    (hmodulus : modulus.toNat = key.modulus) (hexponent : exponent.toNat = key.exponent)
    (message : Bytes) : IsSignature message (key.sign message) modulus exponent :=
  isRs256_iff.mp ((isRs256_sign h hmodulus hexponent message).mono hlimit)

end Signatures

/-! ## Signed documents -/

/-- The segments of the JWS with a header and a payload that a key signs. -/
def signedCompact (key : Rsa.PrivateKey) (header payload : String) : Compact :=
  let header := Base64.encodeUnpadded .urlSafe (utf8 header)
  let payload := Base64.encodeUnpadded .urlSafe (utf8 payload)
  { header, payload
    signature := Base64.encodeUnpadded .urlSafe (key.sign (header ++ separator :: payload)) }

/-- The JWS with a header and a payload that a key signs. -/
def signCompact (key : Rsa.PrivateKey) (header payload : String) : String :=
  let content := Base64.unpaddedText .urlSafe (utf8 header) ++ "." ++
    Base64.unpaddedText .urlSafe (utf8 payload)
  content ++ "." ++ Base64.unpaddedText .urlSafe (key.sign (utf8 content))

/-- The big-endian form of a number, without zero bytes in front. -/
def bigEndian (n : Nat) : Bytes :=
  Bytes.ofNat (Rsa.byteLength n) n

/-- A root key, a signing key, and the id of the root key. -/
structure Chain where
  root : Rsa.PrivateKey
  signing : Rsa.PrivateKey
  keyId : String

namespace Chain

/-- The header of the signing key, which names the root key. -/
def keyHeader (chain : Chain) : String :=
  Json.writeObject [("alg", rs256), ("kid", chain.keyId)]

/-- The payload of the signing key, which is the key itself. -/
def keyPayload (chain : Chain) : String :=
  Json.writeObject [("kty", "RSA"),
    ("n", Base64.text .standard (bigEndian chain.signing.modulus)),
    ("e", Base64.text .standard (bigEndian chain.signing.exponent)),
    ("alg", rs256), ("kid", "TEST.SIGNING")]

/-- The signing key, signed by the root key. -/
def key (chain : Chain) : String :=
  signCompact chain.root chain.keyHeader chain.keyPayload

/-- The header of the JWS, which embeds the signing key. -/
def header (chain : Chain) : String :=
  Json.writeObject [("alg", rs256), ("sjwk", chain.key)]

/-- The payload of the JWS, which attests the digest of a manifest. -/
def payload (manifest : Bytes) : String :=
  Json.writeObject [("sha256", Base64.text .standard (Sha256.digest manifest))]

/-- The JWS of a manifest, signed by the signing key. -/
def jws (chain : Chain) (manifest : Bytes) : String :=
  signCompact chain.signing chain.header (payload manifest)

end Chain

/-! ## What is read from signed documents -/

section Documents

variable {key : Rsa.PrivateKey} {header payload : String}

theorem utf8_signCompact (key : Rsa.PrivateKey) (header payload : String) :
    utf8 (signCompact key header payload) = (signedCompact key header payload).join := by
  have hdot : utf8 "." = [separator] := by decide
  simp only [signCompact, signedCompact, Compact.join, Compact.signedContent, utf8_append,
    Base64.utf8_unpaddedText, hdot, List.append_assoc, List.cons_append, List.nil_append]

theorem length_signCompact (key : Rsa.PrivateKey) (header payload : String) :
    (utf8 (signCompact key header payload)).length = ((utf8 header).length * 4 + 2) / 3 +
      ((utf8 payload).length * 4 + 2) / 3 + (key.size * 4 + 2) / 3 + 2 := by
  rw [utf8_signCompact]
  simp only [Compact.join, Compact.signedContent, signedCompact, List.length_append,
    List.length_cons, Base64.length_encodeUnpadded, Rsa.PrivateKey.length_sign]
  omega

theorem isUnescaped_signCompact (key : Rsa.PrivateKey) (header payload : String) :
    Json.IsUnescaped (signCompact key header payload) := by
  have hdot : Json.IsUnescaped "." := by decide
  have htext := Base64.isUnescaped_unpaddedText .urlSafe
  exact ((((htext _).append hdot).append (htext _)).append hdot).append (htext _)

theorem isSegment_encodeUnpadded {bytes : Bytes} (h : bytes ≠ []) :
    IsSegment (Base64.encodeUnpadded .urlSafe bytes) := by
  refine ⟨fun hnil => ?_, fun hmem => ?_⟩
  · have hlength := Base64.length_encodeUnpadded .urlSafe bytes
    have hpos := List.length_pos_iff.mpr h
    rw [hnil, List.length_nil] at hlength
    omega
  -- the separator is no symbol
  · exact absurd (Base64.isSymbol_of_mem_encodeUnpadded _ hmem) (by decide)

theorem wellFormed_signedCompact (hheader : utf8 header ≠ []) (hpayload : utf8 payload ≠ [])
    (hsize : 0 < key.size) : (signedCompact key header payload).WellFormed where
  header := isSegment_encodeUnpadded hheader
  payload := isSegment_encodeUnpadded hpayload
  signature := isSegment_encodeUnpadded
    (List.ne_nil_of_length_pos (by rwa [Rsa.PrivateKey.length_sign]))

theorem encodes_encodeUnpadded {limit : Nat} {bytes : Bytes} (h : bytes.length ≤ limit) :
    Encodes .urlSafe limit (Base64.encodeUnpadded .urlSafe bytes) bytes :=
  ⟨Base64.isEncoding_encodeUnpadded _ _, h⟩

theorem encodes_text {limit : Nat} {bytes : Bytes} (h : bytes.length ≤ limit) :
    Encodes .standard limit (utf8 (Base64.text .standard bytes)) bytes := by
  rw [Base64.utf8_text]
  exact ⟨Base64.isEncoding_encode _ _, h⟩

theorem utf8_writeObject_ne_nil (members : List (String × String)) :
    utf8 (Json.writeObject members) ≠ [] := by
  have hopen : utf8 "\x7b" ≠ [] := by decide
  rw [Json.writeObject, utf8_append, utf8_append]
  exact List.append_ne_nil_of_left_ne_nil (List.append_ne_nil_of_left_ne_nil hopen _) _

end Documents

/-! ## Numbers -/

theorem length_bigEndian (n : Nat) : (bigEndian n).length = Rsa.byteLength n :=
  Bytes.length_ofNat _ _

theorem toNat_bigEndian (n : Nat) : (bigEndian n).toNat = n :=
  Rsa.toNat_ofNat_byteLength n

/-! ## Chains -/

namespace Chain

/-- The documents of the chain fit into the memory that is set aside for them. -/
structure Fits (chain : Chain) : Prop where
  header_le : (utf8 chain.header).length ≤ 1400
  keyHeader_le : (utf8 chain.keyHeader).length ≤ 48
  keyPayload_le : (utf8 chain.keyPayload).length ≤ 700

/-- The segments of the signing key. -/
def keyCompact (chain : Chain) : Compact :=
  signedCompact chain.root chain.keyHeader chain.keyPayload

/-- The parts of the signing key that are read before its signature is verified. -/
def keyDocument (chain : Chain) : KeyDocument where
  jws := chain.keyCompact
  payload := utf8 chain.keyPayload
  signature := chain.root.sign chain.keyCompact.signedContent
  keyId := chain.keyId

/-- The signing key as its document holds it. -/
def signingKey (chain : Chain) : SigningKey where
  modulus := Base64.text .standard (bigEndian chain.signing.modulus)
  exponent := Base64.text .standard (bigEndian chain.signing.exponent)

/-- The segments of the JWS. -/
def compact (chain : Chain) (manifest : Bytes) : Compact :=
  signedCompact chain.signing chain.header (payload manifest)

variable {chain : Chain} {limit : Nat} {manifest : Bytes}

/-! ### The texts of the documents -/

theorem areUnescaped_algorithm {members : List (String × String)}
    (h : Json.AreUnescaped members) : Json.AreUnescaped (("alg", rs256) :: members) :=
  h.cons (by decide) (by decide)

theorem hasText_sjwk (chain : Chain) : Json.HasText (utf8 chain.header) "sjwk" chain.key :=
  Json.hasText_writeObject (areUnescaped_algorithm
    (Json.areUnescaped_nil.cons (by decide) (isUnescaped_signCompact _ _ _))) rfl

theorem hasText_kid (hid : Json.IsUnescaped chain.keyId) :
    Json.HasText (utf8 chain.keyHeader) "kid" chain.keyId :=
  Json.hasText_writeObject (areUnescaped_algorithm (Json.areUnescaped_nil.cons (by decide) hid)) rfl

theorem hasText_sha256 (manifest : Bytes) : Json.HasText (utf8 (payload manifest)) "sha256"
    (Base64.text .standard (Sha256.digest manifest)) :=
  Json.hasText_writeObject
    (Json.areUnescaped_nil.cons (by decide) (Base64.isUnescaped_text _ _)) rfl

theorem carries (chain : Chain) : chain.keyDocument.Carries chain.signingKey := by
  have hmembers : Json.AreUnescaped [("kty", "RSA"),
      ("n", Base64.text .standard (bigEndian chain.signing.modulus)),
      ("e", Base64.text .standard (bigEndian chain.signing.exponent)),
      ("alg", rs256), ("kid", "TEST.SIGNING")] := by
    have htext := Base64.isUnescaped_text .standard
    have hlast : Json.AreUnescaped [("alg", rs256), ("kid", "TEST.SIGNING")] :=
      areUnescaped_algorithm (Json.areUnescaped_nil.cons (by decide) (by decide))
    exact ((hlast.cons (by decide) (htext _)).cons (by decide) (htext _)).cons
      (by decide) (by decide)
  exact ⟨Json.hasText_writeObject hmembers rfl, Json.hasText_writeObject hmembers rfl,
    Json.hasText_writeObject hmembers rfl⟩

/-! ### The sizes of the documents -/

theorem membersSize_algorithm (members : List (String × String)) :
    Json.membersSize (("alg", rs256) :: members) = 14 + Json.membersSize members := by
  have hname : (utf8 "alg").length = 3 := by decide
  have hvalue : (utf8 rs256).length = 5 := by decide
  rw [Json.membersSize, hname, hvalue]

theorem length_keyHeader (chain : Chain) :
    (utf8 chain.keyHeader).length = (utf8 chain.keyId).length + 24 := by
  have hkid : (utf8 "kid").length = 3 := by decide
  rw [keyHeader, Json.length_writeObject (List.cons_ne_nil _ _), membersSize_algorithm]
  simp only [Json.membersSize, hkid]
  omega

theorem length_keyPayload (chain : Chain) : (utf8 chain.keyPayload).length =
    (Rsa.byteLength chain.signing.modulus + 2) / 3 * 4 +
      (Rsa.byteLength chain.signing.exponent + 2) / 3 * 4 + 62 := by
  have hkty : (utf8 "kty").length = 3 ∧ (utf8 "RSA").length = 3 := by decide
  have hnumbers : (utf8 "n").length = 1 ∧ (utf8 "e").length = 1 := by decide
  have hkid : (utf8 "kid").length = 3 ∧ (utf8 "TEST.SIGNING").length = 12 := by decide
  rw [keyPayload, Json.length_writeObject (List.cons_ne_nil _ _), Json.membersSize,
    Json.membersSize, Json.membersSize, membersSize_algorithm]
  simp only [Json.membersSize, hkty, hnumbers, hkid, Base64.utf8_text, Base64.length_encode,
    length_bigEndian]
  omega

theorem length_header (chain : Chain) :
    (utf8 chain.header).length = (utf8 chain.key).length + 25 := by
  have hsjwk : (utf8 "sjwk").length = 4 := by decide
  rw [header, Json.length_writeObject (List.cons_ne_nil _ _), membersSize_algorithm]
  simp only [Json.membersSize, hsjwk]
  omega

theorem length_payload (manifest : Bytes) : (utf8 (payload manifest)).length = 57 := by
  have hsha256 : (utf8 "sha256").length = 6 := by decide
  have hdigest : (Sha256.digest manifest).length = 32 := Sha256.length_digest manifest
  rw [payload, Json.length_writeObject (List.cons_ne_nil _ _)]
  simp only [Json.membersSize, hsha256, Base64.utf8_text, Base64.length_encode, hdigest]

/-! ### The links -/

theorem embeds (hfits : chain.Fits) (hsigning : chain.signing.IsSound limit) (manifest : Bytes) :
    Embeds (utf8 (chain.jws manifest)) (chain.compact manifest) chain.key where
  wellFormed := wellFormed_signedCompact (utf8_writeObject_ne_nil _) (utf8_writeObject_ne_nil _)
    (Nat.lt_of_lt_of_le (by decide) hsigning.size_ge)
  text_eq := utf8_signCompact _ _ _
  header := ⟨_, encodes_encodeUnpadded hfits.header_le, chain.hasText_sjwk⟩

theorem keyDocument_isOf (hfits : chain.Fits) (hid : Json.IsUnescaped chain.keyId)
    (hroot : chain.root.IsSound limit) : chain.keyDocument.IsOf (utf8 chain.key) where
  wellFormed := wellFormed_signedCompact (utf8_writeObject_ne_nil _) (utf8_writeObject_ne_nil _)
    (Nat.lt_of_lt_of_le (by decide) hroot.size_ge)
  text_eq := utf8_signCompact _ _ _
  header := ⟨_, encodes_encodeUnpadded hfits.keyHeader_le, hasText_kid hid⟩
  payload := encodes_encodeUnpadded hfits.keyPayload_le
  signature := by
    refine encodes_encodeUnpadded ?_
    rw [Rsa.PrivateKey.length_sign]
    exact hroot.size_le.trans (by decide)

theorem isSignedBy (hsigning : chain.signing.IsSound limit) (hlimit : limit ≤ Rsa.maxExponent)
    (manifest : Bytes) : (chain.compact manifest).IsSignedBy chain.signingKey := by
  refine ⟨_, bigEndian chain.signing.modulus, bigEndian chain.signing.exponent,
    encodes_encodeUnpadded ?_, encodes_text ?_, encodes_text ?_, ?_⟩
  · rw [Rsa.PrivateKey.length_sign]
    exact hsigning.size_le.trans (by decide)
  · rw [length_bigEndian]
    exact hsigning.size_le
  · rw [length_bigEndian]
    have hlt : chain.signing.exponent < 256 ^ exponentSize :=
      Nat.lt_of_le_of_lt (hsigning.exponent_le.trans hlimit) (by decide)
    exact Rsa.byteLength_le_of_lt hlt
  · exact isSignature_sign hsigning hlimit (toNat_bigEndian _) (toNat_bigEndian _) _

theorem attests (chain : Chain) (manifest : Bytes) :
    (chain.compact manifest).Attests (Sha256.digest manifest) := by
  refine ⟨_, _, encodes_encodeUnpadded ?_, hasText_sha256 manifest, ?_⟩
  · rw [length_payload]
    decide
  · exact (encodes_text (Nat.le_refl _)).isEncoding

theorem isRootSigned (hroot : chain.root.IsSound limit) (hlimit : limit ≤ Rsa.maxExponent)
    {rootKeys : List RootKey} {rootKey : RootKey}
    (hfirst : RootKey.IsFirst rootKeys chain.keyId rootKey)
    (hmodulus : rootKey.modulus.toNat = chain.root.modulus)
    (hexponent : rootKey.exponent.toNat = chain.root.exponent) :
    chain.keyDocument.IsRootSigned rootKeys :=
  ⟨rootKey, hfirst, isSignature_sign hroot hlimit hmodulus hexponent _⟩

end Chain

/-! ## Chains with a prime modulus -/

/-- The root key of a chain, with a zero byte in front of the modulus. -/
def Chain.rootKey (chain : Chain) : RootKey where
  id := chain.keyId
  modulus := 0 :: bigEndian chain.root.modulus
  exponent := bigEndian chain.root.exponent

theorem Chain.isFirst_rootKey (chain : Chain) :
    RootKey.IsFirst [chain.rootKey] chain.keyId chain.rootKey :=
  ⟨rfl, [], [], rfl, List.forall_mem_nil _⟩

theorem Chain.toNat_rootKey (chain : Chain) :
    chain.rootKey.modulus.toNat = chain.root.modulus ∧
      chain.rootKey.exponent.toNat = chain.root.exponent := by
  have hzero : chain.rootKey.modulus.toNat = (bigEndian chain.root.modulus).toNat := rfl
  exact ⟨hzero.trans (toNat_bigEndian _), toNat_bigEndian _⟩

/-- A chain of keys with the Mersenne prime of 521 bits. -/
def mersenneChain (exponent factor : Nat) : Chain where
  root := Rsa.mersenneKey exponent factor
  signing := Rsa.mersenneKey exponent factor
  keyId := "TEST.ROOT"

theorem fits_mersenneChain {exponent : Nat} (h : Rsa.byteLength exponent ≤ 4) (factor : Nat) :
    (mersenneChain exponent factor).Fits := by
  have hid : (utf8 "TEST.ROOT").length = 9 := by decide
  have hid : (utf8 (mersenneChain exponent factor).keyId).length = 9 := hid
  have hsize : (mersenneChain exponent factor).root.size = 66 :=
    Rsa.size_mersenneKey exponent factor
  have hmodulus : Rsa.byteLength (mersenneChain exponent factor).signing.modulus = 66 := hsize
  have hexponent : Rsa.byteLength (mersenneChain exponent factor).signing.exponent ≤ 4 := h
  have hheader := Chain.length_keyHeader (mersenneChain exponent factor)
  have hpayload := Chain.length_keyPayload (mersenneChain exponent factor)
  have hkey := length_signCompact (mersenneChain exponent factor).root
    (mersenneChain exponent factor).keyHeader (mersenneChain exponent factor).keyPayload
  refine ⟨?_, by omega, by omega⟩
  rw [Chain.length_header, Chain.key]
  omega

/-! ## Authentication -/

section Authentication

variable {chain : Chain} {limit : Nat} {rootKeys : List RootKey} {rootKey : RootKey}
  {scratch : Bytes}

/-- A chain that has been signed authenticates its manifest, with every scratch memory of the least
size, if the first root key with the id that the signing key names is the root key of the chain.
Zero bytes in front of the numbers of the root key do not matter. -/
theorem authenticateManifest_chain (hroot : chain.root.IsSound (2 ^ 30))
    (hsigning : chain.signing.IsSound (2 ^ 30)) (hid : Json.IsUnescaped chain.keyId)
    (hfits : chain.Fits) (hfirst : RootKey.IsFirst rootKeys chain.keyId rootKey)
    (hmodulus : rootKey.modulus.toNat = chain.root.modulus)
    (hexponent : rootKey.exponent.toNat = chain.root.exponent)
    (hscratch : 3358 ≤ scratch.length) (manifest : Bytes) :
    (authenticateManifest manifest (utf8 (chain.jws manifest)) rootKeys scratch).1 = .ok () := by
  have hlimit : 2 ^ 30 ≤ Rsa.maxExponent := by decide
  have hsize : scratchSize ≤ scratch.length := hscratch
  rw [authenticateManifest_fst_eq, if_pos hsize, outcome_eq_ok_iff]
  exact ⟨chain.compact manifest, chain.keyDocument, chain.signingKey,
    ⟨_, Chain.embeds hfits hsigning manifest, Chain.keyDocument_isOf hfits hid hroot⟩,
    Chain.isRootSigned hroot hlimit hfirst hmodulus hexponent, chain.carries,
    Chain.isSignedBy hsigning hlimit manifest, chain.attests manifest⟩

/-- Keys of 521 bits authenticate an empty manifest. -/
theorem authenticateManifest_chain_mersenne :
    (mersenneChain 65537 49217).root.IsSound (2 ^ 30) ∧ (mersenneChain 65537 49217).Fits ∧
      (authenticateManifest [] (utf8 ((mersenneChain 65537 49217).jws []))
        [(mersenneChain 65537 49217).rootKey] (List.replicate 3358 0)).1 = .ok () := by
  have hsound : (mersenneChain 65537 49217).root.IsSound (2 ^ 30) :=
    Rsa.isSound_mersenneKey (by decide) (by decide) (by decide +kernel)
  have hfits : (mersenneChain 65537 49217).Fits := fits_mersenneChain (by decide +kernel) _
  have hid : Json.IsUnescaped "TEST.ROOT" := by decide
  have hnumbers := (mersenneChain 65537 49217).toNat_rootKey
  exact ⟨hsound, hfits, authenticateManifest_chain hsound hsound hid hfits
    (mersenneChain 65537 49217).isFirst_rootKey hnumbers.1 hnumbers.2
    List.length_replicate.ge []⟩

/-- A root key with a larger exponent refuses each chain that it has signed. -/
theorem authenticateManifest_exponentTooLarge (hroot : chain.root.IsSound limit)
    (hsigning : chain.signing.IsSound limit) (hid : Json.IsUnescaped chain.keyId)
    (hfits : chain.Fits) (hfirst : RootKey.IsFirst rootKeys chain.keyId rootKey)
    (hlarge : Rsa.maxExponent < rootKey.exponent.toNat) (hsize : scratchSize ≤ scratch.length)
    (manifest : Bytes) :
    (authenticateManifest manifest (utf8 (chain.jws manifest)) rootKeys scratch).1 =
      .error (.key .exponentTooLarge) := by
  have hopen := openManifest_eq_ok_iff.mpr (Chain.embeds hfits hsigning manifest)
  have hkey := openKey_eq_ok_iff.mpr (Chain.keyDocument_isOf hfits hid hroot)
  have hfind : RootKey.find? rootKeys chain.keyDocument.keyId = some rootKey :=
    find?_eq_some_iff.mpr hfirst
  -- the root key is refused before the signature is looked at
  have hroot : checkRoot rootKeys chain.keyDocument = .error (.key .exponentTooLarge) := by
    simp only [checkRoot, hfind, checkSignature_of_exponent_gt hlarge]
  rw [authenticateManifest_fst_eq, if_pos hsize, outcome, hopen]
  simp only [signingKey, bind, Except.bind, hkey, hroot]

/-- The largest exponent that 31 bits hold is refused. -/
theorem authenticateManifest_chain_refused :
    let chain := mersenneChain (2 ^ 31 - 1) 152183881
    chain.root.IsSound (2 ^ 31 - 1) ∧ chain.signing.IsSound (2 ^ 31 - 1) ∧
      Json.IsUnescaped chain.keyId ∧ chain.Fits ∧
      RootKey.IsFirst [chain.rootKey] chain.keyId chain.rootKey ∧
      chain.rootKey.modulus.toNat = chain.root.modulus ∧
      chain.rootKey.exponent.toNat = chain.root.exponent ∧
      (authenticateManifest [] (utf8 (chain.jws [])) [chain.rootKey] (List.replicate 3358 0)).1 =
        .error (.key .exponentTooLarge) := by
  intro chain
  have hsound : chain.root.IsSound (2 ^ 31 - 1) :=
    Rsa.isSound_mersenneKey (by decide) (by decide) (by decide +kernel)
  have hfits : chain.Fits := fits_mersenneChain (by decide +kernel) _
  have hid : Json.IsUnescaped "TEST.ROOT" := by decide
  have hfirst := chain.isFirst_rootKey
  obtain ⟨hmodulus, hexponent⟩ := chain.toNat_rootKey
  have hlarge : Rsa.maxExponent < chain.rootKey.exponent.toNat := by
    rw [hexponent]
    decide
  refine ⟨hsound, hsound, hid, hfits, hfirst, hmodulus, hexponent, ?_⟩
  exact authenticateManifest_exponentTooLarge hsound hsound hid hfits hfirst hlarge
    List.length_replicate.ge []

end Authentication

end DeviceTrust.Jws
