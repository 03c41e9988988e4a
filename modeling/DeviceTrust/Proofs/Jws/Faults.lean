import DeviceTrust.Proofs.Jws.ChainOfTrust

/-!
# What an error tells

Each stage of an authentication has faults of its own, so the error with which one ends tells which
stages have succeeded before it, and with them how much of the chain of trust holds.

Results:
* `outcome_eq_error_iff`: an error that the texts up to the key id cannot have comes after them.
* `authenticateManifest_error_verified`: what has been verified before the fields of the signing key
  and the attested digest are looked at, and when no root key is found.
-/

namespace DeviceTrust.Jws

/-! ## Kinds of faults -/

/-- The faults of a text or a document, or of one of its fields. -/
inductive Error.ConcernsText (fields : List String) : Error → Prop where
  | malformed : ConcernsText fields .malformedJws
  | space : ConcernsText fields .insufficientSpace
  | base64 (fault : Base64.DecodeError) : ConcernsText fields (.base64 fault)
  | json (fault : Json.Error) : ConcernsText fields (.json fault)
  | missing {name : String} (h : name ∈ fields) : ConcernsText fields (.missingField name)
  | wrongType {name : String} (h : name ∈ fields) : ConcernsText fields (.wrongTokenType name)

/-- The faults of a signature or of the key that it is verified with. -/
inductive Error.ConcernsSignature : Error → Prop where
  | key (fault : Rsa.KeyError) : ConcernsSignature (.key fault)
  | tooLarge : ConcernsSignature .keyTooLarge
  | length : ConcernsSignature .invalidSignatureLength
  | padding : ConcernsSignature .invalidPadding
  | mismatch : ConcernsSignature .signatureMismatch

/-- The faults of the fields of a signing key. -/
inductive Error.ConcernsKey : Error → Prop where
  | missing {name : String} (h : name ∈ ["n", "e", "alg"]) : ConcernsKey (.missingField name)
  | wrongType {name : String} (h : name ∈ ["n", "e", "alg"]) : ConcernsKey (.wrongTokenType name)
  | algorithm : ConcernsKey .unsupportedAlgorithm

/-- The faults of the attested digest. -/
inductive Error.ConcernsDigest : Error → Prop where
  | missing : ConcernsDigest (.missingField "sha256")
  | wrongType : ConcernsDigest (.wrongTokenType "sha256")
  | length : ConcernsDigest .invalidDigestLength
  | mismatch : ConcernsDigest .digestMismatch

/-! ## Steps that fail -/

/-- The step fails in one of these ways, if it fails. -/
def Raises {α : Type} (step : Except Error α) (faults : Error → Prop) : Prop :=
  ∀ e, step = .error e → faults e

section Steps

variable {α β : Type} {step : Except Error α} {next : α → Except Error β}
  {faults faults' : Error → Prop}

theorem Raises.bind (h : Raises step faults)
    (hnext : ∀ a, Raises (next a) faults) : Raises (step >>= next) faults := by
  intro e he
  cases hstep : step with
  | error e' =>
    rw [hstep] at he
    obtain rfl : e' = e := Except.error.inj he
    exact h e' hstep
  | ok a =>
    rw [hstep] at he
    exact hnext a e he

theorem Raises.mono (h : Raises step faults) (hfaults : ∀ e, faults e → faults' e) :
    Raises step faults' :=
  fun e he => hfaults e (h e he)

theorem raises_ok (a : α) : Raises (.ok a) faults :=
  fun _ h => nomatch h

theorem raises_error {e : Error} (h : faults e) : Raises (.error e : Except Error α) faults := by
  intro e' he
  exact Except.error.inj he ▸ h

end Steps

/-! ## Stages that fail -/

theorem split_raises (fields : List String) (text : Bytes) :
    Raises (Compact.split text) (Error.ConcernsText fields) := by
  intro e h
  unfold Compact.split at h
  repeat' split at h
  all_goals first | exact Except.error.inj h ▸ .malformed | cases h

theorem decodeAtMost_raises (fields : List String) (alphabet : Base64.Alphabet) (limit : Nat)
    (text : Bytes) : Raises (decodeAtMost alphabet limit text) (Error.ConcernsText fields) := by
  intro e h
  unfold decodeAtMost at h
  repeat' split at h
  next => exact Except.error.inj h ▸ .base64 _
  next => exact Except.error.inj h ▸ .space
  next => exact Except.error.inj h ▸ .base64 _
  next => cases h

theorem fieldText_raises {fields : List String} {name : String} (h : name ∈ fields)
    (document : Bytes) : Raises (fieldText name document) (Error.ConcernsText fields) := by
  intro e he
  cases hfield : readField name document with
  | ok field => simp [fieldText, hfield, Except.map] at he
  | error e' =>
    obtain rfl : e' = e := by simpa [fieldText, hfield, Except.map] using he
    rcases of_readField_error hfield with ⟨fault, rfl⟩ | rfl | rfl
    · exact .json fault
    · exact .missing h
    · exact .wrongType h

theorem checkSignature_raises (message signature modulus exponent : Bytes) :
    Raises (checkSignature message signature modulus exponent) Error.ConcernsSignature := by
  refine Raises.bind ?_ fun block => ?_
  · intro e h
    unfold recoverBlock at h
    repeat' split at h
    next => exact Except.error.inj h ▸ .key _
    next => exact Except.error.inj h ▸ .tooLarge
    next => exact Except.error.inj h ▸ .length
    next => exact Except.error.inj h ▸ .mismatch
    next => cases h
  · intro e h
    unfold checkBlock at h
    repeat' split at h
    next => exact Except.error.inj h ▸ .padding
    next => cases h
    next => exact Except.error.inj h ▸ .mismatch

theorem openManifest_raises (text : Bytes) :
    Raises (openManifest text) (Error.ConcernsText ["sjwk"]) :=
  (split_raises _ _).bind fun _ => (decodeAtMost_raises _ _ _ _).bind fun _ =>
    (fieldText_raises (by simp) _).bind fun _ => raises_ok _

theorem openKey_raises (text : Bytes) : Raises (openKey text) (Error.ConcernsText ["kid"]) :=
  (split_raises _ _).bind fun _ => (decodeAtMost_raises _ _ _ _).bind fun _ =>
    (decodeAtMost_raises _ _ _ _).bind fun _ => (decodeAtMost_raises _ _ _ _).bind fun _ =>
      (fieldText_raises (by simp) _).bind fun _ => raises_ok _

theorem checkRoot_raises (rootKeys : List RootKey) (document : KeyDocument) :
    Raises (checkRoot rootKeys document) fun e => e = .rootKeyNotFound ∨ e.ConcernsSignature := by
  unfold checkRoot
  split
  next => exact raises_error (.inl rfl)
  next => exact (checkSignature_raises _ _ _ _).mono fun _ => Or.inr

theorem readKey_raises (document : KeyDocument) : Raises (readKey document) fun e =>
    e.ConcernsText ["n", "e", "alg"] ∨ e = .unsupportedAlgorithm := by
  have hfield : ∀ name ∈ ["n", "e", "alg"], Raises (fieldText name document.payload) fun e =>
      e.ConcernsText ["n", "e", "alg"] ∨ e = .unsupportedAlgorithm :=
    fun name h => (fieldText_raises h _).mono fun _ => Or.inl
  refine (hfield _ (by simp)).bind fun modulus => (hfield _ (by simp)).bind fun exponent =>
    (hfield _ (by simp)).bind fun algorithm => ?_
  split
  next => exact raises_ok _
  next => exact raises_error (.inr rfl)

theorem checkOuter_raises (outer : Compact) (key : SigningKey) :
    Raises (checkOuter outer key) fun e => e.ConcernsText [] ∨ e.ConcernsSignature := by
  have hdecode : ∀ alphabet limit text, Raises (decodeAtMost alphabet limit text) fun e =>
      e.ConcernsText [] ∨ e.ConcernsSignature :=
    fun _ _ _ => (decodeAtMost_raises _ _ _ _).mono fun _ => Or.inl
  exact (hdecode _ _ _).bind fun signature => (hdecode _ _ _).bind fun modulus =>
    (hdecode _ _ _).bind fun exponent => (checkSignature_raises _ _ _ _).mono fun _ => Or.inr

theorem checkAttested_raises (digest : Bytes) (outer : Compact) :
    Raises (checkAttested digest outer) fun e =>
      e.ConcernsText ["sha256"] ∨ e = .invalidDigestLength ∨ e = .digestMismatch := by
  refine Raises.bind ((decodeAtMost_raises _ _ _ _).mono fun _ => Or.inl) fun payload => ?_
  refine Raises.bind ((fieldText_raises (by simp) _).mono fun _ => Or.inl) fun encoded => ?_
  refine Raises.bind ((decodeAtMost_raises _ _ _ _).mono fun _ => Or.inl) fun attested => ?_
  by_cases hlength : attested.length ≠ digestSize
  · simp only [if_pos hlength]
    exact raises_error (Or.inr (Or.inl rfl))
  · simp only [if_neg hlength]
    split
    next => exact raises_error (Or.inr (Or.inr rfl))
    next => exact raises_ok _

/-! ## The errors -/

theorem Error.ConcernsKey.not_concernsText {e : Error} {fields : List String} (h : e.ConcernsKey)
    (hfields : ∀ name ∈ fields, name ∉ ["n", "e", "alg"]) : ¬e.ConcernsText fields := by
  intro htext
  cases h with
  | missing hmem =>
    cases htext with
    | missing h => exact hfields _ h hmem
  | wrongType hmem =>
    cases htext with
    | wrongType h => exact hfields _ h hmem
  | algorithm => cases htext

theorem Error.ConcernsDigest.not_concernsText {e : Error} {fields : List String}
    (h : e.ConcernsDigest) (hfields : "sha256" ∉ fields) : ¬e.ConcernsText fields := by
  intro htext
  cases h with
  | missing =>
    cases htext with
    | missing h => exact hfields h
  | wrongType =>
    cases htext with
    | wrongType h => exact hfields h
  | length | mismatch => cases htext

theorem not_concernsText_rootKeyNotFound (fields : List String) :
    ¬Error.ConcernsText fields .rootKeyNotFound := by
  intro h
  cases h

/-- What follows once the signing key has been read up to its key id. -/
def verifyOpened (digest : Bytes) (rootKeys : List RootKey) (outer : Compact)
    (document : KeyDocument) : Except Error Unit := do
  checkRoot rootKeys document
  let key ← readKey document
  checkOuter outer key
  checkAttested digest outer

variable {manifest jws digest : Bytes} {rootKeys : List RootKey} {outer : Compact}
  {document : KeyDocument} {e : Error}

/-- An outcome that is no fault of the texts up to the key id comes from what follows. -/
theorem outcome_eq_error_iff (hsjwk : ¬e.ConcernsText ["sjwk"]) (hkid : ¬e.ConcernsText ["kid"]) :
    outcome manifest jws rootKeys = .error e ↔ ∃ outer document, EmbedsKey jws outer document ∧
      verifyOpened (Sha256.digest manifest) rootKeys outer document = .error e := by
  simp only [outcome, signingKey, bind_assoc, ← verifyOpened.eq_1]
  constructor
  · intro h
    obtain ⟨⟨outer, embedded⟩, hembeds, h⟩ :=
      of_bind_eq_error h fun he => hsjwk (openManifest_raises _ e he)
    obtain ⟨document, hdocument, h⟩ := of_bind_eq_error h fun he => hkid (openKey_raises _ e he)
    rw [openManifest_eq_ok_iff] at hembeds
    rw [openKey_eq_ok_iff] at hdocument
    exact ⟨outer, document, ⟨embedded, hembeds, hdocument⟩, h⟩
  · rintro ⟨outer, document, ⟨embedded, hembeds, hdocument⟩, h⟩
    rw [← openManifest_eq_ok_iff] at hembeds
    rw [← openKey_eq_ok_iff] at hdocument
    exact bind_eq_error hembeds (bind_eq_error hdocument h)

/-- A fault that the first signature cannot have is met once that signature has been verified. -/
theorem of_verifyOpened_eq_error (hfound : e ≠ .rootKeyNotFound) (hsignature : ¬e.ConcernsSignature)
    (h : verifyOpened digest rootKeys outer document = .error e) :
    document.IsRootSigned rootKeys ∧ (do
      let key ← readKey document
      checkOuter outer key
      checkAttested digest outer) = .error e := by
  obtain ⟨_, hroot, h⟩ := of_bind_eq_error h fun hroot =>
    (checkRoot_raises rootKeys document e hroot).elim hfound hsignature
  exact ⟨checkRoot_eq_ok_iff.mp hroot, h⟩

/-- A fault of the fields of a signing key is met only once its signature has been verified. -/
theorem isRootSigned_of_concernsKey (he : e.ConcernsKey)
    (h : verifyOpened digest rootKeys outer document = .error e) :
    document.IsRootSigned rootKeys := by
  refine (of_verifyOpened_eq_error ?_ ?_ h).1
  · rintro rfl
    cases he
  · intro hsignature
    cases hsignature <;> cases he

/-- A fault of the attested digest is met only once both signatures have been verified. -/
theorem isSignedBy_of_concernsDigest (he : e.ConcernsDigest)
    (h : verifyOpened digest rootKeys outer document = .error e) :
    ∃ key, document.IsRootSigned rootKeys ∧ document.Carries key ∧ outer.IsSignedBy key := by
  have hsignature : ¬e.ConcernsSignature := by
    intro hsignature
    cases hsignature <;> cases he
  obtain ⟨hroot, h⟩ := of_verifyOpened_eq_error (by rintro rfl; cases he) hsignature h
  obtain ⟨key, hkey, h⟩ := of_bind_eq_error h fun hkey => by
    rcases readKey_raises document e hkey with htext | rfl
    · exact he.not_concernsText (by simp) htext
    · cases he
  obtain ⟨_, houter, -⟩ := of_bind_eq_error h fun houter =>
    (checkOuter_raises outer key e houter).elim (he.not_concernsText (by simp)) hsignature
  exact ⟨key, hroot, readKey_eq_ok_iff.mp hkey, checkOuter_eq_ok_iff.mp houter⟩

theorem checkRoot_eq_rootKeyNotFound_iff :
    checkRoot rootKeys document = .error .rootKeyNotFound ↔
      ∀ key ∈ rootKeys, key.id ≠ document.keyId := by
  have hnone : RootKey.find? rootKeys document.keyId = none ↔
      ∀ key ∈ rootKeys, key.id ≠ document.keyId := by
    simp only [RootKey.find?, List.find?_eq_none, beq_iff_eq, ne_eq]
  rw [← hnone, checkRoot]
  cases RootKey.find? rootKeys document.keyId with
  | none => simp
  | some rootKey =>
    simp only [reduceCtorEq, iff_false]
    intro h
    cases checkSignature_raises _ _ _ _ _ h

/-- That no root key is found is known before anything is verified. -/
theorem verifyOpened_eq_rootKeyNotFound_iff :
    verifyOpened digest rootKeys outer document = .error .rootKeyNotFound ↔
      ∀ key ∈ rootKeys, key.id ≠ document.keyId := by
  rw [← checkRoot_eq_rootKeyNotFound_iff]
  constructor
  · intro h
    by_contra hroot
    obtain ⟨-, -, h⟩ := of_bind_eq_error h hroot
    obtain ⟨key, -, h⟩ := of_bind_eq_error h fun hkey => by
      rcases readKey_raises document _ hkey with htext | h
      · cases htext
      · cases h
    obtain ⟨-, -, h⟩ := of_bind_eq_error h fun houter => by
      rcases checkOuter_raises outer key _ houter with htext | hsignature
      · cases htext
      · cases hsignature
    rcases checkAttested_raises digest outer _ h with htext | h | h
    · cases htext
    · cases h
    · cases h
  · intro h
    rw [verifyOpened, h]
    rfl

/-- The fields of the signing key are looked at only once a root key has verified it, and the
attested digest only once the signing key has verified the JWS too. No root key is found iff
everything up to the key id can be read and no root key has that id, whatever the keys and the
signatures are. -/
theorem authenticateManifest_error_verified (manifest jws : Bytes) (rootKeys : List RootKey)
    (scratch : Bytes) :
    (∀ e : Error, e.ConcernsKey →
      (authenticateManifest manifest jws rootKeys scratch).1 = .error e →
      ∃ outer document, EmbedsKey jws outer document ∧ document.IsRootSigned rootKeys) ∧
    (∀ e : Error, e.ConcernsDigest →
      (authenticateManifest manifest jws rootKeys scratch).1 = .error e →
      ∃ outer document key, EmbedsKey jws outer document ∧ document.IsRootSigned rootKeys ∧
        document.Carries key ∧ outer.IsSignedBy key) ∧
    ((authenticateManifest manifest jws rootKeys scratch).1 = .error .rootKeyNotFound ↔
      3358 ≤ scratch.length ∧ ∃ outer document, EmbedsKey jws outer document ∧
        ∀ key ∈ rootKeys, key.id ≠ document.keyId) := by
  have hscratch : scratchSize = 3358 := rfl
  rw [authenticateManifest_fst_eq, hscratch]
  split
  next hsize =>
    refine ⟨fun e he h => ?_, fun e he h => ?_, ?_⟩
    · rw [outcome_eq_error_iff (he.not_concernsText (by simp)) (he.not_concernsText (by simp))] at h
      obtain ⟨outer, document, hembeds, h⟩ := h
      exact ⟨outer, document, hembeds, isRootSigned_of_concernsKey he h⟩
    · rw [outcome_eq_error_iff (he.not_concernsText (by simp)) (he.not_concernsText (by simp))] at h
      obtain ⟨outer, document, hembeds, h⟩ := h
      obtain ⟨key, hverified⟩ := isSignedBy_of_concernsDigest he h
      exact ⟨outer, document, key, hembeds, hverified⟩
    · rw [outcome_eq_error_iff (not_concernsText_rootKeyNotFound _)
        (not_concernsText_rootKeyNotFound _)]
      simp only [verifyOpened_eq_rootKeyNotFound_iff, hsize, true_and]
  next hsize =>
    refine ⟨fun e he h => ?_, fun e he h => ?_, ?_⟩
    · cases h
      cases he
    · cases h
      cases he
    · simp only [Except.error.injEq, reduceCtorEq, hsize, false_and]

end DeviceTrust.Jws
