import DeviceTrust.Proofs.Jws.Faults

/-!
# The attested digest

An authentication comes to a digest that the JWS attests without a look at the manifest, and then
compares it with the digest of the manifest. So a manifest has no influence on anything but this
last comparison, and one JWS authenticates manifests of one digest only.

Results:
* `outcome_eq_compare`: the outcome of an authentication as a comparison with the attested digest.
* `verifiedDigest_raises`: the stages before the comparison do not end as the comparison does.
* `authenticateManifest_manifest_irrelevant`: the outcomes for two manifests.
-/

namespace DeviceTrust.Jws

/-! ## The stages before the comparison -/

/-- The digest that the payload of a JWS attests. -/
def attestedDigest (outer : Compact) : Except Error Bytes := do
  let payload ← decodeAtMost .urlSafe jwsPayloadSize outer.payload
  let encoded ← fieldText "sha256" payload
  let attested ← decodeAtMost .standard digestSize (utf8 encoded)
  if attested.length ≠ digestSize then throw .invalidDigestLength
  return attested

/-- The digest that a JWS attests, once both of its signatures have been verified. -/
def verifiedDigest (jws : Bytes) (rootKeys : List RootKey) : Except Error Bytes := do
  let (outer, embedded) ← openManifest jws
  let key ← signingKey (utf8 embedded) rootKeys
  checkOuter outer key
  attestedDigest outer

/-- The comparison of an attested digest with that of a manifest. -/
def compareDigest (digest attested : Bytes) : Except Error Unit :=
  if attested = digest then .ok () else .error .digestMismatch

variable {manifest jws digest attested : Bytes} {rootKeys : List RootKey}

theorem checkAttested_eq_compare (digest : Bytes) (outer : Compact) :
    checkAttested digest outer = attestedDigest outer >>= compareDigest digest := by
  simp only [checkAttested, attestedDigest, bind_assoc]
  refine bind_congr fun payload => bind_congr fun encoded => bind_congr fun attested => ?_
  by_cases hlength : attested.length ≠ digestSize
  · simp only [if_pos hlength]
    rfl
  · simp only [if_neg hlength]
    show _ = compareDigest digest attested
    rw [compareDigest]
    by_cases heq : attested = digest
    · rw [if_neg (not_not.mpr heq), if_pos heq]
      rfl
    · rw [if_pos heq, if_neg heq]
      rfl

theorem outcome_eq_compare (manifest jws : Bytes) (rootKeys : List RootKey) :
    outcome manifest jws rootKeys =
      verifiedDigest jws rootKeys >>= compareDigest (Sha256.digest manifest) := by
  simp only [outcome, verifiedDigest, bind_assoc, checkAttested_eq_compare]

/-! ## How the stages end -/

theorem Error.ConcernsText.ne_digestMismatch {fields : List String} {e : Error}
    (h : e.ConcernsText fields) : e ≠ .digestMismatch := by
  rintro rfl
  cases h

theorem Error.ConcernsSignature.ne_digestMismatch {e : Error} (h : e.ConcernsSignature) :
    e ≠ .digestMismatch := by
  rintro rfl
  cases h

theorem attestedDigest_raises (outer : Compact) :
    Raises (attestedDigest outer) (· ≠ .digestMismatch) := by
  have hdecode (alphabet : Base64.Alphabet) (limit : Nat) (text : Bytes) :
      Raises (decodeAtMost alphabet limit text) (· ≠ .digestMismatch) :=
    (decodeAtMost_raises [] alphabet limit text).mono fun _ h => h.ne_digestMismatch
  refine (hdecode _ _ _).bind fun payload => ?_
  refine ((fieldText_raises (List.mem_singleton_self "sha256") payload).mono fun _ h =>
    h.ne_digestMismatch).bind fun encoded => ?_
  refine (hdecode _ _ _).bind fun attested => ?_
  by_cases hlength : attested.length ≠ digestSize
  · simp only [if_pos hlength]
    exact raises_error (by simp)
  · simp only [if_neg hlength]
    exact raises_ok _

theorem signingKey_raises (text : Bytes) (rootKeys : List RootKey) :
    Raises (signingKey text rootKeys) (· ≠ .digestMismatch) := by
  refine ((openKey_raises text).mono fun _ h => h.ne_digestMismatch).bind fun document => ?_
  refine ((checkRoot_raises rootKeys document).mono ?_).bind fun _ => ?_
  · rintro _ (rfl | h)
    · simp
    · exact h.ne_digestMismatch
  · refine (readKey_raises document).mono ?_
    rintro _ (h | rfl)
    · exact h.ne_digestMismatch
    · simp

/-- The stages before the comparison do not end as the comparison does. -/
theorem verifiedDigest_raises (jws : Bytes) (rootKeys : List RootKey) :
    Raises (verifiedDigest jws rootKeys) (· ≠ .digestMismatch) := by
  refine ((openManifest_raises jws).mono fun _ h => h.ne_digestMismatch).bind
    fun (outer, embedded) => ?_
  refine (signingKey_raises _ rootKeys).bind fun key => ?_
  refine ((checkOuter_raises outer key).mono ?_).bind fun _ => attestedDigest_raises outer
  rintro _ (h | h)
  · exact h.ne_digestMismatch
  · exact h.ne_digestMismatch

/-! ## Outcomes -/

theorem compareDigest_eq_ok_iff : compareDigest digest attested = .ok () ↔ attested = digest := by
  unfold compareDigest
  split
  next h => exact iff_of_true rfl h
  next h => exact iff_of_false (by simp) h

theorem compareDigest_eq_error_iff {e : Error} :
    compareDigest digest attested = .error e ↔ attested ≠ digest ∧ e = .digestMismatch := by
  unfold compareDigest
  split
  next h => simp [h]
  next h => simp [h, eq_comm]

/-- An authentication ends in another way than by a mismatch iff its stages before the comparison
end in this way. -/
theorem outcome_eq_error_iff_verifiedDigest {e : Error} (he : e ≠ .digestMismatch) :
    outcome manifest jws rootKeys = .error e ↔ verifiedDigest jws rootKeys = .error e := by
  rw [outcome_eq_compare]
  cases verifiedDigest jws rootKeys with
  | error e' => simp [bind, Except.bind]
  | ok attested =>
    refine iff_of_false (fun h => ?_) (by simp)
    exact he (compareDigest_eq_error_iff.mp h).2

theorem outcome_eq_ok_iff_verifiedDigest : outcome manifest jws rootKeys = .ok () ↔
    verifiedDigest jws rootKeys = .ok (Sha256.digest manifest) := by
  rw [outcome_eq_compare, bind_eq_ok_iff]
  simp only [compareDigest_eq_ok_iff, exists_eq_right]

theorem outcome_eq_digestMismatch_iff : outcome manifest jws rootKeys = .error .digestMismatch ↔
    ∃ attested, verifiedDigest jws rootKeys = .ok attested ∧ attested ≠ Sha256.digest manifest := by
  rw [outcome_eq_compare]
  constructor
  · intro h
    obtain ⟨attested, hattested, h⟩ :=
      of_bind_eq_error h fun h => verifiedDigest_raises jws rootKeys _ h rfl
    exact ⟨attested, hattested, (compareDigest_eq_error_iff.mp h).1⟩
  · rintro ⟨attested, hattested, hne⟩
    exact bind_eq_error hattested (compareDigest_eq_error_iff.mpr ⟨hne, rfl⟩)

variable {m₁ m₂ : Bytes}

theorem outcome_of_outcome_eq_ok (h : outcome m₁ jws rootKeys = .ok ()) :
    outcome m₂ jws rootKeys = compareDigest (Sha256.digest m₂) (Sha256.digest m₁) := by
  rw [outcome_eq_compare, outcome_eq_ok_iff_verifiedDigest.mp h]
  rfl

theorem outcome_of_outcome_eq_digestMismatch
    (h : outcome m₁ jws rootKeys = .error .digestMismatch) :
    outcome m₂ jws rootKeys = .ok () ∨ outcome m₂ jws rootKeys = .error .digestMismatch := by
  obtain ⟨attested, hattested, -⟩ := outcome_eq_digestMismatch_iff.mp h
  by_cases heq : attested = Sha256.digest m₂
  · exact .inl (outcome_eq_ok_iff_verifiedDigest.mpr (heq ▸ hattested))
  · exact .inr (outcome_eq_digestMismatch_iff.mpr ⟨attested, hattested, heq⟩)

/-- The outcomes for two manifests. An error other than a mismatch of the digests is the same for
both. If one is authentic, the other one is too if it has the same digest, and is a mismatch
otherwise. If one is a mismatch, the other one is authentic or a mismatch. -/
theorem authenticateManifest_manifest_irrelevant (m₁ m₂ jws : Bytes) (rootKeys : List RootKey)
    (scratch : Bytes) :
    (∀ e, e ≠ .digestMismatch →
      (authenticateManifest m₁ jws rootKeys scratch).1 = .error e →
      (authenticateManifest m₂ jws rootKeys scratch).1 = .error e) ∧
    ((authenticateManifest m₁ jws rootKeys scratch).1 = .ok () →
      (authenticateManifest m₂ jws rootKeys scratch).1 =
        if Sha256.digest m₂ = Sha256.digest m₁ then .ok () else .error .digestMismatch) ∧
    ((authenticateManifest m₁ jws rootKeys scratch).1 = .error .digestMismatch →
      (authenticateManifest m₂ jws rootKeys scratch).1 = .ok () ∨
        (authenticateManifest m₂ jws rootKeys scratch).1 = .error .digestMismatch) := by
  simp only [authenticateManifest_fst_eq]
  split
  next hsize =>
    refine ⟨fun e he h => ?_, fun h => ?_, fun h => ?_⟩
    · rw [outcome_eq_error_iff_verifiedDigest he] at h ⊢
      exact h
    · rw [outcome_of_outcome_eq_ok h, compareDigest]
      simp only [eq_comm]
    · exact outcome_of_outcome_eq_digestMismatch h
  next hsize =>
    refine ⟨fun e _ h => h, fun h => ?_, fun h => ?_⟩
    · cases h
    · cases h

end DeviceTrust.Jws
