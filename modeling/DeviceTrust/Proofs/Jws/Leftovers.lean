import DeviceTrust.Proofs.Jws.Faults

/-!
# What the scratch memory holds at first

The scratch memory is lent as it is, with what is left of earlier authentications. An authentication
that has enough of it ends as the one without a memory, and this one does not run out of memory; so
neither what the memory holds nor how much larger it is than required plays a part.

An authentication neither grows nor shrinks its memory, so one memory serves for any number of them.

Results:
* `outcome_ne_outOfMemory`: the authentication without a memory does not run out of it.
* `authenticate_keepsLength`: an authentication leaves a memory of the same length.
* `authenticateManifest_scratch_irrelevant`: the outcomes in any two memories.
-/

namespace DeviceTrust.Jws

/-! ## Running out of memory -/

theorem outcome_ne_outOfMemory (manifest jws : Bytes) (rootKeys : List RootKey) :
    outcome manifest jws rootKeys ≠ .error .outOfMemory := by
  have htext (fields : List String) (e : Error) (h : e.ConcernsText fields) :
      e ≠ .outOfMemory := by
    rintro rfl
    cases h
  have hsignature (e : Error) (h : e.ConcernsSignature) : e ≠ .outOfMemory := by
    rintro rfl
    cases h
  have hkey (text : Bytes) : Raises (signingKey text rootKeys) (· ≠ .outOfMemory) := by
    refine ((openKey_raises text).mono (htext _)).bind fun document => ?_
    refine ((checkRoot_raises rootKeys document).mono ?_).bind fun _ => ?_
    · rintro e (rfl | h)
      · simp
      · exact hsignature e h
    · refine (readKey_raises document).mono ?_
      rintro e (h | rfl)
      · exact htext _ e h
      · simp
  have houtcome : Raises (outcome manifest jws rootKeys) (· ≠ .outOfMemory) := by
    refine ((openManifest_raises jws).mono (htext _)).bind fun (outer, embedded) => ?_
    refine (hkey (utf8 embedded)).bind fun key => ?_
    refine ((checkOuter_raises outer key).mono ?_).bind fun _ => ?_
    · rintro e (h | h)
      · exact htext _ e h
      · exact hsignature e h
    · refine (checkAttested_raises _ outer).mono ?_
      rintro e (h | rfl | rfl)
      · exact htext _ e h
      · simp
      · simp
  intro h
  exact houtcome _ h rfl

/-! ## The length of the memory -/

/-- The operation leaves a memory of the same length, also where it fails. -/
def KeepsLength {α : Type} (operation : Scratch α) : Prop :=
  ∀ memory : Bytes, (operation.run.run memory).2.length = memory.length

section Rules

variable {α β : Type} {operation : Scratch α} {next : α → Scratch β}

theorem KeepsLength.bind (h : KeepsLength operation) (hnext : ∀ a, KeepsLength (next a)) :
    KeepsLength (operation >>= next) := by
  intro memory
  have hmemory := h memory
  rw [run_bind]
  rcases hrun : operation.run.run memory with ⟨e | a, memory'⟩
  · rw [hrun] at hmemory
    exact hmemory
  · rw [hrun] at hmemory
    exact (hnext a memory').trans hmemory

theorem pure_keepsLength (a : α) : KeepsLength (pure a) :=
  fun _ => rfl

theorem throw_keepsLength (e : Error) : KeepsLength (throw e : Scratch α) :=
  fun _ => rfl

theorem ofExcept_keepsLength (step : Except Error α) : KeepsLength (ofExcept step) := by
  cases step with
  | error e => exact throw_keepsLength e
  | ok a => exact pure_keepsLength a

theorem read_keepsLength (region : Region) : KeepsLength (Scratch.read region) :=
  fun _ => rfl

theorem write_keepsLength (region : Region) (content : Bytes) :
    KeepsLength (Scratch.write region content) :=
  fun memory => Region.length_write region content memory

theorem within_keepsLength (region : Region) (operation : Bytes → Except Error α × Bytes) :
    KeepsLength (Scratch.within region operation) := by
  intro memory
  rw [run_within]
  exact Region.length_write _ _ _

theorem decode_keepsLength (alphabet : Base64.Alphabet) (text : Bytes) (region : Region) :
    KeepsLength (Scratch.decode alphabet text region) :=
  (within_keepsLength region _).bind fun _ => pure_keepsLength _

theorem readField_keepsLength (name : String) (region : Region) :
    KeepsLength (Scratch.readField name region) :=
  (read_keepsLength region).bind fun _ => (ofExcept_keepsLength _).bind fun _ => pure_keepsLength _

theorem get_keepsLength : KeepsLength (get : Scratch Bytes) :=
  fun _ => rfl

theorem layout_keepsLength : KeepsLength Scratch.layout :=
  get_keepsLength.bind fun _ => ofExcept_keepsLength _

end Rules

theorem verifySigningKey_keepsLength (text : Bytes) (rootKeys : List RootKey) (layout : Layout) :
    KeepsLength (verifySigningKey text rootKeys layout) := by
  refine (ofExcept_keepsLength _).bind fun jwk => ?_
  refine (ofExcept_keepsLength _).bind fun (region, phase) => ?_
  refine (decode_keepsLength _ _ _).bind fun header => ?_
  refine (decode_keepsLength _ _ _).bind fun payload => ?_
  refine (ofExcept_keepsLength _).bind fun (region, phase) => ?_
  refine (decode_keepsLength _ _ _).bind fun signature => ?_
  refine (readField_keepsLength _ _).bind fun keyId => ?_
  split
  next => exact throw_keepsLength _
  next rootKey _ =>
    refine (ofExcept_keepsLength _).bind fun (region, _) => ?_
    refine (read_keepsLength _).bind fun _ => (within_keepsLength _ _).bind fun _ => ?_
    refine (readField_keepsLength _ _).bind fun modulus => ?_
    refine (readField_keepsLength _ _).bind fun exponent => ?_
    refine (readField_keepsLength _ _).bind fun algorithm => ?_
    split
    next => exact pure_keepsLength _
    next => exact throw_keepsLength _

theorem verifyManifestSignature_keepsLength (jws : Compact) (key : SigningKey) (layout : Layout) :
    KeepsLength (verifyManifestSignature jws key layout) := by
  refine (ofExcept_keepsLength _).bind fun (region, phase) => ?_
  refine (decode_keepsLength _ _ _).bind fun signature => ?_
  refine (ofExcept_keepsLength _).bind fun (region, phase) => ?_
  refine (decode_keepsLength _ _ _).bind fun modulus => ?_
  refine (ofExcept_keepsLength _).bind fun (region, phase) => ?_
  refine (decode_keepsLength _ _ _).bind fun exponent => ?_
  refine (ofExcept_keepsLength _).bind fun (region, phase) => ?_
  refine (read_keepsLength _).bind fun _ => (read_keepsLength _).bind fun _ => ?_
  exact (read_keepsLength _).bind fun _ => within_keepsLength _ _

theorem checkDigest_keepsLength (manifest : Bytes) (jws : Compact) (layout : Layout) :
    KeepsLength (checkDigest manifest jws layout) := by
  refine (ofExcept_keepsLength _).bind fun (region, phase) => ?_
  refine (decode_keepsLength _ _ _).bind fun payload => ?_
  refine (readField_keepsLength _ _).bind fun encoded => ?_
  refine (ofExcept_keepsLength _).bind fun (region, phase) => ?_
  refine (decode_keepsLength _ _ _).bind fun attested => ?_
  refine (read_keepsLength _).bind fun content => ?_
  split
  next => exact throw_keepsLength _
  next =>
    refine (ofExcept_keepsLength _).bind fun (calculated, _) => ?_
    refine (write_keepsLength _ _).bind fun _ => (read_keepsLength _).bind fun _ => ?_
    refine (read_keepsLength _).bind fun _ => ?_
    split
    next => exact throw_keepsLength _
    next => exact pure_keepsLength _

theorem authenticate_keepsLength (manifest jws : Bytes) (rootKeys : List RootKey) :
    KeepsLength (authenticate manifest jws rootKeys) := by
  refine layout_keepsLength.bind fun layout => ?_
  refine (ofExcept_keepsLength _).bind fun outer => ?_
  refine (decode_keepsLength _ _ _).bind fun header => ?_
  refine (readField_keepsLength _ _).bind fun embedded => ?_
  refine (verifySigningKey_keepsLength _ _ _).bind fun key => ?_
  refine (verifyManifestSignature_keepsLength _ _ _).bind fun _ => ?_
  exact checkDigest_keepsLength _ _ _

/-! ## Outcomes in two memories -/

/-- The outcome of an authentication and its memory. One of less than the required size is refused
and left as it is. In all others the outcome is the same, whatever they hold and however large they
are, and it is never that there is too little memory. So an authentication in what an earlier one
has left ends as it would have ended before. -/
theorem authenticateManifest_scratch_irrelevant (manifest jws : Bytes) (rootKeys : List RootKey) :
    (∀ scratch : Bytes, scratch.length < 3358 →
      authenticateManifest manifest jws rootKeys scratch = (.error .outOfMemory, scratch)) ∧
    (∀ scratch scratch' : Bytes, 3358 ≤ scratch.length → 3358 ≤ scratch'.length →
      (authenticateManifest manifest jws rootKeys scratch).1 =
        (authenticateManifest manifest jws rootKeys scratch').1) ∧
    (∀ scratch : Bytes, 3358 ≤ scratch.length →
      (authenticateManifest manifest jws rootKeys scratch).1 ≠ .error .outOfMemory) ∧
    ∀ (earlier earlierJws : Bytes) (earlierKeys : List RootKey) (scratch : Bytes),
      (authenticateManifest manifest jws rootKeys
        (authenticateManifest earlier earlierJws earlierKeys scratch).2).1 =
      (authenticateManifest manifest jws rootKeys scratch).1 := by
  have hscratch : scratchSize = 3358 := rfl
  rw [← hscratch]
  refine ⟨fun scratch h => ?_, fun scratch scratch' h h' => ?_, fun scratch h => ?_, ?_⟩
  · exact authenticateManifest_of_lt h manifest jws rootKeys
  · rw [authenticateManifest_fst_eq, authenticateManifest_fst_eq, if_pos h, if_pos h']
  · rw [authenticateManifest_fst_eq, if_pos h]
    exact outcome_ne_outOfMemory manifest jws rootKeys
  · intro earlier earlierJws earlierKeys scratch
    have hlength : (authenticateManifest earlier earlierJws earlierKeys scratch).2.length =
        scratch.length :=
      authenticate_keepsLength earlier earlierJws earlierKeys scratch
    rw [authenticateManifest_fst_eq, authenticateManifest_fst_eq, hlength]

/-- A fresh memory of the required size and a larger one that is full of something else. -/
theorem scratch_irrelevant_filled :
    (authenticateManifest [] (utf8 "eyJ9.e30.AA") [] (List.replicate 3358 0)).1 =
        (authenticateManifest [] (utf8 "eyJ9.e30.AA") [] (List.replicate 4096 255)).1 ∧
      (authenticateManifest [] (utf8 "eyJ9.e30.AA") [] (List.replicate 3358 0)).1 ≠
        .error .outOfMemory := by
  have hfresh : 3358 ≤ (List.replicate 3358 (0 : UInt8)).length := by
    rw [List.length_replicate]
  have hfilled : 3358 ≤ (List.replicate 4096 (255 : UInt8)).length := by
    rw [List.length_replicate]
    omega
  obtain ⟨-, hsame, hnever, -⟩ :=
    authenticateManifest_scratch_irrelevant [] (utf8 "eyJ9.e30.AA") []
  exact ⟨hsame _ _ hfresh hfilled, hnever _ hfresh⟩

end DeviceTrust.Jws
