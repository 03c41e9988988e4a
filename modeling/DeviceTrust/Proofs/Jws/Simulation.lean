import DeviceTrust.Jws.Scratch
import DeviceTrust.Proofs.Base64.Canonical
import DeviceTrust.Proofs.Jws.Signature
import DeviceTrust.Proofs.Region
import DeviceTrust.Proofs.Sequence

/-!
# Operations on the scratch memory and their plain counterparts

An operation on the scratch memory is followed by a computation that has no memory at all: both fail
with the same error, and where both succeed, what the operation leaves in memory stands for what the
computation gives.

Results:
* `Simulates.bind`: simulations are composed step by step.
* `decode_simulates`, `verifySignature_simulates`, `readField_simulates`: the operations of the
  authentication; each changes nothing outside of its region.
-/

namespace DeviceTrust.Jws

/-! ## Simulation -/

/-- Run from `memory`, the operation ends as the plain computation does; `post` relates the two
results and the memory that is left. -/
def Simulates {α β : Type} (memory : Bytes) (operation : Scratch α) (plain : Except Error β)
    (post : α → β → Bytes → Prop) : Prop :=
  match plain with
  | .error e => (operation.run.run memory).1 = .error e
  | .ok b => ∃ a memory', operation.run.run memory = (.ok a, memory') ∧ post a b memory'

section Rules

variable {α β γ δ : Type} {memory : Bytes}

theorem Simulates.bind {operation : Scratch α} {plain : Except Error β}
    {post : α → β → Bytes → Prop} {next : α → Scratch γ} {plainNext : β → Except Error δ}
    {post' : γ → δ → Bytes → Prop} (h : Simulates memory operation plain post)
    (hnext : ∀ a b memory', post a b memory' → Simulates memory' (next a) (plainNext b) post') :
    Simulates memory (operation >>= next) (plain >>= plainNext) post' := by
  unfold Simulates at h
  cases plain with
  | error e =>
    rcases hrun : operation.run.run memory with ⟨result, memory'⟩
    rw [hrun] at h
    obtain rfl : result = .error e := h
    show ((operation >>= next).run.run memory).1 = .error e
    rw [run_bind, hrun]
  | ok b =>
    obtain ⟨a, memory', hrun, hpost⟩ := h
    have hsim := hnext a b memory' hpost
    unfold Simulates at hsim ⊢
    rw [run_bind, hrun]
    exact hsim

theorem Simulates.mono {operation : Scratch α} {plain : Except Error β}
    {post post' : α → β → Bytes → Prop} (h : Simulates memory operation plain post)
    (hpost : ∀ a b memory', post a b memory' → post' a b memory') :
    Simulates memory operation plain post' := by
  unfold Simulates at h ⊢
  cases plain with
  | error e => exact h
  | ok b =>
    obtain ⟨a, memory', hrun, h⟩ := h
    exact ⟨a, memory', hrun, hpost a b memory' h⟩

/-- A computation without a memory simulates itself. -/
theorem ofExcept_simulates (plain : Except Error α) :
    Simulates memory (ofExcept plain) plain (fun a b memory' => a = b ∧ memory' = memory) := by
  cases plain with
  | error e => rfl
  | ok a => exact ⟨a, memory, rfl, rfl, rfl⟩

/-- Reading a region is no step of the plain computation. -/
theorem Simulates.read_bind {region : Region} {next : Bytes → Scratch γ} {plain : Except Error δ}
    {post : γ → δ → Bytes → Prop} (h : Simulates memory (next (region.read memory)) plain post) :
    Simulates memory (Scratch.read region >>= next) plain post := by
  unfold Simulates at h ⊢
  rw [run_bind]
  exact h

/-- Nor is writing into one. -/
theorem Simulates.write_bind {region : Region} {content : Bytes} {next : Unit → Scratch γ}
    {plain : Except Error δ} {post : γ → δ → Bytes → Prop}
    (h : Simulates (region.write content memory) (next ()) plain post) :
    Simulates memory (Scratch.write region content >>= next) plain post := by
  unfold Simulates at h ⊢
  rw [run_bind]
  exact h

theorem Simulates.ofExcept_bind {a : α} {next : α → Scratch γ} {plain : Except Error δ}
    {step : Except Error α} {post : γ → δ → Bytes → Prop} (hstep : step = .ok a)
    (h : Simulates memory (next a) plain post) :
    Simulates memory (ofExcept step >>= next) plain post := by
  subst hstep
  unfold Simulates at h ⊢
  rw [run_bind]
  exact h

end Rules

/-! ## Operations -/

/-- The bytes that `text` decodes to, if there are at most `limit` of them. -/
def decodeAtMost (alphabet : Base64.Alphabet) (limit : Nat) (text : Bytes) : Except Error Bytes :=
  match Base64.decodedLength text with
  | .error e => .error (.base64 e)
  | .ok required =>
    if limit < required then .error .insufficientSpace
    else
      match Base64.decode alphabet text with
      | .error e => .error (.base64 e)
      | .ok bytes => .ok bytes

/-- The text field `name` of a document. -/
def fieldText (name : String) (document : Bytes) : Except Error String :=
  (readField name document).map (·.text)

theorem decodeAtMost_eq_ok_iff {alphabet : Base64.Alphabet} {limit : Nat} {text bytes : Bytes} :
    decodeAtMost alphabet limit text = .ok bytes ↔
      Base64.IsEncoding alphabet text bytes ∧ bytes.length ≤ limit := by
  constructor
  · intro h
    unfold decodeAtMost at h
    split at h
    next => simp at h
    next required hrequired =>
    split at h
    next => simp at h
    next hlimit =>
    split at h
    next => simp at h
    next hdecode =>
      obtain rfl := Except.ok.inj h
      have hencoding := Base64.decode_eq_ok_iff.mp hdecode
      rw [Base64.decodedLength_of_isEncoding hencoding, Except.ok.injEq] at hrequired
      exact ⟨hencoding, by omega⟩
  · rintro ⟨hencoding, hlimit⟩
    simp only [decodeAtMost, Base64.decodedLength_of_isEncoding hencoding,
      if_neg (Nat.not_lt.mpr hlimit), Base64.decode_eq_ok_iff.mpr hencoding]

/-- `part` is the first part of `region`, and holds `content`. -/
structure Stored (region part : Region) (content memory : Bytes) : Prop where
  offset_eq : part.offset = region.offset
  length_le : part.length ≤ region.length
  read_eq : part.read memory = content

/-- What is stored outlives a change elsewhere. -/
theorem Stored.keep {region part other : Region} {content memory memory' : Bytes}
    (h : Stored region part content memory) (hconfines : other.Confines memory memory')
    (hapart : region.Apart other) : Stored region part content memory' := by
  obtain ⟨hoffset, hlength, hread⟩ := h
  refine ⟨hoffset, hlength, ?_⟩
  rw [hconfines.read_eq, hread]
  unfold Region.Apart at hapart ⊢
  omega

variable {region : Region} {memory : Bytes}

theorem run_within {α : Type} (region : Region) (operation : Bytes → Except Error α × Bytes)
    (memory : Bytes) : (Scratch.within region operation).run.run memory =
      ((operation (region.read memory)).1,
        region.write (operation (region.read memory)).2 memory) := by
  rw [Scratch.within, run_bind]
  show ((Scratch.write region _ >>= fun _ => ofExcept _).run.run memory) = _
  rw [run_bind]
  show (ofExcept (m := Scratch) (operation (region.read memory)).1).run.run _ = _
  cases (operation (region.read memory)).1 <;> rfl

/-- What is decoded into a region is stored there, and nothing else changes. -/
theorem decode_simulates (h : region.Fits memory) (alphabet : Base64.Alphabet) (text : Bytes) :
    Simulates memory (Scratch.decode alphabet text region)
      (decodeAtMost alphabet region.length text)
      (fun part bytes memory' =>
        Stored region part bytes memory' ∧ region.Confines memory memory') := by
  have hlength := Region.length_read h
  unfold Simulates Scratch.decode
  rw [run_bind, run_within]
  unfold decodeAtMost decodeInto
  rw [hlength]
  cases hrequired : Base64.decodedLength text with
  | error e => rfl
  | ok required =>
    by_cases hlimit : region.length < required
    · simp only [if_pos hlimit]
    · simp only [if_neg hlimit]
      cases hdecode : Base64.decode alphabet text with
      | error e => rfl
      | ok bytes =>
        have hencoding := Base64.decode_eq_ok_iff.mp hdecode
        rw [Base64.decodedLength_of_isEncoding hencoding, Except.ok.injEq] at hrequired
        have hbytes : bytes.length ≤ region.length := by omega
        refine ⟨_, _, rfl, ⟨rfl, Nat.min_le_right _ _, ?_⟩, Region.confines_write h _⟩
        rw [Region.read_first hbytes, Region.read_write h (by rw [Bytes.length_fill, hlength])]
        exact Bytes.take_fill (by rw [hlength]; exact hbytes)

/-- The verification in a memory that is large enough gives the result of the one without a memory.
-/
theorem verifySignature_eq (message signature modulus exponent : Bytes) {memory : Bytes}
    (h : verificationSize ≤ memory.length) :
    (verifySignature message signature modulus exponent memory).1 =
        checkSignature message signature modulus exponent ∧
      (verifySignature message signature modulus exponent memory).2.length = memory.length := by
  rw [verifySignature, if_neg (Nat.not_lt.mpr h), checkSignature]
  cases hblock : recoverBlock signature modulus exponent with
  | error e => exact ⟨rfl, rfl⟩
  | ok block =>
    have hsize : block.length ≤ modulusSize := by
      obtain ⟨hkey, hlength, -, rfl⟩ := recoverBlock_eq_ok_iff.mp hblock
      rw [Bytes.length_ofNat, hlength]
      exact hkey.modulus_le
    have hdigest : (Sha256.digest message).length = digestSize := Sha256.length_digest message
    have hverification : verificationSize = modulusSize + digestSize := rfl
    -- the digest is written behind the place of the longest block
    let blockRegion : Region := ⟨0, block.length⟩
    let digestRegion : Region := ⟨modulusSize, digestSize⟩
    have hblockFits : blockRegion.Fits memory := by simp only [Region.Fits, blockRegion]; omega
    have hconfines := Region.confines_write hblockFits block
    have hdigestFits : digestRegion.Fits memory := by simp only [Region.Fits, digestRegion]; omega
    have hdigestFits' := hconfines.fits hdigestFits
    have hapart : blockRegion.Apart digestRegion := by
      simp only [Region.Apart, blockRegion, digestRegion]
      omega
    have hreadBlock := (Region.confines_write hdigestFits' (Sha256.digest message)).read_eq hapart
    rw [Region.read_write hblockFits rfl] at hreadBlock
    have hreadDigest := Region.read_write hdigestFits' hdigest
    rw [Region.write_of_length_eq hdigest, Region.write_of_length_eq rfl] at hreadBlock hreadDigest
    refine ⟨?_, by simp only [Bytes.length_writeAt]⟩
    show checkBlock (blockRegion.read _) (digestRegion.read _) = checkBlock block _
    rw [hreadBlock, hreadDigest]

/-- The verification changes nothing outside of its region. -/
theorem verifySignature_simulates (h : region.Fits memory)
    (hsize : verificationSize ≤ region.length)
    (message signature modulus exponent : Bytes) :
    Simulates memory (Scratch.verifySignature message signature modulus exponent region)
      (checkSignature message signature modulus exponent)
      (fun _ _ memory' => region.Confines memory memory') := by
  have hlength := Region.length_read h
  obtain ⟨heq, -⟩ :=
    verifySignature_eq message signature modulus exponent (hsize.trans_eq hlength.symm)
  unfold Simulates Scratch.verifySignature
  rw [run_within, heq]
  cases checkSignature message signature modulus exponent with
  | error e => rfl
  | ok u => exact ⟨_, _, rfl, Region.confines_write h _⟩

theorem readField_simulates {content : Bytes} (h : region.read memory = content) (name : String) :
    Simulates memory (Scratch.readField name region) (fieldText name content)
      (fun a b memory' => a = b ∧ memory' = memory) := by
  subst h
  refine Simulates.read_bind ?_
  rw [fieldText]
  cases readField name (region.read memory) with
  | error e => rfl
  | ok field => exact ⟨_, _, rfl, rfl, rfl⟩

end DeviceTrust.Jws
