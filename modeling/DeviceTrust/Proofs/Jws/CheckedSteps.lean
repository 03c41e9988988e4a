import DeviceTrust.Proofs.Base64.Language
import DeviceTrust.Proofs.Jws.Compact
import DeviceTrust.Proofs.Jws.Verification
import DeviceTrust.Proofs.Region

/-!
# Steps with checked access

The steps of an authentication, written with places and ranges that are checked. Each range is taken
from quantities that have been worked out apart from each other: the places of the separators, the
number of bytes of a key and of a power, the length of a filler and of its block. None of them is
ever out of range, and the results are those of the total forms.

Results:
* `Rsa.PublicKey.exists_power`: the power that is taken exists and is not longer than the key.
* `split_eq`: the segments of a text, from the places of its separators.
* `blockContent_eq`, `checkBlock_eq`: the content of a signature block and the digest in it.
* `verifySignature_eq_ok`: the verification of a signature.
-/

namespace DeviceTrust

/-! ## Powers -/

namespace Rsa

/-- The big-endian bytes of a number without zeros in front; zero is a single byte. -/
def minimalBytes (n : Nat) : Bytes :=
  Bytes.ofNat (max 1 (byteLength n)) n

/-- A power, which does not exist modulo zero. -/
def checkedPowMod (base exponent modulus : Nat) : Except Fault Nat :=
  if modulus = 0 then .error .zeroModulus else .ok (powMod base exponent modulus)

theorem length_minimalBytes_le {n modulus : Nat} (h : n < modulus) :
    (minimalBytes n).length ≤ byteLength modulus := by
  have hpos : 1 ≤ byteLength modulus := by
    rw [byteLength, if_neg (by omega)]
    exact Nat.succ_pos _
  have hle : byteLength n ≤ byteLength modulus :=
    byteLength_le_of_lt (Nat.lt_trans h (lt_pow_byteLength modulus))
  rw [minimalBytes, Bytes.length_ofNat]
  omega

/-- A number in a block is its own bytes, aligned to the right. -/
theorem ofNat_eq_minimalBytes {n size : Nat} (h : (minimalBytes n).length ≤ size) :
    Bytes.ofNat size n =
      List.replicate (size - (minimalBytes n).length) 0 ++ minimalBytes n := by
  have hzero : n / 256 ^ max 1 (byteLength n) = 0 := by
    refine Nat.div_eq_of_lt (Nat.lt_of_lt_of_le (lt_pow_byteLength n) ?_)
    exact Nat.pow_le_pow_right (by decide) (Nat.le_max_right _ _)
  rw [minimalBytes, Bytes.length_ofNat] at h ⊢
  conv => lhs; rw [← Nat.sub_add_cancel h]
  rw [Bytes.ofNat_add, hzero, Bytes.ofNat_zero]

/-- The power of a value below the modulus exists, and it has room in a block of the size of the
key. -/
theorem PublicKey.exists_power {key : PublicKey} {value : Nat} (h : value < key.modulus) :
    ∃ power, checkedPowMod value key.exponent key.modulus = .ok power ∧
      (minimalBytes power).length ≤ key.size ∧
      key.recover value = List.replicate (key.size - (minimalBytes power).length) 0 ++
        minimalBytes power := by
  have hpower : powMod value key.exponent key.modulus < key.modulus := by
    rw [powMod_eq]
    exact Nat.mod_lt _ (by omega)
  have hroom : (minimalBytes (powMod value key.exponent key.modulus)).length ≤ key.size :=
    length_minimalBytes_le hpower
  exact ⟨_, if_neg (by omega), hroom, ofNat_eq_minimalBytes hroom⟩

end Rsa

namespace Jws.Checked

/-! ## Segments -/

/-- The places of the separators in a text whose first byte has the place `first`. -/
def separatorsFrom (first : Nat) (text : Bytes) : List Nat :=
  ((text.zipIdx first).filter (·.1 == separator)).map (·.2)

/-- The segments of a text and the text that the signature covers. -/
def split (text : Bytes) : Except Fault (Except Error (Compact × Bytes)) :=
  match separatorsFrom 0 text with
  | [first, second] => do
    let header ← text.slice 0 first
    let payload ← text.slice (first + 1) second
    let signature ← text.slice (second + 1) text.length
    let signedContent ← text.slice 0 second
    if header.isEmpty ∨ payload.isEmpty ∨ signature.isEmpty then return .error .malformedJws
    return .ok (⟨header, payload, signature⟩, signedContent)
  | _ => return .error .malformedJws

theorem separatorsFrom_of_notMem {text : Bytes} (first : Nat) (h : separator ∉ text) :
    separatorsFrom first text = [] := by
  rw [separatorsFrom, List.map_eq_nil_iff, List.filter_eq_nil_iff]
  rintro ⟨b, place⟩ hmem hb
  rw [beq_iff_eq] at hb
  exact h (hb ▸ List.fst_mem_of_mem_zipIdx hmem)

theorem separatorsFrom_append {front : Bytes} (first : Nat) (h : separator ∉ front)
    (back : Bytes) : separatorsFrom first (front ++ separator :: back) =
      (first + front.length) :: separatorsFrom (first + front.length + 1) back := by
  have hfront := separatorsFrom_of_notMem first h
  rw [separatorsFrom] at hfront
  rw [separatorsFrom, List.zipIdx_append, List.filter_append, List.map_append, hfront,
    List.zipIdx_cons, List.filter_cons_of_pos (by exact beq_self_eq_true separator)]
  rfl

/-- The ranges on both sides of two separators. -/
theorem slices_of_separators (header payload signature : Bytes) :
    let text := header ++ separator :: (payload ++ separator :: signature)
    let second := header.length + 1 + payload.length
    text.slice 0 header.length = .ok header ∧
    text.slice (header.length + 1) second = .ok payload ∧
    text.slice (second + 1) text.length = .ok signature ∧
    text.slice 0 second = .ok (header ++ separator :: payload) := by
  intro text second
  have hheader : text = [] ++ (header ++ separator :: (payload ++ separator :: signature)) := rfl
  have hpayload : text = header ++ [separator] ++ (payload ++ separator :: signature) := by
    simp only [text, List.append_assoc, List.singleton_append]
  have hsignature : text =
      header ++ separator :: payload ++ [separator] ++ (signature ++ []) := by
    simp only [text, List.append_assoc, List.cons_append, List.nil_append, List.append_nil]
  have hsigned : text = [] ++ (header ++ separator :: payload ++ separator :: signature) := by
    simp only [text, List.append_assoc, List.cons_append, List.nil_append]
  have hlength : text.length = second + 1 + signature.length := by
    simp only [text, second, List.length_append, List.length_cons]
    omega
  have hsecond : (header ++ separator :: payload).length = second := by
    simp only [second, List.length_append, List.length_cons]
    omega
  refine ⟨Bytes.slice_of_eq_append hheader rfl (Nat.zero_add _),
    Bytes.slice_of_eq_append hpayload List.length_append rfl,
    Bytes.slice_of_eq_append hsignature ?_ hlength.symm,
    Bytes.slice_of_eq_append hsigned rfl ((Nat.zero_add _).trans hsecond)⟩
  rw [List.length_append, hsecond]
  rfl

/-- The ranges between two separators are the segments. -/
theorem split_eq (text : Bytes) :
    split text = .ok ((Compact.split text).map fun jws => (jws, jws.signedContent)) := by
  by_cases hfirst : separator ∈ text
  · obtain ⟨header, rest, rfl, hheader⟩ := List.eq_append_cons_of_mem hfirst
    by_cases hsecond : separator ∈ rest
    · obtain ⟨payload, signature, rfl, hpayload⟩ := List.eq_append_cons_of_mem hsecond
      rw [split, separatorsFrom_append 0 hheader, separatorsFrom_append _ hpayload, Nat.zero_add]
      simp only [Compact.split, cutAtSeparator_append hheader, cutAtSeparator_append hpayload]
      by_cases hthird : separator ∈ signature
      · -- the total form finds a third separator in the last segment only
        obtain ⟨more, others, hmore, hmem⟩ := List.eq_append_cons_of_mem hthird
        rw [if_pos (by simp [hthird])]
        conv => lhs; rw [hmore, separatorsFrom_append _ hmem]
        rfl
      · obtain ⟨h₁, h₂, h₃, h₄⟩ := slices_of_separators header payload signature
        rw [separatorsFrom_of_notMem _ hthird]
        simp only [h₁, h₂, h₃, h₄, List.contains_eq_mem, hthird, decide_false,
          Bool.false_eq_true, or_false, bind, Except.bind]
        split <;> rfl
    · rw [split, separatorsFrom_append 0 hheader, separatorsFrom_of_notMem _ hsecond]
      simp only [Compact.split, cutAtSeparator_append hheader, cutAtSeparator_of_notMem hsecond]
      rfl
  · rw [split, separatorsFrom_of_notMem 0 hfirst]
    simp only [Compact.split, cutAtSeparator_of_notMem hfirst]
    rfl

/-! ## Base64 -/

/-- The number of bytes that `text` decodes to. -/
def decodedLength (text : Bytes) : Except Fault (Except Base64.DecodeError Nat) := do
  let symbols ← difference text.length (Base64.paddingLength text)
  match symbols % 4 with
  | 0 => return .ok (symbols / 4 * 3)
  | 2 => return .ok (symbols / 4 * 3 + 1)
  | 3 => return .ok (symbols / 4 * 3 + 2)
  | _ => return .error .invalidLength

theorem decodedLength_eq (text : Bytes) :
    decodedLength text = .ok (Base64.decodedLength text) := by
  simp only [decodedLength, difference_eq (Base64.paddingLength_le text), bind, Except.bind,
    Base64.decodedLength]
  generalize text.length - Base64.paddingLength text = symbols
  have hrest : symbols % 4 = 0 ∨ symbols % 4 = 1 ∨ symbols % 4 = 2 ∨ symbols % 4 = 3 := by omega
  rcases hrest with h | h | h | h <;> rw [h] <;> rfl

/-! ## Signature blocks -/

/-- The content of a block, after its filler and the zero byte that ends it. -/
def blockContent (block : Bytes) : Except Fault (Option Bytes) := do
  if block.length < 2 then return none
  if (← block.byteAt 0) ≠ 0x00 then return none
  if (← block.byteAt 1) ≠ 0x01 then return none
  let rest ← block.slice 2 block.length
  let filler := (rest.takeWhile (· == 0xff)).length
  if filler < Rsa.minFillerLength ∨ block[2 + filler]? ≠ some 0x00 then return none
  let content ← block.slice (2 + filler + 1) block.length
  return some content

/-- Compares the digest in a block with the one that is expected. -/
def checkBlock (block digest : Bytes) : Except Fault (Except Error Unit) := do
  let some content ← blockContent block | return .error .invalidPadding
  if content.length ≠ Rsa.digestInfoHead.length + Sha256.digestLength then
    return .error .invalidPadding
  let head ← content.slice 0 digestInfoOffset
  if head ≠ Rsa.digestInfoHead then return .error .invalidPadding
  let found ← content.slice digestInfoOffset content.length
  return if found = digest then .ok () else .error .signatureMismatch

/-- Where the filler of a block ends. -/
theorem getElem?_filler (rest : Bytes) (n : Nat) :
    (0x00 :: 0x01 :: rest : Bytes)[2 + n]? = (rest.drop n).head? := by
  rw [List.head?_drop, Nat.add_comm]
  rfl

theorem blockContent_of_header (rest : Bytes) : blockContent (0x00 :: 0x01 :: rest) =
    .ok (Rsa.blockContent? (0x00 :: 0x01 :: rest)) := by
  have hrest : Bytes.slice (0x00 :: 0x01 :: rest) 2 (0x00 :: 0x01 :: rest).length = .ok rest :=
    Bytes.slice_from (Nat.le_add_left 2 rest.length)
  have hlength : ¬(0x00 :: 0x01 :: rest : Bytes).length < 2 :=
    Nat.not_lt.mpr (Nat.le_add_left 2 rest.length)
  simp only [blockContent, Rsa.blockContent?, hlength, Bytes.byteAt_zero, Bytes.byteAt_succ, hrest,
    getElem?_filler, bind, Except.bind, pure, Except.pure, ne_eq, not_true_eq_false, ite_false]
  generalize (rest.takeWhile (· == 0xff)).length = filler
  cases htail : rest.drop filler with
  | nil => simp
  | cons b content =>
    by_cases hb : b = 0x00
    · subst hb
      have hlength := congrArg List.length htail
      rw [List.length_drop, List.length_cons] at hlength
      have hblock : (0x00 :: 0x01 :: rest : Bytes) =
          0x00 :: 0x01 :: (rest.take filler ++ [0x00]) ++ (content ++ []) := by
        conv => lhs; rw [← List.take_append_drop filler rest, htail]
        simp
      have hcontent : Bytes.slice (0x00 :: 0x01 :: rest) (2 + filler + 1)
          (0x00 :: 0x01 :: rest).length = .ok content := by
        refine Bytes.slice_of_eq_append hblock ?_ ?_
        · simp only [List.length_cons, List.length_append, List.length_take, List.length_nil]
          omega
        · simp only [List.length_cons]
          omega
      simp only [hcontent, List.head?_cons, not_true_eq_false, or_false]
      by_cases hfiller : filler < Rsa.minFillerLength
      · rw [if_pos hfiller, if_neg (Nat.not_le.mpr hfiller)]
      · rw [if_neg hfiller, if_pos (Nat.le_of_not_lt hfiller)]
    · simp [hb]

/-- The filler of a block ends before the block does, or nothing behind it is taken. -/
theorem blockContent_eq (block : Bytes) : blockContent block = .ok (Rsa.blockContent? block) := by
  match block with
  | [] => rfl
  | [b] =>
    have hnone : Rsa.blockContent? [b] = none := by simp [Rsa.blockContent?]
    rw [hnone]
    rfl
  | first :: second :: rest =>
    by_cases hfirst : first = 0x00
    · by_cases hsecond : second = 0x01
      · rw [hfirst, hsecond]
        exact blockContent_of_header rest
      · simp [blockContent, Rsa.blockContent?, hfirst, hsecond, bind, Except.bind, pure,
          Except.pure]
    · simp [blockContent, Rsa.blockContent?, hfirst, bind, Except.bind, pure, Except.pure]

theorem checkBlock_eq (block digest : Bytes) :
    checkBlock block digest = .ok (Jws.checkBlock block digest) := by
  have hoffset : digestInfoOffset = Rsa.digestInfoHead.length := rfl
  simp only [checkBlock, Jws.checkBlock, Rsa.blockDigest?, blockContent_eq, bind, Except.bind]
  cases Rsa.blockContent? block with
  | none => rfl
  | some content =>
    simp only [Option.bind_some, ne_eq]
    by_cases hlength : content.length = Rsa.digestInfoHead.length + Sha256.digestLength
    · have hle : digestInfoOffset ≤ content.length := by omega
      rw [Bytes.slice_to hle, Bytes.slice_from hle]
      simp only [hlength, not_true_eq_false, ite_false, true_and, ← hoffset]
      by_cases hhead : content.take digestInfoOffset = Rsa.digestInfoHead
      · simp only [hhead, not_true_eq_false, ite_false, ite_true]
        rfl
      · simp only [hhead, not_false_eq_true, ite_false, ite_true]
        rfl
    · simp only [hlength, not_false_eq_true, false_and, ite_false, ite_true]
      rfl

/-! ## Signatures -/

/-- Lays down a recovered number, aligned to the right of a block of `size` bytes, and a digest. -/
def layDown (size : Nat) (recovered digest memory : Bytes) :
    Except Fault (Region × Region × Bytes) := do
  let (front, back) ← (Region.whole memory.length).splitAt modulusSize
  let block ← front.range 0 size
  let digestRegion ← back.range 0 digestSize
  let leading ← difference size recovered.length
  let zeros ← block.range 0 leading
  let memory ← zeros.store (List.replicate leading 0) memory
  let rest ← block.range leading block.length
  let memory ← rest.store recovered memory
  let memory ← digestRegion.store digest memory
  return (block, digestRegion, memory)

/-- Verifies a signature in a memory of at least `verificationSize` bytes. -/
def verifySignature (message signature modulus exponent memory : Bytes) :
    Except Fault (Except Error Unit × Bytes) := do
  if memory.length < verificationSize then return (.error .insufficientSpace, memory)
  match Rsa.PublicKey.ofBytes modulus exponent with
  | .error e => return (.error (.key e), memory)
  | .ok key =>
    if modulusSize < key.size then return (.error .keyTooLarge, memory)
    if signature.length ≠ key.size then return (.error .invalidSignatureLength, memory)
    if key.modulus ≤ signature.toNat then return (.error .signatureMismatch, memory)
    let power ← Rsa.checkedPowMod signature.toNat key.exponent key.modulus
    let (block, digest, memory) ←
      layDown key.size (Rsa.minimalBytes power) (Sha256.digest message) memory
    let result ← checkBlock (← block.load memory) (← digest.load memory)
    return (result, memory)

/-- The zeros and the number fill the block, and the digest lies behind the longest block. -/
theorem layDown_eq {size : Nat} {recovered digest memory : Bytes}
    (hmemory : verificationSize ≤ memory.length) (hsize : size ≤ modulusSize)
    (hrecovered : recovered.length ≤ size) (hdigest : digest.length = digestSize) :
    layDown size recovered digest memory = .ok (⟨0, size⟩, ⟨modulusSize, digestSize⟩,
      Bytes.writeAt (Bytes.writeAt memory 0
        (List.replicate (size - recovered.length) 0 ++ recovered)) modulusSize digest) := by
  have hverification : verificationSize = modulusSize + digestSize := rfl
  have hsplit : (Region.whole memory.length).splitAt modulusSize =
      .ok (⟨0, modulusSize⟩, ⟨modulusSize, memory.length - modulusSize⟩) := by
    rw [Region.splitAt_eq (by show modulusSize ≤ memory.length; omega), Region.whole, Nat.zero_add]
  have hblock : Region.range ⟨0, modulusSize⟩ 0 size = .ok ⟨0, size⟩ :=
    Region.range_eq (Nat.zero_le _) hsize
  have hdigestRegion : Region.range ⟨modulusSize, memory.length - modulusSize⟩ 0 digestSize =
      .ok ⟨modulusSize, digestSize⟩ :=
    Region.range_eq (Nat.zero_le _) (by show digestSize ≤ memory.length - modulusSize; omega)
  have hzeros : Region.range ⟨0, size⟩ 0 (size - recovered.length) =
      .ok ⟨0, size - recovered.length⟩ :=
    Region.range_eq (Nat.zero_le _) (Nat.sub_le _ _)
  have hrest : Region.range ⟨0, size⟩ (size - recovered.length) size =
      .ok ⟨size - recovered.length, recovered.length⟩ := by
    rw [Region.range_eq (Nat.sub_le _ _) (Nat.le_refl _), Nat.zero_add, Nat.sub_sub_self hrecovered]
  have hstoreZeros : Region.store ⟨0, size - recovered.length⟩
      (List.replicate (size - recovered.length) 0) memory =
        .ok (Bytes.writeAt memory 0 (List.replicate (size - recovered.length) 0)) :=
    Region.store_eq_writeAt List.length_replicate (by omega)
  have hstoreRest : Region.store ⟨size - recovered.length, recovered.length⟩ recovered
      (Bytes.writeAt memory 0 (List.replicate (size - recovered.length) 0)) =
        .ok (Bytes.writeAt memory 0
          (List.replicate (size - recovered.length) 0 ++ recovered)) := by
    have happend := Bytes.writeAt_append memory (List.replicate (size - recovered.length) 0)
      recovered 0 (by rw [List.length_append, List.length_replicate]; omega)
    rw [List.length_replicate, Nat.zero_add] at happend
    rw [Region.store_eq_writeAt rfl (by rw [Bytes.length_writeAt]; omega), happend]
  have hstoreDigest (memory' : Bytes) (h : memory'.length = memory.length) :
      Region.store ⟨modulusSize, digestSize⟩ digest memory' =
        .ok (Bytes.writeAt memory' modulusSize digest) :=
    Region.store_eq_writeAt hdigest (by omega)
  simp only [layDown, bind, Except.bind, hsplit, hblock, hdigestRegion, difference_eq hrecovered,
    hzeros, hstoreZeros, hrest, hstoreRest, hstoreDigest _ (Bytes.length_writeAt _ _ _)]
  rfl

/-- The modulus is not zero where the power is taken, and the power is not longer than the key. -/
theorem verifySignature_eq_ok (message signature modulus exponent memory : Bytes) :
    verifySignature message signature modulus exponent memory =
      .ok (Jws.verifySignature message signature modulus exponent memory) := by
  rw [verifySignature, Jws.verifySignature]
  by_cases hmemory : memory.length < verificationSize
  · rw [if_pos hmemory, if_pos hmemory]
    rfl
  rw [if_neg hmemory, if_neg hmemory, recoverBlock]
  cases hkey : Rsa.PublicKey.ofBytes modulus exponent with
  | error e => rfl
  | ok key =>
    dsimp only
    by_cases hsize : modulusSize < key.size
    · rw [if_pos hsize, if_pos hsize]
      rfl
    rw [if_neg hsize, if_neg hsize]
    by_cases hlength : signature.length ≠ key.size
    · rw [if_pos hlength, if_pos hlength]
      rfl
    rw [if_neg hlength, if_neg hlength]
    by_cases hrange : key.modulus ≤ signature.toNat
    · rw [if_pos hrange, if_pos hrange]
      rfl
    rw [if_neg hrange, if_neg hrange]
    obtain ⟨power, hpower, hfits, hrecover⟩ :=
      Rsa.PublicKey.exists_power (Nat.lt_of_not_le hrange)
    have hblock := Rsa.PublicKey.length_recover key signature.toNat
    have hlaid := layDown_eq (Nat.le_of_not_lt hmemory) (Nat.le_of_not_lt hsize) hfits
      (Sha256.length_digest message)
    rw [← hrecover] at hlaid
    have hload (region : Region) (hregion : region.offset + region.length ≤ verificationSize) :
        region.Fits (Bytes.writeAt (Bytes.writeAt memory 0 (key.recover signature.toNat))
          modulusSize (Sha256.digest message)) := by
      unfold Region.Fits
      simp only [Bytes.length_writeAt]
      omega
    have hverification : verificationSize = modulusSize + digestSize := rfl
    simp only [bind, Except.bind, hpower, hlaid,
      Region.load_eq (hload ⟨0, key.size⟩ (by dsimp only; omega)),
      Region.load_eq (hload ⟨modulusSize, digestSize⟩ (Nat.le_refl _)), checkBlock_eq, hblock]
    rfl

end Jws.Checked

end DeviceTrust
