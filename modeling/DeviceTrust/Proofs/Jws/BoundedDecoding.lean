import DeviceTrust.Proofs.Jws.Faultless

/-!
# Decoding stays in its region

The space for a text is checked before the text is read, by the number of bytes that it is told to
hold. If there is too little space, or if this number cannot be told, nothing is written. Otherwise
what is written are the first bytes of the region, at most this many, also if the text turns out not
to be base64 after a part of it has been written. Neither the other bytes of the region nor the
other regions of the memory change.

Results:
* `BoundedDecoding`: all that is promised of a decoding.
* `BoundedDecoding.of_error`, `of_lt`, `of_le`: a text without a length, with too little space, and
  with enough.
* `decode_bounded`: each decoding keeps the promises, with any base64 decoder behind it.
-/

namespace DeviceTrust.Jws

open Base64 (Alphabet)

/-- What decoding a text into a region of a memory comes to: its result, and the memory that it
leaves. -/
structure BoundedDecoding (alphabet : Alphabet) (text : Bytes) (region : Region) (memory : Bytes)
    (result : Except Error Region) (left : Bytes) : Prop where
  /-- The space is insufficient exactly if the text is told to hold more bytes than the region has. -/
  insufficientSpace_iff : result = .error .insufficientSpace ↔
    ∃ n, Base64.decodedLength text = .ok n ∧ region.length < n
  /-- A length that cannot be told is an error. -/
  lengthError : ∀ e, Base64.decodedLength text = .error e → result = .error (.base64 e)
  /-- Without a length, or without the space for it, nothing is written. -/
  unchanged : (∃ e, Base64.decodedLength text = .error e) ∨ result = .error .insufficientSpace →
    left = memory
  /-- Nothing but the first bytes of the region changes, as many as the text is told to hold. -/
  confined : ∀ n, Base64.decodedLength text = .ok n → (region.first n).Confines memory left
  /-- What is returned are these bytes. -/
  returned : ∀ part, result = .ok part → ∃ n, Base64.decodedLength text = .ok n ∧
    n ≤ region.length ∧ part = ⟨region.offset, n⟩
  /-- With enough space, what is decoded depends on the text alone. -/
  content : ∀ n, Base64.decodedLength text = .ok n → n ≤ region.length →
    result.map (·.read left) = (Base64.decode alphabet text).mapError .base64

namespace BoundedDecoding

variable {alphabet : Alphabet} {text memory left : Bytes} {region : Region} {n : Nat}

theorem of_error {e : Base64.DecodeError} (h : Base64.decodedLength text = .error e) :
    BoundedDecoding alphabet text region memory (.error (.base64 e)) memory := by
  constructor <;> simp [h]

theorem of_lt (hlength : Base64.decodedLength text = .ok n) (hroom : region.length < n) :
    BoundedDecoding alphabet text region memory (.error .insufficientSpace) memory := by
  constructor
  case content =>
    intro m hm hle
    have : n = m := Except.ok.inj (hlength.symm.trans hm)
    omega
  all_goals simp [hlength, hroom, Region.Confines.refl]

theorem of_le (hlength : Base64.decodedLength text = .ok n) (hroom : n ≤ region.length)
    (hconfined : (region.first n).Confines memory left)
    (hcontent : ∀ bytes, Base64.decode alphabet text = .ok bytes →
      (region.first n).read left = bytes) :
    BoundedDecoding alphabet text region memory
      (((Base64.decode alphabet text).map fun _ => region.first n).mapError .base64) left := by
  have hfirst : region.first n = ⟨region.offset, n⟩ := by
    rw [Region.first, Nat.min_eq_left hroom]
  have hspace : ¬∃ m, Base64.decodedLength text = .ok m ∧ region.length < m := by
    rintro ⟨m, hm, hlt⟩
    have : n = m := Except.ok.inj (hlength.symm.trans hm)
    omega
  have hresult : ((Base64.decode alphabet text).map fun _ => region.first n).mapError
      Error.base64 ≠ .error .insufficientSpace := by
    cases Base64.decode alphabet text <;> simp [Except.map, Except.mapError]
  constructor
  case insufficientSpace_iff => exact iff_of_false hresult hspace
  case lengthError => simp [hlength]
  case unchanged => simp [hlength, hresult]
  case confined =>
    intro m hm
    rw [← Except.ok.inj (hlength.symm.trans hm)]
    exact hconfined
  case returned =>
    intro part hpart
    refine ⟨n, hlength, hroom, ?_⟩
    cases hdecode : Base64.decode alphabet text with
    | error e =>
      rw [hdecode] at hpart
      cases hpart
    | ok bytes =>
      rw [hdecode] at hpart
      exact (Except.ok.inj hpart).symm.trans hfirst
  case content =>
    intro _ _ _
    cases hdecode : Base64.decode alphabet text with
    | error e => rfl
    | ok bytes => exact congrArg Except.ok (hcontent bytes hdecode)

end BoundedDecoding

variable {text memory : Bytes} {region : Region} {n : Nat}

/-- What has been written at the start of a region is read from there. -/
theorem read_first_write_fill {bytes : Bytes} (hfits : region.Fits memory)
    (hroom : n ≤ region.length) (hbytes : bytes.length = n) :
    (region.first n).read (region.write (Bytes.fill (region.read memory) bytes) memory) =
      bytes := by
  have hfirst : (region.first n).Fits memory := Checked.InSize.first hfits n
  have hlength : (region.first n).length = n := Nat.min_eq_left hroom
  have hread := Region.length_read hfirst
  rw [← Checked.write_fill_first hfits hroom (Nat.le_of_eq hbytes),
    Bytes.fill_of_length_eq (by omega)]
  exact Region.read_write hfirst (hbytes.trans hlength.symm)

/-! ## Runs -/

theorem run_decode_of_error (alphabet : Alphabet) {e : Base64.DecodeError}
    (h : Base64.decodedLength text = .error e) (hfits : region.Fits memory) :
    (Scratch.decode alphabet text region).run.run memory = (.error (.base64 e), memory) := by
  rw [Checked.run_decode, decodeInto, h]
  dsimp only
  rw [Region.write_read hfits]
  rfl

theorem run_decode_of_lt (alphabet : Alphabet) (hlength : Base64.decodedLength text = .ok n)
    (hroom : region.length < n) (hfits : region.Fits memory) :
    (Scratch.decode alphabet text region).run.run memory =
      (.error .insufficientSpace, memory) := by
  rw [Checked.run_decode, decodeInto, hlength]
  dsimp only
  rw [Region.length_read hfits, if_pos hroom, Region.write_read hfits]
  rfl

theorem run_decode_of_le (alphabet : Alphabet) (hlength : Base64.decodedLength text = .ok n)
    (hroom : n ≤ region.length) (hfits : region.Fits memory) : ∃ left,
    (region.first n).Confines memory left ∧
    (Scratch.decode alphabet text region).run.run memory =
      (((Base64.decode alphabet text).map fun _ => region.first n).mapError .base64, left) ∧
    ∀ bytes, Base64.decode alphabet text = .ok bytes →
      left = region.write (Bytes.fill (region.read memory) bytes) memory := by
  rw [Checked.run_decode, decodeInto, hlength]
  dsimp only
  rw [Region.length_read hfits, if_neg (Nat.not_lt.mpr hroom)]
  cases hdecode : Base64.decode alphabet text with
  | error e =>
    refine ⟨memory, .refl _ _, ?_, fun _ h => by cases h⟩
    rw [Region.write_read hfits]
    rfl
  | ok bytes =>
    have hbytes := Base64.length_of_decode hlength hdecode
    refine ⟨_, ?_, by rw [← hbytes]; rfl, fun _ h => by rw [← Except.ok.inj h]⟩
    rw [← Checked.write_fill_first hfits hroom (Nat.le_of_eq hbytes)]
    exact Region.confines_write (Checked.InSize.first hfits n) _

/-- A decoding into a region that lies in the memory stays within its bounds, in the total form and
with every base64 decoder. The results are the same, and after an error the decoder may have left a
part of the text in the first bytes of the region. -/
theorem decode_bounded (alphabet : Alphabet) (text : Bytes) (hfits : region.Fits memory) :
    let (result, left) := (Scratch.decode alphabet text region).run.run memory
    BoundedDecoding alphabet text region memory result left ∧
    ∀ decoder : Checked.Decoder, decoder.IsBase64 → ∃ left',
      (Checked.Scratch.decode decoder alphabet text region).run.run memory =
        .ok (result, left') ∧
      BoundedDecoding alphabet text region memory result left' := by
  cases hlength : Base64.decodedLength text with
  | error e =>
    rw [run_decode_of_error alphabet hlength hfits]
    refine ⟨.of_error hlength, fun decoder _ => ⟨memory, ?_, .of_error hlength⟩⟩
    exact Checked.run_decode_of_error decoder alphabet hlength region memory
  | ok n =>
    by_cases hroom : region.length < n
    · rw [run_decode_of_lt alphabet hlength hroom hfits]
      refine ⟨.of_lt hlength hroom, fun decoder _ => ⟨memory, ?_, .of_lt hlength hroom⟩⟩
      exact Checked.run_decode_of_lt decoder alphabet hlength hroom memory
    · have hroom := Nat.le_of_not_lt hroom
      -- with enough space, both forms leave what is decoded at the same place
      have hread : ∀ {left}, (∀ bytes, Base64.decode alphabet text = .ok bytes →
          left = region.write (Bytes.fill (region.read memory) bytes) memory) →
          ∀ bytes, Base64.decode alphabet text = .ok bytes →
            (region.first n).read left = bytes := by
        intro left hleft bytes hbytes
        rw [hleft bytes hbytes]
        exact read_first_write_fill hfits hroom (Base64.length_of_decode hlength hbytes)
      obtain ⟨left, hconfined, hrun, hleft⟩ := run_decode_of_le alphabet hlength hroom hfits
      rw [hrun]
      refine ⟨.of_le hlength hroom hconfined (hread hleft), fun decoder hdecoder => ?_⟩
      obtain ⟨left', hconfined', hrun', hleft'⟩ :=
        Checked.run_decode_of_le hdecoder alphabet hlength hroom hfits
      exact ⟨left', hrun', .of_le hlength hroom hconfined' (hread hleft')⟩

/-- Two bytes between two others: a text that fills them, and one that is longer. -/
theorem decode_bounded_neighbours :
    BoundedDecoding .standard [81, 85, 73, 61] ⟨1, 2⟩ [7, 7, 7, 7] (.ok ⟨1, 2⟩) [7, 65, 66, 7] ∧
    (∃ left, (Checked.Scratch.decode Checked.leadingDecoder .standard [81, 85, 73, 61]
        ⟨1, 2⟩).run.run [7, 7, 7, 7] = .ok (.ok ⟨1, 2⟩, left) ∧
      BoundedDecoding .standard [81, 85, 73, 61] ⟨1, 2⟩ [7, 7, 7, 7] (.ok ⟨1, 2⟩) left) ∧
    BoundedDecoding .urlSafe [81, 85, 74, 68] ⟨1, 2⟩ [7, 7, 7, 7] (.error .insufficientSpace)
      [7, 7, 7, 7] := by
  have hfits : Region.Fits ⟨1, 2⟩ [7, 7, 7, 7] := by
    show 1 + 2 ≤ 4
    decide
  have hfills : (Scratch.decode .standard [81, 85, 73, 61] ⟨1, 2⟩).run.run [7, 7, 7, 7] =
      (.ok ⟨1, 2⟩, [7, 65, 66, 7]) := rfl
  have hlonger : (Scratch.decode .urlSafe [81, 85, 74, 68] ⟨1, 2⟩).run.run [7, 7, 7, 7] =
      (.error .insufficientSpace, [7, 7, 7, 7]) := rfl
  have hbounded := decode_bounded .standard [81, 85, 73, 61] hfits
  have hbounded' := decode_bounded .urlSafe [81, 85, 74, 68] hfits
  rw [hfills] at hbounded
  rw [hlonger] at hbounded'
  exact ⟨hbounded.1, hbounded.2 _ Checked.leadingDecoder_isBase64, hbounded'.1⟩

end DeviceTrust.Jws
