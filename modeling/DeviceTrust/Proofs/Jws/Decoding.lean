import DeviceTrust.Jws.Scratch
import DeviceTrust.Proofs.Base64.Language
import DeviceTrust.Proofs.Base64.Text

/-!
# Decoding is exact

The number of bytes is told from the end of a text before the text is read, and the reading has
rules of its own for padding. The two agree on every text that is read, so a region that has room for
this number holds what is decoded, whatever the text.

Results:
* `decoded?_eq_some_iff`: with room, what is decoded is what the text holds.
* `decodeInto_exact`: the texts that are decoded, what they give, and which of them give the same.
-/

namespace DeviceTrust.Jws

open Base64 (Alphabet IsEncoding IsCanonical IsPadding)

variable {alphabet : Alphabet} {text region bytes : Bytes}

/-- The region has room for as many bytes as the text is told to hold, if it can be told at all. -/
def HasRoom (text region : Bytes) : Prop :=
  ∀ n, Base64.decodedLength text = .ok n → n ≤ region.length

/-- What stands at the start of the region after the decoding, as far as it has been written. -/
def decoded? (alphabet : Alphabet) (text region : Bytes) : Option Bytes :=
  match decodeInto alphabet text region with
  | (.ok written, region) => some (region.take written)
  | (.error _, _) => none

theorem decodeInto_of_isEncoding (h : IsEncoding alphabet text bytes)
    (hroom : bytes.length ≤ region.length) :
    decodeInto alphabet text region = (.ok bytes.length, Bytes.fill region bytes) := by
  rw [decodeInto, Base64.decodedLength_of_isEncoding h]
  simp only [Nat.not_lt.mpr hroom, ite_false, Base64.decode_of_isEncoding h]

theorem isEncoding_of_decodeInto {written : Nat} {region' : Bytes}
    (h : decodeInto alphabet text region = (.ok written, region')) :
    ∃ bytes, IsEncoding alphabet text bytes ∧ bytes.length ≤ region.length := by
  unfold decodeInto at h
  split at h
  next => cases h
  next required hrequired =>
    split at h
    next => cases h
    next hroom =>
      split at h
      next => cases h
      next bytes hbytes =>
        have hencoding := Base64.decode_eq_ok_iff.mp hbytes
        have hlength := Base64.decodedLength_of_isEncoding hencoding
        rw [hrequired, Except.ok.injEq] at hlength
        exact ⟨bytes, hencoding, hlength ▸ Nat.le_of_not_lt hroom⟩

theorem decoded?_of_isEncoding (h : IsEncoding alphabet text bytes)
    (hroom : bytes.length ≤ region.length) : decoded? alphabet text region = some bytes := by
  simp only [decoded?, decodeInto_of_isEncoding h hroom, Bytes.take_fill hroom]

theorem decoded?_eq_some_iff (hroom : HasRoom text region) :
    decoded? alphabet text region = some bytes ↔ IsEncoding alphabet text bytes := by
  constructor
  · intro h
    rcases hrun : decodeInto alphabet text region with ⟨e | written, region'⟩
    · simp [decoded?, hrun] at h
    · obtain ⟨bytes', hencoding, hfits⟩ := isEncoding_of_decodeInto hrun
      rw [decoded?_of_isEncoding hencoding hfits, Option.some.injEq] at h
      exact h ▸ hencoding
  · intro h
    exact decoded?_of_isEncoding h (hroom _ (Base64.decodedLength_of_isEncoding h))

/-- A text is decoded iff it is symbols that end with a byte, and padding that completes their last
group or a part of it. It gives as many bytes as it was told to hold, and these give the symbols
back. Both forms of any bytes, with padding and without, are decoded to them. Two texts that are
decoded give the same bytes iff they differ in the equals signs at their ends only. -/
theorem decodeInto_exact (alphabet : Alphabet) (text region : Bytes) (hroom : HasRoom text region) :
    ((decoded? alphabet text region).isSome ↔ ∃ symbols padding, text = symbols ++ padding ∧
      IsCanonical alphabet symbols ∧ IsPadding symbols.length padding) ∧
    (∀ symbols padding, text = symbols ++ padding → IsCanonical alphabet symbols →
      IsPadding symbols.length padding → ∃ bytes, decoded? alphabet text region = some bytes ∧
        Base64.decodedLength text = .ok bytes.length ∧
        Base64.encodeUnpadded alphabet bytes = symbols) ∧
    (∀ bytes, bytes.length ≤ region.length →
      decoded? alphabet (Base64.encode alphabet bytes) region = some bytes ∧
      decoded? alphabet (Base64.encodeUnpadded alphabet bytes) region = some bytes) ∧
    ∀ text' region', HasRoom text' region' → (decoded? alphabet text region).isSome →
      (decoded? alphabet text' region').isSome →
      (decoded? alphabet text region = decoded? alphabet text' region' ↔
        ∃ common m n, text = common ++ List.replicate m 61 ∧
          text' = common ++ List.replicate n 61) := by
  refine ⟨?_, ?_, ?_, ?_⟩
  · rw [Option.isSome_iff_exists, ← Base64.exists_isEncoding_iff]
    exact exists_congr fun bytes => decoded?_eq_some_iff hroom
  · rintro symbols padding rfl hsymbols hpadding
    obtain ⟨bytes, rfl⟩ := hsymbols.exists_encodeUnpadded
    have hencoding := Base64.isEncoding_iff.mpr ⟨padding, rfl, hpadding⟩
    exact ⟨bytes, (decoded?_eq_some_iff hroom).mpr hencoding,
      Base64.decodedLength_of_isEncoding hencoding, rfl⟩
  · intro bytes hfits
    exact ⟨decoded?_of_isEncoding (Base64.isEncoding_encode alphabet bytes) hfits,
      decoded?_of_isEncoding (Base64.isEncoding_encodeUnpadded alphabet bytes) hfits⟩
  · intro text' region' hroom' hsome hsome'
    obtain ⟨bytes, hbytes⟩ := Option.isSome_iff_exists.mp hsome
    obtain ⟨bytes', hbytes'⟩ := Option.isSome_iff_exists.mp hsome'
    rw [hbytes, hbytes', Option.some.injEq]
    exact Base64.isEncoding_inj_iff ((decoded?_eq_some_iff hroom).mp hbytes)
      ((decoded?_eq_some_iff hroom').mp hbytes')

/-- A text of three symbols, with padding and without, in regions of two and of three bytes. -/
theorem decodeInto_exact_padded : ∃ text region text' region' : Bytes, HasRoom text region ∧
    (∃ bytes, decoded? .standard text region = some bytes ∧
      Base64.decodedLength text = .ok bytes.length ∧
      Base64.encodeUnpadded .standard bytes = [81, 85, 73]) ∧
    decoded? .standard text region = decoded? .standard text' region' := by
  let symbols : Bytes := [81, 85, 73]
  have hroom : HasRoom (symbols ++ [61]) [0, 0] := by
    intro n hn
    rw [show Base64.decodedLength (symbols ++ [61]) = .ok 2 by decide] at hn
    exact Nat.le_of_eq (Except.ok.inj hn).symm
  have hroom' : HasRoom symbols [7, 7, 7] := by
    intro n hn
    rw [show Base64.decodedLength symbols = .ok 2 by decide] at hn
    exact Except.ok.inj hn ▸ by decide
  have hsymbols : IsCanonical .standard symbols := Base64.isCanonical_iff.mpr ⟨[65, 66], by decide⟩
  obtain ⟨-, hgives, -, hsame⟩ := decodeInto_exact .standard (symbols ++ [61]) [0, 0] hroom
  obtain ⟨-, hgives', -, -⟩ := decodeInto_exact .standard symbols [7, 7, 7] hroom'
  obtain ⟨bytes, hsome, hbytes⟩ := hgives symbols [61] rfl hsymbols (.one (.inr rfl))
  obtain ⟨bytes', hsome', -⟩ := hgives' symbols [] (by simp) hsymbols .absent
  refine ⟨_, _, symbols, [7, 7, 7], hroom, ⟨bytes, hsome, hbytes⟩, ?_⟩
  exact (hsame symbols [7, 7, 7] hroom' (hsome ▸ rfl) (hsome' ▸ rfl)).mpr
    ⟨symbols, 1, 0, rfl, by simp⟩

end DeviceTrust.Jws
