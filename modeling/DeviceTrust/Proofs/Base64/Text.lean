import DeviceTrust.Proofs.Base64.Canonical
import DeviceTrust.Proofs.Json.Writing

/-!
# Base64 as text

Base64 is ASCII, so it stands for itself as a text, also between the quotes of a JSON document.

Results:
* `utf8_text`, `utf8_unpaddedText`: the bytes of a base64 text.
* `isUnescaped_text`, `isUnescaped_unpaddedText`: no character of it has to be escaped.
* `isEncoding_encode`, `isEncoding_encodeUnpadded`: both forms are read back.
-/

namespace DeviceTrust.Base64

/-! ## ASCII -/

/-- The text of ASCII bytes. -/
def asciiText (bytes : Bytes) : String :=
  String.ofList (bytes.map fun b => Char.ofNat b.toNat)

theorem utf8EncodeChar_ofNat (n : Fin 128) :
    String.utf8EncodeChar (Char.ofNat n) = [UInt8.ofNat n] := by
  revert n
  decide +kernel

theorem toNat_ofNat_ascii (n : Fin 128) : (Char.ofNat n).toNat = n := by
  revert n
  decide +kernel

variable {bytes : Bytes}

theorem utf8_asciiText (h : ∀ b ∈ bytes, b.toNat < 128) : utf8 (asciiText bytes) = bytes := by
  rw [Json.utf8_eq_flatMap, asciiText, String.toList_ofList]
  induction bytes with
  | nil => rfl
  | cons b bytes ih =>
    obtain ⟨hb, hbytes⟩ := List.forall_mem_cons.mp h
    have hchar : String.utf8EncodeChar (Char.ofNat b.toNat) = [b] := by
      rw [utf8EncodeChar_ofNat ⟨b.toNat, hb⟩, UInt8.ofNat_toNat]
    rw [List.map_cons, List.flatMap_cons, hchar, ih hbytes]
    rfl

theorem isUnescaped_asciiText (h : ∀ b ∈ bytes, b.toNat < 128 ∧ Json.IsPlain b) :
    Json.IsUnescaped (asciiText bytes) := by
  intro c hc
  rw [asciiText, String.toList_ofList, List.mem_map] at hc
  obtain ⟨b, hb, rfl⟩ := hc
  obtain ⟨hascii, hcontrol, hquote, hbackslash⟩ := h b hb
  have hchar : (Char.ofNat b.toNat).toNat = b.toNat := toNat_ofNat_ascii ⟨b.toNat, hascii⟩
  have hnat (n : Fin 128) (h : Char.ofNat b.toNat = Char.ofNat n) : b = UInt8.ofNat n := by
    rw [← toNat_ofNat_ascii n, ← h, hchar, UInt8.ofNat_toNat]
  refine ⟨fun h => hquote (hnat 34 h), fun h => hbackslash (hnat 92 h), ?_⟩
  rw [hchar]
  exact Nat.le_of_not_lt fun hlt => hcontrol (UInt8.lt_iff_toNat_lt.mpr hlt)

/-! ## Symbols -/

theorem Alphabet.symbol_ascii (alphabet : Alphabet) {n : Nat} (h : n < 64) :
    (alphabet.symbol n).toNat < 128 ∧ Json.IsPlain (alphabet.symbol n) := by
  unfold Json.IsPlain
  cases alphabet <;> revert n <;> decide

theorem ascii_of_mem_encodeUnpadded {alphabet : Alphabet} :
    ∀ b ∈ encodeUnpadded alphabet bytes, b.toNat < 128 ∧ Json.IsPlain b := by
  intro b hb
  obtain ⟨n, hn, rfl⟩ := List.mem_map.mp hb
  exact alphabet.symbol_ascii (unpack_lt bytes n hn)

theorem ascii_of_mem_encode {alphabet : Alphabet} :
    ∀ b ∈ encode alphabet bytes, b.toNat < 128 ∧ Json.IsPlain b := by
  have hpad : pad.toNat < 128 ∧ Json.IsPlain pad := by
    unfold Json.IsPlain
    decide
  intro b hb
  rcases List.mem_append.mp hb with hb | hb
  · exact ascii_of_mem_encodeUnpadded b hb
  · rwa [List.eq_of_mem_replicate hb]

/-! ## Texts -/

/-- The base64 text of bytes. -/
def text (alphabet : Alphabet) (bytes : Bytes) : String :=
  asciiText (encode alphabet bytes)

/-- The base64 text of bytes, without padding. -/
def unpaddedText (alphabet : Alphabet) (bytes : Bytes) : String :=
  asciiText (encodeUnpadded alphabet bytes)

@[simp] theorem utf8_text (alphabet : Alphabet) (bytes : Bytes) :
    utf8 (text alphabet bytes) = encode alphabet bytes :=
  utf8_asciiText fun b hb => (ascii_of_mem_encode b hb).1

@[simp] theorem utf8_unpaddedText (alphabet : Alphabet) (bytes : Bytes) :
    utf8 (unpaddedText alphabet bytes) = encodeUnpadded alphabet bytes :=
  utf8_asciiText fun b hb => (ascii_of_mem_encodeUnpadded b hb).1

theorem isUnescaped_text (alphabet : Alphabet) (bytes : Bytes) :
    Json.IsUnescaped (text alphabet bytes) :=
  isUnescaped_asciiText ascii_of_mem_encode

theorem isUnescaped_unpaddedText (alphabet : Alphabet) (bytes : Bytes) :
    Json.IsUnescaped (unpaddedText alphabet bytes) :=
  isUnescaped_asciiText ascii_of_mem_encodeUnpadded

theorem isEncoding_encode (alphabet : Alphabet) (bytes : Bytes) :
    IsEncoding alphabet (encode alphabet bytes) bytes :=
  ⟨_, Nat.le_refl _, rfl⟩

theorem isEncoding_encodeUnpadded (alphabet : Alphabet) (bytes : Bytes) :
    IsEncoding alphabet (encodeUnpadded alphabet bytes) bytes :=
  ⟨0, Nat.zero_le _, (List.append_nil _).symm⟩

/-- A padded form has four symbols for each group of three bytes that has been started. -/
theorem length_encode (alphabet : Alphabet) (bytes : Bytes) :
    (encode alphabet bytes).length = (bytes.length + 2) / 3 * 4 := by
  have hlength := length_encodeUnpadded alphabet bytes
  simp only [encode, List.length_append, List.length_replicate]
  omega

end DeviceTrust.Base64
