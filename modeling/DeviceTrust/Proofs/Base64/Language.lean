import DeviceTrust.Proofs.Base64.Canonical
import Mathlib.Data.List.Basic

/-!
# The language of base64

The texts that are read, told without the bytes that they hold: symbols in groups of four, the last
of which may have two or three symbols with no bits to spare, and then as much of the padding that
would complete this group as one likes.

Results:
* `isCanonical_iff`: symbols of this kind are the unpadded forms of byte strings.
* `exists_isEncoding_iff`: the texts that hold bytes are the symbols of this kind with padding.
* `isEncoding_inj_iff`: two such texts hold the same bytes iff they differ in padding only.
* `exists_eq_append_padding`: the padding at the end of a text.
* `decodedLength_eq_ok`: the number of bytes, by the rest of the text.
* `length_packLeading_le_decodedLength`: what the leading symbols of a text hold.
-/

namespace DeviceTrust.Base64

variable {alphabet : Alphabet} {symbols text text' bytes bytes' padding : Bytes}

/-- Symbols of an alphabet that end with a byte. -/
structure IsCanonical (alphabet : Alphabet) (symbols : Bytes) : Prop where
  isSymbol : ∀ b ∈ symbols, ∃ n < 64, alphabet.symbol n = b
  length_mod : symbols.length % 4 ≠ 1
  /-- The bits of the last symbol that belong to no byte are zero. -/
  unused : ∀ front n, n < 64 → symbols = front ++ [alphabet.symbol n] →
    (symbols.length % 4 = 2 → n % 16 = 0) ∧ (symbols.length % 4 = 3 → n % 4 = 0)

/-- What may follow `count` symbols: equals signs that complete the last group, or some of them. -/
inductive IsPadding (count : Nat) : Bytes → Prop where
  | absent : IsPadding count []
  | one (h : count % 4 = 2 ∨ count % 4 = 3) : IsPadding count [61]
  | two (h : count % 4 = 2) : IsPadding count [61, 61]

/-! ## Symbols -/

theorem unusedBits_concat_eq_zero_iff (front : List Nat) (n : Nat) :
    unusedBits (front ++ [n]) = 0 ↔
      ((front ++ [n]).length % 4 = 2 → n % 16 = 0) ∧
        ((front ++ [n]).length % 4 = 3 → n % 4 = 0) := by
  have hlast : (front ++ [n]).getLastD 0 = n := by simp
  rw [unusedBits, hlast]
  generalize (front ++ [n]).length % 4 = residue
  split
  next => simp
  next => simp
  next htwo hthree => exact iff_of_true rfl ⟨fun h => absurd h htwo, fun h => absurd h hthree⟩

theorem IsCanonical.isSymbol_eq_true (h : IsCanonical alphabet symbols) :
    ∀ b ∈ symbols, alphabet.isSymbol b = true := by
  intro b hb
  obtain ⟨n, hn, rfl⟩ := h.isSymbol b hb
  exact alphabet.isSymbol_symbol hn

theorem IsCanonical.unusedBits_eq_zero (h : IsCanonical alphabet symbols) :
    unusedBits (symbols.filterMap alphabet.value?) = 0 := by
  have hmap := map_symbol_filterMap_value? h.isSymbol_eq_true
  have hlt : ∀ n ∈ symbols.filterMap alphabet.value?, n < 64 := filterMap_value?_lt
  generalize symbols.filterMap alphabet.value? = sextets at hmap hlt
  rcases List.eq_nil_or_concat' sextets with rfl | ⟨front, n, rfl⟩
  · rfl
  · have hlength : symbols.length = (front ++ [n]).length := by
      rw [← hmap, List.length_map]
    have hlast : symbols = front.map alphabet.symbol ++ [alphabet.symbol n] := by
      rw [← hmap, List.map_append, List.map_singleton]
    rw [unusedBits_concat_eq_zero_iff, ← hlength]
    exact h.unused _ n (hlt n (by simp)) hlast

theorem IsCanonical.exists_encodeUnpadded (h : IsCanonical alphabet symbols) :
    ∃ bytes, symbols = encodeUnpadded alphabet bytes := by
  have hdecode : decodeSymbols alphabet symbols =
      .ok (pack (symbols.filterMap alphabet.value?)) := if_pos h.unusedBits_eq_zero
  exact ⟨_, (encodeUnpadded_of_decodeSymbols h.isSymbol_eq_true h.length_mod hdecode).symm⟩

theorem isCanonical_encodeUnpadded (alphabet : Alphabet) (bytes : Bytes) :
    IsCanonical alphabet (encodeUnpadded alphabet bytes) where
  isSymbol := by
    intro b hb
    obtain ⟨n, hn, rfl⟩ := List.mem_map.mp hb
    exact ⟨n, unpack_lt bytes n hn, rfl⟩
  length_mod := length_encodeUnpadded_mod alphabet bytes
  unused := by
    intro front n hn hlast
    have hzero := unusedBits_unpack bytes
    -- the last symbol is that of the last sextet
    rw [encodeUnpadded, List.map_eq_append_iff] at hlast
    obtain ⟨front', last, hunpack, -, hlast⟩ := hlast
    obtain ⟨m, rfl, hm⟩ := List.map_eq_singleton_iff.mp hlast
    have hmlt : m < 64 := unpack_lt bytes m (by simp [hunpack])
    obtain rfl : m = n := by
      have := congrArg alphabet.value? hm
      rwa [alphabet.value?_symbol hmlt, alphabet.value?_symbol hn, Option.some.injEq] at this
    rwa [encodeUnpadded, List.length_map, hunpack, ← unusedBits_concat_eq_zero_iff, ← hunpack]

theorem isCanonical_iff :
    IsCanonical alphabet symbols ↔ ∃ bytes, symbols = encodeUnpadded alphabet bytes := by
  refine ⟨IsCanonical.exists_encodeUnpadded, ?_⟩
  rintro ⟨bytes, rfl⟩
  exact isCanonical_encodeUnpadded alphabet bytes

/-! ## Padding -/

theorem isPadding_iff {count : Nat} (h : count % 4 ≠ 1) :
    IsPadding count padding ↔
      ∃ n, n ≤ (4 - count % 4) % 4 ∧ padding = List.replicate n pad := by
  constructor
  · intro hpadding
    cases hpadding with
    | absent => exact ⟨0, Nat.zero_le _, rfl⟩
    | one hcount => exact ⟨1, by omega, rfl⟩
    | two hcount => exact ⟨2, by omega, rfl⟩
  · rintro ⟨n, hn, rfl⟩
    have htwo : n ≤ 2 := by omega
    interval_cases n
    · exact .absent
    · exact .one (by omega)
    · exact .two (by omega)

/-! ## Texts -/

/-- The form of bytes together with its padding. -/
theorem isEncoding_iff : IsEncoding alphabet text bytes ↔
    ∃ padding, text = encodeUnpadded alphabet bytes ++ padding ∧
      IsPadding (encodeUnpadded alphabet bytes).length padding := by
  have hmod := length_encodeUnpadded_mod alphabet bytes
  constructor
  · rintro ⟨n, hn, rfl⟩
    exact ⟨_, rfl, (isPadding_iff hmod).mpr ⟨n, hn, rfl⟩⟩
  · rintro ⟨padding, rfl, hpadding⟩
    obtain ⟨n, hn, rfl⟩ := (isPadding_iff hmod).mp hpadding
    exact ⟨n, hn, rfl⟩

theorem exists_isEncoding_iff : (∃ bytes, IsEncoding alphabet text bytes) ↔
    ∃ symbols padding, text = symbols ++ padding ∧ IsCanonical alphabet symbols ∧
      IsPadding symbols.length padding := by
  constructor
  · rintro ⟨bytes, h⟩
    obtain ⟨padding, htext, hpadding⟩ := isEncoding_iff.mp h
    exact ⟨_, padding, htext, isCanonical_encodeUnpadded alphabet bytes, hpadding⟩
  · rintro ⟨symbols, padding, htext, hsymbols, hpadding⟩
    obtain ⟨bytes, rfl⟩ := hsymbols.exists_encodeUnpadded
    exact ⟨bytes, isEncoding_iff.mpr ⟨padding, htext, hpadding⟩⟩

/-! ## Texts with the same bytes -/

theorem takeWhile_isSymbol_replicate (alphabet : Alphabet) (common : Bytes) (n : Nat) :
    (common ++ List.replicate n pad).takeWhile alphabet.isSymbol =
      common.takeWhile alphabet.isSymbol := by
  rw [List.takeWhile_append]
  split
  next hall =>
    have hnil : (List.replicate n pad).takeWhile alphabet.isSymbol = [] := by
      cases n <;> simp [List.replicate_succ]
    rw [hnil, List.append_nil, (List.takeWhile_prefix _).eq_of_length hall]
  next => rfl

theorem IsEncoding.takeWhile_isSymbol (h : IsEncoding alphabet text bytes) :
    text.takeWhile alphabet.isSymbol = encodeUnpadded alphabet bytes := by
  obtain ⟨n, -, rfl⟩ := h
  exact takeWhile_isSymbol_append alphabet bytes n

theorem encodeUnpadded_inj (h : encodeUnpadded alphabet bytes = encodeUnpadded alphabet bytes') :
    bytes = bytes' := by
  have hdecode := decodeSymbols_encodeUnpadded alphabet bytes
  rw [h, decodeSymbols_encodeUnpadded] at hdecode
  exact (Except.ok.inj hdecode).symm

theorem isEncoding_inj_iff (h : IsEncoding alphabet text bytes)
    (h' : IsEncoding alphabet text' bytes') :
    bytes = bytes' ↔ ∃ common m n, text = common ++ List.replicate m pad ∧
      text' = common ++ List.replicate n pad := by
  constructor
  · rintro rfl
    obtain ⟨m, -, rfl⟩ := h
    obtain ⟨n, -, rfl⟩ := h'
    exact ⟨_, m, n, rfl, rfl⟩
  · rintro ⟨common, m, n, rfl, rfl⟩
    refine encodeUnpadded_inj (?_ : encodeUnpadded alphabet _ = encodeUnpadded alphabet _)
    rw [← h.takeWhile_isSymbol, ← h'.takeWhile_isSymbol, takeWhile_isSymbol_replicate,
      takeWhile_isSymbol_replicate]

/-! ## Room for what a text decodes to

The number of bytes of a text is told from its length and from the padding at its end, before it is
known whether the text is base64 at all. It is three bytes for every four of the text that are not
this padding. A reader that goes through the text from its start comes to no more than that, also if
it writes what it has read before it meets a byte that is no symbol, or padding in a wrong place. -/

theorem paddingLength_le_two (text : Bytes) : paddingLength text ≤ 2 :=
  (List.takeWhile_prefix _).length_le.trans (List.length_take_le _ _)

theorem exists_eq_append_padding (text : Bytes) :
    ∃ front, text = front ++ List.replicate (paddingLength text) pad := by
  have hprefix : (text.reverse.take 2).takeWhile (· == pad) <+: text.reverse :=
    (List.takeWhile_prefix _).trans (List.take_prefix _ _)
  have hpad : (text.reverse.take 2).takeWhile (· == pad) =
      List.replicate (paddingLength text) pad := by
    refine List.eq_replicate_iff.mpr ⟨rfl, fun b hb => ?_⟩
    simpa using List.mem_takeWhile_imp hb
  obtain ⟨rest, hrest⟩ := hprefix
  refine ⟨rest.reverse, ?_⟩
  calc text = text.reverse.reverse := text.reverse_reverse.symm
    _ = (List.replicate (paddingLength text) pad ++ rest).reverse := by rw [← hrest, hpad]
    _ = rest.reverse ++ List.replicate (paddingLength text) pad := by
      rw [List.reverse_append, List.reverse_replicate]

theorem paddingLength_le (text : Bytes) : paddingLength text ≤ text.length := by
  obtain ⟨front, htext⟩ := exists_eq_append_padding text
  have hlength := congrArg List.length htext
  rw [List.length_append, List.length_replicate] at hlength
  omega

theorem decodedLength_eq_ok {n : Nat} (h : decodedLength text = .ok n) :
    n = (text.length - paddingLength text) * 3 / 4 := by
  simp only [decodedLength] at h
  split at h
  next => have := Except.ok.inj h; omega
  next => have := Except.ok.inj h; omega
  next => have := Except.ok.inj h; omega
  next => cases h

theorem length_of_decode {alphabet : Alphabet} {bytes : Bytes} {n : Nat}
    (hn : decodedLength text = .ok n) (h : decode alphabet text = .ok bytes) :
    bytes.length = n := by
  have hlength := decodedLength_of_isEncoding (decode_eq_ok_iff.mp h)
  rw [hn] at hlength
  exact (Except.ok.inj hlength).symm

/-- No symbol is part of the padding. -/
theorem length_leading_le (alphabet : Alphabet) (front : Bytes) (n : Nat) :
    ((front ++ List.replicate n pad).takeWhile alphabet.isSymbol).length ≤ front.length := by
  rw [takeWhile_isSymbol_replicate]
  exact (List.takeWhile_prefix _).length_le

/-- The bytes that the symbols at the start of a text hold, up to the first byte that is none. -/
def packLeading (alphabet : Alphabet) (text : Bytes) : Bytes :=
  pack ((text.takeWhile alphabet.isSymbol).filterMap alphabet.value?)

theorem length_packLeading_le (alphabet : Alphabet) (front : Bytes) (n : Nat) :
    (packLeading alphabet (front ++ List.replicate n pad)).length ≤ front.length * 3 / 4 := by
  have hvalues := (List.length_filterMap_le alphabet.value?
    ((front ++ List.replicate n pad).takeWhile alphabet.isSymbol)).trans
      (length_leading_le alphabet front n)
  rw [packLeading, length_pack]
  omega

theorem packLeading_of_decode {alphabet : Alphabet} {bytes : Bytes}
    (h : decode alphabet text = .ok bytes) : packLeading alphabet text = bytes := by
  have hencoding := decode_eq_ok_iff.mp h
  rw [packLeading, hencoding.takeWhile_isSymbol, encodeUnpadded,
    filterMap_value?_map_symbol alphabet (unpack_lt bytes), pack_unpack]

/-- What is read of a text, also of one that is not read to its end, has room in as many bytes as
the text is told to hold. -/
theorem length_packLeading_le_decodedLength {n : Nat} (alphabet : Alphabet)
    (h : decodedLength text = .ok n) : (packLeading alphabet text).length ≤ n := by
  obtain ⟨front, htext⟩ := exists_eq_append_padding text
  have hlength := congrArg List.length htext
  rw [List.length_append, List.length_replicate] at hlength
  have hle := length_packLeading_le alphabet front (paddingLength text)
  rw [← htext] at hle
  have hn := decodedLength_eq_ok h
  omega

end DeviceTrust.Base64
