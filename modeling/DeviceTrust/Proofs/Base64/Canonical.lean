import DeviceTrust.Base64
import Mathlib.Data.List.TakeWhile
import Mathlib.Tactic.IntervalCases

/-!
# The base64 texts that are read

A byte string has one form without padding, and reading accepts that form followed by any part of
the padding that would complete its last group of four, and nothing else. The number of bytes
follows from the length of the text and its padding, so it is known before the text has been read.

Results:
* `decode_eq_ok_iff`: a text is read as `bytes` iff it is a form of `bytes`.
* `decodedLength_of_isEncoding`: the length of a form tells the number of bytes.
-/

namespace DeviceTrust.Base64

/-- `text` is a form of `bytes`: their symbols, and then at most the padding that completes the last
group of four. -/
def IsEncoding (alphabet : Alphabet) (text bytes : Bytes) : Prop :=
  ∃ n, n ≤ (4 - (encodeUnpadded alphabet bytes).length % 4) % 4 ∧
    text = encodeUnpadded alphabet bytes ++ List.replicate n pad

/-! ## Symbols -/

theorem Alphabet.symbol_ofNat (alphabet : Alphabet) (b : Fin 256) :
    ∀ n ∈ alphabet.value? (UInt8.ofNat b), n < 64 ∧ alphabet.symbol n = UInt8.ofNat b := by
  cases alphabet <;> revert b <;> decide +kernel

theorem Alphabet.value?_eq_some {alphabet : Alphabet} {b : UInt8} {n : Nat}
    (h : alphabet.value? b = some n) : n < 64 ∧ alphabet.symbol n = b := by
  have hb : UInt8.ofNat b.toNat = b := UInt8.ofNat_toNat
  have := alphabet.symbol_ofNat ⟨b.toNat, b.toNat_lt⟩ n
  simp only [hb] at this
  exact this h

@[simp] theorem Alphabet.isSymbol_pad (alphabet : Alphabet) : alphabet.isSymbol pad = false := by
  cases alphabet <;> rfl

theorem Alphabet.isSymbol_symbol (alphabet : Alphabet) {n : Nat} (h : n < 64) :
    alphabet.isSymbol (alphabet.symbol n) = true := by
  rw [isSymbol, value?_symbol alphabet h]
  rfl

theorem filterMap_value?_map_symbol (alphabet : Alphabet) {sextets : List Nat}
    (h : ∀ n ∈ sextets, n < 64) :
    (sextets.map alphabet.symbol).filterMap alphabet.value? = sextets := by
  induction sextets with
  | nil => rfl
  | cons n rest ih =>
    rw [List.map_cons, List.filterMap_cons, alphabet.value?_symbol (h n (by simp))]
    simp only [ih fun m hm => h m (by simp [hm])]

theorem map_symbol_filterMap_value? {alphabet : Alphabet} {symbols : Bytes}
    (h : ∀ b ∈ symbols, alphabet.isSymbol b = true) :
    (symbols.filterMap alphabet.value?).map alphabet.symbol = symbols := by
  induction symbols with
  | nil => rfl
  | cons b rest ih =>
    obtain ⟨n, hn⟩ := Option.isSome_iff_exists.mp (h b (by simp))
    rw [List.filterMap_cons, hn]
    simp only [List.map_cons, (Alphabet.value?_eq_some hn).2, ih fun c hc => h c (by simp [hc])]

theorem filterMap_value?_lt {alphabet : Alphabet} {symbols : Bytes} :
    ∀ n ∈ symbols.filterMap alphabet.value?, n < 64 := by
  intro n hn
  obtain ⟨b, -, hb⟩ := List.mem_filterMap.mp hn
  exact (Alphabet.value?_eq_some hb).1

/-! ## Sextets of bytes -/

theorem unpack_lt (bytes : Bytes) : ∀ n ∈ unpack bytes, n < 64 := by
  fun_induction unpack bytes with
  | case1 x y z rest ih =>
    have hx := x.toNat_lt; have hy := y.toNat_lt; have hz := z.toNat_lt
    intro n hn
    simp only [List.mem_cons] at hn
    rcases hn with rfl | rfl | rfl | rfl | hn
    · omega
    · omega
    · omega
    · omega
    · exact ih n hn
  | case2 x y =>
    have hx := x.toNat_lt; have hy := y.toNat_lt
    intro n hn
    simp only [List.mem_cons, List.not_mem_nil, or_false] at hn
    omega
  | case3 x =>
    have hx := x.toNat_lt
    intro n hn
    simp only [List.mem_cons, List.not_mem_nil, or_false] at hn
    omega
  | case4 => simp

theorem length_unpack (bytes : Bytes) : (unpack bytes).length = (bytes.length * 4 + 2) / 3 := by
  fun_induction unpack bytes with
  | case1 x y z rest ih => simp only [List.length_cons, ih]; omega
  | case2 | case3 | case4 => simp

theorem unusedBits_cons (a b c d : Nat) (rest : List Nat) :
    unusedBits (a :: b :: c :: d :: rest) = unusedBits rest := by
  cases rest with
  | nil => simp [unusedBits]
  | cons x rest =>
    simp only [unusedBits, List.length_cons, Nat.add_mod_right, List.getLastD_cons,
      show rest.length + 1 + 1 + 1 + 1 + 1 = rest.length + 1 + 4 by omega]

theorem unusedBits_unpack (bytes : Bytes) : unusedBits (unpack bytes) = 0 := by
  fun_induction unpack bytes with
  | case1 x y z rest ih => rw [unusedBits_cons, ih]
  | case2 x y =>
    show y.toNat % 16 * 4 % 4 = 0
    omega
  | case3 x =>
    show x.toNat % 4 * 16 % 16 = 0
    omega
  | case4 => rfl

/-- Sextets that fill whole bytes and no bits beyond are those of the bytes they make. -/
theorem unpack_pack {sextets : List Nat} (hlt : ∀ n ∈ sextets, n < 64)
    (hlen : sextets.length % 4 ≠ 1) (hbits : unusedBits sextets = 0) :
    unpack (pack sextets) = sextets := by
  fun_induction pack sextets with
  | case1 a b c d rest ih =>
    have ha := hlt a (by simp); have hb := hlt b (by simp)
    have hc := hlt c (by simp); have hd := hlt d (by simp)
    have hlength : rest.length % 4 ≠ 1 := by
      simp only [List.length_cons] at hlen
      omega
    have hrest := ih (fun n hn => hlt n (by simp [hn])) hlength
      (by rwa [unusedBits_cons] at hbits)
    simp only [unpack, hrest, UInt8.toNat_ofNat', Nat.reducePow, List.cons.injEq, and_true]
    omega
  | case2 a b c =>
    have ha := hlt a (by simp); have hb := hlt b (by simp); have hc := hlt c (by simp)
    have hbits : c % 4 = 0 := hbits
    simp only [unpack, UInt8.toNat_ofNat', Nat.reducePow, List.cons.injEq, and_true]
    omega
  | case3 a b =>
    have ha := hlt a (by simp); have hb := hlt b (by simp)
    have hbits : b % 16 = 0 := hbits
    simp only [unpack, UInt8.toNat_ofNat', Nat.reducePow, List.cons.injEq, and_true]
    omega
  | case4 => exact absurd rfl hlen
  | case5 => rfl

/-! ## Forms -/

theorem length_encodeUnpadded (alphabet : Alphabet) (bytes : Bytes) :
    (encodeUnpadded alphabet bytes).length = (bytes.length * 4 + 2) / 3 := by
  rw [encodeUnpadded, List.length_map, length_unpack]

/-- The last group of a form has no symbol, or two, or three. -/
theorem length_encodeUnpadded_mod (alphabet : Alphabet) (bytes : Bytes) :
    (encodeUnpadded alphabet bytes).length % 4 ≠ 1 := by
  rw [length_encodeUnpadded]
  have hdiv := Nat.div_add_mod bytes.length 3
  have hlt := Nat.mod_lt bytes.length (by decide : 3 > 0)
  generalize bytes.length / 3 = q, bytes.length % 3 = r at hdiv hlt
  rw [← hdiv]
  interval_cases r <;> omega

theorem isSymbol_of_mem_encodeUnpadded {alphabet : Alphabet} {bytes : Bytes} :
    ∀ b ∈ encodeUnpadded alphabet bytes, alphabet.isSymbol b = true := by
  intro b hb
  obtain ⟨n, hn, rfl⟩ := List.mem_map.mp hb
  exact alphabet.isSymbol_symbol (unpack_lt bytes n hn)

theorem decodeSymbols_encodeUnpadded (alphabet : Alphabet) (bytes : Bytes) :
    decodeSymbols alphabet (encodeUnpadded alphabet bytes) = .ok bytes := by
  simp only [decodeSymbols, encodeUnpadded, filterMap_value?_map_symbol alphabet (unpack_lt bytes),
    unusedBits_unpack, ite_true, pack_unpack]

theorem encodeUnpadded_of_decodeSymbols {alphabet : Alphabet} {symbols bytes : Bytes}
    (hsym : ∀ b ∈ symbols, alphabet.isSymbol b = true) (hlen : symbols.length % 4 ≠ 1)
    (h : decodeSymbols alphabet symbols = .ok bytes) : encodeUnpadded alphabet bytes = symbols := by
  have hmap := map_symbol_filterMap_value? hsym
  simp only [decodeSymbols] at h
  split at h
  next hbits =>
    have hcount : (symbols.filterMap alphabet.value?).length = symbols.length := by
      rw [← List.length_map alphabet.symbol, hmap]
    rw [Except.ok.injEq] at h
    rw [← h, encodeUnpadded, unpack_pack filterMap_value?_lt (by rwa [hcount]) hbits, hmap]
  next => simp at h

/-- The symbols of a form end where its padding starts. -/
theorem takeWhile_isSymbol_append (alphabet : Alphabet) (bytes : Bytes) (n : Nat) :
    (encodeUnpadded alphabet bytes ++ List.replicate n pad).takeWhile alphabet.isSymbol =
      encodeUnpadded alphabet bytes := by
  rw [List.takeWhile_append_of_pos isSymbol_of_mem_encodeUnpadded]
  cases n with
  | zero => simp
  | succ n => simp [List.replicate_succ]

/-- Padding that fits stands behind a last group that lacks it. -/
theorem paddingFits_iff {count : Nat} {padding : Bytes} :
    paddingFits count padding = true ↔
      padding = [] ∨ 2 ≤ count % 4 ∧ count % 4 + padding.length ≤ 4 ∧
        padding = List.replicate padding.length pad := by
  simp only [paddingFits, Bool.or_eq_true, List.isEmpty_iff, Bool.and_eq_true, decide_eq_true_eq,
    List.all_eq_true, beq_iff_eq, List.eq_replicate_iff, true_and, and_assoc]

theorem isEncoding_of_decode {alphabet : Alphabet} {text bytes : Bytes}
    (h : decode alphabet text = .ok bytes) : IsEncoding alphabet text bytes := by
  simp only [decode] at h
  split at h
  next => split at h <;> simp at h
  next hlen =>
  split at h
  next hfits =>
    have htext := List.prefix_iff_eq_append.mp (List.takeWhile_prefix alphabet.isSymbol (l := text))
    have hsym : ∀ b ∈ text.takeWhile alphabet.isSymbol, alphabet.isSymbol b = true :=
      fun b hb => List.mem_takeWhile_imp hb
    generalize text.takeWhile alphabet.isSymbol = symbols at *
    generalize text.drop symbols.length = padding at *
    rcases paddingFits_iff.mp hfits with rfl | ⟨htwo, hfour, hpad⟩
    · rw [List.append_nil] at htext
      have hform := encodeUnpadded_of_decodeSymbols hsym (by rwa [htext]) h
      exact ⟨0, Nat.zero_le _, by rw [hform, htext, List.replicate_zero, List.append_nil]⟩
    · have hform := encodeUnpadded_of_decodeSymbols hsym (by omega) h
      refine ⟨padding.length, ?_, by rw [hform, ← hpad, htext]⟩
      rw [hform]
      omega
  next => simp at h

theorem decode_of_isEncoding {alphabet : Alphabet} {text bytes : Bytes}
    (h : IsEncoding alphabet text bytes) : decode alphabet text = .ok bytes := by
  obtain ⟨n, hn, rfl⟩ := h
  have hcount := length_encodeUnpadded_mod alphabet bytes
  have hlen : (encodeUnpadded alphabet bytes ++ List.replicate n pad).length % 4 ≠ 1 := by
    rw [List.length_append, List.length_replicate]
    omega
  have hfits :
      paddingFits (encodeUnpadded alphabet bytes).length (List.replicate n pad) = true := by
    rw [paddingFits_iff, List.length_replicate]
    rcases Nat.eq_zero_or_pos n with rfl | hpos
    · exact .inl rfl
    · exact .inr ⟨by omega, by omega, rfl⟩
  simp only [decode, takeWhile_isSymbol_append, List.drop_left, hfits, hlen, ite_false, ite_true]
  exact decodeSymbols_encodeUnpadded alphabet bytes

theorem decode_eq_ok_iff {alphabet : Alphabet} {text bytes : Bytes} :
    decode alphabet text = .ok bytes ↔ IsEncoding alphabet text bytes :=
  ⟨isEncoding_of_decode, decode_of_isEncoding⟩

/-! ## The number of bytes -/

/-- No symbol is mistaken for padding. -/
theorem paddingLength_append {alphabet : Alphabet} {symbols : Bytes} {n : Nat} (hn : n ≤ 2)
    (hsym : ∀ b ∈ symbols, alphabet.isSymbol b = true) :
    paddingLength (symbols ++ List.replicate n pad) = n := by
  have hlast : ∀ b rest, symbols.reverse = b :: rest → (b == pad) = false := by
    intro b rest hrev
    have hb : b ∈ symbols := by
      rw [← List.mem_reverse, hrev]
      exact List.mem_cons_self
    rw [beq_eq_false_iff_ne]
    rintro rfl
    simpa using hsym pad hb
  rw [paddingLength, List.reverse_append, List.reverse_replicate]
  cases hrev : symbols.reverse with
  | nil => interval_cases n <;> rfl
  | cons b rest =>
    have hb := hlast b rest hrev
    interval_cases n <;> simp [List.replicate_succ, hb]

theorem decodedLength_of_isEncoding {alphabet : Alphabet} {text bytes : Bytes}
    (h : IsEncoding alphabet text bytes) : decodedLength text = .ok bytes.length := by
  obtain ⟨n, hn, rfl⟩ := h
  have hpadding : paddingLength (encodeUnpadded alphabet bytes ++ List.replicate n pad) = n := by
    have := length_encodeUnpadded_mod alphabet bytes
    exact paddingLength_append (by omega) isSymbol_of_mem_encodeUnpadded
  rw [decodedLength, hpadding, List.length_append, List.length_replicate, Nat.add_sub_cancel,
    length_encodeUnpadded]
  -- the residue of the number of bytes tells how many symbols the last group has
  have hdiv := Nat.div_add_mod bytes.length 3
  have hlt := Nat.mod_lt bytes.length (by decide : 3 > 0)
  generalize bytes.length / 3 = q, bytes.length % 3 = r at hdiv hlt
  rw [← hdiv]
  interval_cases r
  · rw [show ((3 * q + 0) * 4 + 2) / 3 = 4 * q by omega, show 4 * q % 4 = 0 by omega,
      show 4 * q / 4 * 3 = 3 * q + 0 by omega]
    rfl
  · rw [show ((3 * q + 1) * 4 + 2) / 3 = 4 * q + 2 by omega, show (4 * q + 2) % 4 = 2 by omega,
      show (4 * q + 2) / 4 * 3 + 1 = 3 * q + 1 by omega]
    rfl
  · rw [show ((3 * q + 2) * 4 + 2) / 3 = 4 * q + 3 by omega, show (4 * q + 3) % 4 = 3 by omega,
      show (4 * q + 3) / 4 * 3 + 2 = 3 * q + 2 by omega]
    rfl

end DeviceTrust.Base64
