import DeviceTrust.Proofs.Bytes
import DeviceTrust.Proofs.Json.Grammar
import DeviceTrust.Proofs.Sequence

/-!
# Reading the numbers of the grammar

A number ends where nothing follows that could extend it, so what stands behind it takes part in
where it is cut.

Results:
* `readNumeral_append`: a number that ends is read as a whole.
* `isNumber_of_readNumeral`: what is read is a number.
* `readNumeral_digits`, `eq_integer_of_readNumeral`: plain digits, read and read back.
* `inRange_of_code`: a code stays within the bounds of numbers that are read as values.
-/

namespace DeviceTrust.Json

variable {s rest : Bytes} {atEnd : Error}

/-! ## Ends -/

/-- The bytes that can follow the integer part or the fraction in the same number. -/
def extendsFraction (b : UInt8) : Bool :=
  isDigit b || b == 46

/-- The bytes that can follow in the same number. -/
def extendsNumber (b : UInt8) : Bool :=
  extendsFraction b || b == 101 || b == 69

theorem extendsNumber_of_isDigit {b : UInt8} (h : isDigit b = true) : extendsNumber b = true := by
  simp [extendsNumber, extendsFraction, h]

theorem extendsNumber_of_extendsFraction {b : UInt8} (h : extendsFraction b = true) :
    extendsNumber b = true := by
  simp [extendsNumber, h]

theorem IsExponent.ends {e : Bytes} (h : IsExponent e) (hrest : Bytes.Ends extendsNumber rest) :
    Bytes.Ends extendsFraction (e ++ rest) := by
  cases h with
  | absent => exact hrest.mono fun b => extendsNumber_of_extendsFraction
  | present he hsign hd =>
    rw [List.cons_append, Bytes.ends_cons]
    rcases he with rfl | rfl <;> rfl

theorem IsFraction.ends {f : Bytes} (h : IsFraction f) (hrest : Bytes.Ends extendsFraction rest) :
    Bytes.Ends isDigit (f ++ rest) := by
  cases h with
  | absent => exact hrest.mono fun b hb => by simp [extendsFraction, hb]
  | present hd =>
    rw [List.cons_append, Bytes.ends_cons]
    rfl

theorem IsDigits.cons {digits : Bytes} (h : IsDigits digits) :
    ∃ b tail, digits = b :: tail ∧ isDigit b = true := by
  obtain ⟨hne, hd⟩ := h
  cases digits with
  | nil => exact absurd rfl hne
  | cons b tail => exact ⟨b, tail, rfl, hd b List.mem_cons_self⟩

theorem ne_of_isDigit {b c : UInt8} (h : isDigit b = true) (hc : isDigit c = false) : b ≠ c := by
  rintro rfl
  simp [h] at hc

/-! ## Digits -/

theorem readDigits_append {digits : Bytes} (h : IsDigits digits) (hrest : Bytes.Ends isDigit rest) :
    readDigits atEnd (digits ++ rest) = .ok (digits, rest) := by
  obtain ⟨hne, hd⟩ := h
  simp only [readDigits, Bytes.takeWhile_append_of_ends hd hrest,
    Bytes.dropWhile_append_of_ends hd hrest]
  rw [if_neg (by simpa using hne)]

theorem of_readDigits {digits : Bytes} (h : readDigits atEnd s = .ok (digits, rest)) :
    IsDigits digits ∧ s = digits ++ rest := by
  simp only [readDigits] at h
  split at h
  next => simp at h
  next hne =>
    simp only [Except.ok.injEq, Prod.mk.injEq] at h
    obtain ⟨rfl, rfl⟩ := h
    refine ⟨⟨by simpa using hne, fun b hb => List.mem_takeWhile_imp hb⟩, ?_⟩
    exact List.takeWhile_append_dropWhile.symm

theorem readInteger_append {integer : Bytes} (h : IsInteger integer)
    (hrest : Bytes.Ends isDigit rest) :
    readInteger atEnd (integer ++ rest) = .ok (integer, rest) := by
  obtain ⟨hd, hzero⟩ := h
  simp only [readInteger, readDigits_append hd hrest, bind, Except.bind]
  rw [if_neg (fun hne => hne.2 (hzero hne.1))]

theorem of_readInteger {integer : Bytes} (h : readInteger atEnd s = .ok (integer, rest)) :
    IsInteger integer ∧ s = integer ++ rest := by
  obtain ⟨⟨digits, tail⟩, hp, h⟩ := bind_eq_ok_iff.mp h
  dsimp only at h
  split at h
  next => simp at h
  next hzero =>
    obtain ⟨rfl, rfl⟩ := Prod.mk.inj (Except.ok.inj h)
    obtain ⟨hd, hs⟩ := of_readDigits hp
    exact ⟨⟨hd, by simpa using hzero⟩, hs⟩

/-! ## Fraction and exponent -/

theorem readFraction_absent (atEnd : Error) (hrest : Bytes.Ends extendsFraction rest) :
    readFraction atEnd rest = .ok ([], rest) := by
  unfold readFraction
  split
  next => simp [extendsFraction] at hrest
  next => rfl

theorem readFraction_append (atEnd : Error) {f : Bytes} (h : IsFraction f)
    (hrest : Bytes.Ends extendsFraction rest) :
    ∃ digits, readFraction atEnd (f ++ rest) = .ok (digits, rest) := by
  cases h with
  | absent => exact ⟨[], readFraction_absent atEnd hrest⟩
  | present hd =>
    rw [List.cons_append, readFraction]
    refine ⟨_, readDigits_append hd (hrest.mono fun b hb => ?_)⟩
    simp [extendsFraction, hb]

theorem of_readFraction {digits : Bytes} (h : readFraction atEnd s = .ok (digits, rest)) :
    ∃ f, IsFraction f ∧ s = f ++ rest := by
  unfold readFraction at h
  split at h
  next =>
    obtain ⟨hd, hs⟩ := of_readDigits h
    exact ⟨_, .present hd, by rw [hs, List.cons_append]⟩
  next =>
    simp only [Except.ok.injEq, Prod.mk.injEq] at h
    exact ⟨[], .absent, h.2⟩

theorem readExponentSign_append {sign digits : Bytes}
    (hsign : sign = [] ∨ sign = [43] ∨ sign = [45])
    (hd : IsDigits digits) (rest : Bytes) :
    (readExponentSign (sign ++ (digits ++ rest))).2 = digits ++ rest := by
  obtain ⟨b, tail, rfl, hb⟩ := hd.cons
  have h43 : b ≠ 43 := ne_of_isDigit hb rfl
  have h45 : b ≠ 45 := ne_of_isDigit hb rfl
  rcases hsign with rfl | rfl | rfl <;> simp [readExponentSign, readMinus, skipPlus, h43, h45]

theorem of_readExponentSign (s : Bytes) :
    ∃ sign, (sign = [] ∨ sign = [43] ∨ sign = [45]) ∧ s = sign ++ (readExponentSign s).2 := by
  simp only [readExponentSign, readMinus]
  split
  next rest => exact ⟨[45], by simp, by simp⟩
  next =>
    simp only [Bool.false_eq_true, ite_false, skipPlus]
    split
    next rest => exact ⟨[43], by simp, by simp⟩
    next => exact ⟨[], by simp, by simp⟩

theorem readExponent_absent (atEnd : Error) (hrest : Bytes.Ends extendsNumber rest) :
    readExponent atEnd rest = .ok (none, rest) := by
  unfold readExponent
  split
  next b tail =>
    have hb : ¬(b = 101 ∨ b = 69) := by
      rintro (rfl | rfl) <;> simp [extendsNumber] at hrest
    rw [if_neg hb]
  next => rfl

theorem readExponent_append (atEnd : Error) {e : Bytes} (h : IsExponent e)
    (hrest : Bytes.Ends extendsNumber rest) :
    ∃ value, readExponent atEnd (e ++ rest) = .ok (value, rest) := by
  cases h with
  | absent => exact ⟨none, readExponent_absent atEnd hrest⟩
  | present he hsign hd =>
    have hdigits : Bytes.Ends isDigit rest := hrest.mono fun b => extendsNumber_of_isDigit
    simp only [List.cons_append, List.append_assoc, readExponent, if_pos he,
      readExponentSign_append hsign hd, readDigits_append hd hdigits, bind, Except.bind]
    exact ⟨_, rfl⟩

theorem of_readExponent {value : Option (Bool × Bytes)}
    (h : readExponent atEnd s = .ok (value, rest)) : ∃ e, IsExponent e ∧ s = e ++ rest := by
  unfold readExponent at h
  split at h
  next b tail =>
    split at h
    next hb =>
      obtain ⟨p, hp, h⟩ := bind_eq_ok_iff.mp h
      obtain ⟨-, rfl⟩ := Prod.mk.inj (Except.ok.inj h)
      obtain ⟨hd, hdigits⟩ := of_readDigits hp
      obtain ⟨sign, hsign, htail⟩ := of_readExponentSign tail
      refine ⟨_, .present hb hsign hd, ?_⟩
      rw [List.cons_append, List.append_assoc, ← hdigits, ← htail]
    next =>
      simp only [Except.ok.injEq, Prod.mk.injEq] at h
      exact ⟨[], .absent, h.2⟩
  next =>
    simp only [Except.ok.injEq, Prod.mk.injEq] at h
    exact ⟨[], .absent, h.2⟩

/-! ## Numbers -/

theorem readMinus_append {sign integer : Bytes} (hsign : sign = [] ∨ sign = [45])
    (h : IsInteger integer) (rest : Bytes) :
    (readMinus (sign ++ (integer ++ rest))).2 = integer ++ rest := by
  obtain ⟨b, tail, rfl, hb⟩ := h.1.cons
  have h45 : b ≠ 45 := ne_of_isDigit hb rfl
  rcases hsign with rfl | rfl <;> simp [readMinus, h45]

theorem of_readMinus (s : Bytes) :
    ∃ sign, (sign = [] ∨ sign = [45]) ∧ s = sign ++ (readMinus s).2 := by
  simp only [readMinus]
  split
  next rest => exact ⟨[45], by simp, by simp⟩
  next => exact ⟨[], by simp, by simp⟩

theorem readNumeral_append (atEnd : Error) {t : Bytes} (h : IsNumber t)
    (hrest : Bytes.Ends extendsNumber rest) :
    ∃ x, readNumeral atEnd (t ++ rest) = .ok (x, rest) := by
  obtain ⟨hsign, hinteger, hfraction, hexponent⟩ := h
  have hend := hexponent.ends hrest
  obtain ⟨digits, hf⟩ := readFraction_append atEnd hfraction hend
  obtain ⟨value, he⟩ := readExponent_append atEnd hexponent hrest
  simp only [List.append_assoc, readNumeral, readMinus_append hsign hinteger,
    readInteger_append hinteger (hfraction.ends hend), hf, he, bind, Except.bind]
  exact ⟨_, rfl⟩

theorem isNumber_of_readNumeral {x : Numeral} (h : readNumeral atEnd s = .ok (x, rest)) :
    ∃ t, IsNumber t ∧ s = t ++ rest := by
  obtain ⟨_, h₁, h⟩ := bind_eq_ok_iff.mp h
  obtain ⟨_, h₂, h⟩ := bind_eq_ok_iff.mp h
  obtain ⟨_, h₃, h⟩ := bind_eq_ok_iff.mp h
  obtain ⟨-, rfl⟩ := Prod.mk.inj (Except.ok.inj h)
  obtain ⟨sign, hsign, hs⟩ := of_readMinus s
  obtain ⟨hinteger, hs₁⟩ := of_readInteger h₁
  obtain ⟨f, hf, hs₂⟩ := of_readFraction h₂
  obtain ⟨e, he, hs₃⟩ := of_readExponent h₃
  exact ⟨_, .mk hsign hinteger hf he, by simp only [List.append_assoc, ← hs₃, ← hs₂, ← hs₁, ← hs]⟩

/-- A number starts with a digit or with a minus sign. -/
theorem IsNumber.cons {t : Bytes} (h : IsNumber t) :
    ∃ b tail, t = b :: tail ∧ (b = 45 ∨ isDigit b = true) := by
  obtain ⟨hsign, hinteger, -, -⟩ := h
  obtain ⟨b, tail, rfl, hb⟩ := hinteger.1.cons
  rcases hsign with rfl | rfl
  · exact ⟨b, _, rfl, .inr hb⟩
  · exact ⟨45, _, rfl, .inl rfl⟩

/-! ## Codes -/

/-- A number without other bytes than digits has only an integer part. -/
theorem IsNumber.isInteger {t : Bytes} (h : IsNumber t) (hdigits : ∀ b ∈ t, isDigit b = true) :
    IsInteger t := by
  obtain ⟨hsign, hinteger, hfraction, hexponent⟩ := h
  simp only [List.mem_append] at hdigits
  rcases hsign with rfl | rfl
  · cases hfraction with
    | present => exact absurd (hdigits 46 (by simp)) (by decide)
    | absent =>
      cases hexponent with
      | present he =>
        have hdigit := hdigits _ (.inr (.inr (.inr List.mem_cons_self)))
        rcases he with rfl | rfl <;> exact absurd hdigit (by decide)
      | absent => simpa using hinteger
  · exact absurd (hdigits 45 (by simp)) (by decide)

/-- The value is a plain run of digits that stands for the code. -/
def IsCode (value : Bytes) (code : UInt32) : Prop :=
  IsDigits value ∧ digitsValue value = code.toNat

theorem le_foldl_digits (digits : Bytes) (n : Nat) :
    n ≤ digits.foldl (fun n d => n * 10 + (d.toNat - 48)) n := by
  induction digits generalizing n with
  | nil => exact Nat.le_refl n
  | cons d digits ih =>
    have := ih (n * 10 + (d.toNat - 48))
    rw [List.foldl_cons]
    omega

/-- Digits are kept as long as their value fits. -/
theorem foldl_pushInteger {digits : Bytes} {n : Nat}
    (h : digits.foldl (fun n d => n * 10 + (d.toNat - 48)) n < UInt64.size) :
    digits.foldl Scaled.pushInteger ⟨n, 0, false⟩ =
      ⟨digits.foldl (fun n d => n * 10 + (d.toNat - 48)) n, 0, false⟩ := by
  induction digits generalizing n with
  | nil => rfl
  | cons d digits ih =>
    rw [List.foldl_cons] at h
    have hfits : ¬UInt64.size ≤ n * 10 + (d.toNat - 48) :=
      Nat.not_le.mpr (Nat.lt_of_le_of_lt (le_foldl_digits digits _) h)
    rw [List.foldl_cons, List.foldl_cons, ← ih h, Scaled.pushInteger, Scaled.push]
    simp only [Bool.false_eq_true, false_or, if_neg hfits, ite_false]

/-- A number of at most 53 bits is kept as it is. -/
theorem nearest53_of_lt {n : Nat} (h : n < 1 <<< 53) : nearest53 n = n := by
  have hlog : n.log2 - 52 = 0 := by
    rcases Nat.eq_zero_or_pos n with rfl | hpos
    · rfl
    · rw [Nat.one_shiftLeft] at h
      have := (Nat.log2_lt (Nat.pos_iff_ne_zero.mp hpos)).mpr h
      omega
  simp [nearest53, hlog, Nat.mod_one]

theorem Scaled.inRange_of_lt {n : Nat} (h : n < 1 <<< 53) :
    (Scaled.mk n 0 false).inRange = true := by
  have hone : nearest53 (Nat.pow 10 (Int.toNat 0)) = 1 := by decide
  have hround : nearest53 (nearest53 n * nearest53 (Nat.pow 10 (Int.toNat 0))) < 1 <<< 1024 := by
    rw [hone, Nat.mul_one, nearest53_of_lt h, nearest53_of_lt h]
    exact Nat.lt_trans h (by decide)
  rw [Scaled.inRange, Bool.or_eq_true, Bool.and_eq_true]
  exact .inr ⟨rfl, decide_eq_true hround⟩

/-- A code is far from the bounds of double-precision numbers. -/
theorem inRange_of_code {digits : Bytes} (h : digitsValue digits < UInt32.size) :
    (Numeral.mk false digits [] none).scaled.inRange = true := by
  have hkept : (Numeral.mk false digits [] none).scaled = ⟨digitsValue digits, 0, false⟩ := by
    rw [Numeral.scaled, foldl_pushInteger (Nat.lt_trans h (by decide))]
    rfl
  rw [hkept]
  exact Scaled.inRange_of_lt (Nat.lt_trans h (by decide))

theorem readNumeral_digits {digits : Bytes} (h : IsInteger digits)
    (hrest : Bytes.Ends extendsNumber rest) :
    readNumeral atEnd (digits ++ rest) = .ok (⟨false, digits, [], none⟩, rest) := by
  have hminus : readMinus (digits ++ rest) = (false, digits ++ rest) := by
    obtain ⟨b, tail, rfl, hb⟩ := h.1.cons
    simp [readMinus, ne_of_isDigit hb (rfl : isDigit 45 = false)]
  have hfraction := hrest.mono fun b => extendsNumber_of_extendsFraction
  have hdigit := IsFraction.absent.ends hfraction
  rw [List.nil_append] at hdigit
  simp only [readNumeral, hminus, readInteger_append h hdigit, readFraction_absent atEnd hfraction,
    readExponent_absent atEnd hrest, bind, Except.bind]

theorem eq_of_readFraction_nil (h : readFraction atEnd s = .ok ([], rest)) : s = rest := by
  unfold readFraction at h
  split at h
  next => exact absurd rfl (of_readDigits h).1.1
  next => exact (Prod.mk.inj (Except.ok.inj h)).2

theorem eq_of_readExponent_none (h : readExponent atEnd s = .ok (none, rest)) : s = rest := by
  unfold readExponent at h
  split at h
  next =>
    split at h
    next =>
      simp only [bind, Except.bind] at h
      split at h <;> simp at h
    next => exact (Prod.mk.inj (Except.ok.inj h)).2
  next => exact (Prod.mk.inj (Except.ok.inj h)).2

/-- Without a sign, a fraction and an exponent nothing is read but digits. -/
theorem eq_integer_of_readNumeral {integer : Bytes}
    (h : readNumeral atEnd s = .ok (⟨false, integer, [], none⟩, rest)) :
    IsInteger integer ∧ s = integer ++ rest := by
  obtain ⟨⟨integer', rest₁⟩, h₁, h⟩ := bind_eq_ok_iff.mp h
  obtain ⟨⟨fraction, rest₂⟩, h₂, h⟩ := bind_eq_ok_iff.mp h
  obtain ⟨⟨exponent, rest₃⟩, h₃, h⟩ := bind_eq_ok_iff.mp h
  simp only [Except.ok.injEq, Prod.mk.injEq, Numeral.mk.injEq] at h
  obtain ⟨⟨hsign, rfl, rfl, rfl⟩, rfl⟩ := h
  obtain ⟨hinteger, hs⟩ := of_readInteger h₁
  have hplain : (readMinus s).2 = s := by
    unfold readMinus at hsign ⊢
    split at hsign
    next => simp at hsign
    next => rfl
  refine ⟨hinteger, ?_⟩
  rw [← eq_of_readExponent_none h₃, ← eq_of_readFraction_nil h₂, ← hs, hplain]

theorem code?_eq_some_iff {x : Numeral} {code : UInt32} :
    x.code? = some code ↔ x.negative = false ∧ x.fraction = [] ∧ x.exponent = none ∧
      digitsValue x.integer = code.toNat := by
  have hsize := code.toNat_lt
  simp only [Numeral.code?]
  split
  next h =>
    obtain ⟨hsign, hfraction, hexponent, hlt⟩ := h
    rw [Option.some.injEq, ← UInt32.toNat_inj, UInt32.toNat_ofNat_of_lt' hlt]
    simp_all
  next h =>
    simp only [reduceCtorEq, false_iff]
    rintro ⟨hsign, hfraction, hexponent, hvalue⟩
    refine h ⟨by simp [hsign], by simp [hfraction], by simp [hexponent], ?_⟩
    rw [hvalue]
    exact hsize

end DeviceTrust.Json
