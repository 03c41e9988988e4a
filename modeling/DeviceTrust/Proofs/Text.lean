import DeviceTrust.Proofs.Base64.Text
import DeviceTrust.Text
import Mathlib.Data.List.Basic

/-!
# Texts are cut, and their numbers and escapes read back

A text that consists of parts with a mark between them is cut at the first place where the mark
stands. Decimal numbers and percent-encoded texts are such parts, as their characters are known.

Results:
* `CutsAt.unique`: a text is cut at one place.
* `cutsAt_of_notMem`: parts that are put together are cut where they have been.
* `Decimal.read?_eq_some_iff`: the numbers that are read, by their form.
* `Decimal.IsNumber.unique`: a text is the form of one number.
* `Decimal.isNumber_toString`, `Decimal.notMem_toString`: the form that is written.
* `Percent.decode_encode`: an encoded text is read back.
* `Percent.encode_inj`: distinct texts have distinct encodings.
* `Percent.isEncoded_encode`, `Percent.all_encode`: the form of an encoded text, and its characters.
* `Percent.length_encode`, `Percent.encode_eq_self_iff`: how long it is, and when it is the text
  itself.
-/

namespace DeviceTrust

/-! ## Where a text is cut

A text that consists of parts with a mark between them is cut at the first place where the mark
stands. This gives the parts back if the first one does not hold the character that the mark starts
with. -/

variable {mark text front back front' back' : List Char}

/-- The text is cut at the first place where `mark` stands. -/
structure CutsAt (mark text front back : List Char) : Prop where
  eq : text = front ++ mark ++ back
  isFirst : ∀ front' back', text = front' ++ mark ++ back' → front.length ≤ front'.length

theorem CutsAt.unique (h : CutsAt mark text front back) (h' : CutsAt mark text front' back') :
    front = front' ∧ back = back' := by
  have hlength : front.length = front'.length :=
    Nat.le_antisymm (h.isFirst _ _ h'.eq) (h'.isFirst _ _ h.eq)
  have heq : front ++ (mark ++ back) = front' ++ (mark ++ back') := by
    rw [← List.append_assoc, ← List.append_assoc, ← h.eq, ← h'.eq]
  obtain ⟨hfront, hrest⟩ := List.append_inj heq hlength
  exact ⟨hfront, List.append_cancel_left hrest⟩

theorem cutsAt_of_notMem {c : Char} (h : c ∉ front) :
    CutsAt (c :: mark) (front ++ (c :: mark) ++ back) front back := by
  refine ⟨rfl, fun front' back' heq => ?_⟩
  apply Nat.le_of_not_lt
  intro hlt
  -- the mark would start inside the front
  have hget := congrArg (·[front'.length]?) heq
  simp only [List.append_assoc, List.cons_append] at hget
  rw [List.getElem?_append_left hlt, List.getElem?_append_right (Nat.le_refl _),
    Nat.sub_self] at hget
  exact h (List.mem_of_getElem? hget)

/-- Parts with a mark between them are told apart. -/
theorem append_mark_inj {c : Char} (h : c ∉ front) (h' : c ∉ front') :
    front ++ (c :: mark) ++ back = front' ++ (c :: mark) ++ back' ↔
      front = front' ∧ back = back' := by
  constructor
  · intro heq
    have hcut : CutsAt (c :: mark) (front ++ (c :: mark) ++ back) front' back' := by
      rw [heq]
      exact cutsAt_of_notMem h'
    exact (cutsAt_of_notMem h).unique hcut
  · rintro ⟨rfl, rfl⟩
    rfl

end DeviceTrust

namespace DeviceTrust.Decimal

/-! ## The decimal numbers that are read

A number is read iff it has the form of one and stays below the bound. Leading zeros and a plus sign
do not change it, so a number has many forms; the one that is written is read back. -/

/-- One or more ASCII digits. -/
def IsDigits (text : List Char) : Prop :=
  text ≠ [] ∧ ∀ c ∈ text, c.isDigit = true

/-- The text is an optional plus sign and digits, and stands for the number. -/
inductive IsNumber : List Char → Nat → Prop where
  | plain {digits : List Char} (h : IsDigits digits) :
      IsNumber digits (Nat.ofDigitChars 10 digits 0)
  | plus {digits : List Char} (h : IsDigits digits) :
      IsNumber ('+' :: digits) (Nat.ofDigitChars 10 digits 0)

variable {text digits : List Char} {bound n n' : Nat}

theorem value_eq_ofDigitChars (digits : List Char) : value digits = Nat.ofDigitChars 10 digits 0 := by
  rw [value, Nat.ofDigitChars_eq_foldl]
  congr 1
  funext n c
  rw [Nat.mul_comm]
  rfl

theorem readDigits?_of_isDigits (h : IsDigits digits) :
    readDigits? digits = some (Nat.ofDigitChars 10 digits 0) := by
  rw [readDigits?, if_pos ⟨h.1, List.all_eq_true.mpr h.2⟩, value_eq_ofDigitChars]

theorem of_readDigits? (h : readDigits? digits = some n) :
    IsDigits digits ∧ n = Nat.ofDigitChars 10 digits 0 := by
  rw [readDigits?] at h
  split at h
  next hdigits =>
    rw [Option.some.injEq, value_eq_ofDigitChars] at h
    exact ⟨⟨hdigits.1, List.all_eq_true.mp hdigits.2⟩, h.symm⟩
  next => cases h

theorem IsDigits.ne_plus (h : IsDigits digits) (rest : List Char) : digits ≠ '+' :: rest := by
  rintro rfl
  exact absurd (h.2 '+' List.mem_cons_self) (by decide)

/-- Without a plus sign in front, the whole text must be digits. -/
theorem read?_of_ne_plus (h : ∀ rest, text ≠ '+' :: rest) :
    read? bound text = (readDigits? text).filter (· < bound) := by
  rw [read?]
  exact h

theorem read?_plus (bound : Nat) (digits : List Char) :
    read? bound ('+' :: digits) = (readDigits? digits).filter (· < bound) := rfl

theorem read?_of_isNumber (h : IsNumber text n) (hn : n < bound) : read? bound text = some n := by
  cases h with
  | plain h =>
    rw [read?_of_ne_plus h.ne_plus, readDigits?_of_isDigits h]
    exact Option.filter_eq_some_iff.mpr ⟨rfl, decide_eq_true hn⟩
  | plus h =>
    rw [read?_plus, readDigits?_of_isDigits h]
    exact Option.filter_eq_some_iff.mpr ⟨rfl, decide_eq_true hn⟩

theorem isNumber_of_read? (h : read? bound text = some n) : IsNumber text n := by
  by_cases hplus : ∃ digits, text = '+' :: digits
  · obtain ⟨digits, rfl⟩ := hplus
    rw [read?_plus] at h
    obtain ⟨hdigits, rfl⟩ := of_readDigits? (Option.filter_eq_some_iff.mp h).1
    exact .plus hdigits
  · rw [read?_of_ne_plus fun rest heq => hplus ⟨rest, heq⟩] at h
    obtain ⟨hdigits, rfl⟩ := of_readDigits? (Option.filter_eq_some_iff.mp h).1
    exact .plain hdigits

theorem read?_eq_some_iff : read? bound text = some n ↔ IsNumber text n ∧ n < bound :=
  ⟨fun h => ⟨isNumber_of_read? h, read?_lt h⟩, fun h => read?_of_isNumber h.1 h.2⟩

theorem IsNumber.unique (h : IsNumber text n) (h' : IsNumber text n') : n = n' := by
  have hread : read? (n + n' + 1) text = some n := read?_of_isNumber h (by omega)
  have hread' : read? (n + n' + 1) text = some n' := read?_of_isNumber h' (by omega)
  exact Option.some.inj (hread.symm.trans hread')

theorem isNumber_toString (n : Nat) : IsNumber (toString n).toList n := by
  have hdigits : IsDigits (Nat.toDigits 10 n) := by
    refine ⟨Nat.toDigits_ne_nil, fun c hc => ?_⟩
    exact Nat.isDigit_of_mem_toDigits (by decide) (by decide) hc
  have hnumber := IsNumber.plain hdigits
  rwa [Nat.ofDigitChars_ten_toDigits, ← String.toList_ofList (l := Nat.toDigits 10 n),
    ← Nat.toString_eq_ofList_toDigits] at hnumber

/-- The form that is written has digits only. -/
theorem notMem_toString {c : Char} (hc : c.isDigit = false) (n : Nat) :
    c ∉ (toString n).toList := by
  intro hmem
  rw [Nat.toString_eq_ofList_toDigits, String.toList_ofList] at hmem
  rw [Nat.isDigit_of_mem_toDigits (by decide) (by decide) hmem] at hc
  cases hc

end DeviceTrust.Decimal

namespace DeviceTrust.Percent

/-! ## Percent-encoded texts are read back

A percent sign and two hexadecimal digits stand for a byte, and every other byte stands for itself.
An encoded text consists of unreserved characters and of such triples, so it has none of the marks
between the parts of a token or of a query. It has two characters more than the text has bytes for
each byte that is not kept, so only a text whose bytes are all kept is its own encoding. -/

/-- The bytes that percent-encoded bytes stand for. A percent sign that no two hexadecimal digits
follow stands for itself. -/
def decode : Bytes → Bytes
  | 37 :: a :: b :: rest =>
    match Json.hexDigit? a, Json.hexDigit? b with
    | some high, some low => UInt8.ofNat (high * 16 + low) :: decode rest
    | _, _ => 37 :: decode (a :: b :: rest)
  | b :: rest => b :: decode rest
  | [] => []

theorem decode_cons {b : UInt8} (h : b ≠ 37) (rest : Bytes) :
    decode (b :: rest) = b :: decode rest := by
  rw [decode]
  exact fun _ _ _ heq _ => h heq

theorem decode_escaped {a b : UInt8} {high low : Nat} (ha : Json.hexDigit? a = some high)
    (hb : Json.hexDigit? b = some low) (rest : Bytes) :
    decode (37 :: a :: b :: rest) = UInt8.ofNat (high * 16 + low) :: decode rest := by
  rw [decode]
  simp only [ha, hb]

/-! ### Single bytes -/

theorem ascii_of_isUnreserved_ofNat (b : Fin 256) :
    isUnreserved (UInt8.ofNat b) = true → b.val < 128 ∧ UInt8.ofNat b ≠ 37 := by
  revert b
  decide +kernel

theorem ascii_of_isUnreserved {b : UInt8} (h : isUnreserved b = true) :
    b.toNat < 128 ∧ b ≠ 37 := by
  have hb : UInt8.ofNat b.toNat = b := UInt8.ofNat_toNat
  have := ascii_of_isUnreserved_ofNat ⟨b.toNat, b.toNat_lt⟩
  simp only [hb] at this
  exact this h

theorem utf8EncodeChar_upperHexDigit (n : Fin 16) :
    ∃ d, String.utf8EncodeChar (upperHexDigit n) = [d] ∧ Json.hexDigit? d = some n.val := by
  refine ⟨UInt8.ofNat (upperHexDigit n).toNat, ?_⟩
  revert n
  decide

/-- A byte is read back from its encoding. -/
theorem decode_escape (b : UInt8) (rest : Bytes) :
    decode ((escape b).flatMap String.utf8EncodeChar ++ rest) = b :: decode rest := by
  rw [escape]
  split
  next h =>
    obtain ⟨hascii, hne⟩ := ascii_of_isUnreserved h
    have hchar : String.utf8EncodeChar (Char.ofNat b.toNat) = [b] := by
      rw [Base64.utf8EncodeChar_ofNat ⟨b.toNat, hascii⟩, UInt8.ofNat_toNat]
    rw [List.flatMap_singleton, hchar]
    exact decode_cons hne rest
  next =>
    have hb := b.toNat_lt
    obtain ⟨high, hhigh, hhigh'⟩ := utf8EncodeChar_upperHexDigit ⟨b.toNat / 16, by omega⟩
    obtain ⟨low, hlow, hlow'⟩ := utf8EncodeChar_upperHexDigit ⟨b.toNat % 16, by omega⟩
    have hpercent : String.utf8EncodeChar '%' = [37] := by decide
    have hbyte : UInt8.ofNat (b.toNat / 16 * 16 + b.toNat % 16) = b := by
      rw [Nat.div_add_mod', UInt8.ofNat_toNat]
    simp only [List.flatMap_cons, List.flatMap_nil, hpercent, hhigh, hlow, List.cons_append,
      List.nil_append]
    rw [decode_escaped hhigh' hlow', hbyte]

/-! ### Texts -/

theorem utf8_encode (text : String) :
    utf8 (encode text) = (utf8 text).flatMap fun b => (escape b).flatMap String.utf8EncodeChar := by
  rw [Json.utf8_eq_flatMap, toList_encode, List.flatMap_assoc]

/-- An encoded text is read back. -/
theorem decode_encode (text : String) : decode (utf8 (encode text)) = utf8 text := by
  rw [utf8_encode]
  induction utf8 text with
  | nil => rfl
  | cons b bytes ih => rw [List.flatMap_cons, decode_escape, ih]

/-- A text that looks encoded is encoded once more. -/
example : encode "%41=ü" = "%2541%3D%C3%BC" ∧ decode (utf8 "%2541%3D%C3%BC") = utf8 "%41=ü" := by
  decide +kernel

theorem encode_inj {s t : String} : encode s = encode t ↔ s = t := by
  constructor
  · intro h
    rw [← utf8_inj, ← decode_encode s, ← decode_encode t, h]
  · rintro rfl
    rfl

/-! ### Characters of encoded texts -/

/-- Letters, digits, hyphen, underscore, full stop and tilde. -/
def isUnreservedChar (c : Char) : Bool :=
  ('A' ≤ c && c ≤ 'Z') || ('a' ≤ c && c ≤ 'z') || ('0' ≤ c && c ≤ '9')
    || ['-', '_', '.', '~'].contains c

/-- Digits and the letters from `A` to `F`. -/
def isUpperHexChar (c : Char) : Bool :=
  ('0' ≤ c && c ≤ '9') || ('A' ≤ c && c ≤ 'F')

theorem isUnreservedChar_ofNat (b : Fin 256) :
    isUnreservedChar (Char.ofNat b) = isUnreserved (UInt8.ofNat b) := by
  revert b
  decide +kernel

/-- A byte is kept iff its character is unreserved. -/
theorem isUnreservedChar_toNat (b : UInt8) :
    isUnreservedChar (Char.ofNat b.toNat) = isUnreserved b := by
  rw [isUnreservedChar_ofNat ⟨b.toNat, b.toNat_lt⟩, UInt8.ofNat_toNat]

theorem isUpperHexChar_upperHexDigit (n : Fin 16) : isUpperHexChar (upperHexDigit n) = true := by
  revert n
  decide

theorem ascii_of_le {c last : Char} (h : c ≤ last) (hlast : last.toNat < 128) : c.toNat < 128 :=
  Nat.lt_of_le_of_lt (UInt32.le_iff_toNat_le.mp h) hlast

theorem ascii_of_isUnreservedChar {c : Char} (h : isUnreservedChar c = true) : c.toNat < 128 := by
  simp only [isUnreservedChar, List.contains_eq_mem, Bool.or_eq_true, Bool.and_eq_true,
    decide_eq_true_eq] at h
  rcases h with ((h | h) | h) | h
  · exact ascii_of_le h.2 (by decide)
  · exact ascii_of_le h.2 (by decide)
  · exact ascii_of_le h.2 (by decide)
  · have hmarks : ['-', '_', '.', '~'].all (·.toNat < 128) = true := by decide
    exact of_decide_eq_true (List.all_eq_true.mp hmarks c h)

theorem ascii_of_isUpperHexChar {c : Char} (h : isUpperHexChar c = true) : c.toNat < 128 := by
  simp only [isUpperHexChar, Bool.or_eq_true, Bool.and_eq_true, decide_eq_true_eq] at h
  rcases h with h | h
  · exact ascii_of_le h.2 (by decide)
  · exact ascii_of_le h.2 (by decide)

/-! ### The form of encoded texts -/

/-- The text consists of unreserved characters and of triples, which are a percent sign and two
upper-case hexadecimal digits. -/
inductive IsEncoded : List Char → Prop where
  | nil : IsEncoded []
  | unreserved {c : Char} {text : List Char} (hc : isUnreservedChar c = true)
      (h : IsEncoded text) : IsEncoded (c :: text)
  | triple {high low : Char} {text : List Char} (hhigh : isUpperHexChar high = true)
      (hlow : isUpperHexChar low = true) (h : IsEncoded text) :
      IsEncoded ('%' :: high :: low :: text)

theorem IsEncoded.escape_append {text : List Char} (h : IsEncoded text) (b : UInt8) :
    IsEncoded (escape b ++ text) := by
  have hb := b.toNat_lt
  rw [escape]
  split
  next hkept => exact .unreserved (isUnreservedChar_toNat b ▸ hkept) h
  next =>
    exact .triple (isUpperHexChar_upperHexDigit ⟨b.toNat / 16, by omega⟩)
      (isUpperHexChar_upperHexDigit ⟨b.toNat % 16, by omega⟩) h

theorem isEncoded_encode (text : String) : IsEncoded (encode text).toList := by
  rw [toList_encode]
  induction utf8 text with
  | nil => exact .nil
  | cons b bytes ih =>
    rw [List.flatMap_cons]
    exact ih.escape_append b

/-- Letters and digits, and the few marks that an encoded text has. -/
def isEncodedChar (c : Char) : Bool :=
  c.isAlphanum || ['-', '_', '.', '~', '%'].contains c

theorem isEncodedChar_ofNat (n : Fin 128) :
    isUnreservedChar (Char.ofNat n) = true ∨ isUpperHexChar (Char.ofNat n) = true →
      isEncodedChar (Char.ofNat n) = true := by
  revert n
  decide +kernel

theorem isEncodedChar_of_isUnreservedChar {c : Char} (h : isUnreservedChar c = true) :
    isEncodedChar c = true := by
  have hchar := isEncodedChar_ofNat ⟨c.toNat, ascii_of_isUnreservedChar h⟩
  rw [Char.ofNat_toNat] at hchar
  exact hchar (.inl h)

theorem isEncodedChar_of_isUpperHexChar {c : Char} (h : isUpperHexChar c = true) :
    isEncodedChar c = true := by
  have hchar := isEncodedChar_ofNat ⟨c.toNat, ascii_of_isUpperHexChar h⟩
  rw [Char.ofNat_toNat] at hchar
  exact hchar (.inr h)

theorem IsEncoded.all {text : List Char} (h : IsEncoded text) :
    text.all isEncodedChar = true := by
  induction h with
  | nil => rfl
  | unreserved hc _ ih => rw [List.all_cons, isEncodedChar_of_isUnreservedChar hc, ih, Bool.and_self]
  | triple hhigh hlow _ ih =>
    rw [List.all_cons, List.all_cons, List.all_cons, isEncodedChar_of_isUpperHexChar hhigh,
      isEncodedChar_of_isUpperHexChar hlow, ih]
    decide

/-- The characters of an encoded text. -/
theorem all_encode (text : String) : (encode text).toList.all isEncodedChar = true :=
  (isEncoded_encode text).all

theorem notMem_encode {c : Char} (h : isEncodedChar c = false) (text : String) :
    c ∉ (encode text).toList := by
  intro hmem
  rw [List.all_eq_true.mp (all_encode text) c hmem] at h
  cases h

theorem notMem_encode_of_all {marks : List Char} (h : marks.all (!isEncodedChar ·) = true)
    (text : String) : ∀ c ∈ marks, c ∉ (encode text).toList := by
  intro c hc
  exact notMem_encode ((Bool.not_eq_true' _).mp (List.all_eq_true.mp h c hc)) text

/-! ### Texts that are kept -/

theorem length_escape (b : UInt8) : (escape b).length = if isUnreserved b then 1 else 3 := by
  rw [escape]
  split <;> rfl

theorem length_encode (text : String) : (encode text).toList.length =
    (utf8 text).length + 2 * (utf8 text).countP (!isUnreserved ·) := by
  rw [toList_encode]
  induction utf8 text with
  | nil => rfl
  | cons b bytes ih =>
    rw [List.flatMap_cons, List.length_append, ih, length_escape, List.length_cons,
      List.countP_cons]
    cases isUnreserved b
    · simp only [Bool.not_false, Bool.false_eq_true, ite_true, ite_false]
      omega
    · simp only [Bool.not_true, Bool.false_eq_true, ite_true, ite_false]
      omega

theorem length_toList_le (text : String) : text.toList.length ≤ (utf8 text).length := by
  rw [Json.utf8_eq_flatMap]
  induction text.toList with
  | nil => exact Nat.le_refl _
  | cons c chars ih =>
    have hc := c.utf8Size_pos
    rw [List.flatMap_cons, List.length_append, String.length_utf8EncodeChar, List.length_cons]
    omega

theorem flatMap_escape_of_isUnreservedChar {c : Char} (h : isUnreservedChar c = true) :
    (String.utf8EncodeChar c).flatMap escape = [c] := by
  have hascii := ascii_of_isUnreservedChar h
  have hbyte : (UInt8.ofNat c.toNat).toNat = c.toNat :=
    UInt8.toNat_ofNat_of_lt' (Nat.lt_trans hascii (by decide))
  have hchar : String.utf8EncodeChar c = [UInt8.ofNat c.toNat] := by
    have := Base64.utf8EncodeChar_ofNat ⟨c.toNat, hascii⟩
    rwa [Char.ofNat_toNat] at this
  have hkept : isUnreserved (UInt8.ofNat c.toNat) = true := by
    rw [← isUnreservedChar_toNat, hbyte, Char.ofNat_toNat, h]
  rw [hchar, List.flatMap_singleton, escape, if_pos hkept, hbyte, Char.ofNat_toNat]

/-- A text is its own encoding iff all its characters are unreserved. -/
theorem encode_eq_self_iff {text : String} :
    encode text = text ↔ ∀ c ∈ text.toList, isUnreservedChar c = true := by
  constructor
  · intro h
    -- a byte that is not kept would make the encoding longer than the text
    have hlength := length_encode text
    have hle := length_toList_le text
    rw [h] at hlength
    have hkept : (utf8 text).countP (!isUnreserved ·) = 0 := by omega
    rw [List.countP_eq_zero] at hkept
    intro c hc
    rw [← h, toList_encode, List.mem_flatMap] at hc
    obtain ⟨b, hb, hc⟩ := hc
    have hb : isUnreserved b = true := by simpa using hkept b hb
    rw [escape, if_pos hb] at hc
    rw [List.mem_singleton.mp hc, isUnreservedChar_toNat, hb]
  · intro h
    rw [← String.toList_inj, toList_encode, Json.utf8_eq_flatMap, List.flatMap_assoc,
      List.flatMap_congr fun c hc => flatMap_escape_of_isUnreservedChar (h c hc),
      List.flatMap_singleton']

end DeviceTrust.Percent
