import DeviceTrust.Bytes

/-!
# Text as bytes, and what is written in text

`utf8` is the byte view of a text and `Bytes.text?` reads it back: a byte string is a text exactly when
it is the UTF-8 form of one (`Bytes.text?_eq_some_iff`), and distinct texts have distinct forms
(`utf8_inj`). Decimal numbers are read from texts, and texts are percent-encoded.
-/

namespace DeviceTrust

/-! ## UTF-8 -/

/-- The UTF-8 form of a text. -/
def utf8 (text : String) : Bytes :=
  text.toUTF8.data.toList

/-- The text whose UTF-8 form is `bytes`, if there is one. -/
def Bytes.text? (bytes : Bytes) : Option String :=
  String.fromUTF8? bytes.toByteArray

/-- Whether `bytes` is the UTF-8 form of some text. -/
def Bytes.isText (bytes : Bytes) : Bool :=
  bytes.text?.isSome

theorem toByteArray_utf8 (text : String) : (utf8 text).toByteArray = text.toByteArray := by
  apply ByteArray.ext
  simp [utf8]

theorem utf8_inj {s t : String} : utf8 s = utf8 t ↔ s = t := by
  constructor
  · intro h
    rw [← String.toByteArray_inj, ← toByteArray_utf8, ← toByteArray_utf8, h]
  · rintro rfl
    rfl

@[simp] theorem utf8_append (s t : String) : utf8 (s ++ t) = utf8 s ++ utf8 t := by
  simp [utf8]

@[simp] theorem text?_utf8 (text : String) : (utf8 text).text? = some text := by
  unfold Bytes.text? String.fromUTF8?
  rw [toByteArray_utf8, dif_pos text.isValidUTF8]
  rfl

theorem Bytes.text?_eq_some_iff {bytes : Bytes} {text : String} :
    bytes.text? = some text ↔ bytes = utf8 text := by
  constructor
  · intro h
    unfold Bytes.text? String.fromUTF8? at h
    split at h
    · injection h with h
      subst h
      simp [utf8, String.fromUTF8]
    · exact absurd h (by simp)
  · rintro rfl
    exact text?_utf8 text

end DeviceTrust

namespace DeviceTrust.Decimal

/-! ## Decimal numbers

A number is an optional plus sign and one or more ASCII digits; leading zeros are allowed and a value
that reaches `bound` is refused. -/

/-- The value of a run of decimal digits. -/
def value (digits : List Char) : Nat :=
  digits.foldl (fun n c => n * 10 + (c.toNat - 48)) 0

/-- Reads one or more ASCII digits. -/
def readDigits? (text : List Char) : Option Nat :=
  if text ≠ [] ∧ text.all Char.isDigit then some (value text) else none

/-- Reads a number below `bound`. -/
def read? (bound : Nat) (text : List Char) : Option Nat :=
  let digits := match text with
    | '+' :: rest => rest
    | _ => text
  (readDigits? digits).filter (· < bound)

/-- A number that was read is below the bound. -/
theorem read?_lt {bound n : Nat} {text : List Char} (h : read? bound text = some n) : n < bound := by
  simp only [read?, Option.filter_eq_some_iff, decide_eq_true_eq] at h
  exact h.2

end DeviceTrust.Decimal

namespace DeviceTrust.Percent

/-! ## Percent-encoding

Every byte of the UTF-8 form of a text is kept if it is an unreserved character and otherwise written as
a percent sign and two upper-case hexadecimal digits, so the encoded text is plain ASCII. -/

/-- Letters, digits, hyphen, underscore, full stop and tilde stand for themselves. -/
def isUnreserved (b : UInt8) : Bool :=
  (65 ≤ b && b ≤ 90) || (97 ≤ b && b ≤ 122) || (48 ≤ b && b ≤ 57)
    || b == 45 || b == 95 || b == 46 || b == 126

/-- The upper-case hexadecimal digit of a number below 16. -/
def upperHexDigit (n : Nat) : Char :=
  Char.ofNat (if n < 10 then 48 + n else 55 + n)

/-- The encoding of one byte. -/
def escape (b : UInt8) : List Char :=
  if isUnreserved b then [Char.ofNat b.toNat]
  else ['%', upperHexDigit (b.toNat / 16), upperHexDigit (b.toNat % 16)]

/-- The percent-encoding of a text. -/
def encode (text : String) : String :=
  String.ofList ((utf8 text).flatMap escape)

/-- The pieces that the encoding of one byte is written in: the two digits are written after the sign. -/
def escapePieces (b : UInt8) : List String :=
  if isUnreserved b then [String.singleton (Char.ofNat b.toNat)]
  else ["%", String.ofList [upperHexDigit (b.toNat / 16), upperHexDigit (b.toNat % 16)]]

/-- The pieces that the encoding of a text is written in, byte by byte. -/
def pieces (text : String) : List String :=
  (utf8 text).flatMap escapePieces

@[simp] theorem toList_encode (text : String) : (encode text).toList = (utf8 text).flatMap escape := by
  simp [encode]

/-- The encoding of a concatenation is the concatenation of the encodings. -/
theorem encode_append (s t : String) : encode (s ++ t) = encode s ++ encode t := by
  simp [encode]

end DeviceTrust.Percent
