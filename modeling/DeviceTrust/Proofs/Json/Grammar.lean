import DeviceTrust.Json.Object

/-!
# The grammar of JSON

What a document is, without saying how it is read. `Matches` is the grammar of values of which only
the form counts; `IsObject` says of a whole document which members it has, with their names resolved
and the text of each value as it stands.

The readers are held to this grammar in the modules that follow: what the grammar allows is read, in
`skipText_append`, `readText_append` and `skipValue_append`, and nothing else is, in `of_skipText`,
`of_readText` and `of_skipValue`; `firstMember_eq_ok_iff` says both at once.
-/

namespace DeviceTrust.Json

/-- White space. -/
def IsBlank (s : Bytes) : Prop :=
  ∀ b ∈ s, isSpace b = true

/-! ## Texts -/

/-- A byte that stands for itself between quotes. -/
def IsPlain (b : UInt8) : Prop :=
  ¬ b < 32 ∧ b ≠ 34 ∧ b ≠ 92

/-- Four hexadecimal digits and the UTF-16 unit that they stand for. -/
inductive IsUnit : Bytes → Nat → Prop where
  | mk {a b c d : UInt8} {i j k l : Nat} (ha : hexDigit? a = some i) (hb : hexDigit? b = some j)
      (hc : hexDigit? c = some k) (hd : hexDigit? d = some l) :
      IsUnit [a, b, c, d] (((i * 16 + j) * 16 + k) * 16 + l)

/-- What may stand between quotes, for its form alone. -/
inductive IsQuotable : Bytes → Prop where
  | nil : IsQuotable []
  | plain {b : UInt8} {s : Bytes} (hb : IsPlain b) (hs : IsQuotable s) : IsQuotable (b :: s)
  | escape {b : UInt8} {s : Bytes} (hb : (simpleEscape? b).isSome) (hs : IsQuotable s) :
      IsQuotable (92 :: b :: s)
  | unicode {digits s : Bytes} {unit : Nat} (hd : IsUnit digits unit) (hs : IsQuotable s) :
      IsQuotable (92 :: 117 :: (digits ++ s))

/-- The character that a surrogate pair stands for. -/
def pairedChar (high low : Nat) : Char :=
  Char.ofNat (0x10000 + (high - 0xD800) * 0x400 + (low - 0xDC00))

/-- The escapes that stand for a character, after the backslash. -/
inductive IsEscape : Bytes → Char → Prop where
  | simple {b : UInt8} {c : Char} (h : simpleEscape? b = some c) : IsEscape [b] c
  | unicode {digits : Bytes} {unit : Nat} (hd : IsUnit digits unit)
      (hhigh : isHighSurrogate unit = false) (hlow : isLowSurrogate unit = false) :
      IsEscape (117 :: digits) (Char.ofNat unit)
  | pair {first second : Bytes} {high low : Nat} (hfirst : IsUnit first high)
      (hsecond : IsUnit second low) (hhigh : isHighSurrogate high = true)
      (hlow : isLowSurrogate low = true) :
      IsEscape (117 :: (first ++ 92 :: 117 :: second)) (pairedChar high low)

/-- What stands between quotes, and the bytes that it spells with its escapes resolved. -/
inductive Spells : Bytes → Bytes → Prop where
  | nil : Spells [] []
  | plain {b : UInt8} {s t : Bytes} (hb : IsPlain b) (hs : Spells s t) : Spells (b :: s) (b :: t)
  | escape {source s t : Bytes} {c : Char} (h : IsEscape source c) (hs : Spells s t) :
      Spells (92 :: (source ++ s)) (String.utf8EncodeChar c ++ t)

/-! ## Numbers -/

/-- One or more digits. -/
def IsDigits (s : Bytes) : Prop :=
  s ≠ [] ∧ ∀ b ∈ s, isDigit b = true

/-- Digits without leading zeros. -/
def IsInteger (s : Bytes) : Prop :=
  IsDigits s ∧ (s.headD 0 = 48 → s.length = 1)

/-- An optional fraction. -/
inductive IsFraction : Bytes → Prop where
  | absent : IsFraction []
  | present {digits : Bytes} (h : IsDigits digits) : IsFraction (46 :: digits)

/-- An optional exponent. -/
inductive IsExponent : Bytes → Prop where
  | absent : IsExponent []
  | present {e : UInt8} {sign digits : Bytes} (he : e = 101 ∨ e = 69)
      (hsign : sign = [] ∨ sign = [43] ∨ sign = [45]) (h : IsDigits digits) :
      IsExponent (e :: (sign ++ digits))

/-- A number. -/
inductive IsNumber : Bytes → Prop where
  | mk {sign integer fraction exponent : Bytes} (hsign : sign = [] ∨ sign = [45])
      (hinteger : IsInteger integer) (hfraction : IsFraction fraction)
      (hexponent : IsExponent exponent) :
      IsNumber (sign ++ (integer ++ (fraction ++ exponent)))

/-! ## Values -/

/-- The words `null`, `true` and `false`. -/
def wordValues : List Bytes :=
  [[110, 117, 108, 108], [116, 114, 117, 101], [102, 97, 108, 115, 101]]

/-- What the grammar derives: a value, or what stands between the brackets of a list or an object
that is not empty. -/
inductive Form where
  | value
  | elements
  | members
  deriving DecidableEq

/-- The grammar of values. -/
inductive Matches : Form → Bytes → Prop where
  | word {s : Bytes} (h : s ∈ wordValues) : Matches .value s
  | number {s : Bytes} (h : IsNumber s) : Matches .value s
  | text {s : Bytes} (h : IsQuotable s) : Matches .value (34 :: (s ++ [34]))
  | emptyList {s : Bytes} (h : IsBlank s) : Matches .value (91 :: (s ++ [93]))
  | list {s : Bytes} (h : Matches .elements s) : Matches .value (91 :: (s ++ [93]))
  | emptyObject {s : Bytes} (h : IsBlank s) : Matches .value (123 :: (s ++ [125]))
  | object {s : Bytes} (h : Matches .members s) : Matches .value (123 :: (s ++ [125]))
  | lastElement {u v w : Bytes} (hu : IsBlank u) (hv : Matches .value v) (hw : IsBlank w) :
      Matches .elements (u ++ (v ++ w))
  | element {u v w s : Bytes} (hu : IsBlank u) (hv : Matches .value v) (hw : IsBlank w)
      (hs : Matches .elements s) : Matches .elements (u ++ (v ++ (w ++ 44 :: s)))
  | lastMember {t name u v value w : Bytes} (ht : IsBlank t) (hname : IsQuotable name)
      (hu : IsBlank u) (hv : IsBlank v) (hvalue : Matches .value value) (hw : IsBlank w) :
      Matches .members (t ++ 34 :: (name ++ 34 :: (u ++ 58 :: (v ++ (value ++ w)))))
  | member {t name u v value w s : Bytes} (ht : IsBlank t) (hname : IsQuotable name)
      (hu : IsBlank u) (hv : IsBlank v) (hvalue : Matches .value value) (hw : IsBlank w)
      (hs : Matches .members s) :
      Matches .members (t ++ 34 :: (name ++ 34 :: (u ++ 58 :: (v ++ (value ++ (w ++ 44 :: s))))))

/-- A value, for its form alone. -/
abbrev IsValue (s : Bytes) : Prop :=
  Matches .value s

/-! ## Objects -/

/-- The members of an object in order, each with its name and the text of its value. -/
abbrev Members := List (String × Bytes)

/-- What stands between the braces of an object that has members. -/
inductive IsMembers : Bytes → Members → Prop where
  | last {t source u v value w : Bytes} {name : String} (ht : IsBlank t)
      (hname : Spells source (utf8 name)) (hu : IsBlank u) (hv : IsBlank v) (hvalue : IsValue value)
      (hw : IsBlank w) :
      IsMembers (t ++ 34 :: (source ++ 34 :: (u ++ 58 :: (v ++ (value ++ w))))) [(name, value)]
  | cons {t source u v value w s : Bytes} {name : String} {members : Members} (ht : IsBlank t)
      (hname : Spells source (utf8 name)) (hu : IsBlank u) (hv : IsBlank v) (hvalue : IsValue value)
      (hw : IsBlank w) (hs : IsMembers s members) :
      IsMembers (t ++ 34 :: (source ++ 34 :: (u ++ 58 :: (v ++ (value ++ (w ++ 44 :: s))))))
        ((name, value) :: members)

/-- The document is one object with these members, and nothing but white space around it. -/
def IsObject (document : Bytes) (members : Members) : Prop :=
  ∃ u inside w, IsBlank u ∧ IsBlank w ∧ document = u ++ 123 :: (inside ++ 125 :: w) ∧
    (IsBlank inside ∧ members = [] ∨ IsMembers inside members)

/-- The text of the value of the first member named `key`. -/
def Members.first? (members : Members) (key : String) : Option Bytes :=
  (members.find? (·.1 = key)).map (·.2)

/-- The document is an object whose first member named `key` is the text `value`. The text that
stands for the member in the document is itself valid UTF-8. -/
def HasText (document : Bytes) (key value : String) : Prop :=
  ∃ members source, IsObject document members ∧
    members.first? key = some (34 :: (source ++ [34])) ∧
    Bytes.isText (34 :: (source ++ [34])) = true ∧ Spells source (utf8 value)

end DeviceTrust.Json
