import DeviceTrust.Json.Text

/-!
# JSON numbers

A number has a sign, an integer part without leading zeros, and an optional fraction and exponent. When
it is skipped its form alone counts. When it is read as a value it must also stay within the range of
double-precision numbers, computed from at most 64 bits of its digits, and only plain digits below 2³²
are a code.

A fault at the end of the document is reported as the caller says (`atEnd`).
-/

namespace DeviceTrust.Json

/-- The parts of a number as it is written; the digits are ASCII. -/
structure Numeral where
  /-- Whether a minus sign stands in front. -/
  negative : Bool
  integer : Bytes
  /-- The digits after the point; empty when there is no point. -/
  fraction : Bytes
  /-- Whether the exponent is negative, and its digits. -/
  exponent : Option (Bool × Bytes)
  deriving DecidableEq, Repr

/-! ## Form -/

/-- The fault when something else than a digit follows. -/
def missingDigit (atEnd : Error) (s : Bytes) : Error :=
  if s.isEmpty then atEnd else .malformed

/-- Reads one or more digits. -/
def readDigits (atEnd : Error) (s : Bytes) : Except Error (Bytes × Bytes) :=
  let digits := s.takeWhile isDigit
  if digits.isEmpty then .error (missingDigit atEnd s) else .ok (digits, s.dropWhile isDigit)

/-- Reads the integer part: a single zero, or digits that start with another one. -/
def readInteger (atEnd : Error) (s : Bytes) : Except Error (Bytes × Bytes) := do
  let (digits, rest) ← readDigits atEnd s
  if digits.headD 0 = 48 ∧ digits.length ≠ 1 then .error .malformed else .ok (digits, rest)

/-- Reads the digits after a point, if there is one. -/
def readFraction (atEnd : Error) : Bytes → Except Error (Bytes × Bytes)
  | 46 :: rest => readDigits atEnd rest
  | s => .ok ([], s)

/-- Whether a minus sign stands in front, and what follows it. -/
def readMinus : Bytes → Bool × Bytes
  | 45 :: rest => (true, rest)
  | s => (false, s)

/-- Skips a plus sign. -/
def skipPlus : Bytes → Bytes
  | 43 :: rest => rest
  | s => s

/-- Whether an exponent is negative, and what follows its sign. -/
def readExponentSign (s : Bytes) : Bool × Bytes :=
  let (negative, rest) := readMinus s
  if negative then (true, rest) else (false, skipPlus s)

/-- Reads an exponent, if there is one. -/
def readExponent (atEnd : Error) : Bytes → Except Error (Option (Bool × Bytes) × Bytes)
  | b :: rest =>
    if b = 101 ∨ b = 69 then do
      let (digits, tail) ← readDigits atEnd (readExponentSign rest).2
      .ok (some ((readExponentSign rest).1, digits), tail)
    else .ok (none, b :: rest)
  | [] => .ok (none, [])

/-- Reads a number. -/
def readNumeral (atEnd : Error) (s : Bytes) : Except Error (Numeral × Bytes) := do
  let (integer, rest) ← readInteger atEnd (readMinus s).2
  let (fraction, rest) ← readFraction atEnd rest
  let (exponent, rest) ← readExponent atEnd rest
  .ok (⟨(readMinus s).1, integer, fraction, exponent⟩, rest)

/-! ## Value -/

/-- The value of a run of digits. -/
def digitsValue (digits : Bytes) : Nat :=
  digits.foldl (fun n d => n * 10 + (d.toNat - 48)) 0

/-- The digits that are kept of a number: its leading digits as long as they stay below 2⁶⁴, and the
power of ten that they are to be multiplied with. -/
structure Scaled where
  significand : Nat
  exponent : Int
  /-- Whether the next digit no longer fits. -/
  full : Bool
  deriving DecidableEq, Repr

/-- Appends a digit, or marks that it does not fit. -/
def Scaled.push (x : Scaled) (d : UInt8) : Scaled :=
  let next := x.significand * 10 + (d.toNat - 48)
  if x.full ∨ UInt64.size ≤ next then { x with full := true } else { x with significand := next }

/-- Appends a digit of the integer part; one that is dropped counts in the exponent. -/
def Scaled.pushInteger (x : Scaled) (d : UInt8) : Scaled :=
  let y := x.push d
  if y.full then { y with exponent := y.exponent + 1 } else y

/-- Appends a digit of the fraction; one that is kept counts in the exponent. -/
def Scaled.pushFraction (x : Scaled) (d : UInt8) : Scaled :=
  let y := x.push d
  if y.full then y else { y with exponent := y.exponent - 1 }

/-- The kept digits of a number. -/
def Numeral.scaled (x : Numeral) : Scaled :=
  let integer := x.integer.foldl Scaled.pushInteger ⟨0, 0, false⟩
  let digits := x.fraction.foldl Scaled.pushFraction { integer with full := false }
  match x.exponent with
  | none => digits
  | some (true, e) => { digits with exponent := digits.exponent - digitsValue e }
  | some (false, e) => { digits with exponent := digits.exponent + digitsValue e }

/-- The number nearest to `n` that has at most 53 significant bits; a tie goes to the even one. -/
def nearest53 (n : Nat) : Nat :=
  let unit := 1 <<< (n.log2 - 52)
  let half := unit / 2
  let quotient := n / unit
  let remainder := n % unit
  let up := half < remainder ∨ (remainder = half ∧ half ≠ 0 ∧ quotient % 2 = 1)
  (if up then quotient + 1 else quotient) * unit

/-- Whether a number stays within the range of double-precision numbers. -/
def Scaled.inRange (x : Scaled) : Bool :=
  x.significand == 0 || x.exponent < 0
    || (x.exponent ≤ 308
      && nearest53 (nearest53 x.significand * nearest53 (Nat.pow 10 x.exponent.toNat)) < 1 <<< 1024)

/-- Reads a number as a value, which bounds its size. -/
def readNumber (s : Bytes) : Except Error (Numeral × Bytes) := do
  let (x, rest) ← readNumeral .truncated s
  if x.scaled.inRange then .ok (x, rest) else .error .malformed

/-- The code that a number stands for: plain digits below 2³². -/
def Numeral.code? (x : Numeral) : Option UInt32 :=
  let n := digitsValue x.integer
  if ¬ x.negative ∧ x.fraction.isEmpty ∧ x.exponent.isNone ∧ n < UInt32.size then
    some (UInt32.ofNat n)
  else none

/-! ## What is left -/

theorem length_readDigits {atEnd : Error} {s : Bytes} {p : Bytes × Bytes}
    (h : readDigits atEnd s = .ok p) : p.2.length < s.length := by
  have hs := congrArg List.length (List.takeWhile_append_dropWhile (p := isDigit) (l := s))
  simp only [List.length_append] at hs
  simp only [readDigits] at h
  split at h
  · simp at h
  next hd =>
  simp only [Except.ok.injEq] at h
  have : 0 < (s.takeWhile isDigit).length := by
    rw [List.length_pos_iff]
    simpa using hd
  simp only [← h]
  omega

theorem length_readMinus_le (s : Bytes) : (readMinus s).2.length ≤ s.length := by
  unfold readMinus
  split <;> simp

theorem length_readExponentSign_le (s : Bytes) : (readExponentSign s).2.length ≤ s.length := by
  have hm := length_readMinus_le s
  simp only [readExponentSign]
  split
  · exact hm
  · unfold skipPlus
    split <;> simp

theorem length_readInteger {atEnd : Error} {s : Bytes} {p : Bytes × Bytes}
    (h : readInteger atEnd s = .ok p) : p.2.length < s.length := by
  simp only [readInteger, bind, Except.bind] at h
  split at h
  · simp at h
  next hq =>
  split at h
  · simp at h
  · simp only [Except.ok.injEq] at h
    simp only [← h]
    exact length_readDigits hq

theorem length_readFraction {atEnd : Error} {s : Bytes} {p : Bytes × Bytes}
    (h : readFraction atEnd s = .ok p) : p.2.length ≤ s.length := by
  unfold readFraction at h
  split at h
  · have := length_readDigits h
    simp only [List.length_cons]
    omega
  · simp only [Except.ok.injEq] at h
    simp [← h]

theorem length_readExponent {atEnd : Error} {s : Bytes} {p : Option (Bool × Bytes) × Bytes}
    (h : readExponent atEnd s = .ok p) : p.2.length ≤ s.length := by
  unfold readExponent at h
  split at h
  next b tail =>
    have hs := length_readExponentSign_le tail
    split at h
    · simp only [bind, Except.bind] at h
      split at h
      · simp at h
      next hq =>
      have := length_readDigits hq
      simp only [Except.ok.injEq] at h
      simp only [← h, List.length_cons]
      omega
    · simp only [Except.ok.injEq] at h
      simp [← h]
  · simp only [Except.ok.injEq] at h
    simp [← h]

theorem length_readNumeral {atEnd : Error} {s : Bytes} {p : Numeral × Bytes}
    (h : readNumeral atEnd s = .ok p) : p.2.length < s.length := by
  have hs := length_readMinus_le s
  simp only [readNumeral, bind, Except.bind] at h
  split at h
  · simp at h
  next h₁ =>
  have h₁ := length_readInteger h₁
  split at h
  · simp at h
  next h₂ =>
  have h₂ := length_readFraction h₂
  split at h
  · simp at h
  next h₃ =>
  have h₃ := length_readExponent h₃
  simp only [Except.ok.injEq] at h
  simp only [← h]
  omega

theorem length_readNumber {s : Bytes} {p : Numeral × Bytes} (h : readNumber s = .ok p) :
    p.2.length < s.length := by
  simp only [readNumber, bind, Except.bind] at h
  split at h
  · simp at h
  next hq =>
  split at h
  · simp only [Except.ok.injEq] at h
    simp only [← h]
    exact length_readNumeral hq
  · simp at h

end DeviceTrust.Json
