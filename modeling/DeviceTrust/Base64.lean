import DeviceTrust.Bytes

/-!
# Base64

Three bytes are four sextets, and each sextet is one symbol of the alphabet. A last group of one or two
bytes is two or three symbols, which may be followed by the padding that completes the group of four.
Reading is strict: no other bytes, no padding inside the text, and zero bits where the last symbol holds
more bits than its group has.

Results:
* `pack_unpack`: cutting bytes into sextets and putting them together gives the bytes back.
* `Alphabet.value?_symbol`: a symbol reads back as its sextet.
* `length_pack`: the number of bytes that a run of sextets holds.
-/

namespace DeviceTrust.Base64

/-! ## Symbols -/

/-- The two alphabets, which differ in their last two symbols only. -/
inductive Alphabet where
  | standard
  | urlSafe
  deriving DecidableEq, Repr

/-- The padding byte, an equals sign. -/
def pad : UInt8 := 61

/-- The symbol of the sextet `n`. -/
def Alphabet.symbol (alphabet : Alphabet) (n : Nat) : UInt8 :=
  if n < 26 then UInt8.ofNat (65 + n)
  else if n < 52 then UInt8.ofNat (71 + n)
  else if n < 62 then UInt8.ofNat (n - 4)
  else match alphabet with
    | .standard => if n = 62 then 43 else 47
    | .urlSafe => if n = 62 then 45 else 95

/-- The sextet of a symbol; other bytes have none. -/
def Alphabet.value? (alphabet : Alphabet) (b : UInt8) : Option Nat :=
  if 65 ≤ b ∧ b ≤ 90 then some (b.toNat - 65)
  else if 97 ≤ b ∧ b ≤ 122 then some (b.toNat - 71)
  else if 48 ≤ b ∧ b ≤ 57 then some (b.toNat + 4)
  else if b = alphabet.symbol 62 then some 62
  else if b = alphabet.symbol 63 then some 63
  else none

/-- Whether a byte belongs to the alphabet. -/
def Alphabet.isSymbol (alphabet : Alphabet) (b : UInt8) : Bool :=
  (alphabet.value? b).isSome

theorem Alphabet.value?_symbol (alphabet : Alphabet) {n : Nat} (h : n < 64) :
    alphabet.value? (alphabet.symbol n) = some n := by
  cases alphabet <;> revert n <;> decide

/-! ## Bytes and sextets -/

/-- Cuts bytes into sextets; the last one is filled up with zero bits. -/
def unpack : Bytes → List Nat
  | x :: y :: z :: rest =>
    x.toNat / 4 :: (x.toNat % 4 * 16 + y.toNat / 16) :: (y.toNat % 16 * 4 + z.toNat / 64)
      :: z.toNat % 64 :: unpack rest
  | [x, y] => [x.toNat / 4, x.toNat % 4 * 16 + y.toNat / 16, y.toNat % 16 * 4]
  | [x] => [x.toNat / 4, x.toNat % 4 * 16]
  | [] => []

/-- Puts sextets together; bits that do not fill a byte are dropped. -/
def pack : List Nat → Bytes
  | a :: b :: c :: d :: rest =>
    UInt8.ofNat (a * 4 + b / 16) :: UInt8.ofNat (b % 16 * 16 + c / 4)
      :: UInt8.ofNat (c % 4 * 64 + d) :: pack rest
  | [a, b, c] => [UInt8.ofNat (a * 4 + b / 16), UInt8.ofNat (b % 16 * 16 + c / 4)]
  | [a, b] => [UInt8.ofNat (a * 4 + b / 16)]
  | [_] => []
  | [] => []

theorem pack_unpack (bytes : Bytes) : pack (unpack bytes) = bytes := by
  have byte (x : UInt8) {n : Nat} (h : n = x.toNat) : UInt8.ofNat n = x := by simp [h]
  fun_induction unpack bytes with
  | case1 x y z rest ih =>
    have hx := x.toNat_lt; have hy := y.toNat_lt; have hz := z.toNat_lt
    simp only [pack, ih, List.cons.injEq, and_true]
    exact ⟨byte x (by omega), byte y (by omega), byte z (by omega)⟩
  | case2 x y =>
    have hx := x.toNat_lt; have hy := y.toNat_lt
    simp only [pack, List.cons.injEq, and_true]
    exact ⟨byte x (by omega), byte y (by omega)⟩
  | case3 x =>
    have hx := x.toNat_lt
    simp only [pack, List.cons.injEq, and_true]
    exact byte x (by omega)
  | case4 => rfl

theorem length_pack (sextets : List Nat) : (pack sextets).length = sextets.length * 3 / 4 := by
  fun_induction pack sextets with
  | case1 a b c d rest ih => simp only [List.length_cons, ih]; omega
  | case2 | case3 | case4 | case5 => simp

/-! ## Writing -/

/-- The symbols of `bytes`, without padding. -/
def encodeUnpadded (alphabet : Alphabet) (bytes : Bytes) : Bytes :=
  (unpack bytes).map alphabet.symbol

/-- The symbols of `bytes`, padded to a multiple of four. -/
def encode (alphabet : Alphabet) (bytes : Bytes) : Bytes :=
  let symbols := encodeUnpadded alphabet bytes
  symbols ++ List.replicate ((4 - symbols.length % 4) % 4) pad

/-! ## Reading -/

/-- Why a text is not base64. -/
inductive DecodeError where
  /-- One symbol is left over after the groups of four. -/
  | invalidLength
  /-- The byte at `offset` is no symbol, or padding that may not stand there. -/
  | invalidByte (offset : Nat) (byte : UInt8)
  /-- The last symbol, at `offset`, holds bits that its group has no place for. -/
  | invalidLastSymbol (offset : Nat) (byte : UInt8)
  deriving DecidableEq, Repr

/-- The wording of a decoding error. -/
def DecodeError.message : DecodeError → String
  | .invalidLength => "Encoded text cannot have a 6-bit remainder."
  | .invalidByte offset byte => s!"Invalid byte {byte.toNat}, offset {offset}."
  | .invalidLastSymbol offset byte => s!"Invalid last symbol {byte.toNat}, offset {offset}."

/-- The number of padding bytes at the end of `text`, at most two. -/
def paddingLength (text : Bytes) : Nat :=
  ((text.reverse.take 2).takeWhile (· == pad)).length

/-- The number of bytes that `text` decodes to, told from its length and its padding alone. -/
def decodedLength (text : Bytes) : Except DecodeError Nat :=
  let symbols := text.length - paddingLength text
  match symbols % 4 with
  | 0 => .ok (symbols / 4 * 3)
  | 2 => .ok (symbols / 4 * 3 + 1)
  | 3 => .ok (symbols / 4 * 3 + 2)
  | _ => .error .invalidLength

/-- Whether `padding` may follow `count` symbols: it stays within the last group of four, which has at
least two symbols. -/
def paddingFits (count : Nat) (padding : Bytes) : Bool :=
  padding.isEmpty
    || (decide (2 ≤ count % 4 ∧ count % 4 + padding.length ≤ 4) && padding.all (· == pad))

/-- The bits of the last sextet that belong to no byte. -/
def unusedBits (sextets : List Nat) : Nat :=
  match sextets.length % 4 with
  | 2 => sextets.getLastD 0 % 16
  | 3 => sextets.getLastD 0 % 4
  | _ => 0

/-- The bytes that a text of `symbols` holds. -/
def decodeSymbols (alphabet : Alphabet) (symbols : Bytes) : Except DecodeError Bytes :=
  let sextets := symbols.filterMap alphabet.value?
  if unusedBits sextets = 0 then .ok (pack sextets)
  else .error (.invalidLastSymbol (symbols.length - 1) (symbols.getLastD 0))

/-- The bytes that `text` holds, with or without padding. -/
def decode (alphabet : Alphabet) (text : Bytes) : Except DecodeError Bytes :=
  if text.length % 4 = 1 then
    let last := text.getLastD 0
    if last = pad ∨ alphabet.isSymbol last then .error .invalidLength
    else .error (.invalidByte (text.length - 1) last)
  else
    let symbols := text.takeWhile alphabet.isSymbol
    let padding := text.drop symbols.length
    if paddingFits symbols.length padding then decodeSymbols alphabet symbols
    else .error (.invalidByte symbols.length (padding.headD pad))

end DeviceTrust.Base64
