import DeviceTrust.Bytes

/-!
# SHA-256 and HMAC

The message is padded to blocks of 64 bytes. Each block is compressed into eight 32-bit words over 64
rounds; the words of the message schedule are made as they are used, from a window of the last sixteen.

Results:
* `length_digest`: a digest has 32 bytes.
-/

namespace DeviceTrust.Sha256

/-- The number of bytes of a digest. -/
def digestLength : Nat := 32

/-- The number of bytes of a block. -/
def blockLength : Nat := 64

/-! ## Words -/

/-- Rotates a word to the right by `n` bits, with `0 < n < 32`. -/
def rotateRight (x n : UInt32) : UInt32 :=
  (x >>> n) ||| (x <<< (32 - n))

/-- The first 32 bits of the fractional parts of the cube roots of the first 64 primes. -/
def roundConstants : List UInt32 := [
  0x428a2f98, 0x71374491, 0xb5c0fbcf, 0xe9b5dba5, 0x3956c25b, 0x59f111f1, 0x923f82a4, 0xab1c5ed5,
  0xd807aa98, 0x12835b01, 0x243185be, 0x550c7dc3, 0x72be5d74, 0x80deb1fe, 0x9bdc06a7, 0xc19bf174,
  0xe49b69c1, 0xefbe4786, 0x0fc19dc6, 0x240ca1cc, 0x2de92c6f, 0x4a7484aa, 0x5cb0a9dc, 0x76f988da,
  0x983e5152, 0xa831c66d, 0xb00327c8, 0xbf597fc7, 0xc6e00bf3, 0xd5a79147, 0x06ca6351, 0x14292967,
  0x27b70a85, 0x2e1b2138, 0x4d2c6dfc, 0x53380d13, 0x650a7354, 0x766a0abb, 0x81c2c92e, 0x92722c85,
  0xa2bfe8a1, 0xa81a664b, 0xc24b8b70, 0xc76c51a3, 0xd192e819, 0xd6990624, 0xf40e3585, 0x106aa070,
  0x19a4c116, 0x1e376c08, 0x2748774c, 0x34b0bcb5, 0x391c0cb3, 0x4ed8aa4a, 0x5b9cca4f, 0x682e6ff3,
  0x748f82ee, 0x78a5636f, 0x84c87814, 0x8cc70208, 0x90befffa, 0xa4506ceb, 0xbef9a3f7, 0xc67178f2]

/-- The eight chaining words. -/
structure State where
  a : UInt32
  b : UInt32
  c : UInt32
  d : UInt32
  e : UInt32
  f : UInt32
  g : UInt32
  h : UInt32
  deriving DecidableEq, Repr

/-- The first 32 bits of the fractional parts of the square roots of the first eight primes. -/
def State.initial : State :=
  ⟨0x6a09e667, 0xbb67ae85, 0x3c6ef372, 0xa54ff53a, 0x510e527f, 0x9b05688c, 0x1f83d9ab, 0x5be0cd19⟩

/-- The sum of two states, word by word. -/
def State.add (s t : State) : State :=
  ⟨s.a + t.a, s.b + t.b, s.c + t.c, s.d + t.d, s.e + t.e, s.f + t.f, s.g + t.g, s.h + t.h⟩

/-- The words of a state in order. -/
def State.toList (s : State) : List UInt32 :=
  [s.a, s.b, s.c, s.d, s.e, s.f, s.g, s.h]

/-! ## Compression -/

/-- One round with the constant `k` and the schedule word `w`. -/
def State.round (s : State) (k w : UInt32) : State :=
  let choice := (s.e &&& s.f) ^^^ (~~~s.e &&& s.g)
  let majority := (s.a &&& s.b) ^^^ (s.a &&& s.c) ^^^ (s.b &&& s.c)
  let sumE := rotateRight s.e 6 ^^^ rotateRight s.e 11 ^^^ rotateRight s.e 25
  let sumA := rotateRight s.a 2 ^^^ rotateRight s.a 13 ^^^ rotateRight s.a 22
  let t := s.h + sumE + choice + k + w
  ⟨t + (sumA + majority), s.a, s.b, s.c, s.d + t, s.e, s.f, s.g⟩

/-- The schedule word that follows a window of sixteen. -/
def nextWord (window : List UInt32) : UInt32 :=
  let x := window.getD 1 0
  let y := window.getD 14 0
  let sigmaX := rotateRight x 7 ^^^ rotateRight x 18 ^^^ (x >>> 3)
  let sigmaY := rotateRight y 17 ^^^ rotateRight y 19 ^^^ (y >>> 10)
  sigmaY + window.getD 9 0 + sigmaX + window.getD 0 0

/-- One round, which also moves the window on by one word. -/
def step (x : State × List UInt32) (k : UInt32) : State × List UInt32 :=
  (x.1.round k (x.2.getD 0 0), x.2.drop 1 ++ [nextWord x.2])

/-- The big-endian words of a block. -/
def words : Bytes → List UInt32
  | a :: b :: c :: d :: rest => UInt32.ofNat (Bytes.toNat [a, b, c, d]) :: words rest
  | _ => []

/-- Compresses one block into the state. -/
def compress (s : State) (block : Bytes) : State :=
  s.add (roundConstants.foldl step (s, words block)).1

/-- Compresses the first `count` blocks of `bytes` into the state. -/
def absorb : (count : Nat) → Bytes → State → State
  | 0, _, s => s
  | count + 1, bytes, s =>
    absorb count (bytes.drop blockLength) (compress s (bytes.take blockLength))

/-! ## Digests -/

/-- The message followed by a one bit, zero bits up to the last 64 bits of a block, and its length in
bits. -/
def padMessage (message : Bytes) : Bytes :=
  message ++ 128 :: List.replicate ((119 - message.length % 64) % 64) 0
    ++ Bytes.ofNat 8 (message.length * 8)

/-- The SHA-256 digest of a message. -/
def digest (message : Bytes) : Bytes :=
  let padded := padMessage message
  (absorb (padded.length / blockLength) padded State.initial).toList.flatMap
    fun word => Bytes.ofNat 4 word.toNat

@[simp] theorem length_digest (message : Bytes) : (digest message).length = digestLength := by
  simp [digest, State.toList, digestLength]

end DeviceTrust.Sha256

namespace DeviceTrust.Hmac

/-! ## HMAC-SHA256

A keyed digest: the message is hashed behind the key mixed with one pad, and the result behind the key
mixed with the other. -/

/-- The key as one block; a key that is longer than a block is replaced with its digest. -/
def keyBlock (key : Bytes) : Bytes :=
  let key := if Sha256.blockLength < key.length then Sha256.digest key else key
  key ++ List.replicate (Sha256.blockLength - key.length) 0

/-- The HMAC-SHA256 tag of `message` under `key`. -/
def sha256 (key message : Bytes) : Bytes :=
  let block := keyBlock key
  Sha256.digest (block.map (· ^^^ 0x5c) ++ Sha256.digest (block.map (· ^^^ 0x36) ++ message))

end DeviceTrust.Hmac
