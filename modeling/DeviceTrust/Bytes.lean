/-!
# Byte strings, regions and cursors

Memory that a caller lends is a byte string that is threaded through the operations writing into it.
A write never changes the length of the memory it writes into, and is cut off at its end.

Results:
* `Bytes.length_fill`, `Bytes.length_writeAt`: writing keeps the length.
* `Bytes.take_writeAt`, `Bytes.drop_writeAt`: bytes before and after the written ones stay as they were.
-/

namespace DeviceTrust

/-- A finite sequence of bytes. -/
abbrev Bytes := List UInt8

namespace Bytes

/-! ## Big-endian numbers -/

/-- The number whose base-256 digits, most significant first, are `bytes`. -/
def toNat (bytes : Bytes) : Nat :=
  bytes.foldl (fun n b => n * 256 + b.toNat) 0

/-- The lowest `width` base-256 digits of `n`, most significant first. -/
def ofNat : (width n : Nat) → Bytes
  | 0, _ => []
  | width + 1, n => ofNat width (n / 256) ++ [UInt8.ofNat (n % 256)]

@[simp] theorem length_ofNat (width n : Nat) : (ofNat width n).length = width := by
  induction width generalizing n with
  | zero => rfl
  | succ width ih => simp [ofNat, ih]

@[simp] theorem toNat_nil : toNat [] = 0 := rfl

@[simp] theorem toNat_concat (bytes : Bytes) (b : UInt8) :
    toNat (bytes ++ [b]) = toNat bytes * 256 + b.toNat := by
  simp [toNat]

/-! ## Bounded writes -/

/-- `region` after `text` has been written from its start; what does not fit is cut off. -/
def fill (region text : Bytes) : Bytes :=
  text.take region.length ++ region.drop text.length

/-- `memory` after `text` has been written from `offset` on; what does not fit is cut off. -/
def writeAt (memory : Bytes) (offset : Nat) (text : Bytes) : Bytes :=
  memory.take offset ++ fill (memory.drop offset) text

/-- The `length` bytes of `memory` from `offset` on. -/
def readAt (memory : Bytes) (offset length : Nat) : Bytes :=
  (memory.drop offset).take length

@[simp] theorem length_fill (region text : Bytes) : (fill region text).length = region.length := by
  simp only [fill, List.length_append, List.length_take, List.length_drop]
  omega

@[simp] theorem length_writeAt (memory : Bytes) (offset : Nat) (text : Bytes) :
    (writeAt memory offset text).length = memory.length := by
  simp only [writeAt, List.length_append, List.length_take, length_fill, List.length_drop]
  omega

/-- A text that fits is read back from where it was written. -/
theorem take_fill {region text : Bytes} (h : text.length ≤ region.length) :
    (fill region text).take text.length = text := by
  simp [fill, List.take_of_length_le h]

theorem take_writeAt {memory : Bytes} {offset : Nat} (text : Bytes) (h : offset ≤ memory.length) :
    (writeAt memory offset text).take offset = memory.take offset := by
  simp [writeAt, Nat.min_eq_left h]

theorem drop_writeAt {memory : Bytes} {offset n : Nat} {text : Bytes} (h : offset + text.length ≤ n) :
    (writeAt memory offset text).drop n = memory.drop n := by
  rcases Nat.lt_or_ge memory.length n with hn | hn
  · rw [List.drop_of_length_le (by simpa using Nat.le_of_lt hn),
      List.drop_of_length_le (Nat.le_of_lt hn)]
  · have hoff : offset ≤ memory.length := by omega
    have htext : text.length ≤ memory.length - offset := by omega
    simp only [writeAt, fill, List.length_drop, List.take_of_length_le htext, List.drop_append,
      List.length_take, Nat.min_eq_left hoff, List.drop_drop]
    rw [List.drop_of_length_le (by simp; omega), List.drop_of_length_le (by omega)]
    simp only [List.nil_append]
    congr 1
    omega

end Bytes

/-! ## Regions of a memory

A region is a range of addresses of a memory that a caller lends. Its contents are read from the memory,
and a write into it is cut off at its end. -/

/-- A range of addresses. -/
structure Region where
  offset : Nat
  length : Nat
  deriving DecidableEq, Repr

namespace Region

/-- What the region holds. -/
def read (region : Region) (memory : Bytes) : Bytes :=
  Bytes.readAt memory region.offset region.length

/-- The memory after `content` has been written from the start of the region on. -/
def write (region : Region) (content memory : Bytes) : Bytes :=
  Bytes.writeAt memory region.offset (content.take region.length)

/-- The first `length` bytes of the region. -/
def first (region : Region) (length : Nat) : Region :=
  ⟨region.offset, min length region.length⟩

@[simp] theorem length_write (region : Region) (content memory : Bytes) :
    (region.write content memory).length = memory.length := by
  simp [write]

end Region

/-! ## Cursors

A text that is put together from pieces is written into a memory piece by piece, at a cursor that moves
on with each write. A write takes as much of its piece as there is room for, so a piece may be cut; a
piece of which nothing more is taken ends the writing. -/

/-- A place in a memory: the bytes before it, which have been written, and those from it on. -/
structure Cursor where
  written : Bytes
  room : Bytes

namespace Cursor

/-- The cursor at the start of a memory. -/
def start (memory : Bytes) : Cursor := ⟨[], memory⟩

/-- The memory around the cursor. -/
def memory (c : Cursor) : Bytes := c.written ++ c.room

/-- The number of bytes that have been written. -/
def position (c : Cursor) : Nat := c.written.length

/-- Writes as much of a piece as there is room for, and gives the number of bytes. -/
def write (c : Cursor) (piece : Bytes) : Nat × Cursor :=
  let count := min piece.length c.room.length
  (count, ⟨c.written ++ piece.take count, c.room.drop count⟩)

/-- Writes what is left of a piece until nothing is, or until nothing more is taken. Tells whether the
whole piece has been written. -/
def writeAll (c : Cursor) (piece : Bytes) : Bool × Cursor :=
  if piece = [] then (true, c)
  else
    match c.write piece with
    | (0, c) => (false, c)
    | (count + 1, c) => c.writeAll (piece.drop (count + 1))
termination_by piece.length
decreasing_by
  rename_i h
  have := List.length_pos_iff.mpr h
  simp only [List.length_drop]
  omega

/-- Writes pieces one after another, up to the first one that is not written as a whole. Tells whether
there is none. -/
def writeEach (c : Cursor) : List Bytes → Bool × Cursor
  | [] => (true, c)
  | piece :: pieces =>
    match c.writeAll piece with
    | (true, c) => c.writeEach pieces
    | (false, c) => (false, c)

end Cursor

end DeviceTrust
