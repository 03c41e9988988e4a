import DeviceTrust.Bytes

/-!
# Access to regions

What a write changes lies inside the region that it writes into, so the contents of every region
apart from it stay as they were.

The ranges and the copies of this library are total: what lies beyond the end is left out. They have
checked forms as well. A range that does not lie inside of what it is taken from, or a copy between
parts of different lengths, is a fault, and a fault ends the program. Where the check passes, the
checked form gives what the total one gives.

Results:
* `Bytes.getElem?_writeAt`: each byte of a memory after a write.
* `Region.read_write`, `Region.write_read`: what has been written into a region is read back, and
  what is read from it can be written there again.
* `Region.confines_write`: a write changes nothing outside of the region.
* `Region.Confines.read_eq`: a region apart from the changed one keeps its contents.
* `Bytes.slice_eq`, `Bytes.difference_eq`: checked ranges of bytes, and their lengths.
* `Region.range_eq`, `Region.splitAt_eq`: checked parts of a region.
* `Region.load_eq`, `Region.store_eq`: what a region holds, and a copy into it.
-/

namespace DeviceTrust

/-! ## Writes are confined to a region -/

theorem Bytes.readAt_writeAt {memory text : Bytes} {offset : Nat}
    (h : offset + text.length ≤ memory.length) :
    readAt (writeAt memory offset text) offset text.length = text := by
  have htake : (memory.take offset).length = offset := List.length_take_of_le (by omega)
  rw [readAt, writeAt, List.drop_left' htake]
  exact take_fill (by rw [List.length_drop]; omega)

theorem Bytes.getElem?_fill (region text : Bytes) (i : Nat) :
    (fill region text)[i]? =
      if i < text.length ∧ i < region.length then text[i]? else region[i]? := by
  simp only [fill, List.getElem?_append, List.length_take, List.getElem?_take,
    List.getElem?_drop]
  grind

theorem Bytes.getElem?_writeAt (memory text : Bytes) (offset i : Nat) :
    (writeAt memory offset text)[i]? =
      if offset ≤ i ∧ i < offset + text.length ∧ i < memory.length then text[i - offset]?
      else memory[i]? := by
  simp only [writeAt, List.getElem?_append, getElem?_fill, List.length_take, List.length_drop,
    List.getElem?_take, List.getElem?_drop]
  grind

theorem Bytes.fill_of_length_eq {region text : Bytes} (h : text.length = region.length) :
    fill region text = text := by
  rw [fill, List.take_of_length_le (Nat.le_of_eq h), List.drop_eq_nil_of_le (Nat.le_of_eq h.symm),
    List.append_nil]

/-- What is written in two parts, one behind the other, is written at once. -/
theorem Bytes.writeAt_append (memory s t : Bytes) (offset : Nat)
    (h : offset + (s ++ t).length ≤ memory.length) :
    writeAt (writeAt memory offset s) (offset + s.length) t = writeAt memory offset (s ++ t) := by
  rw [List.length_append] at h
  refine List.ext_getElem? fun i => ?_
  simp only [getElem?_writeAt, length_writeAt, List.length_append, List.getElem?_append]
  grind

namespace Region

variable {region other : Region} {memory memory' : Bytes}

/-- The region lies inside the memory. -/
def Fits (region : Region) (memory : Bytes) : Prop :=
  region.offset + region.length ≤ memory.length

/-- The regions have no address in common. -/
def Apart (region other : Region) : Prop :=
  region.offset + region.length ≤ other.offset ∨ other.offset + other.length ≤ region.offset

instance : Decidable (Apart region other) :=
  inferInstanceAs (Decidable (_ ∨ _))

/-- The memories are of one length and differ inside the region at most. -/
structure Confines (region : Region) (memory memory' : Bytes) : Prop where
  length_eq : memory'.length = memory.length
  take_eq : memory'.take region.offset = memory.take region.offset
  drop_eq : memory'.drop (region.offset + region.length) =
    memory.drop (region.offset + region.length)

theorem length_read (h : region.Fits memory) : (region.read memory).length = region.length := by
  rw [read, Bytes.readAt, List.length_take_of_le]
  unfold Fits at h
  rw [List.length_drop]
  omega

/-- The first part of a region holds the first bytes of what the region holds. -/
theorem read_first {n : Nat} (h : n ≤ region.length) (memory : Bytes) :
    (region.first n).read memory = (region.read memory).take n := by
  simp only [first, read, Bytes.readAt, List.take_take, Nat.min_eq_left h]

theorem Apart.first (h : region.Apart other) (n : Nat) : (region.first n).Apart other := by
  simp only [Apart, Region.first] at h ⊢
  omega

theorem write_of_length_eq {content : Bytes} (hcontent : content.length = region.length)
    (memory : Bytes) :
    region.write content memory = Bytes.writeAt memory region.offset content := by
  rw [write, List.take_of_length_le (Nat.le_of_eq hcontent)]

theorem read_write {content : Bytes} (h : region.Fits memory)
    (hcontent : content.length = region.length) :
    region.read (region.write content memory) = content := by
  rw [read, write_of_length_eq hcontent, ← hcontent]
  exact Bytes.readAt_writeAt (by rw [hcontent]; exact h)

/-- Each byte of a memory after a write into a region. -/
theorem getElem?_write (region : Region) (content memory : Bytes) (i : Nat) :
    (region.write content memory)[i]? =
      if region.offset ≤ i ∧ i < region.offset + region.length ∧
        i < region.offset + content.length ∧ i < memory.length
      then content[i - region.offset]? else memory[i]? := by
  rw [write, Bytes.getElem?_writeAt, List.length_take, List.getElem?_take]
  grind

/-- Each byte of what a region holds. -/
theorem getElem?_read (region : Region) (memory : Bytes) (i : Nat) :
    (region.read memory)[i]? = if i < region.length then memory[region.offset + i]? else none := by
  rw [read, Bytes.readAt, List.getElem?_take, List.getElem?_drop]

theorem write_read (h : region.Fits memory) :
    region.write (region.read memory) memory = memory := by
  refine List.ext_getElem? fun i => ?_
  rw [getElem?_write, length_read h, getElem?_read]
  grind

theorem Confines.refl (region : Region) (memory : Bytes) : region.Confines memory memory :=
  ⟨rfl, rfl, rfl⟩

theorem confines_write (h : region.Fits memory) (content : Bytes) :
    region.Confines memory (region.write content memory) := by
  unfold Fits at h
  refine ⟨length_write region content memory, Bytes.take_writeAt _ (by omega), ?_⟩
  refine Bytes.drop_writeAt ?_
  have : (content.take region.length).length ≤ region.length := List.length_take_le _ _
  omega

theorem Confines.fits (h : region.Confines memory memory') (hfits : other.Fits memory) :
    other.Fits memory' := by
  unfold Fits at hfits ⊢
  rw [h.length_eq]
  exact hfits

theorem Confines.read_eq (h : region.Confines memory memory') (hapart : other.Apart region) :
    other.read memory' = other.read memory := by
  rw [read, read, Bytes.readAt, Bytes.readAt]
  rcases hapart with hbefore | hafter
  · have htake : ∀ m : Bytes, (m.drop other.offset).take other.length =
        ((m.take region.offset).drop other.offset).take other.length := by
      intro m
      rw [List.drop_take, List.take_take, Nat.min_eq_left (by omega)]
    rw [htake memory', h.take_eq, ← htake memory]
  · have hdrop : ∀ m : Bytes, m.drop other.offset =
        (m.drop (region.offset + region.length)).drop
          (other.offset - (region.offset + region.length)) := by
      intro m
      rw [List.drop_drop, Nat.add_sub_cancel' hafter]
    rw [hdrop memory', h.drop_eq, ← hdrop memory]

end Region

/-! ## Checked access -/

/-- What ends a program. -/
inductive Fault where
  /-- A place or a range that does not lie inside. -/
  | outOfRange
  /-- A copy between parts of different lengths. -/
  | unequalLengths
  /-- A difference below zero. -/
  | belowZero
  /-- A remainder by zero. -/
  | zeroModulus
  deriving DecidableEq, Repr

/-! ### Bytes -/

namespace Bytes

/-- The byte at a place. -/
def byteAt (bytes : Bytes) (place : Nat) : Except Fault UInt8 :=
  match bytes[place]? with
  | some b => .ok b
  | none => .error .outOfRange

/-- The bytes from `start` on, up to but not including `stop`. -/
def slice (bytes : Bytes) (start stop : Nat) : Except Fault Bytes :=
  if start ≤ stop ∧ stop ≤ bytes.length then .ok ((bytes.take stop).drop start)
  else .error .outOfRange

variable {bytes : Bytes}

@[simp] theorem byteAt_zero (b : UInt8) (bytes : Bytes) : byteAt (b :: bytes) 0 = .ok b := rfl

@[simp] theorem byteAt_succ (b : UInt8) (bytes : Bytes) (place : Nat) :
    byteAt (b :: bytes) (place + 1) = byteAt bytes place := rfl

theorem slice_eq {start stop : Nat} (hstart : start ≤ stop) (hstop : stop ≤ bytes.length) :
    bytes.slice start stop = .ok ((bytes.take stop).drop start) :=
  if_pos ⟨hstart, hstop⟩

theorem slice_to {stop : Nat} (h : stop ≤ bytes.length) :
    bytes.slice 0 stop = .ok (bytes.take stop) :=
  slice_eq (Nat.zero_le stop) h

/-- A part between two others. -/
theorem slice_of_eq_append {front part back : Bytes} {start stop : Nat}
    (hbytes : bytes = front ++ (part ++ back)) (hstart : front.length = start)
    (hstop : start + part.length = stop) : bytes.slice start stop = .ok part := by
  subst hbytes hstart hstop
  rw [slice_eq (Nat.le_add_right _ _) (by simp only [List.length_append]; omega),
    List.take_length_add_append, List.take_left, List.drop_left]

theorem slice_from {start : Nat} (h : start ≤ bytes.length) :
    bytes.slice start bytes.length = .ok (bytes.drop start) := by
  rw [slice_eq h (Nat.le_refl _), List.take_length]

end Bytes

/-- The difference of two lengths. -/
def difference (m n : Nat) : Except Fault Nat :=
  if n ≤ m then .ok (m - n) else .error .belowZero

theorem difference_eq {m n : Nat} (h : n ≤ m) : difference m n = .ok (m - n) :=
  if_pos h

/-! ### Regions -/

namespace Region

/-- The whole of a memory of `size` bytes. -/
def whole (size : Nat) : Region :=
  ⟨0, size⟩

/-- The part of a region from its byte `start` on, up to but not including `stop`. -/
def range (region : Region) (start stop : Nat) : Except Fault Region :=
  if start ≤ stop ∧ stop ≤ region.length then .ok ⟨region.offset + start, stop - start⟩
  else .error .outOfRange

/-- The parts of a region in front of its byte `place` and from there on. -/
def splitAt (region : Region) (place : Nat) : Except Fault (Region × Region) :=
  if place ≤ region.length then
    .ok (⟨region.offset, place⟩, ⟨region.offset + place, region.length - place⟩)
  else .error .outOfRange

/-- What the region holds. -/
def load (region : Region) (memory : Bytes) : Except Fault Bytes :=
  if region.offset + region.length ≤ memory.length then .ok (region.read memory)
  else .error .outOfRange

/-- Copies `content` into the region, which it has to fill. -/
def store (region : Region) (content memory : Bytes) : Except Fault Bytes :=
  if memory.length < region.offset + region.length then .error .outOfRange
  else if content.length ≠ region.length then .error .unequalLengths
  else .ok (region.write content memory)

variable {region : Region} {memory : Bytes}

theorem range_eq {start stop : Nat} (hstart : start ≤ stop) (hstop : stop ≤ region.length) :
    region.range start stop = .ok ⟨region.offset + start, stop - start⟩ :=
  if_pos ⟨hstart, hstop⟩

theorem splitAt_eq {place : Nat} (h : place ≤ region.length) : region.splitAt place =
    .ok (⟨region.offset, place⟩, ⟨region.offset + place, region.length - place⟩) :=
  if_pos h

theorem load_eq (h : region.Fits memory) : region.load memory = .ok (region.read memory) :=
  if_pos h

theorem store_eq {content : Bytes} (h : region.Fits memory)
    (hcontent : content.length = region.length) :
    region.store content memory = .ok (region.write content memory) := by
  rw [store, if_neg (Nat.not_lt.mpr h), if_neg fun hne => hne hcontent]

theorem store_eq_writeAt {offset length : Nat} {content : Bytes}
    (hcontent : content.length = length) (h : offset + length ≤ memory.length) :
    store ⟨offset, length⟩ content memory = .ok (Bytes.writeAt memory offset content) := by
  have hfits : Fits ⟨offset, length⟩ memory := h
  rw [store_eq hfits hcontent, write_of_length_eq hcontent]

end Region

end DeviceTrust
