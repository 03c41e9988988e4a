import DeviceTrust.Bytes
import Mathlib.Algebra.Group.Nat.Defs
import Mathlib.Data.List.Induction
import Mathlib.Data.List.TakeWhile

/-!
# Numbers, runs and cursors

`Bytes.toNat` and `Bytes.ofNat` are inverse to each other for a fixed width. The readers of this library
cut a byte string behind its leading run of bytes of one kind, and its writers fill a memory in pieces.

Results:
* `Bytes.toNat_lt`: a byte string of some width stands for a number that the width can hold.
* `Bytes.toNat_ofNat`: the form of a number reads back, modulo what its width can hold.
* `Bytes.ofNat_toNat`: a byte string is the form of the number that it stands for.
* `Bytes.ofNat_add`: the forms of a number in two widths.
* `Bytes.takeWhile_append_of_ends`, `Bytes.dropWhile_append_of_ends`: a run that ends is the leading
  run.
* `Bytes.ends_dropWhile`: what is left ends the run.
* `Cursor.writeAll_eq`, `Cursor.writeEach_eq`: one piece, and pieces in a row.
-/

namespace DeviceTrust.Bytes

/-! ## Big-endian numbers -/

theorem toNat_lt (bytes : Bytes) : toNat bytes < 256 ^ bytes.length := by
  induction bytes using List.reverseRecOn with
  | nil => simp
  | append_singleton bytes b ih =>
    have hb := b.toNat_lt
    simp only [toNat_concat, List.length_append, List.length_singleton, Nat.pow_succ]
    omega

theorem toNat_ofNat (width n : Nat) : toNat (ofNat width n) = n % 256 ^ width := by
  induction width generalizing n with
  | zero => simp [ofNat, Nat.mod_one]
  | succ width ih =>
    rw [ofNat, toNat_concat, ih, Nat.pow_succ, Nat.mul_comm (256 ^ width), Nat.mod_mul]
    simp only [UInt8.toNat_ofNat', Nat.reducePow, Nat.mod_mod]
    omega

theorem ofNat_toNat (bytes : Bytes) : ofNat bytes.length (toNat bytes) = bytes := by
  induction bytes using List.reverseRecOn with
  | nil => rfl
  | append_singleton bytes b ih =>
    have hb : b.toNat < 256 := b.toNat_lt
    have hdiv : (toNat bytes * 256 + b.toNat) / 256 = toNat bytes := by omega
    have hmod : (toNat bytes * 256 + b.toNat) % 256 = b.toNat := by omega
    simp only [List.length_append, List.length_singleton, toNat_concat, ofNat, hdiv, hmod, ih,
      UInt8.ofNat_toNat]

/-- The form in a wider width has the higher digits in front. -/
theorem ofNat_add (m n k : Nat) : ofNat (m + n) k = ofNat m (k / 256 ^ n) ++ ofNat n k := by
  induction n generalizing k with
  | zero => rw [Nat.add_zero, Nat.pow_zero, Nat.div_one, ofNat, List.append_nil]
  | succ n ih =>
    rw [← Nat.add_assoc, ofNat, ih, ofNat, List.append_assoc, Nat.div_div_eq_div_mul,
      Nat.pow_succ, Nat.mul_comm 256]

theorem ofNat_zero (width : Nat) : ofNat width 0 = List.replicate width 0 := by
  induction width with
  | zero => rfl
  | succ width ih =>
    rw [ofNat, Nat.zero_div, ih, List.replicate_succ']
    rfl

/-! ## Runs of bytes

The readers of this library cut a byte string behind its leading run of bytes of one kind. Where the
run ends is decided by what follows it. -/

/-- A run of bytes with the property `p` ends where `rest` begins. -/
def Ends (p : UInt8 → Bool) (rest : Bytes) : Prop :=
  ∀ b ∈ rest.head?, p b = false

variable {p : UInt8 → Bool} {run rest : Bytes}

@[simp] theorem ends_nil : Ends p [] := by
  simp [Ends]

@[simp] theorem ends_cons {b : UInt8} : Ends p (b :: rest) ↔ p b = false := by
  simp [Ends]

theorem Ends.mono {q : UInt8 → Bool} (h : Ends p rest) (hqp : ∀ b, q b = true → p b = true) :
    Ends q rest := by
  intro b hb
  cases hq : q b with
  | false => rfl
  | true => exact absurd (h b hb) (by simp [hqp b hq])

theorem ends_dropWhile (p : UInt8 → Bool) (s : Bytes) : Ends p (s.dropWhile p) := by
  induction s with
  | nil => exact ends_nil
  | cons b s ih =>
    cases hb : p b with
    | true => rwa [List.dropWhile_cons_of_pos hb]
    | false => rwa [List.dropWhile_cons_of_neg (by simp [hb]), ends_cons]

theorem takeWhile_of_ends (h : Ends p rest) : rest.takeWhile p = [] := by
  cases rest with
  | nil => rfl
  | cons b rest => exact List.takeWhile_cons_of_neg (by simpa using h)

theorem dropWhile_of_ends (h : Ends p rest) : rest.dropWhile p = rest := by
  cases rest with
  | nil => rfl
  | cons b rest => exact List.dropWhile_cons_of_neg (by simpa using h)

theorem takeWhile_append_of_ends (hrun : ∀ b ∈ run, p b = true) (h : Ends p rest) :
    (run ++ rest).takeWhile p = run := by
  rw [List.takeWhile_append_of_pos hrun, takeWhile_of_ends h, List.append_nil]

theorem dropWhile_append_of_ends (hrun : ∀ b ∈ run, p b = true) (h : Ends p rest) :
    (run ++ rest).dropWhile p = rest := by
  rw [List.dropWhile_append_of_pos hrun, dropWhile_of_ends h]

theorem drop_length_takeWhile (p : UInt8 → Bool) (s : Bytes) :
    s.drop (s.takeWhile p).length = s.dropWhile p := by
  have h := List.prefix_iff_eq_append.mp (List.takeWhile_prefix p (l := s))
  exact List.append_cancel_left (h.trans List.takeWhile_append_dropWhile.symm)

end DeviceTrust.Bytes

namespace DeviceTrust.Cursor

/-! ## Writing in pieces

How a text is cut into pieces makes no difference to what is written of it. A memory is filled with
the text as far as there is room, wherever the end of the memory comes to lie: between two pieces,
inside one, or behind the last one. All of the text is written if and only if there is room for all
of it. -/

/-- The cursor after what there is room for of a text. -/
def advance (c : Cursor) (text : Bytes) : Cursor :=
  ⟨c.written ++ text.take c.room.length, c.room.drop text.length⟩

theorem advance_nil (c : Cursor) : c.advance [] = c := by
  simp [advance]

/-- A text may be cut anywhere, also beyond the end of the memory. -/
theorem advance_append (c : Cursor) (s t : Bytes) :
    c.advance (s ++ t) = (c.advance s).advance t := by
  simp only [advance, List.take_append, List.length_append, List.length_drop, List.append_assoc,
    List.drop_drop]

/-- Nothing more is written where the memory ends. -/
theorem advance_of_full {c : Cursor} (h : c.room = []) (text : Bytes) : c.advance text = c := by
  cases c
  subst h
  simp [advance]

theorem room_advance_of_le {c : Cursor} {text : Bytes} (h : c.room.length ≤ text.length) :
    (c.advance text).room = [] :=
  List.drop_of_length_le h

theorem length_room_advance (c : Cursor) (text : Bytes) :
    (c.advance text).room.length = c.room.length - text.length :=
  List.length_drop

theorem memory_advance_start (memory text : Bytes) :
    ((start memory).advance text).memory = Bytes.fill memory text := by
  rw [advance, Cursor.memory, Bytes.fill]
  rfl

theorem position_advance_start {memory text : Bytes} (h : text.length ≤ memory.length) :
    ((start memory).advance text).position = text.length := by
  simp [advance, start, position, h]

/-! ### Writing at a cursor -/

theorem write_eq (c : Cursor) (piece : Bytes) :
    c.write piece = (min piece.length c.room.length, c.advance piece) := by
  rw [write, advance]
  rcases Nat.le_total piece.length c.room.length with h | h
  · rw [Nat.min_eq_left h, List.take_length, List.take_of_length_le h]
  · rw [Nat.min_eq_right h, List.drop_length, List.drop_of_length_le h]

/-- A piece is written as a whole if there is room for it, by however many writes. -/
theorem writeAll_eq (c : Cursor) (piece : Bytes) :
    c.writeAll piece = (decide (piece.length ≤ c.room.length), c.advance piece) := by
  fun_induction writeAll c piece with
  | case1 c => simp [advance_nil]
  | case2 c piece hne c' hwrite =>
    -- there is no room, for nothing has been taken of a piece that is not empty
    rw [write_eq] at hwrite
    obtain ⟨hcount, rfl⟩ := Prod.mk.inj hwrite
    have := List.length_pos_iff.mpr hne
    rw [decide_eq_false (by omega)]
  | case3 c piece hne count c' hwrite ih =>
    rw [write_eq] at hwrite
    obtain ⟨hcount, rfl⟩ := Prod.mk.inj hwrite
    rw [ih, ← Nat.succ_eq_add_one, ← hcount, length_room_advance, List.length_drop]
    rcases Nat.le_total piece.length c.room.length with h | h
    · rw [Nat.min_eq_left h, List.drop_length, advance_nil, Nat.sub_self]
      simp [h]
    · rw [advance_of_full (room_advance_of_le h), Nat.min_eq_right h]
      congr 2
      simp only [eq_iff_iff]
      omega

/-- Pieces in a row are written as their text is. -/
theorem writeEach_eq (c : Cursor) (pieces : List Bytes) :
    c.writeEach pieces = (decide (pieces.flatten.length ≤ c.room.length),
      c.advance pieces.flatten) := by
  fun_induction writeEach c pieces with
  | case1 c => simp [advance_nil]
  | case2 c piece pieces c' hwrite ih =>
    rw [writeAll_eq] at hwrite
    obtain ⟨hfits, rfl⟩ := Prod.mk.inj hwrite
    have hfits := of_decide_eq_true hfits
    rw [ih, length_room_advance, List.flatten_cons, advance_append, List.length_append]
    congr 2
    simp only [eq_iff_iff]
    omega
  | case3 c piece pieces c' hwrite =>
    -- the pieces behind the one that is cut would come to stand behind the end of the memory
    rw [writeAll_eq] at hwrite
    obtain ⟨hlong, rfl⟩ := Prod.mk.inj hwrite
    have hlong := Nat.not_le.mp (of_decide_eq_false hlong)
    rw [List.flatten_cons, advance_append,
      advance_of_full (room_advance_of_le (Nat.le_of_lt hlong)), decide_eq_false]
    rw [List.length_append]
    omega

end DeviceTrust.Cursor
