import Mathlib.Data.List.Basic

/-! Byte strings as fixed formats use them: overwriting a range, little-endian numbers at an
offset, and cutting into equal chunks. Every operation comes with what it leaves alone.
-/

namespace RustyPi.Bytes

----------
-- Overwriting a range
----------

section Splice

variable {α : Type}

/-- `list` with `new` copied over it from index `at_` on. -/
def splice (list : List α) (at_ : Nat) (new : List α) : List α :=
  list.take at_ ++ new ++ list.drop (at_ + new.length)

theorem splice_length {list new : List α} {at_ : Nat} (fits : at_ + new.length ≤ list.length)
    : (splice list at_ new).length = list.length := by
  simp only [splice, List.length_append, List.length_take, List.length_drop]
  omega

theorem getElem?_splice {list new : List α} {at_ : Nat}
    (fits : at_ + new.length ≤ list.length) (index : Nat)
    : (splice list at_ new)[index]?
      = if at_ ≤ index ∧ index < at_ + new.length then new[index - at_]? else list[index]? := by
  have inside : (list.take at_).length = at_ := by
    rw [List.length_take]
    omega
  unfold splice
  rw [List.append_assoc, List.getElem?_append, inside]
  by_cases before : index < at_
  · rw [if_pos before, if_neg (by omega), List.getElem?_take_of_lt before]
  · rw [if_neg before, List.getElem?_append]
    by_cases within : index < at_ + new.length
    · rw [if_pos (by omega), if_pos (by omega)]
    · rw [if_neg (by omega), if_neg (by omega), List.getElem?_drop]
      congr 1
      omega

end Splice

----------
-- Numbers
----------

def byteAt (bytes : List UInt8) (at_ : Nat) : Nat := (bytes[at_]?.getD 0).toNat

def u16At (bytes : List UInt8) (at_ : Nat) : Nat :=
  byteAt bytes at_ + 0x100 * byteAt bytes (at_ + 1)

def u32At (bytes : List UInt8) (at_ : Nat) : Nat :=
  u16At bytes at_ + 0x10000 * u16At bytes (at_ + 2)

/-- The low 16 bits of `value`, low byte first. -/
def le16 (value : Nat) : List UInt8 := [UInt8.ofNat value, UInt8.ofNat (value / 0x100)]

/-- The low 32 bits of `value`, low byte first. -/
def le32 (value : Nat) : List UInt8 := le16 value ++ le16 (value / 0x10000)

@[simp] theorem le16_length (value : Nat) : (le16 value).length = 2 := rfl

@[simp] theorem le32_length (value : Nat) : (le32 value).length = 4 := rfl

variable {bytes new : List UInt8} {at_ index : Nat}

section Fits

variable (fits : at_ + new.length ≤ bytes.length)
include fits

theorem byteAt_splice_of_ne (outside : index < at_ ∨ at_ + new.length ≤ index)
    : byteAt (splice bytes at_ new) index = byteAt bytes index := by
  rw [byteAt, getElem?_splice fits, if_neg (by omega), byteAt]

theorem byteAt_splice (inside : index < new.length)
    : byteAt (splice bytes at_ new) (at_ + index) = byteAt new index := by
  rw [byteAt, getElem?_splice fits, if_pos (by omega), byteAt, Nat.add_sub_cancel_left]

theorem u16At_splice_of_ne (outside : index + 2 ≤ at_ ∨ at_ + new.length ≤ index)
    : u16At (splice bytes at_ new) index = u16At bytes index := by
  rw [u16At, byteAt_splice_of_ne fits (by omega), byteAt_splice_of_ne fits (by omega), u16At]

theorem u32At_splice_of_ne (outside : index + 4 ≤ at_ ∨ at_ + new.length ≤ index)
    : u32At (splice bytes at_ new) index = u32At bytes index := by
  rw [u32At, u16At_splice_of_ne fits (by omega), u16At_splice_of_ne fits (by omega), u32At]

end Fits

theorem byteAt_le16 (value : Nat)
    : byteAt (le16 value) 0 = value % 0x100 ∧ byteAt (le16 value) 1 = value / 0x100 % 0x100 := by
  simp [byteAt, le16]

theorem u16At_splice_le16 (fits : at_ + 2 ≤ bytes.length) (value : Nat)
    : u16At (splice bytes at_ (le16 value)) at_ = value % 0x10000 := by
  have low : byteAt (splice bytes at_ (le16 value)) (at_ + 0) = byteAt (le16 value) 0 :=
    byteAt_splice fits (by simp)
  have high : byteAt (splice bytes at_ (le16 value)) (at_ + 1) = byteAt (le16 value) 1 :=
    byteAt_splice fits (by simp)
  rw [Nat.add_zero] at low
  rw [u16At, low, high, (byteAt_le16 value).1, (byteAt_le16 value).2]
  omega

theorem u32At_splice_le32 (fits : at_ + 4 ≤ bytes.length) (value : Nat)
    : u32At (splice bytes at_ (le32 value)) at_ = value % 0x100000000 := by
  have copied (index : Nat) (inside : index < 4)
      : byteAt (splice bytes at_ (le32 value)) (at_ + index) = byteAt (le32 value) index :=
    byteAt_splice fits inside
  have first := copied 0 (by decide)
  rw [Nat.add_zero] at first
  have values : byteAt (le32 value) 0 = value % 0x100
      ∧ byteAt (le32 value) 1 = value / 0x100 % 0x100
      ∧ byteAt (le32 value) 2 = value / 0x10000 % 0x100
      ∧ byteAt (le32 value) 3 = value / 0x10000 / 0x100 % 0x100 := by
    simp [byteAt, le32, le16]
  rw [u32At, u16At, u16At, first, copied 1 (by decide), copied 2 (by decide),
    Nat.add_assoc at_ 2 1, copied 3 (by decide)]
  omega

theorem u32At_append_le32 (first rest : List UInt8) (value : Nat)
    : u32At (first ++ (le32 value ++ rest)) first.length = value % 0x100000000 := by
  have same : splice (first ++ (le32 value ++ rest)) first.length (le32 value)
      = first ++ (le32 value ++ rest) := by
    rw [splice, List.take_left, ← List.append_assoc first,
      List.drop_left' (List.length_append), List.append_assoc]
  have copied := @u32At_splice_le32 (first ++ (le32 value ++ rest)) first.length (by simp) value
  rw [same] at copied
  exact copied

----------
-- Chunks
----------

section Chunks

variable {α : Type}

/-- The whole chunks of `size` elements; what is left over at the end is dropped. -/
def chunks (size : Nat) (list : List α) : List (List α) :=
  (List.range (list.length / size)).map (fun index => (list.drop (index * size)).take size)

@[simp] theorem chunks_length (size : Nat) (list : List α)
    : (chunks size list).length = list.length / size := by
  simp [chunks]

theorem getElem?_chunks (size : Nat) (list : List α) (index : Nat)
    : (chunks size list)[index]?
      = if index < list.length / size then some ((list.drop (index * size)).take size)
        else none := by
  by_cases inside : index < list.length / size <;> simp [chunks, inside]

theorem chunks_take (size : Nat) (positive : 0 < size) (list : List α) (count : Nat)
    : chunks size (list.take (count * size)) = (chunks size list).take count := by
  apply List.ext_getElem?
  intro index
  rw [getElem?_chunks, List.getElem?_take, getElem?_chunks, List.length_take]
  by_cases few : index < count
  · have stop : (index + 1) * size ≤ count * size := Nat.mul_le_mul_right size few
    rw [Nat.succ_mul] at stop
    have same : index < min (count * size) list.length / size ↔ index < list.length / size := by
      rw [Nat.lt_div_iff_mul_lt positive, Nat.lt_div_iff_mul_lt positive]
      omega
    simp only [few, same, if_true]
    congr 2
    rw [List.drop_take, List.take_take, Nat.min_eq_left (by omega)]
  · have past : ¬ index < min (count * size) list.length / size := by
      rw [Nat.lt_div_iff_mul_lt positive]
      have := Nat.mul_le_mul_right size (Nat.le_of_not_lt few)
      omega
    simp [few, past]

theorem chunks_drop (size : Nat) (positive : 0 < size) (list : List α) (count : Nat)
    : chunks size (list.drop (count * size)) = (chunks size list).drop count := by
  apply List.ext_getElem?
  intro index
  rw [getElem?_chunks, List.getElem?_drop, getElem?_chunks, List.length_drop]
  have same : index < (list.length - count * size) / size
      ↔ count + index < list.length / size := by
    rw [Nat.lt_div_iff_mul_lt positive, Nat.lt_div_iff_mul_lt positive, Nat.add_mul]
    omega
  simp only [same, List.drop_drop, Nat.add_mul]

variable {size : Nat}

theorem chunks_append (positive : 0 < size) {first : List α} {count : Nat}
    (whole : first.length = count * size) (second : List α)
    : chunks size (first ++ second) = chunks size first ++ chunks size second := by
  have head : (chunks size (first ++ second)).take count = chunks size first := by
    rw [← chunks_take size positive, ← whole, List.take_left]
  have tail : (chunks size (first ++ second)).drop count = chunks size second := by
    rw [← chunks_drop size positive, ← whole, List.drop_left]
  rw [← head, ← tail, List.take_append_drop]

theorem chunks_self (positive : 0 < size) {list : List α} (sized : list.length = size)
    : chunks size list = [list] := by
  have one : list.length / size = 1 := by rw [sized, Nat.div_self positive]
  simp [chunks, one, List.take_of_length_le (Nat.le_of_eq sized)]

theorem chunks_flatten (positive : 0 < size) {parts : List (List α)}
    (sized : ∀ part ∈ parts, part.length = size)
    : chunks size parts.flatten = parts := by
  induction parts with
  | nil => simp [chunks]
  | cons part rest ih =>
    have here := sized part List.mem_cons_self
    have single : part.length = 1 * size := by omega
    rw [List.flatten_cons, chunks_append positive single, chunks_self positive here,
      ih (fun other member => sized other (.tail _ member))]
    rfl

theorem chunks_splice (positive : 0 < size) {list : List α} {index : Nat}
    {parts : List (List α)} (sized : ∀ part ∈ parts, part.length = size)
    (fits : index + parts.length ≤ list.length / size)
    : chunks size (splice list (index * size) parts.flatten)
      = splice (chunks size list) index parts := by
  have joined : parts.flatten.length = parts.length * size := by
    rw [List.length_flatten, List.map_congr_left sized]
    simp
  have room := (Nat.le_div_iff_mul_le positive).mp fits
  rw [Nat.add_mul] at room
  have head : (list.take (index * size)).length = index * size := by
    rw [List.length_take]
    omega
  unfold splice
  rw [List.append_assoc, chunks_append positive head, chunks_append positive joined,
    chunks_flatten positive sized, chunks_take size positive, joined, ← Nat.add_mul,
    chunks_drop size positive, List.append_assoc]

end Chunks

----------
-- Parts
----------

section Parts

variable {α : Type} {size : Nat}

/-- The part with a number when a list is cut every `size` elements; the last may be shorter. -/
def part (size index : Nat) (list : List α) : List α := (list.drop (index * size)).take size

theorem part_length (size index : Nat) (list : List α)
    : (part size index list).length = min size (list.length - index * size) := by
  rw [part, List.length_take, List.length_drop]

theorem getElem?_part (index : Nat) (list : List α) {at_ : Nat} (inside : at_ < size)
    : (part size index list)[at_]? = list[index * size + at_]? := by
  rw [part, List.getElem?_take_of_lt inside, List.getElem?_drop]

theorem eq_of_parts (positive : 0 < size) {one other : List α}
    (parts : ∀ index, index * size < one.length → part size index one = part size index other)
    (sized : one.length = other.length)
    : one = other := by
  apply List.ext_getElem?
  intro at_
  rcases Nat.lt_or_ge at_ one.length with inside | beyond
  · have offset : at_ / size * size + at_ % size = at_ := Nat.div_add_mod' at_ size
    have small : at_ % size < size := Nat.mod_lt at_ positive
    have same := parts (at_ / size) (by omega)
    rw [← offset, ← getElem?_part _ _ small, ← getElem?_part _ _ small, same]
  · rw [List.getElem?_eq_none beyond, List.getElem?_eq_none (sized ▸ beyond)]

theorem part_splice {list new : List α} {index : Nat}
    (sized : new.length = min size (list.length - index * size))
    (inside : index * size < list.length)
    : part size index (splice list (index * size) new) = new := by
  have fits : index * size + new.length ≤ list.length := by omega
  apply List.ext_getElem?
  intro at_
  rcases Nat.lt_or_ge at_ size with small | large
  · rw [getElem?_part _ _ small, getElem?_splice fits]
    split
    · rw [Nat.add_sub_cancel_left]
    · rw [List.getElem?_eq_none (by omega), List.getElem?_eq_none (by omega)]
  · rw [List.getElem?_eq_none (by rw [part_length]; omega), List.getElem?_eq_none (by omega)]

theorem part_splice_of_ne {list new : List α} {index other : Nat} (different : other ≠ index)
    (sized : new.length = min size (list.length - index * size))
    (inside : index * size < list.length)
    : part size other (splice list (index * size) new) = part size other list := by
  have fits : index * size + new.length ≤ list.length := by omega
  apply List.ext_getElem?
  intro at_
  rcases Nat.lt_or_ge at_ size with small | large
  · rw [getElem?_part _ _ small, getElem?_part _ _ small, getElem?_splice fits, if_neg]
    rintro ⟨low, high⟩
    rcases Nat.lt_or_gt_of_ne different with before | after
    · have step := Nat.mul_le_mul_right size before
      rw [Nat.succ_mul] at step
      omega
    · have step := Nat.mul_le_mul_right size after
      rw [Nat.succ_mul] at step
      omega
  · rw [List.getElem?_eq_none (by rw [part_length]; omega),
      List.getElem?_eq_none (by rw [part_length]; omega)]

end Parts

end RustyPi.Bytes
