import Mathlib.Data.Nat.Bitwise
import Mathlib.Logic.Function.Basic
import RustyPi.Lib.Spans

/-! The heap of `rustypi-core/src/heap.rs`: a first-fit allocator whose free blocks form a list
sorted by address, with each block's header in the free memory itself. Addresses and sizes are
64-bit words, and sums that don't fit wrap around.
-/

namespace RustyPi.Memory

----------
-- Words
----------

def wordLimit : Nat := 2 ^ 64

/-- A sum as a word. -/
def wrap (value : Nat) : Nat := value % wordLimit

def wrapSub (left right : Nat) : Nat := (left + wordLimit - right) % wordLimit

/-- Every block is a multiple of this in size and aligned to it. -/
def blockAlign : Nat := 16

/-- `(value + align - 1) & !(align - 1)`. -/
def alignUp (value align : Nat) : Nat := wrap (value + align - 1) &&& (wordLimit - align)

/-- `value & !(BLOCK_ALIGN - 1)`. -/
def alignDown (value : Nat) : Nat := value &&& (wordLimit - blockAlign)

/-- `core::alloc::Layout`: the alignment is a power of two, and the size rounded up to it is at
most `isize::MAX`.
-/
structure Layout where
  size : Nat
  align : Nat
  power : ∃ shift, align = 2 ^ shift
  fits : size + align ≤ 2 ^ 63
  deriving DecidableEq

def blockSize (layout : Layout) : Nat := alignUp (max layout.size 1) blockAlign

----------
-- The heap
----------

/-- The header of a free block. -/
structure FreeBlock where
  size : Nat
  next : Nat
  deriving DecidableEq, Repr

/-- The heap, with the memory its blocks are in as a header per address; 0 is no block. -/
structure Heap where
  head : Nat
  total : Nat
  used : Nat
  memory : Nat → FreeBlock

/-- A pointer to a pointer to a block: the head, or a block's `next`. -/
inductive Link
  | head
  | next (block : Nat)
  deriving DecidableEq, Repr

namespace Heap

def empty (memory : Nat → FreeBlock) : Heap := { head := 0, total := 0, used := 0, memory }

def write (heap : Heap) (address : Nat) (block : FreeBlock) : Heap :=
  { heap with memory := Function.update heap.memory address block }

def follow (heap : Heap) : Link → Nat
  | .head => heap.head
  | .next block => (heap.memory block).next

def setLink (heap : Heap) (target : Nat) : Link → Heap
  | .head => { heap with head := target }
  | .next block => heap.write block { heap.memory block with next := target }

/-- The free blocks right before and after `start`, from `prev` and `next` on. -/
def findGap (memory : Nat → FreeBlock) (start : Nat) : Nat → Nat → Nat → Option (Nat × Nat)
  | 0, _, _ => none
  | fuel + 1, prev, next =>
    if next ≠ 0 ∧ next < start then findGap memory start fuel next (memory next).next
    else some (prev, next)

/-- There are no more blocks than this in the address space, so a longer walk doesn't end. -/
def maxBlocks : Nat := 2 ^ 60

/-- Returns `start..start + size` to the free list, merging it with its neighbours; `none` for
the panic on memory that is already free.
-/
def free (heap : Heap) (start size : Nat) : Option Heap :=
  (findGap heap.memory start maxBlocks 0 heap.head).bind (fun (prev, next) =>
    let stop := wrap (start + size)
    let prevEnd := if prev = 0 then 0 else wrap (prev + (heap.memory prev).size)
    if start < prevEnd ∨ (next ≠ 0 ∧ next < stop) then none
    else
      let (size, after) :=
        if next ≠ 0 ∧ stop = next then
          (wrap (size + (heap.memory next).size), (heap.memory next).next)
        else (size, next)
      if prev ≠ 0 ∧ prevEnd = start then
        some (heap.write prev { size := wrap ((heap.memory prev).size + size), next := after })
      else
        some ((heap.write start { size, next := after }).setLink start
          (if prev = 0 then .head else .next prev)))

def init (heap : Heap) (start stop : Nat) : Option Heap :=
  let start := alignUp start blockAlign
  let stop := alignDown stop
  let size := wrapSub stop start
  free { heap with head := 0, total := size, used := 0 } start size

def extend (heap : Heap) (start stop : Nat) : Option Heap :=
  let start := alignUp start blockAlign
  let stop := alignDown stop
  if start < stop then
    free { heap with total := wrap (heap.total + (stop - start)) } start (stop - start)
  else some heap

/-- Takes `size` bytes from `start` on out of `block`, which `link` leads to. -/
def take (heap : Heap) (link : Link) (block start size : Nat) : Heap :=
  let blockEnd := wrap (block + (heap.memory block).size)
  let stop := wrap (start + size)
  let rest := (heap.memory block).next
  let (heap, rest) :=
    if stop < blockEnd then (heap.write stop { size := blockEnd - stop, next := rest }, stop)
    else (heap, rest)
  let heap :=
    if block < start then heap.write block { size := start - block, next := rest }
    else heap.setLink rest link
  { heap with used := wrap (heap.used + size) }

/-- The first block from `link` on that an allocation fits in. -/
def allocFrom (size align : Nat) : Nat → Heap → Link → Option (Heap × Nat)
  | 0, _, _ => none
  | fuel + 1, heap, link =>
    let block := heap.follow link
    if block = 0 then some (heap, 0)
    else
      let start := alignUp block align
      if wrap (start + size) ≤ wrap (block + (heap.memory block).size) then
        some (heap.take link block start size, start)
      else allocFrom size align fuel heap (.next block)

/-- A block for `layout`, or 0 if none is free. -/
def alloc (heap : Heap) (layout : Layout) : Option (Heap × Nat) :=
  allocFrom (blockSize layout) (max layout.align blockAlign) maxBlocks heap .head

def dealloc (heap : Heap) (address : Nat) (layout : Layout) : Option Heap :=
  (heap.free address (blockSize layout)).map (fun heap =>
    { heap with used := wrapSub heap.used (blockSize layout) })

end Heap

----------
-- Words that don't wrap
----------

theorem wrap_of_lt {value : Nat} (small : value < wordLimit) : wrap value = value :=
  Nat.mod_eq_of_lt small

theorem wrapSub_of_le {left right : Nat} (small : left < wordLimit) (order : right ≤ left)
    : wrapSub left right = left - right := by
  unfold wrapSub
  rw [Nat.add_comm, Nat.add_sub_assoc order, Nat.add_mod_left, Nat.mod_eq_of_lt (by omega)]

theorem land_mask {value shift : Nat} (small : value < wordLimit) (bound : shift ≤ 64)
    : value &&& (wordLimit - 2 ^ shift) = value / 2 ^ shift * 2 ^ shift := by
  have mask : wordLimit - 2 ^ shift = (2 ^ (64 - shift) - 1) <<< shift := by
    rw [Nat.shiftLeft_eq, Nat.sub_mul, Nat.one_mul, ← Nat.pow_add, Nat.sub_add_cancel bound]
    rfl
  rw [mask, ← Nat.shiftLeft_eq, ← Nat.shiftRight_eq_div_pow]
  refine Nat.eq_of_testBit_eq (fun bit => ?_)
  simp only [Nat.testBit_and, Nat.testBit_shiftLeft, Nat.testBit_two_pow_sub_one,
    Nat.testBit_shiftRight]
  by_cases low : shift ≤ bit
  · by_cases high : bit < 64
    · simp [low, show bit - shift < 64 - shift by omega, Nat.add_sub_cancel' low]
    · have clear : value.testBit bit = false :=
        Nat.testBit_lt_two_pow (Nat.lt_of_lt_of_le small (Nat.pow_le_pow_right (by decide) (by omega)))
      simp [clear, Nat.add_sub_cancel' low]
  · simp [low]

/-- Rounding up without wrapping around. -/
theorem alignUp_spec {value shift : Nat} (bound : shift ≤ 63)
    (small : value + 2 ^ shift ≤ wordLimit)
    : value ≤ alignUp value (2 ^ shift)
      ∧ alignUp value (2 ^ shift) < value + 2 ^ shift
      ∧ 2 ^ shift ∣ alignUp value (2 ^ shift) := by
  have positive : 0 < 2 ^ shift := Nat.two_pow_pos shift
  have fits : value + 2 ^ shift - 1 < wordLimit := by omega
  unfold alignUp
  rw [wrap_of_lt fits, land_mask fits (by omega)]
  have division := Nat.div_add_mod (value + 2 ^ shift - 1) (2 ^ shift)
  have remainder := Nat.mod_lt (value + 2 ^ shift - 1) positive
  rw [Nat.mul_comm] at division
  exact ⟨by omega, by omega, Nat.dvd_mul_left ..⟩

theorem alignDown_spec {value : Nat} (small : value < wordLimit)
    : alignDown value ≤ value ∧ value < alignDown value + 16 ∧ 16 ∣ alignDown value := by
  have rounded : alignDown value = value / 2 ^ 4 * 2 ^ 4 :=
    @land_mask value 4 small (by decide)
  rw [rounded]
  omega

theorem blockSize_spec (layout : Layout)
    : layout.size ≤ blockSize layout
      ∧ 0 < blockSize layout
      ∧ 16 ∣ blockSize layout
      ∧ blockSize layout < max layout.size 1 + 16 := by
  have fits := layout.fits
  have spec := @alignUp_spec (max layout.size 1) 4 (by decide) (by simp only [wordLimit]; omega)
  have size : blockSize layout = alignUp (max layout.size 1) (2 ^ 4) := rfl
  rw [← size] at spec
  omega

/-- The alignment an allocation gets: what was asked for, and at least a block's. -/
theorem align_power (layout : Layout)
    : ∃ shift,
        max layout.align blockAlign = 2 ^ shift
        ∧ 4 ≤ shift
        ∧ shift ≤ 63
        ∧ layout.align ∣ 2 ^ shift := by
  obtain ⟨shift, power⟩ := layout.power
  have fits := layout.fits
  have bound : shift ≤ 63 := by
    rw [power] at fits
    exact (Nat.pow_le_pow_iff_right (by decide)).mp (Nat.le_of_add_left_le fits)
  rcases Nat.lt_or_ge shift 4 with small | large
  · have smaller : layout.align ≤ 2 ^ 4 :=
      power ▸ Nat.pow_le_pow_right (by decide) (Nat.le_of_lt small)
    exact ⟨4, max_eq_right smaller, by decide, by decide,
      power ▸ Nat.pow_dvd_pow 2 (Nat.le_of_lt small)⟩
  · have larger : 2 ^ 4 ≤ layout.align := power ▸ Nat.pow_le_pow_right (by decide) large
    exact ⟨shift, (max_eq_left larger).trans power, large, bound, power ▸ Nat.dvd_refl _⟩

/-- Where an allocation would start in a block of the lower half of memory, nothing wraps. -/
theorem start_spec (layout : Layout) {block : Nat} (aligned : 16 ∣ block)
    (low : block + 16 ≤ 2 ^ 63)
    : block ≤ alignUp block (max layout.align blockAlign)
      ∧ 16 ∣ alignUp block (max layout.align blockAlign)
      ∧ layout.align ∣ alignUp block (max layout.align blockAlign)
      ∧ alignUp block (max layout.align blockAlign) + blockSize layout < wordLimit := by
  obtain ⟨shift, power, least, most, divides⟩ := align_power layout
  have limit : 2 ^ shift ≤ 2 ^ 63 := Nat.pow_le_pow_right (by decide) most
  rw [power]
  obtain ⟨above, below, multiple⟩ := @alignUp_spec block shift most (by
    simp only [wordLimit]
    omega)
  have blocks : 16 ∣ alignUp block (2 ^ shift) :=
    Nat.dvd_trans (Nat.pow_dvd_pow 2 least) multiple
  obtain ⟨_, _, _, size⟩ := blockSize_spec layout
  have fits := layout.fits
  refine ⟨above, blocks, Nat.dvd_trans divides multiple, ?_⟩
  simp only [blockAlign, wordLimit] at *
  omega

end RustyPi.Memory
