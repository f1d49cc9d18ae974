import Mathlib.Data.Nat.Bitwise
import RustyPi.Fat.Write

/-! What a disk says, by the layout of the volume on it: the FAT's values, the clusters' data and
the fixed root directory.
-/

namespace RustyPi.Fat

open RustyPi.Bytes

namespace Layout

def sector (layout : Layout) (disk : Disk) (number : Nat) : Block := disk (layout.start + number)

/-- The value of FAT entry `cluster`, in the first copy. -/
def fatValue (layout : Layout) (disk : Disk) (cluster : Nat) : Nat :=
  layout.fatType.decode (layout.sector disk (layout.fatPosition cluster).1)
    (layout.fatPosition cluster).2

/-- Block `i` of a data cluster. -/
def clusterBlock (layout : Layout) (disk : Disk) (cluster : Nat) (i : Nat) : Block :=
  layout.sector disk (layout.firstSector cluster + i)

def clusterBlocks (layout : Layout) (disk : Disk) (cluster : Nat) : List Block :=
  (List.range layout.sectorsPerCluster).map (layout.clusterBlock disk cluster)

def clusterBytes (layout : Layout) (disk : Disk) (cluster : Nat) : List UInt8 :=
  bytesOf (layout.clusterBlocks disk cluster)

/-- The sectors of the first FAT. -/
def InFat (layout : Layout) (number : Nat) : Prop :=
  layout.fatStart ≤ number ∧ number < layout.fatStart + layout.fatSize

/-- A layout whose parts don't overlap and whose FAT has an entry for every cluster. -/
structure Proper (layout : Layout) : Prop where
  clusterSectors : 0 < layout.sectorsPerCluster
  reserved : 0 < layout.fatStart
  copies : 0 < layout.fatCount
  /-- The FAT covers every cluster. -/
  covers : (layout.clusterCount + 2) * layout.fatType.entryWidth ≤ layout.fatSize * blockSize
  /-- The FATs come before the data. -/
  beforeData : layout.fatStart + layout.fatCount * layout.fatSize ≤ layout.dataStart
  /-- A fixed root directory is between the FATs and the data. -/
  between : ∀ start sectors, layout.root = .fixed start sectors →
    layout.fatStart + layout.fatCount * layout.fatSize ≤ start
    ∧ start + sectors ≤ layout.dataStart
  /-- No cluster has a number that means something else in the FAT. -/
  numbers : layout.clusterCount + 2 ≤ layout.fatType.bad
  /-- FSInfo is in the reserved area, after the boot sector. -/
  info : ∀ number, layout.fsinfo = some number → 0 < number ∧ number < layout.fatStart

end Layout

theorem FatType.entryWidth_cases (fatType : FatType)
    : fatType.entryWidth = 2 ∨ fatType.entryWidth = 4 := by
  cases fatType
  · exact .inl rfl
  · exact .inr rfl

section Geometry

variable {layout : Layout} (proper : layout.Proper)

theorem contains_iff (cluster : Nat)
    : layout.contains cluster = true ↔ 2 ≤ cluster ∧ cluster < layout.clusterCount + 2 := by
  rw [Layout.contains, decide_eq_true_eq]

theorem fatPosition_fits (cluster : Nat)
    : (layout.fatPosition cluster).2 + layout.fatType.entryWidth ≤ blockSize := by
  simp only [Layout.fatPosition, blockSize]
  rcases layout.fatType.entryWidth_cases with width | width <;> rw [width] <;> omega

include proper

theorem fatPosition_range {cluster : Nat} (inside : layout.contains cluster = true)
    : layout.InFat (layout.fatPosition cluster).1 := by
  rw [contains_iff] at inside
  have covers := proper.covers
  simp only [Layout.InFat, Layout.fatPosition]
  constructor
  · exact Nat.le_add_right ..
  · have within : cluster * layout.fatType.entryWidth / blockSize < layout.fatSize := by
      rw [Nat.div_lt_iff_lt_mul (by decide)]
      have below : cluster * layout.fatType.entryWidth
          < (layout.clusterCount + 2) * layout.fatType.entryWidth := by
        apply Nat.mul_lt_mul_of_pos_right inside.2
        rcases layout.fatType.entryWidth_cases with width | width <;> rw [width] <;> decide
      omega
    omega

end Geometry

theorem reserved_or_mask (raw : Nat) {value : Nat} (small : value ≤ 0x0FFFFFFF)
    : (raw &&& 0xF0000000 ||| value) &&& 0x0FFFFFFF = value := by
  apply Nat.eq_of_testBit_eq
  intro i
  have bound : value < 2 ^ 28 := by omega
  have low : Nat.testBit 0x0FFFFFFF i = decide (i < 28) := Nat.testBit_two_pow_sub_one 28 i
  rw [Nat.testBit_and, Nat.testBit_or, Nat.testBit_and, low]
  by_cases inside : i < 28
  · have reserved : ∀ i : Fin 28, Nat.testBit 0xF0000000 i = false := by decide
    rw [reserved ⟨i, inside⟩]
    simp [inside]
  · have none : Nat.testBit value i = false :=
      Nat.testBit_eq_false_of_lt (Nat.lt_of_lt_of_le bound (Nat.pow_le_pow_right (by omega)
        (Nat.le_of_not_lt inside)))
    simp [none, inside]

theorem reserved_or_lt (raw : Nat) {value : Nat} (small : value ≤ 0x0FFFFFFF)
    : raw &&& 0xF0000000 ||| value < 0x100000000 := by
  have first : raw &&& 0xF0000000 < 2 ^ 32 := Nat.lt_of_le_of_lt Nat.and_le_right (by decide)
  exact Nat.or_lt_two_pow first (by omega)

theorem decode_encode (fatType : FatType) (block : Block) {at_ value : Nat}
    (fits : at_ + fatType.entryWidth ≤ blockSize) (small : value ≤ fatType.entryMask)
    : fatType.decode (fatType.encode block at_ value) at_ = value := by
  cases fatType with
  | fat16 =>
    simp only [FatType.entryMask] at small
    unfold FatType.decode FatType.encode
    simp only
    rw [block.copy_bytes fits, u16At_splice_le16 (by rw [block.sized]; exact fits),
      FatType.entryMask]
    have masked := Nat.and_two_pow_sub_one_eq_mod (value % 0x10000) 16
    simp only [Nat.reducePow, Nat.reduceSub] at masked
    rw [masked]
    omega
  | fat32 =>
    simp only [FatType.entryMask] at small
    unfold FatType.decode FatType.encode
    simp only [FatType.entryMask, Nat.reduceSub]
    rw [block.copy_bytes fits, u32At_splice_le32 (by rw [block.sized]; exact fits),
      Nat.mod_eq_of_lt (reserved_or_lt _ small), reserved_or_mask _ small]

theorem decode_encode_of_ne (fatType : FatType) (block : Block) {at_ other : Nat} (value : Nat)
    (fits : at_ + fatType.entryWidth ≤ blockSize)
    (apart : other + fatType.entryWidth ≤ at_ ∨ at_ + fatType.entryWidth ≤ other)
    : fatType.decode (fatType.encode block at_ value) other = fatType.decode block other := by
  cases fatType with
  | fat16 =>
    unfold FatType.decode FatType.encode
    simp only
    rw [block.copy_bytes fits, u16At_splice_of_ne (by rw [block.sized]; exact fits) apart]
  | fat32 =>
    unfold FatType.decode FatType.encode
    simp only
    rw [block.copy_bytes fits, u32At_splice_of_ne (by rw [block.sized]; exact fits) apart]

theorem fatPosition_apart (layout : Layout) {first second : Nat} (different : first ≠ second)
    (same : (layout.fatPosition first).1 = (layout.fatPosition second).1)
    : (layout.fatPosition second).2 + layout.fatType.entryWidth ≤ (layout.fatPosition first).2
      ∨ (layout.fatPosition first).2 + layout.fatType.entryWidth
        ≤ (layout.fatPosition second).2 := by
  simp only [Layout.fatPosition, blockSize] at same ⊢
  rcases layout.fatType.entryWidth_cases with width | width <;> rw [width] at same ⊢ <;> omega

end RustyPi.Fat
