import RustyPi.Fat.Table

/-! Which boot sectors describe a volume whose parts don't overlap. Mounting derives the number of
clusters from the total size and takes the size of the FAT as it stands in the boot sector; it
doesn't compare the two.
-/

namespace RustyPi.Fat

open RustyPi.Bytes

----------
-- The fields of a boot sector
----------

namespace BootSector

def sectorsPerCluster (boot : Block) : Nat := byteAt boot.bytes 13

def reserved (boot : Block) : Nat := u16At boot.bytes 14

def fatCount (boot : Block) : Nat := byteAt boot.bytes 16

def total (boot : Block) : Nat :=
  if u16At boot.bytes 19 = 0 then u32At boot.bytes 32 else u16At boot.bytes 19

def fatSize (boot : Block) : Nat :=
  if u16At boot.bytes 22 = 0 then u32At boot.bytes 36 else u16At boot.bytes 22

def rootSectors (boot : Block) : Nat :=
  (u16At boot.bytes 17 * dirEntrySize + blockSize - 1) / blockSize

/-- The sectors before the data. -/
def overhead (boot : Block) : Nat := reserved boot + fatCount boot * fatSize boot + rootSectors boot

/-- How many clusters the sectors after the overhead make, up to the most FAT32 can number. -/
def clusters (boot : Block) : Nat :=
  min ((total boot - overhead boot) / sectorsPerCluster boot) 0x0FFFFFF5

/-- One FAT has room for an entry of every cluster, and for the two entries before them. -/
def FatCovers (boot : Block) : Prop :=
  (clusters boot + 2) * (if clusters boot < 65525 then 2 else 4) ≤ fatSize boot * blockSize

instance (boot : Block) : Decidable (FatCovers boot) := by
  unfold FatCovers
  infer_instance

def fatType (boot : Block) : FatType := if clusters boot < 65525 then .fat16 else .fat32

/-- The layout a boot sector at `start` describes, if it is accepted. -/
def layout (start : Nat) (boot : Block) : Layout where
  start := start
  fatType := fatType boot
  sectorsPerCluster := sectorsPerCluster boot
  fatStart := reserved boot
  root := match fatType boot with
    | .fat16 => .fixed (reserved boot + fatCount boot * fatSize boot) (rootSectors boot)
    | .fat32 => .chain (u32At boot.bytes 44)
  dataStart := overhead boot
  clusterCount := clusters boot
  fatCount := fatCount boot
  fatSize := fatSize boot
  fsinfo := if fatType boot = .fat32 ∧ u16At boot.bytes 48 ≠ 0 ∧ u16At boot.bytes 48 ≠ 0xFFFF then
      some (u16At boot.bytes 48)
    else none

/-- What mounting checks of a boot sector. -/
structure Accepted (boot : Block) : Prop where
  clusterSectors : isPowerOfTwo (sectorsPerCluster boot) = true
  present : ¬ (reserved boot = 0 ∨ fatCount boot = 0 ∨ fatSize boot = 0)
  room : ¬ total boot ≤ overhead boot
  enough : ¬ clusters boot < 4085

end BootSector

variable {start cluster : Nat} {boot : Block}

theorem layoutOf_eq_ok {layout : Layout} (accepted : layoutOf start boot = .ok layout)
    : BootSector.Accepted boot ∧ layout = BootSector.layout start boot := by
  have unfolded : layoutOf start boot =
      if byteAt boot.bytes 510 ≠ 0x55 ∨ byteAt boot.bytes 511 ≠ 0xAA then
        .error (.notFat "no boot signature")
      else if u16At boot.bytes 11 ≠ blockSize then
        .error (.unsupportedSectorSize (u16At boot.bytes 11))
      else if !isPowerOfTwo (BootSector.sectorsPerCluster boot) then
        .error (.notFat "cluster size is not a power of two")
      else if BootSector.reserved boot = 0 ∨ BootSector.fatCount boot = 0
          ∨ BootSector.fatSize boot = 0 then
        .error (.notFat "empty reserved area or FAT")
      else if BootSector.total boot ≤ BootSector.overhead boot then
        .error (.notFat "no room for data")
      else if BootSector.clusters boot < 4085 then .error .fat12
      else .ok (BootSector.layout start boot) := by
    unfold layoutOf
    simp only [bind, Except.bind, pure, Except.pure, throw, throwThe, MonadExceptOf.throw]
    rfl
  rw [unfolded] at accepted
  split_ifs at accepted with _ _ power present room enough
  cases accepted
  exact ⟨⟨by simpa using power, present, room, enough⟩, rfl⟩

----------
-- Parts that don't overlap
----------

/-- The volume with another disk in its device. -/
def Volume.onDisk (fat : Volume) (disk : Disk) : Volume := { fat with device := { fat.device with disk } }

/-- Every block that reached the disk in between is a sector in `numbers`. -/
def WroteAt (numbers : Nat → Prop) (before after : Volume) : Prop :=
  after.layout = before.layout
  ∧ ∃ writes, after.device.written = before.device.written ++ writes
    ∧ ∀ write ∈ writes, ∃ number, numbers number ∧ write.1 = before.layout.start + number

namespace Layout

/-- The sector of copy `copy` of the FAT that the entry of `cluster` is read from and written to. -/
def fatSector (layout : Layout) (cluster copy : Nat) : Nat :=
  (layout.fatPosition cluster).1 + copy * layout.fatSize

/-- The sectors of a copy of the FAT. -/
def InCopy (layout : Layout) (copy number : Nat) : Prop :=
  layout.fatStart + copy * layout.fatSize ≤ number
  ∧ number < layout.fatStart + (copy + 1) * layout.fatSize

/-- The sectors of a fixed root directory. -/
def InRoot (layout : Layout) (number : Nat) : Prop :=
  ∃ start sectors, layout.root = .fixed start sectors ∧ start ≤ number ∧ number < start + sectors

/-- The parts of a volume of `total` sectors don't overlap: the FAT entries of its clusters stay
inside their copies of the FAT, and the clusters inside the volume.
-/
structure PartsApart (layout : Layout) (total : Nat) : Prop where
  /-- The first copy of the FAT has the entry of every cluster. -/
  entries : ∀ cluster, layout.contains cluster = true →
    (layout.fatPosition cluster).1 < layout.fatStart + layout.fatSize
  copies : ∀ cluster, layout.contains cluster = true → ∀ copy < layout.fatCount,
    ∀ other < layout.fatCount, layout.InCopy other (layout.fatSector cluster copy) → other = copy
  root : ∀ cluster, layout.contains cluster = true → ∀ copy < layout.fatCount,
    ¬ layout.InRoot (layout.fatSector cluster copy)
  data : ∀ cluster, layout.contains cluster = true → ∀ copy < layout.fatCount,
    layout.fatSector cluster copy < layout.dataStart
  /-- An entry is read from nowhere else: other sectors don't matter. -/
  reads : ∀ cluster, layout.contains cluster = true → ∀ fat : Volume, fat.layout = layout →
    ∀ disk : Disk, layout.sector disk (layout.fatSector cluster 0)
        = layout.sector fat.device.disk (layout.fatSector cluster 0) →
      ((fatEntry cluster).outcome (fat.onDisk disk)).1 = ((fatEntry cluster).outcome fat).1
  /-- A changed entry's sector is written nowhere else. -/
  writes : ∀ cluster, layout.contains cluster = true → ∀ fat : Volume, fat.layout = layout →
    ∀ block, fat.fatDirty = some (layout.fatSector cluster 0, block) →
      WroteAt (fun number => ∃ copy < layout.fatCount, number = layout.fatSector cluster copy)
        fat (flushFat.outcome fat).2
  /-- The clusters come after the FATs and end inside the volume. -/
  clusters : ∀ cluster, layout.contains cluster = true →
    layout.dataStart ≤ layout.firstSector cluster
    ∧ layout.firstSector cluster + layout.sectorsPerCluster ≤ total

end Layout

section Accesses

variable {numbers : Nat → Prop} {a b c : Volume}

theorem WroteAt.refl (numbers : Nat → Prop) (fat : Volume) : WroteAt numbers fat fat :=
  ⟨rfl, [], by simp, by simp⟩

theorem WroteAt.trans (first : WroteAt numbers a b) (second : WroteAt numbers b c)
    : WroteAt numbers a c := by
  obtain ⟨sameFirst, early, logged, inEarly⟩ := first
  obtain ⟨sameSecond, late, loggedAfter, inLate⟩ := second
  refine ⟨sameSecond.trans sameFirst, early ++ late, ?_, ?_⟩
  · rw [loggedAfter, logged, List.append_assoc]
  · intro write member
    rcases List.mem_append.mp member with member | member
    · exact inEarly write member
    · rw [← sameFirst]
      exact inLate write member

theorem writeSector_wroteAt {number : Nat} (fat : Volume) (block : Block) (open_ : numbers number)
    : (writeSector number block).Ends fat (fun _ after => WroteAt numbers fat after)
        (fun _ after => WroteAt numbers fat after) := by
  have single : Device.numbered (fat.layout.start + number) [block]
      = [(fat.layout.start + number, block)] := rfl
  unfold writeSector deviceCall
  simp only [Action.ends_bind, Action.ends_get, Action.ends_set]
  unfold Device.writeBlocks
  rw [single]
  cases fat.device.next with
  | none =>
    refine ⟨rfl, _, rfl, ?_⟩
    intro write member
    exact ⟨number, open_, congrArg Prod.fst (List.mem_singleton.mp member)⟩
  | failed error effects =>
    refine ⟨rfl, _, rfl, ?_⟩
    intro write member
    -- whatever became of the block, it is the one block of the call
    obtain ⟨⟨original, effect⟩, paired, became⟩ := List.mem_filterMap.mp member
    have same := List.mem_singleton.mp (List.of_mem_zip paired).1
    refine ⟨number, open_, ?_⟩
    subst same
    cases effect with
    | lost => cases became
    | reached => exact congrArg Prod.fst (Option.some.inj became).symm
    | garbled other => exact congrArg Prod.fst (Option.some.inj became).symm

theorem writeCopies_wroteAt (sector : Nat) (block : Block) (left copy : Nat) (fat : Volume)
    (open_ : ∀ i, copy ≤ i → i < copy + left → numbers (sector + i * fat.layout.fatSize))
    : (writeCopies sector block left copy).Ends fat (fun _ after => WroteAt numbers fat after)
        (fun _ after => WroteAt numbers fat after) := by
  induction left generalizing copy fat with
  | zero => exact .refl numbers fat
  | succ left ih =>
    unfold writeCopies
    rw [Action.ends_bind, Action.ends_get]
    refine Action.Ends.bind (writeSector_wroteAt fat block (open_ copy (by omega) (by omega)))
      ?_ (fun _ _ wrote => wrote)
    intro _ mid wrote
    refine (ih (copy + 1) mid ?_).mono (fun _ _ => wrote.trans) (fun _ _ => wrote.trans)
    intro i low high
    rw [wrote.1]
    exact open_ i (by omega) (by omega)

end Accesses

section Parts

variable {layout : Layout}

/-- Entries stay inside the FAT if there is room for them all. By the last cluster's entry. -/
theorem entries_iff_covers (enough : 0 < layout.clusterCount)
    : (∀ cluster, layout.contains cluster = true →
        (layout.fatPosition cluster).1 < layout.fatStart + layout.fatSize)
      ↔ (layout.clusterCount + 2) * layout.fatType.entryWidth ≤ layout.fatSize * blockSize := by
  simp only [Layout.fatPosition, Nat.add_lt_add_iff_left, contains_iff, blockSize]
  constructor
  · intro entries
    have last := entries (layout.clusterCount + 1) (by omega)
    rcases layout.fatType.entryWidth_cases with width | width <;> rw [width] at last ⊢ <;> omega
  · intro covers cluster inside
    rcases layout.fatType.entryWidth_cases with width | width <;> rw [width] at covers ⊢ <;> omega

theorem inCopy_fatSector {cluster : Nat} (copy : Nat)
    (entry : (layout.fatPosition cluster).1 < layout.fatStart + layout.fatSize)
    : layout.InCopy copy (layout.fatSector cluster copy) := by
  have low : layout.fatStart ≤ (layout.fatPosition cluster).1 := Nat.le_add_right ..
  have next : (copy + 1) * layout.fatSize = copy * layout.fatSize + layout.fatSize :=
    Nat.succ_mul ..
  unfold Layout.InCopy Layout.fatSector
  omega

theorem inCopy_unique {copy other number : Nat} (first : layout.InCopy copy number)
    (second : layout.InCopy other number)
    : other = copy := by
  have ordered : ∀ {a b : Nat}, layout.InCopy a number → layout.InCopy b number → b ≤ a := by
    intro a b inA inB
    by_contra later
    have after : (a + 1) * layout.fatSize ≤ b * layout.fatSize :=
      Nat.mul_le_mul_right _ (by omega)
    unfold Layout.InCopy at inA inB
    omega
  exact Nat.le_antisymm (ordered first second) (ordered second first)

/-- The copies of the FAT end before whatever comes after them all. -/
theorem inCopy_lt {copy number : Nat} (last : copy < layout.fatCount)
    (inside : layout.InCopy copy number)
    : number < layout.fatStart + layout.fatCount * layout.fatSize := by
  have within : (copy + 1) * layout.fatSize ≤ layout.fatCount * layout.fatSize :=
    Nat.mul_le_mul_right _ last
  unfold Layout.InCopy at inside
  omega

end Parts

/-- Writing out the pending sector of an entry writes that sector of every copy. -/
theorem flushFat_wroteAt (fat : Volume) {block : Block}
    (dirty : fat.fatDirty = some (fat.layout.fatSector cluster 0, block))
    : WroteAt (fun number => ∃ copy < fat.layout.fatCount,
        number = fat.layout.fatSector cluster copy) fat (flushFat.outcome fat).2 := by
  have ends : flushFat.Ends fat
      (fun _ after => WroteAt (fun number => ∃ copy < fat.layout.fatCount,
        number = fat.layout.fatSector cluster copy) fat after)
      (fun _ after => WroteAt (fun number => ∃ copy < fat.layout.fatCount,
        number = fat.layout.fatSector cluster copy) fat after) := by
    unfold flushFat
    rw [Action.ends_bind, Action.ends_get, dirty]
    simp only [Action.ends_bind, Action.ends_set, Action.ends_modify]
    refine writeCopies_wroteAt _ block _ 0 { fat with fatDirty := none } ?_
    intro copy _ last
    refine ⟨copy, by simpa using last, ?_⟩
    simp only [Layout.fatSector, Nat.zero_mul, Nat.add_zero]
  exact ends.leaves

theorem readSector_outcome (fat : Volume) (number : Nat)
    : (readSector number).outcome fat
      = match fat.device.next with
        | .none => (.ok (fat.layout.sector fat.device.disk number),
            { fat with device := fat.device.called })
        | .failed error _ => (.error (.error (.device error)),
            { fat with device := fat.device.called }) := by
  unfold readSector deviceCall Device.readBlock
  simp only [Action.outcome_bind, Action.outcome_get, Action.outcome_set]
  cases fat.device.next <;> rfl

theorem fatEntry_of_agree (fat : Volume) (disk : Disk)
    (same : fat.layout.sector disk (fat.layout.fatSector cluster 0)
      = fat.layout.sector fat.device.disk (fat.layout.fatSector cluster 0))
    : ((fatEntry cluster).outcome (fat.onDisk disk)).1 = ((fatEntry cluster).outcome fat).1 := by
  have held : (fat.onDisk disk).held (fat.layout.fatPosition cluster).1
      = fat.held (fat.layout.fatPosition cluster).1 := rfl
  simp only [Layout.fatSector, Nat.zero_mul, Nat.add_zero, Layout.sector] at same
  unfold fatEntry
  simp only [Action.outcome_bind, Action.outcome_get]
  rw [show (fat.onDisk disk).layout = fat.layout from rfl, held]
  cases fat.held (fat.layout.fatPosition cluster).1 with
  | some block => rfl
  | none =>
    simp only [Action.outcome_bind, readSector_outcome]
    rw [show (fat.onDisk disk).device.next = fat.device.next from rfl]
    cases fat.device.next with
    | none =>
      exact congrArg (fun block => Except.ok
        (fat.layout.fatType.decode block (fat.layout.fatPosition cluster).2)) same
    | failed error effects => rfl

theorem clusters_inside (accepted : BootSector.Accepted boot)
    (inside : (BootSector.layout start boot).contains cluster = true)
    : (BootSector.layout start boot).firstSector cluster
        + (BootSector.layout start boot).sectorsPerCluster
      ≤ BootSector.total boot := by
  rw [contains_iff] at inside
  have room := accepted.room
  -- the clusters fit in the sectors they were counted from
  have counted : cluster - 2 + 1
      ≤ (BootSector.total boot - BootSector.overhead boot) / BootSector.sectorsPerCluster boot := by
    have few : (BootSector.layout start boot).clusterCount
        ≤ (BootSector.total boot - BootSector.overhead boot) / BootSector.sectorsPerCluster boot :=
      Nat.min_le_left ..
    omega
  have fits : (cluster - 2 + 1) * BootSector.sectorsPerCluster boot
      ≤ BootSector.total boot - BootSector.overhead boot :=
    (Nat.mul_le_mul_right _ counted).trans (Nat.div_mul_le_self ..)
  rw [Nat.succ_mul] at fits
  show BootSector.overhead boot + (cluster - 2) * BootSector.sectorsPerCluster boot
    + BootSector.sectorsPerCluster boot ≤ BootSector.total boot
  omega

theorem partsApart_of_entries (accepted : BootSector.Accepted boot)
    (entries : ∀ cluster, (BootSector.layout start boot).contains cluster = true →
      ((BootSector.layout start boot).fatPosition cluster).1
        < (BootSector.layout start boot).fatStart + (BootSector.layout start boot).fatSize)
    : (BootSector.layout start boot).PartsApart (BootSector.total boot) where
  entries := entries
  copies cluster inside copy _ other _ within :=
    inCopy_unique (inCopy_fatSector copy (entries cluster inside)) within
  root := by
    rintro cluster inside copy last ⟨first, sectors, fixed, low, -⟩
    have before := inCopy_lt last (inCopy_fatSector copy (entries cluster inside))
    have start_ : first = BootSector.reserved boot
        + BootSector.fatCount boot * BootSector.fatSize boot := by
      simp only [BootSector.layout] at fixed
      split at fixed
      · exact (RootDir.fixed.inj fixed).1.symm
      · cases fixed
    simp only [BootSector.layout] at before low
    omega
  data cluster inside copy last :=
    Nat.lt_of_lt_of_le (inCopy_lt last (inCopy_fatSector copy (entries cluster inside)))
      (Nat.le_add_right ..)
  reads cluster _ fat same disk agree := by
    rw [← same] at agree
    exact fatEntry_of_agree fat disk agree
  writes cluster _ fat same block dirty := by
    rw [← same] at dirty ⊢
    exact flushFat_wroteAt fat dirty
  clusters cluster inside := ⟨Nat.le_add_right .., clusters_inside accepted inside⟩

/-- Mounting gives a layout whose parts don't overlap just when the boot sector's FAT has room for
an entry of every cluster.
-/
theorem partsApart_iff_fatCovers (device after : Device) (start : Nat) (boot : Block) (fat : Volume)
    (read : device.readBlock start = (.ok boot, after)) (mounted : mount device start = .ok fat)
    : fat.layout.PartsApart (BootSector.total boot) ↔ BootSector.FatCovers boot := by
  unfold mount at mounted
  simp only [read] at mounted
  cases accept : layoutOf start boot with
  | error error =>
    rw [accept] at mounted
    cases mounted
  | ok layout =>
    rw [accept] at mounted
    cases mounted
    obtain ⟨accepted, rfl⟩ := layoutOf_eq_ok accept
    have enough := accepted.enough
    have covers := @entries_iff_covers (BootSector.layout start boot)
      (by show 0 < BootSector.clusters boot; omega)
    have width : (BootSector.layout start boot).fatType.entryWidth
        = if BootSector.clusters boot < 65525 then 2 else 4 := by
      show (BootSector.fatType boot).entryWidth = _
      unfold BootSector.fatType
      split <;> rfl
    rw [width] at covers
    exact ⟨fun apart => covers.mp apart.entries,
      fun fits => partsApart_of_entries accepted (covers.mpr fits)⟩

/-- A boot sector of 512-byte clusters with one reserved sector, two FATs and a root directory of
16 entries.
-/
def sampleBoot (total fatSize : Nat) : Block :=
  Block.ofBytes (List.replicate 11 0 ++ le16 blockSize ++ [1] ++ le16 1 ++ [2] ++ le16 16
    ++ le16 total ++ [0xF8] ++ le16 fatSize ++ List.replicate 486 0 ++ [0x55, 0xAA])

/-- A device whose first block is the given one. -/
def sampleDevice (boot : Block) : Device := { disk := fun _ => boot, written := [], plan := [] }

theorem mount_sampleDevice {layout : Layout} (accepted : layoutOf 0 boot = .ok layout)
    : ∃ fat, mount (sampleDevice boot) 0 = .ok fat ∧ fat.layout = layout := by
  show ∃ fat : Volume, Except.map _ (layoutOf 0 boot) = .ok fat ∧ fat.layout = layout
  rw [accepted]
  exact ⟨_, rfl, rfl⟩

/-- Witness: 16 sectors for each FAT are enough for 4085 clusters. -/
theorem partsApart_of_sixteen_sectors
    : ∃ fat, mount (sampleDevice (sampleBoot 4119 16)) 0 = .ok fat
      ∧ BootSector.FatCovers (sampleBoot 4119 16) ∧ fat.layout.PartsApart 4119 := by
  have total : BootSector.total (sampleBoot 4119 16) = 4119 := by decide +kernel
  have covers : BootSector.FatCovers (sampleBoot 4119 16) := by decide +kernel
  have accepted : layoutOf 0 (sampleBoot 4119 16)
      = .ok (BootSector.layout 0 (sampleBoot 4119 16)) := by decide +kernel
  obtain ⟨fat, mounted, -⟩ := mount_sampleDevice accepted
  refine ⟨fat, mounted, covers, ?_⟩
  rw [← total]
  exact (partsApart_iff_fatCovers _ _ 0 _ _ rfl mounted).mpr covers

/-- Counterexample: a FAT of one sector for 4085 clusters is accepted, and the last cluster's entry
is in the data area, where it is a sector of cluster 14.
-/
theorem fat_entry_in_data_area
    : ∃ fat, mount (sampleDevice (sampleBoot 4089 1)) 0 = .ok fat
      ∧ ¬ fat.layout.PartsApart (BootSector.total (sampleBoot 4089 1))
      ∧ fat.layout.contains 4086 = true ∧ fat.layout.contains 14 = true
      ∧ (fat.layout.fatPosition 4086).1 = fat.layout.firstSector 14 := by
  have accepted : layoutOf 0 (sampleBoot 4089 1)
      = .ok (BootSector.layout 0 (sampleBoot 4089 1)) := by decide +kernel
  obtain ⟨fat, mounted, same⟩ := mount_sampleDevice accepted
  refine ⟨fat, mounted, ?_⟩
  rw [same]
  refine ⟨?_, by decide +kernel, by decide +kernel, by decide +kernel⟩
  intro apart
  have inside := apart.entries 4086 (by decide +kernel)
  revert inside
  decide +kernel

end RustyPi.Fat
