import Mathlib.Data.List.Defs
import RustyPi.Fat.Chains

/-! Reading chains in runs. What is read, and what the device is asked for, is what following the
chain one cluster at a time comes to. A loop is noticed only by its length, so a file can be read
from clusters that repeat.
-/

namespace RustyPi.Fat

open RustyPi.Bytes

variable {layout : Layout} {disk : Disk} {limit : Option Nat} {fat : Volume}

/-- If nothing is wrong, those are the clusters of the chain. By induction on the steps. -/
theorem passed_of_chainFrom {steps count current : Nat} {clusters : List Nat}
    (found : layout.chainFrom disk limit steps count current = .ok clusters)
    : layout.passed disk limit steps count current = clusters := by
  induction steps generalizing count current clusters with
  | zero =>
    unfold Layout.chainFrom at found
    split at found <;> cases found
  | succ steps ih =>
    unfold Layout.chainFrom at found
    unfold Layout.passed
    split at found
    · rename_i inside
      rw [inside]
      cases follows : layout.next disk current with
      | error => rw [follows] at found; cases found
      | ok after =>
        rw [follows] at found
        cases after with
        | none => exact Except.ok.inj found
        | some after =>
          dsimp only at found ⊢
          split at found
          · rw [if_pos ‹_›]
            exact Except.ok.inj found
          · rw [if_neg ‹_›]
            cases rest : layout.chainFrom disk limit steps (count + 1) after with
            | error => rw [rest] at found; cases found
            | ok more =>
              rw [rest] at found
              rw [ih rest]
              exact Except.ok.inj found
    · cases found

/-- The clusters of a chain are found by following the FAT's entries, and are no more than it takes to
cover the limit. By induction on the steps.
-/
theorem iterate_of_chainFrom {steps count current size : Nat} {clusters : List Nat}
    (found : layout.chainFrom disk (some size) steps count current = .ok clusters)
    (uncovered : count * layout.clusterSize < size)
    : clusters = List.iterate (layout.fatValue disk) current clusters.length
      ∧ ∃ last, clusters.length = last + 1 ∧ (count + last) * layout.clusterSize < size := by
  induction steps generalizing count current clusters with
  | zero =>
    unfold Layout.chainFrom at found
    split at found <;> cases found
  | succ steps ih =>
    rw [Layout.chainFrom] at found
    split at found
    · split at found
      · cases found
      · cases found
        exact ⟨rfl, 0, rfl, uncovered⟩
      · rename_i after follows
        split at found
        · cases found
          exact ⟨rfl, 0, rfl, uncovered⟩
        · rename_i more
          cases rest : layout.chainFrom disk (some size) steps (count + 1) after with
          | error =>
            rw [rest] at found
            cases found
          | ok later =>
            rw [rest] at found
            cases found
            obtain ⟨same, last, length, short⟩ := ih rest (by simpa [covered] using more)
            have value : layout.fatValue disk current = after := by
              have link := link_of_next follows
              unfold FatType.link at link
              split at link
              · cases link
              · exact Option.some.inj link
            refine ⟨?_, last + 1, by simp [length], ?_⟩
            · rw [List.length_cons, List.iterate, value, ← same]
            · rwa [Nat.add_comm last, ← Nat.add_assoc]
    · cases found

/-- The clusters that a file's bytes are read from. -/
def Layout.fileClusters (layout : Layout) (disk : Disk) (entry : DirEntry) : List Nat :=
  if entry.size = 0 then []
  else layout.passed disk (some entry.size) layout.clusterCount 0 entry.firstCluster

/-- As many clusters as cover a file's size, each of them the one that the FAT has for the one before.
-/
def Layout.sizeClusters (layout : Layout) (disk : Disk) (entry : DirEntry) : List Nat :=
  List.iterate (layout.fatValue disk) entry.firstCluster
    ((entry.size + layout.clusterSize - 1) / layout.clusterSize)

theorem readChain_clusters {entry : DirEntry} {bytes : List UInt8}
    (same : layout.readChain disk entry.firstCluster (some entry.size) = .ok bytes)
    : bytes = (layout.dataOf disk (layout.fileClusters disk entry)).take entry.size
      ∧ layout.fileClusters disk entry = layout.sizeClusters disk entry := by
  unfold Layout.readChain at same
  unfold Layout.fileClusters Layout.sizeClusters
  by_cases empty : entry.size = 0
  · rw [if_pos (by rw [empty])] at same
    cases same
    have none : (entry.size + layout.clusterSize - 1) / layout.clusterSize = 0 := by
      rw [Nat.div_eq_zero_iff]
      omega
    rw [if_pos empty, none]
    exact ⟨List.take_nil.symm, rfl⟩
  rw [if_neg (by simpa using empty)] at same
  rw [if_neg empty]
  cases walked : layout.chainFrom disk (some entry.size) layout.clusterCount 0 entry.firstCluster with
  | error =>
    rw [walked] at same
    cases same
  | ok clusters =>
    rw [walked] at same
    dsimp only at same
    rw [passed_of_chainFrom walked]
    obtain ⟨follows, last, length, short⟩ := iterate_of_chainFrom walked (by omega)
    split at same
    · cases same
    · rename_i enough
      have total : (layout.dataOf disk clusters).length = clusters.length * layout.clusterSize := by
        simp [Layout.dataOf, List.length_flatMap, clusterBytes_length]
      have count : (entry.size + layout.clusterSize - 1) / layout.clusterSize = clusters.length := by
        rw [total, length, Nat.succ_mul] at enough
        rw [Nat.zero_add] at short
        refine Nat.div_eq_of_lt_le ?_ ?_ <;> rw [length] <;> simp only [Nat.succ_mul] <;> omega
      exact ⟨(Except.ok.inj same).symm, count ▸ follows⟩

/-- A file that was read has the bytes of its clusters, cut to its size. No two of these are the same
exactly if the FAT doesn't come back to a cluster within as many as cover the size.
-/
theorem readFile_distinct_iff (coherent : Coherent fat) (path : Str)
    : (readFile path).Ends fat
        (fun bytes _ =>
          ∃ entry,
            fat.layout.metadata fat.device.disk path = .ok entry
            ∧ bytes
              = (fat.layout.dataOf fat.device.disk
                  (fat.layout.fileClusters fat.device.disk entry)).take entry.size
            ∧ ((fat.layout.fileClusters fat.device.disk entry).Nodup
                ↔ (fat.layout.sizeClusters fat.device.disk entry).Nodup))
        (fun _ _ => True) := by
  refine (readFile_reads coherent path).mono (fun bytes after read => ?_) (fun _ _ _ => trivial)
  have same := read.1
  unfold Layout.readFile at same
  cases found : fat.layout.metadata fat.device.disk path with
  | error => rw [found] at same; cases same
  | ok entry =>
    rw [found] at same
    dsimp only at same
    split at same
    · cases same
    · obtain ⟨data, clusters⟩ := readChain_clusters same
      exact ⟨entry, rfl, data, by rw [clusters]⟩

/-- The boot sector of a FAT16 volume: one FAT in sectors 1 to 16, a root of one sector after it, and
4085 clusters of one sector.
-/
def smallBoot : Block :=
  Block.ofBytes (List.replicate 11 0 ++ le16 blockSize ++ [1] ++ le16 1 ++ [1] ++ le16 16 ++ le16 4103
    ++ [0xF8] ++ le16 16 ++ List.replicate 486 0 ++ [0x55, 0xAA])

/-- Such a volume with these FAT entries from cluster 2 on, root directory, and first clusters. -/
def smallDevice (values : List Nat) (root : List UInt8) (clusters : List (List UInt8)) : Device where
  disk number :=
    if number = 0 then smallBoot
    else if number = 1 then Block.ofBytes ((0xFFF8 :: 0xFFFF :: values).flatMap le16)
    else if number = 17 then Block.ofBytes root
    else Block.ofBytes (if 18 ≤ number then clusters[number - 18]?.getD [] else [])
  written := []
  plan := []

/-- A file `A` of two clusters, whose chain goes back from its only cluster to itself. -/
def loopingDevice : Device :=
  smallDevice [2] ("A          ".toList.map (fun c => UInt8.ofNat c.toNat) ++ List.replicate 15 0
    ++ le16 2 ++ le32 1024) [[7]]

/-- It is read without an error, twice from that cluster. -/
theorem readFile_repeats
    : (mount loopingDevice 0).toOption.any (fun fat =>
        (fat.layout.metadata fat.device.disk "/A".toList).toOption.map
            (fat.layout.fileClusters fat.device.disk)
          = some [2, 2]
        ∧ ((readFile "/A".toList).outcome fat).1.toOption
          = some (fat.layout.dataOf fat.device.disk [2, 2])) = true := by
  decide +kernel

/-- A file `A` of 1100 bytes in the clusters 2, 3 and 5, the last of its chain. -/
def chainedDevice : Device :=
  smallDevice [3, 5, 0, 0xFFFF] ("A          ".toList.map (fun c => UInt8.ofNat c.toNat)
    ++ List.replicate 15 0 ++ le16 2 ++ le32 1100) [[7], [8], [], [9]]

theorem mounts_of_check {device : Device} {check : Volume → Bool}
    (accepted : (mount device 0).toOption.any check = true)
    : ∃ fat, mount device 0 = .ok fat ∧ check fat = true := by
  cases mounted : mount device 0 with
  | ok fat =>
    rw [mounted] at accepted
    exact ⟨fat, rfl, accepted⟩
  | error =>
    rw [mounted] at accepted
    cases accepted

/-- Witness: the file of three clusters is read, and they differ. -/
theorem readFile_distinct_iff_chained
    : ∃ fat bytes after entry,
        mount chainedDevice 0 = .ok fat
        ∧ (readFile "/A".toList).outcome fat = (.ok bytes, after)
        ∧ fat.layout.metadata fat.device.disk "/A".toList = .ok entry
        ∧ (fat.layout.fileClusters fat.device.disk entry).length = 3
        ∧ (fat.layout.fileClusters fat.device.disk entry).Nodup := by
  obtain ⟨fat, mounted, evaluated⟩ := @mounts_of_check chainedDevice (fun fat =>
    ((readFile "/A".toList).outcome fat).1.toOption.isSome
    ∧ (fat.layout.metadata fat.device.disk "/A".toList).toOption.any (fun entry =>
        (fat.layout.fileClusters fat.device.disk entry).length = 3
        ∧ (fat.layout.sizeClusters fat.device.disk entry).Nodup)) (by decide +kernel)
  obtain ⟨read, found⟩ := of_decide_eq_true evaluated
  have ends := readFile_distinct_iff (mount_coherent mounted).1 "/A".toList
  unfold Action.Ends at ends
  cases ran : (readFile "/A".toList).outcome fat with
  | mk result after =>
    rw [ran] at ends read
    cases result with
    | error => cases read
    | ok bytes =>
      obtain ⟨entry, there, -, distinct⟩ := ends
      rw [there] at found
      obtain ⟨three, differ⟩ := of_decide_eq_true found
      exact ⟨fat, bytes, after, entry, mounted, ran, there, three, distinct.mpr differ⟩

/-- Reading in runs gives what the chain has cluster by cluster, and asks the device for nothing else
than its clusters, no more than one or a run at once: whatever other requests would do makes no
difference. FAT entries are looked up on the way.
-/
theorem readChain_batched (coherent : Coherent fat) (first : Nat) (limit : Option Nat)
    : readChainWith readSectors first limit = readChain first limit
      ∧ ∀ read : Nat → Nat → FatAction (List UInt8),
          (∀ sector count,
            Asked fat.layout
              (fat.layout.passed fat.device.disk limit fat.layout.clusterCount 0 first) sector count
            → read sector count = readSectors sector count)
          → Reads (readChainWith read first limit) fat
              (fat.layout.readChain fat.device.disk first limit) :=
  ⟨readChainWith_readSectors first limit, fun _ same => readChainWith_reads coherent first limit same⟩

/-- Witness: all of the chain of three clusters, of which the first two are a run. -/
theorem readChain_batched_mounted
    : ∃ fat,
        mount chainedDevice 0 = .ok fat
        ∧ fat.layout.chain fat.device.disk 2 = .ok [2, 3, 5]
        ∧ Reads (readChainWith readSectors 2 none) fat (fat.layout.readChain fat.device.disk 2 none) := by
  obtain ⟨fat, mounted, evaluated⟩ := @mounts_of_check chainedDevice
    (fun fat => fat.layout.chain fat.device.disk 2 = .ok [2, 3, 5]) (by decide +kernel)
  exact ⟨fat, mounted, of_decide_eq_true evaluated,
    (readChain_batched (mount_coherent mounted).1 2 none).2 _ (fun _ _ _ => rfl)⟩

end RustyPi.Fat
