import RustyPi.Fat.Allocation
import RustyPi.Fat.BootSector
import RustyPi.Fat.Reading
import RustyPi.Lib.Checked

/-! Allocating with its arithmetic as `u32` and `u64` have it: what doesn't fit panics. On a volume
that was mounted nothing does, and the search gives as many free clusters as it should exactly when
there are as many.
-/

namespace RustyPi.Fat

/-- A number in a type of so many bits. -/
def fits (width value : Nat) : FatAction Nat :=
  match Checked.fits width value with
  | .ok value => return value
  | .error _ => throw .panic

/-- `fatEntry` with its arithmetic checked, for sectors in the cache as well. -/
def fatEntryChecked (cluster : Nat) : FatAction Nat := do
  let layout := (← get).layout
  let offset ← fits 64 (cluster * layout.fatType.entryWidth)
  let sector ← fits 64 (layout.fatStart + offset / blockSize)
  let _ ← fits 64 (layout.start + sector)
  fatEntry cluster

def allocateCheckedFrom (count start total : Nat)
    : (left i : Nat) → (clusters : List Nat) → FatAction (List Nat)
  | 0, _, clusters => return clusters
  | left + 1, i, clusters => do
      if clusters.length = count then return clusters
      -- the difference and the remainder
      else if start < 2 ∨ total = 0 then throw .panic
      else
        let sum ← fits 32 (start - 2 + i)
        let cluster ← fits 32 (2 + sum % total)
        let value ← fatEntryChecked cluster
        allocateCheckedFrom count start total left (i + 1)
          (if value = 0 then clusters ++ [cluster] else clusters)

/-- `allocate` with its arithmetic checked. -/
def allocateChecked (count : Nat) : FatAction (List Nat) := do
  let fat ← get
  let total := fat.layout.clusterCount
  let last ← fits 32 (total + 1)
  -- `clamp` wants its bounds in order
  if last < 2 then throw .panic
  else
    let start := max 2 (min fat.nextFree last)
    let clusters ← allocateCheckedFrom count start total total 0 []
    if clusters.length < count then fail .noSpace
    else
      let next ← clusters.getLast?.elim (pure 2) (fun last => fits 32 (last + 1))
      modify (fun fat => { fat with nextFree := next })
      return clusters

/-- The numbers of a layout, small enough for the arithmetic on them. -/
structure Layout.Small (layout : Layout) : Prop where
  start : layout.start < 0x100000000
  fatStart : layout.fatStart < 0x10000
  clusters : 0 < layout.clusterCount ∧ layout.clusterCount ≤ 0x0FFFFFF5

theorem mount_small {device : Device} {start : Nat} {fat : Volume} (mounted : mount device start = .ok fat)
    (addressed : start < 0x100000000)
    : fat.layout.Small := by
  unfold mount at mounted
  split at mounted
  · cases mounted
  · rename_i boot device read
    cases accepted : layoutOf start boot with
    | error =>
      rw [accepted] at mounted
      cases mounted
    | ok layout =>
      rw [accepted] at mounted
      cases mounted
      obtain ⟨checked, rfl⟩ := layoutOf_eq_ok accepted
      refine ⟨addressed, ?_, ?_, Nat.min_le_right ..⟩
      · have low := (boot.bytes[14]?.getD 0).toNat_lt
        have high := (boot.bytes[15]?.getD 0).toNat_lt
        show Bytes.byteAt boot.bytes 14 + 256 * Bytes.byteAt boot.bytes 15 < 0x10000
        unfold Bytes.byteAt
        omega
      · have enough := checked.enough
        show 0 < BootSector.clusters boot
        omega

theorem fits_of_lt {width value : Nat} (small : value < 2 ^ width) : fits width value = pure value := by
  rw [fits, Checked.fits_of_lt small]

variable {fat : Volume} {cluster : Nat} {clusters : List Nat}

theorem fatEntryChecked_outcome (small : fat.layout.Small) (inside : fat.layout.contains cluster = true)
    : (fatEntryChecked cluster).outcome fat = (fatEntry cluster).outcome fat := by
  have range := (contains_iff cluster).mp inside
  have counted := small.clusters.2
  have offset : cluster * fat.layout.fatType.entryWidth < 0x40000000 := by
    rcases fat.layout.fatType.entryWidth_cases with width | width <;> rw [width] <;> omega
  have sectors := Nat.div_le_self (cluster * fat.layout.fatType.entryWidth) blockSize
  have start := small.start
  have fatStart := small.fatStart
  unfold fatEntryChecked
  rw [Action.outcome_bind, Action.outcome_get]
  simp only
  rw [fits_of_lt (by omega), pure_bind, fits_of_lt (by omega), pure_bind,
    fits_of_lt (by omega), pure_bind]

/-- Nothing overflows along a search. By induction on the clusters left to look at. -/
theorem allocateCheckedFrom_outcome {count start left i : Nat} (small : fat.layout.Small)
    (coherent : Coherent fat) (clamped : 2 ≤ start ∧ start ≤ fat.layout.clusterCount + 1)
    (ends : i + left = fat.layout.clusterCount)
    : (allocateCheckedFrom count start fat.layout.clusterCount left i clusters).outcome fat
      = (allocateFrom count start fat.layout.clusterCount left i clusters).outcome fat := by
  induction left generalizing i clusters fat with
  | zero => rfl
  | succ left ih =>
    have counted := small.clusters
    have below := Nat.mod_lt (start - 2 + i) counted.1
    unfold allocateCheckedFrom allocateFrom
    split
    · rfl
    · have inside : fat.layout.contains (2 + (start - 2 + i) % fat.layout.clusterCount) = true := by
        rw [contains_iff]
        omega
      rw [if_neg (by omega), fits_of_lt (by omega), pure_bind, fits_of_lt (by omega), pure_bind,
        Action.outcome_bind, Action.outcome_bind, fatEntryChecked_outcome small inside]
      have reads := fatEntry_reads coherent inside
      unfold Reads Action.Ends at reads
      generalize (fatEntry _).outcome fat = entry at reads ⊢
      obtain ⟨_ | value, after⟩ := entry
      · rfl
      · have looked := reads.2
        have rest := @ih after (if value = 0
          then clusters ++ [2 + (start - 2 + i) % fat.layout.clusterCount] else clusters) (i + 1)
        rw [looked.layout] at rest
        exact rest small looked.coherent clamped (by omega)

theorem allocateChecked_outcome (small : fat.layout.Small) (coherent : Coherent fat) (count : Nat)
    : (allocateChecked count).outcome fat = (allocate count).outcome fat := by
  have counted := small.clusters
  unfold allocateChecked allocate
  rw [Action.outcome_bind, Action.outcome_get, Action.outcome_bind, Action.outcome_get]
  simp only
  rw [fits_of_lt (by omega), pure_bind, if_neg (by omega), Action.outcome_bind, Action.outcome_bind,
    allocateCheckedFrom_outcome small coherent ⟨by omega, by omega⟩ (Nat.zero_add _)]
  have reads := @allocateFrom_reads fat [] count
    (max 2 (min fat.nextFree (fat.layout.clusterCount + 1))) _ 0 coherent (Nat.zero_add _)
  unfold Reads Action.Ends at reads
  generalize (allocateFrom _ _ _ _ _ _).outcome fat = found at reads ⊢
  obtain ⟨_ | clusters, after⟩ := found
  · rfl
  · have fresh := (search_all fat.layout fat.device.disk count
      (max 2 (min fat.nextFree (fat.layout.clusterCount + 1)))).1
    rw [Except.ok.inj reads.1] at fresh
    simp only
    split
    · rfl
    · cases ending : clusters.getLast? with
      | none => rfl
      | some last =>
        have range := (contains_iff last).mp (fresh.inside last (List.mem_of_getLast? ending))
        rw [Option.elim_some, fits_of_lt (by omega), pure_bind]
        rfl

/-- For every FAT, allocating on a device that never fails gives so many different free clusters
exactly when there are as many, and the next search starts behind the last of them. Nothing
overflows, and nothing is written.
-/
theorem allocate_exact {device : Device} {start : Nat} {opened : Volume} {count : Nat}
    (mounted : mount device start = .ok opened) (addressed : start < 0x100000000)
    (layout : fat.layout = opened.layout) (coherent : Coherent fat) (sure : fat.device.plan = [])
    (wanted : 1 ≤ count)
    : (allocateChecked count).Ends fat
        (fun clusters after => count ≤ fat.layout.freeCells fat.device.disk
          ∧ clusters.length = count
          ∧ clusters.Nodup
          ∧ (∀ cluster ∈ clusters, 2 ≤ cluster ∧ cluster ≤ fat.layout.clusterCount + 1
              ∧ fat.layout.fatValue fat.device.disk cluster = 0)
          ∧ (∃ last, clusters.getLast? = some last ∧ after.nextFree = last + 1)
          ∧ after.device.written = fat.device.written
          ∧ after.device.disk = fat.device.disk)
        (fun halt after => fat.layout.freeCells fat.device.disk < count
          ∧ halt = .error .noSpace
          ∧ after.nextFree = fat.nextFree
          ∧ after.device.written = fat.device.written
          ∧ after.device.disk = fat.device.disk)
      ∧ (allocateChecked count).outcome fat = (allocate count).outcome fat := by
  have same := allocateChecked_outcome (layout ▸ mount_small mounted addressed) coherent count
  refine ⟨?_, same⟩
  unfold Action.Ends
  rw [same]
  refine (allocate_finds coherent count).mono ?_ ?_
  · rintro clusters after ⟨fresh, length, enough, mid, looked, rfl⟩
    refine ⟨enough, length, fresh.distinct, fun cluster member => ?_, ?_, looked.written, looked.disk⟩
    · have range := (contains_iff cluster).mp (fresh.inside cluster member)
      exact ⟨range.1, by omega, fresh.free cluster member⟩
    · cases ending : clusters.getLast? with
      | none =>
        rw [List.getLast?_eq_none_iff.mp ending] at length
        exact absurd length (by rw [List.length_nil]; omega)
      | some last => exact ⟨last, rfl, rfl⟩
  · rintro halt after ⟨⟨rfl, few⟩ | failed, looked⟩
    · exact ⟨few, rfl, looked.nextFree, looked.written, looked.disk⟩
    · exact absurd sure failed.1

/-- Three clusters of a volume whose first one is taken. -/
theorem allocate_exact_looping
    : ∃ fat, mount loopingDevice 0 = .ok fat
      ∧ (allocateChecked 3).Ends fat
          (fun clusters after => clusters.length = 3 ∧ clusters.Nodup
            ∧ after.device.written = fat.device.written)
          (fun halt _ => halt = .error .noSpace) := by
  have accepted : (mount loopingDevice 0).toOption.any (fun fat => fat.device.plan.isEmpty) = true := by
    decide +kernel
  cases mounted : mount loopingDevice 0 with
  | error =>
    rw [mounted] at accepted
    cases accepted
  | ok fat =>
  rw [mounted] at accepted
  refine ⟨fat, rfl, ?_⟩
  refine (allocate_exact mounted (by decide) rfl (mount_coherent mounted).1
    (List.isEmpty_iff.mp accepted) (by decide)).1.mono ?_ ?_
  · rintro clusters after ⟨-, length, distinct, -, -, written, -⟩
    exact ⟨length, distinct, written⟩
  · rintro halt after ⟨-, full, -⟩
    exact full

end RustyPi.Fat
