import RustyPi.Fat.Writing

/-! Changing the FAT. Entries are set in a pending sector that reads see first, and the sector goes to
every copy when another one is needed or at the end. The cache is empty meanwhile, so that whatever the
device does, nothing it holds can be out of date.
-/

namespace RustyPi.Fat

open RustyPi.Bytes RustyPi.Journal

namespace Layout

/-- Two copies of the FAT hold the same. -/
def SameCopies (layout : Layout) (disk : Disk) (first second : Nat) : Prop :=
  ∀ offset < layout.fatSize,
    layout.sector disk (layout.fatStart + first * layout.fatSize + offset)
    = layout.sector disk (layout.fatStart + second * layout.fatSize + offset)

theorem copy_inside (layout : Layout) {copy offset : Nat} (last : copy < layout.fatCount)
    (small : offset < layout.fatSize)
    : ¬ layout.Outside (layout.fatStart + copy * layout.fatSize + offset) := by
  have room := Nat.mul_le_mul_right layout.fatSize (Nat.succ_le_of_lt last)
  rw [Nat.succ_mul] at room
  unfold Outside
  omega

/-- The writes of one block to some copies of the FAT. -/
def copyWrites (layout : Layout) (number : Nat) (block : Block) (left copy : Nat)
    : List (Nat × Block) :=
  (List.range' copy left).map (fun copy => (layout.start + (number + copy * layout.fatSize), block))

end Layout

/-- Between two states of a call: copies of the FAT that were the same still are, and FSInfo and the
counts are as before.
-/
structure Tended (before after : Volume) : Prop extends Steady before after where
  mirrored
    : ∀ first < before.layout.fatCount, ∀ second < before.layout.fatCount,
        before.layout.SameCopies before.device.disk first second
        → before.layout.SameCopies after.device.disk first second
  info
    : ∀ number, before.layout.fsinfo = some number →
        before.layout.sector after.device.disk number = before.layout.sector before.device.disk number

namespace Tended

variable {a b c : Volume}

theorem trans (first : Tended a b) (second : Tended b c) : Tended a c where
  toSteady := first.toSteady.trans second.toSteady
  mirrored i iBound j jBound same := by
    have later := second.mirrored
    rw [first.layout] at later
    exact later i iBound j jBound (first.mirrored i iBound j jBound same)
  info number known := by
    have later := second.info number
    rw [first.layout] at later
    exact (later known).trans (first.info number known)

theorem of_steady (steady : Steady a b) (disk : b.device.disk = a.device.disk) : Tended a b :=
  ⟨steady, fun _ _ _ _ same => by rwa [disk], fun _ _ => by rw [disk]⟩

theorem refl (a : Volume) : Tended a a := .of_steady (.refl a) rfl

end Tended

theorem Looked.tended {a b : Volume} (looked : Looked a b) : Tended a b :=
  .of_steady ⟨looked.layout, looked.freeCount, looked.underflowed, looked.plan, [],
    by rw [looked.written, List.append_nil], looked.disk⟩ looked.disk

theorem Aside.tended {a b : Volume} (aside : Aside a b) (proper : a.layout.Proper) : Tended a b where
  toSteady := aside.toSteady
  mirrored first firstLast second secondLast same offset small := by
    rw [aside.sectors _ (a.layout.copy_inside firstLast small),
      aside.sectors _ (a.layout.copy_inside secondLast small)]
    exact same offset small
  info number known := by
    have low := (proper.info number known).2
    refine aside.sectors number (fun outside => ?_)
    unfold Layout.Outside at outside
    omega

variable {fat mid after : Volume} {number : Nat} {block : Block}

theorem writeCopies_ends (number : Nat) (block : Block) (left copy : Nat)
    : (writeCopies number block left copy).Ends fat
        (fun _ => Wrote (fat.layout.copyWrites number block left copy) fat)
        (fun _ after => ¬ Calm fat after ∧ ∃ writes, Wrote writes fat after) := by
  induction left generalizing copy fat with
  | zero => exact ⟨rfl, (List.append_nil _).symm, rfl, List.suffix_rfl⟩
  | succ left ih =>
    unfold writeCopies
    simp only [Action.ends_bind, Action.ends_get]
    refine (writeSector_ends _ block).mono ?_ ?_
    · intro _ mid first
      refine ih (copy + 1) |>.mono ?_ ?_
      · intro _ after second
        rw [first.steady.layout] at second
        exact first.trans second
      · rintro _ after ⟨faulty, writes, second⟩
        exact ⟨fun calm => faulty (calm.split first.plan second.plan).2, _, first.trans second⟩
    · rintro _ after ⟨faulty, writes, _, wrote⟩
      exact ⟨faulty, writes, wrote⟩

theorem replay_same {store : Disk} {writes : List (Nat × Block)}
    (same : ∀ write ∈ writes, write.2 = block) (cell : Nat)
    : replay store writes cell = if cell ∈ writes.map Prod.fst then block else store cell := by
  split
  · rename_i member
    obtain ⟨write, there, _, last⟩ := @replay_of_mem _ _ _ store _ _ member
    exact last.trans (same write there)
  · rename_i outside
    exact replay_of_not_mem (fun write there same => outside (same ▸ List.mem_map_of_mem there))

theorem copy_place {size first second left right : Nat} (leftSmall : left < size)
    (rightSmall : right < size) (same : left + first * size = right + second * size)
    : left = right ∧ first = second := by
  have remainder := congrArg (· % size) same
  simp only [Nat.add_mul_mod_self_right, Nat.mod_eq_of_lt leftSmall,
    Nat.mod_eq_of_lt rightSmall] at remainder
  subst remainder
  exact ⟨rfl, Nat.eq_of_mul_eq_mul_right (Nat.zero_lt_of_lt leftSmall) (Nat.add_left_cancel same)⟩

/-- A FAT sector written to every copy leaves copies that were the same the same, and the rest of the
first one alone.
-/
theorem Wrote.copies
    (wrote : Wrote (fat.layout.copyWrites number block fat.layout.fatCount 0) fat after)
    (proper : fat.layout.Proper) (place : fat.layout.InFat number)
    : Tended fat after
      ∧ ∀ other, fat.layout.InFat other →
          fat.layout.sector after.device.disk other
          = if other = number then block else fat.layout.sector fat.device.disk other := by
  obtain ⟨low, high⟩ := place
  have written (cell : Nat)
      : fat.layout.sector after.device.disk cell
        = if ∃ copy < fat.layout.fatCount, cell = number + copy * fat.layout.fatSize then block
          else fat.layout.sector fat.device.disk cell := by
    unfold Layout.sector
    rw [wrote.disk]
    refine (@replay_same block _ _ (by simp [Layout.copyWrites]) _).trans ?_
    refine if_congr ?_ rfl rfl
    simp only [Layout.copyWrites, List.map_map, List.mem_map, List.mem_range'_1, Function.comp,
      Nat.zero_le, Nat.zero_add, true_and]
    exact exists_congr (fun copy => and_congr_right (fun _ => by omega))
  have inCopy (copy : Nat) (last : copy < fat.layout.fatCount) (offset : Nat)
      (small : offset < fat.layout.fatSize)
      : (∃ other < fat.layout.fatCount,
          fat.layout.fatStart + copy * fat.layout.fatSize + offset
          = number + other * fat.layout.fatSize)
        ↔ fat.layout.fatStart + offset = number := by
    constructor
    · rintro ⟨other, _, same⟩
      have place := @copy_place fat.layout.fatSize copy other offset (number - fat.layout.fatStart)
        small (by omega) (by omega)
      omega
    · exact fun same => ⟨copy, last, by omega⟩
  refine ⟨⟨wrote.steady, ?_, ?_⟩, ?_⟩
  · intro first firstLast second secondLast same offset small
    rw [written, written]
    simp only [inCopy first firstLast offset small, inCopy second secondLast offset small]
    split
    · rfl
    · exact same offset small
  · intro info known
    have below := (proper.info info known).2
    rw [written, if_neg]
    rintro ⟨copy, _, same⟩
    omega
  · rintro other ⟨otherLow, otherHigh⟩
    have here := inCopy 0 proper.copies (other - fat.layout.fatStart) (by omega)
    rw [show fat.layout.fatStart + 0 * fat.layout.fatSize + (other - fat.layout.fatStart) = other
      by omega, Nat.add_sub_cancel' otherLow] at here
    rw [written, if_congr here rfl rfl]

/-- A volume in the middle of setting entries: while a sector is pending, nothing is cached. -/
structure Pending (fat : Volume) : Prop where
  proper : fat.layout.Proper
  cache : ∀ number block, fat.fatCache = some (number, block) →
    fat.layout.InFat number ∧ block = fat.layout.sector fat.device.disk number
  dirty : ∀ number block, fat.fatDirty = some (number, block) →
    fat.layout.InFat number ∧ fat.fatCache = none

theorem Ready.pending (ready : Ready fat) : Pending fat where
  proper := ready.proper
  cache := ready.cache
  dirty _ _ dirty := nomatch ready.clean.symm.trans dirty

theorem Pending.ready (pending : Pending fat) (clean : fat.fatDirty = none) : Ready fat :=
  ⟨pending.proper, pending.cache, clean⟩

/-- How setting entries stops early: the device fails, and nothing stays pending. -/
structure Stopped (before after : Volume) : Prop extends Steady before after where
  faulty : ¬ Calm before after
  ready : Ready after

theorem Steady.stopped (steady : Steady fat mid) (stopped : Stopped mid after)
    : Stopped fat after :=
  ⟨steady.trans stopped.toSteady,
    fun calm => stopped.faulty (calm.split steady.plan stopped.plan).2, stopped.ready⟩

/-- A FAT sector as reads see it, the pending one first. -/
def Volume.shown (fat : Volume) (number : Nat) : Block :=
  match fat.fatDirty with
  | some (pending, block) =>
    if number = pending then block else fat.layout.sector fat.device.disk number
  | none => fat.layout.sector fat.device.disk number

/-- The value of FAT entry `cluster`, the pending sector first. -/
def Volume.value (fat : Volume) (cluster : Nat) : Nat :=
  fat.layout.fatType.decode (fat.shown (fat.layout.fatPosition cluster).1)
    (fat.layout.fatPosition cluster).2

theorem Ready.shown (ready : Ready fat) (number : Nat)
    : fat.shown number = fat.layout.sector fat.device.disk number := by
  rw [Volume.shown, ready.clean]

theorem flushFat_ends (pending : Pending fat)
    : flushFat.Ends fat
        (fun _ after => Ready after ∧ Tended fat after
          ∧ ∀ number, fat.layout.InFat number →
              fat.layout.sector after.device.disk number = fat.shown number)
        (fun _ => Stopped fat) := by
  unfold flushFat
  simp only [Action.ends_bind, Action.ends_get]
  cases dirty : fat.fatDirty with
  | none => exact ⟨pending.ready dirty, .refl fat, fun number _ => by rw [Volume.shown, dirty]⟩
  | some held =>
    obtain ⟨number, block⟩ := held
    obtain ⟨place, empty⟩ := pending.dirty number block dirty
    simp only [Action.ends_bind, Action.ends_set, Action.ends_modify]
    refine (writeCopies_ends number block fat.layout.fatCount 0).mono ?_ ?_
    · intro _ after wrote
      obtain ⟨tended, sectors⟩ := wrote.copies pending.proper place
      refine ⟨⟨tended.layout ▸ pending.proper, ?_, wrote.dirty⟩,
        ⟨⟨tended.layout, tended.freeCount, tended.underflowed, tended.plan, tended.trail⟩,
          tended.mirrored, tended.info⟩, ?_⟩
      · rintro _ _ ⟨⟩
        show after.layout.InFat number ∧ block = after.layout.sector after.device.disk number
        rw [tended.layout]
        exact ⟨place, ((sectors number place).trans (if_pos rfl)).symm⟩
      · intro other inside
        rw [Volume.shown, dirty]
        exact sectors other inside
    · rintro _ after ⟨faulty, writes, wrote⟩
      have steady := wrote.steady
      have cache : after.fatCache = none := wrote.cache.trans empty
      refine ⟨⟨steady.layout, steady.freeCount, steady.underflowed, steady.plan, steady.trail⟩,
        faulty, steady.layout ▸ pending.proper, ?_, wrote.dirty⟩
      intro _ _ cached
      cases cache.symm.trans cached

theorem readSector_ends (number : Nat)
    : (readSector number).Ends fat
        (fun block after => block = fat.layout.sector fat.device.disk number
          ∧ after = { fat with device := fat.device.called })
        (fun _ after => fat.device.next ≠ .none
          ∧ after = { fat with device := fat.device.called }) := by
  unfold readSector deviceCall
  simp only [Action.ends_bind, Action.ends_get, Action.ends_set]
  unfold Device.readBlock
  cases fat.device.next with
  | none => exact ⟨rfl, rfl⟩
  | failed error effects => exact ⟨Fault.noConfusion, rfl⟩

/-- The sector to change is as it is on the disk, and the cache is empty. -/
theorem takeSector_ends (ready : Ready fat) (number : Nat)
    : (takeSector number).Ends fat
        (fun block after => block = fat.layout.sector fat.device.disk number ∧ Looked fat after
          ∧ after.fatCache = none)
        (fun _ => Stopped fat) := by
  unfold takeSector
  simp only [Action.ends_bind, Action.ends_get, Action.ends_set]
  split
  · rename_i cached block hit
    obtain ⟨found, same⟩ := Option.filter_eq_some_iff.mp hit
    have coherent := (ready.cache _ _ found).2
    have here : cached = number := beq_iff_eq.mp same
    refine ⟨here ▸ coherent, ?_, rfl⟩
    exact ⟨⟨by simp, ready.clean⟩, rfl, rfl, rfl, rfl, rfl, rfl, rfl, List.suffix_rfl, by simp⟩
  · have read : Looked fat { fat with fatCache := none, device := fat.device.called } :=
      ⟨⟨by simp, ready.clean⟩, rfl, rfl, rfl, rfl, rfl, rfl, rfl, List.tail_suffix _, by simp⟩
    refine (readSector_ends number).mono ?_ ?_
    · rintro block _ ⟨rfl, rfl⟩
      exact ⟨rfl, read, rfl⟩
    · rintro _ _ ⟨faulty, rfl⟩
      exact ⟨read.tended.toSteady, not_calm_called faulty rfl, read.ready ready⟩

/-- What setting one entry comes to. -/
structure Entered (fat : Volume) (cluster value : Nat) (after : Volume) : Prop where
  pending : Pending after
  tended : Tended fat after
  values
    : ∀ other, fat.layout.contains other = true →
        after.value other = if other = cluster then value else fat.value other

section Setting

variable {cluster value : Nat} (inside : fat.layout.contains cluster = true)
  (small : value ≤ fat.layout.fatType.entryMask)
include inside small

/-- Setting an entry in its sector when no other one is pending. -/
theorem Entered.of_shown (proper : fat.layout.Proper) (tended : Tended fat mid)
    (empty : mid.fatCache = none)
    (held : ∀ other pending, mid.fatDirty = some (other, pending) →
      other = (fat.layout.fatPosition cluster).1)
    (shown : ∀ number, fat.layout.InFat number → mid.shown number = fat.shown number)
    : Entered fat cluster value { mid with
        fatDirty := some ((fat.layout.fatPosition cluster).1,
          mid.layout.fatType.encode (mid.shown (fat.layout.fatPosition cluster).1)
            (fat.layout.fatPosition cluster).2 value) } := by
  have place := fatPosition_range proper inside
  have fits := @fatPosition_fits fat.layout cluster
  have layout := tended.layout
  refine ⟨⟨layout ▸ proper, ?_, ?_⟩, ?_, ?_⟩
  · exact fun _ _ cached => nomatch empty.symm.trans cached
  · rintro _ _ ⟨⟩
    exact ⟨layout ▸ place, empty⟩
  · exact ⟨⟨tended.layout, tended.freeCount, tended.underflowed, tended.plan, tended.trail⟩,
      tended.mirrored, tended.info⟩
  · intro other otherInside
    have otherPlace := fatPosition_range proper otherInside
    unfold Volume.value
    show mid.layout.fatType.decode (if (mid.layout.fatPosition other).1 = _ then _ else _) _ = _
    rw [layout, shown _ place]
    by_cases same : (fat.layout.fatPosition other).1 = (fat.layout.fatPosition cluster).1
    · rw [if_pos same, same]
      split
      · rename_i equal
        rw [equal]
        exact decode_encode _ _ fits small
      · rename_i different
        exact decode_encode_of_ne _ _ _ fits
          (fatPosition_apart fat.layout (Ne.symm different) same.symm)
    · have elsewhere : mid.shown (fat.layout.fatPosition other).1
          = mid.layout.sector mid.device.disk (fat.layout.fatPosition other).1 := by
        unfold Volume.shown
        split
        · rename_i number pending dirty
          rw [if_neg (by rw [held number pending dirty]; exact same)]
        · rfl
      rw [if_neg same, if_neg (fun equal => same (by rw [equal])), ← shown _ otherPlace, elsewhere,
        layout]

theorem takeSector_entered (ready : Ready mid) (tended : Tended fat mid)
    (shown : ∀ number, fat.layout.InFat number → mid.shown number = fat.shown number)
    : (takeSector (fat.layout.fatPosition cluster).1).Ends mid
        (fun block after => Entered fat cluster value
          { after with
            fatDirty := some ((fat.layout.fatPosition cluster).1,
              after.layout.fatType.encode block (fat.layout.fatPosition cluster).2 value) })
        (fun _ => Stopped fat) := by
  have proper : fat.layout.Proper := tended.layout ▸ ready.proper
  refine (takeSector_ends ready _).mono ?_ (fun _ _ stopped => tended.toSteady.stopped stopped)
  rintro block after ⟨rfl, looked, cache⟩
  have shownAfter (number : Nat) : after.shown number = mid.shown number := by
    rw [(looked.ready ready).shown, ready.shown, looked.layout, looked.disk]
  rw [← ready.shown, ← shownAfter]
  refine .of_shown inside small proper (tended.trans looked.tended) cache ?_ ?_
  · exact fun _ _ dirty => nomatch looked.coherent.clean.symm.trans dirty
  · exact fun number place => (shownAfter number).trans (shown number place)

theorem setFatEntry_ends (pending : Pending fat)
    : (setFatEntry cluster value).Ends fat (fun _ => Entered fat cluster value)
        (fun _ => Stopped fat) := by
  unfold setFatEntry
  simp only [Action.ends_bind, Action.ends_get]
  cases dirty : fat.fatDirty with
  | none =>
    simp only [Option.any_none, Bool.false_eq_true, if_false, Action.ends_bind, Action.ends_get,
      dirty]
    exact takeSector_entered inside small (pending.ready dirty) (.refl fat) (fun _ _ => rfl)
  | some held =>
    obtain ⟨number, block⟩ := held
    by_cases here : number = (fat.layout.fatPosition cluster).1
    · subst here
      simp only [Option.any_some, bne_self_eq_false, Bool.false_eq_true, if_false,
        Action.ends_bind, Action.ends_get, dirty]
      have shown : fat.shown (fat.layout.fatPosition cluster).1 = block := by
        rw [Volume.shown, dirty]
        exact if_pos rfl
      rw [← shown]
      refine .of_shown inside small pending.proper (.refl fat) (pending.dirty _ _ dirty).2 ?_
        (fun _ _ => rfl)
      intro other _ found
      cases dirty.symm.trans found
      rfl
    · have different : (number != (fat.layout.fatPosition cluster).1) = true := by
        simpa using here
      simp only [Option.any_some, different, if_true, Action.ends_bind]
      refine (flushFat_ends pending).mono ?_ (fun _ _ stopped => stopped)
      rintro _ mid ⟨ready, tended, sectors⟩
      simp only [Action.ends_get, ready.clean, Action.ends_bind]
      refine takeSector_entered inside small ready tended (fun other place => ?_)
      rw [ready.shown, tended.layout, sectors other place]

end Setting

end RustyPi.Fat
