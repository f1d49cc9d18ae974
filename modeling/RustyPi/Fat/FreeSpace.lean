import RustyPi.Fat.BootSector
import RustyPi.Fat.Changes
import RustyPi.Lib.Reach

/-! The free-space count over any calls on a device that never fails, whatever the FAT and the
directories hold. Each part of a call changes the count by as much as it changes the FAT, and every
call that changes the volume ends by writing the count to FSInfo, so that between calls the count, the
FAT and FSInfo agree.
-/

namespace RustyPi.Fat

open RustyPi.Bytes RustyPi.Journal RustyPi.Reach

----------
-- Parts of a call
----------

/-- The count, if there is one, is the number of free clusters, and nothing was ever taken from too
small a one.
-/
structure Right (fat : Volume) : Prop where
  counted : ∀ free, fat.freeCount = some free → free = fat.layout.freeCells fat.device.disk
  fine : fat.underflowed = false

namespace Right

variable {a b : Volume} (right : Right a)
include right

theorem recount : Right { a with freeCount := some (a.layout.freeCells a.device.disk) } :=
  ⟨by rintro _ ⟨⟩; rfl, right.fine⟩

theorem same (steady : Steady a b)
    (cells : a.layout.freeCells b.device.disk = a.layout.freeCells a.device.disk)
    : Right b := by
  refine ⟨fun free known => ?_, steady.underflowed.trans right.fine⟩
  rw [steady.layout, cells]
  exact right.counted free (steady.freeCount ▸ known)

variable (proper : a.layout.Proper) (steady : Steady a b) {count : Nat}
include proper steady

/-- What is taken from the count is there. -/
theorem linked
    (fewer : a.layout.freeCells b.device.disk + count = a.layout.freeCells a.device.disk)
    : Right { b with
        freeCount := b.freeCount.map (fun free =>
          (free + (0x100000000 - count % 0x100000000)) % 0x100000000)
        underflowed := b.underflowed || b.freeCount.any (fun free => free < count) } := by
  have bound := freeCells_le a.layout a.device.disk
  have limit := proper.clusterCount_lt
  refine ⟨fun free known => ?_, ?_⟩
  · obtain ⟨old, before, rfl⟩ := Option.map_eq_some_iff.mp known
    have counted := right.counted old (steady.freeCount ▸ before)
    show _ = b.layout.freeCells b.device.disk
    rw [steady.layout]
    omega
  · have enough : b.freeCount.any (fun free => free < count) = false := by
      rw [steady.freeCount, Option.any_eq_false]
      intro free known
      have counted := right.counted free known
      exact decide_eq_false (by omega)
    show (b.underflowed || _) = false
    rw [enough, steady.underflowed, right.fine, Bool.or_false]

theorem cleared
    (more : a.layout.freeCells a.device.disk + count = a.layout.freeCells b.device.disk)
    (nextFree : Nat)
    : Right { b with
        freeCount := b.freeCount.map (fun free => (free + count) % 0x100000000)
        nextFree } := by
  have bound := freeCells_le a.layout b.device.disk
  have limit := proper.clusterCount_lt
  refine ⟨fun free known => ?_, steady.underflowed.trans right.fine⟩
  obtain ⟨old, before, rfl⟩ := Option.map_eq_some_iff.mp known
  have counted := right.counted old (steady.freeCount ▸ before)
  show _ = b.layout.freeCells b.device.disk
  rw [steady.layout]
  omega

end Right

theorem mount_right {device : Device} {start : Nat} {fat : Volume}
    (mounted : mount device start = .ok fat)
    : Right fat := by
  obtain ⟨-, -, uncounted, fine⟩ := mount_coherent mounted
  exact ⟨fun _ known => (nomatch uncounted.symm.trans known), fine⟩

/-- A volume on a device that never fails whose count is right. -/
structure Exact (fat : Volume) : Prop extends Right fat where
  ready : Ready fat
  sure : fat.device.plan = []

/-- Between two states of a call: the count is exact, copies of the FAT that were the same still
are, and FSInfo is as before.
-/
structure Accounted (before after : Volume) : Prop where
  exact : Exact after
  layout : after.layout = before.layout
  mirrored
    : ∀ first < before.layout.fatCount, ∀ second < before.layout.fatCount,
        before.layout.SameCopies before.device.disk first second
        → before.layout.SameCopies after.device.disk first second
  info
    : ∀ number, before.layout.fsinfo = some number →
        before.layout.sector after.device.disk number = before.layout.sector before.device.disk number

theorem Accounted.trans {a b c : Volume} (first : Accounted a b) (second : Accounted b c) : Accounted a c where
  exact := second.exact
  layout := second.layout.trans first.layout
  mirrored i iBound j jBound same := by
    have later := second.mirrored
    rw [first.layout] at later
    exact later i iBound j jBound (first.mirrored i iBound j jBound same)
  info number known := by
    have later := second.info number
    rw [first.layout] at later
    exact (later known).trans (first.info number known)

instance : Trans Accounted Accounted Accounted := ⟨Accounted.trans⟩

/-- Every part of a call keeps the count exact. -/
theorem accounted_upkeep : Upkeep Exact Accounted where
  ready := Exact.ready
  reaches := Accounted.exact
  layout := Accounted.layout
  same exact ready tended cells :=
    ⟨⟨exact.same tended.toSteady cells, ready, tended.sure exact.sure⟩, tended.layout,
      tended.mirrored, tended.info⟩
  stopped exact stopped := absurd (stopped.calm exact.sure) stopped.faulty
  counted exact :=
    ⟨⟨exact.recount, exact.ready.recount _ _ _, exact.sure⟩, rfl, fun _ _ _ _ same => same,
      fun _ _ => rfl⟩
  linked _ exact ready tended fewer :=
    ⟨⟨exact.linked exact.ready.proper tended.toSteady fewer, ready.recount _ _ _,
      tended.sure exact.sure⟩, tended.layout, tended.mirrored, tended.info⟩
  cleared _ nextFree exact ready tended more :=
    ⟨⟨exact.cleared exact.ready.proper tended.toSteady more nextFree, ready.recount _ _ _,
      tended.sure exact.sure⟩, tended.layout, tended.mirrored, tended.info⟩

theorem Looked.accounted {a b : Volume} (looked : Looked a b) (exact : Exact a) : Accounted a b :=
  accounted_upkeep.looked exact looked

/-- FSInfo, if it is one, has this count of free clusters. -/
def Layout.Tells (layout : Layout) (disk : Disk) (free : Nat) : Prop :=
  ∀ number, layout.fsinfo = some number →
    u32At (layout.sector disk number).bytes 0 = fsinfoLead
    → u32At (layout.sector disk number).bytes 484 = fsinfoStruct
    → u32At (layout.sector disk number).bytes 488 = free

/-- A volume between two calls: its count is exact, and FSInfo has it. -/
structure Tallied (fat : Volume) : Prop where
  exact : Exact fat
  told : ∀ free, fat.freeCount = some free → fat.layout.Tells fat.device.disk free

/-- A call was made: the counts agree again, and copies of the FAT that were the same still are. -/
structure Served (before after : Volume) : Prop where
  tallied : Tallied after
  layout : after.layout = before.layout
  mirrored
    : ∀ first < before.layout.fatCount, ∀ second < before.layout.fatCount,
        before.layout.SameCopies before.device.disk first second
        → before.layout.SameCopies after.device.disk first second

theorem Accounted.served {a b c : Volume} (first : Accounted a b) (second : Served b c)
    : Served a c where
  tallied := second.tallied
  layout := second.layout.trans first.layout
  mirrored i iBound j jBound same := by
    have later := second.mirrored
    rw [first.layout] at later
    exact later i iBound j jBound (first.mirrored i iBound j jBound same)

theorem Served.refl {a : Volume} (tallied : Tallied a) : Served a a :=
  ⟨tallied, rfl, fun _ _ _ _ same => same⟩

theorem Served.trans {a b c : Volume} (first : Served a b) (second : Served b c) : Served a c where
  tallied := second.tallied
  layout := second.layout.trans first.layout
  mirrored i iBound j jBound same := by
    have later := second.mirrored
    rw [first.layout] at later
    exact later i iBound j jBound (first.mirrored i iBound j jBound same)

/-- FSInfo was written: a call was made that didn't change the count. -/
structure Recorded (before after : Volume) : Prop extends Served before after where
  freeCount : after.freeCount = before.freeCount

theorem Looked.served {a b : Volume} (looked : Looked a b) (tallied : Tallied a) : Served a b := by
  have accounted := looked.accounted tallied.exact
  refine ⟨⟨accounted.exact, ?_⟩, accounted.layout, accounted.mirrored⟩
  rw [looked.freeCount, looked.layout, looked.disk]
  exact tallied.told

----------
-- FSInfo
----------

theorem u32At_fsinfo (block : Block) {free : Nat} (small : free < 0x100000000) (nextFree : Nat)
    : u32At ((block.copy 488 (le32 free)).copy 492 (le32 nextFree)).bytes 488 = free := by
  have counted : 488 + (le32 free).length ≤ block.bytes.length := by
    rw [le32_length, block.sized]
    decide
  have hinted : 492 + (le32 nextFree).length ≤ (splice block.bytes 488 (le32 free)).length := by
    rw [splice_length counted, le32_length, block.sized]
    decide
  rw [Block.copy_bytes _ (by rw [le32_length]; decide),
    Block.copy_bytes _ (by rw [le32_length]; decide),
    u32At_splice_of_ne hinted (.inl (by decide)), u32At_splice_le32 counted]
  exact Nat.mod_eq_of_lt small

section Ending

variable {fat : Volume} (exact : Exact fat)
include exact

theorem freeCount_small {free : Nat} (known : fat.freeCount = some free) : free < 0x100000000 := by
  rw [exact.counted free known]
  exact Nat.lt_of_le_of_lt (freeCells_le ..) exact.ready.proper.clusterCount_lt

theorem recorded_fsinfo {number : Nat} (known : fat.layout.fsinfo = some number) {block : Block}
    (counted : ∀ free, fat.freeCount = some free → u32At block.bytes 488 = free) {after : Volume}
    (wrote : Wrote [(fat.layout.start + number, block)] fat after)
    : Recorded fat after := by
  have steady := wrote.steady
  obtain ⟨ready, sector⟩ := wrote.informed exact.ready known (by simp)
  have cells : fat.layout.freeCells after.device.disk = fat.layout.freeCells fat.device.disk := by
    refine freeCells_congr (fun cluster inside => ?_)
    unfold Layout.fatValue
    rw [sector _ (fatPosition_range exact.ready.proper inside).1]
  refine ⟨⟨⟨⟨exact.same steady cells, ready, steady.sure exact.sure⟩, ?_⟩, steady.layout, ?_⟩,
    steady.freeCount⟩
  · intro free has other known' _ _
    rw [steady.layout] at known' ⊢
    obtain rfl : number = other := Option.some.inj (known.symm.trans known')
    have written : fat.layout.sector after.device.disk number = block := by
      unfold Layout.sector
      rw [wrote.disk]
      exact Function.update_self ..
    rw [written]
    exact counted free (steady.freeCount ▸ has)
  · intro first _ second _ same offset small
    rw [sector _ (by omega), sector _ (by omega)]
    exact same offset small

/-- A change ends with FSInfo up to date, and what came of it is passed on. -/
theorem finishChange_serves (result : Except FatError Unit)
    : (finishChange result).Ends fat
        (fun _ after => result = .ok () ∧ Recorded fat after)
        (fun halt after => (∃ error, result = .error error ∧ halt = .error error)
          ∧ Recorded fat after) := by
  have ends {after : Volume} (recorded : Recorded fat after)
      : (passOn result).Ends after (fun _ final => result = .ok () ∧ Recorded fat final)
          (fun halt final => (∃ error, result = .error error ∧ halt = .error error)
            ∧ Recorded fat final) := by
    cases result with
    | ok => exact ⟨rfl, recorded⟩
    | error error => exact ⟨⟨error, rfl, rfl⟩, recorded⟩
  unfold finishChange
  rw [Action.ends_bind, Action.ends_get]
  dsimp only
  cases known : fat.layout.fsinfo with
  | none =>
    refine ends ⟨.refl ⟨exact, fun free _ number known' => ?_⟩, rfl⟩
    cases known.symm.trans known'
  | some number =>
    cases has : fat.freeCount with
    | none =>
      refine ends ⟨.refl ⟨exact, fun free has' => ?_⟩, rfl⟩
      cases has.symm.trans has'
    | some free =>
      refine (readSector_reads exact.ready.coherent number).bind_sure exact.sure
        (fun after looked => ?_)
      have accounted := looked.accounted exact
      have known' : after.layout.fsinfo = some number := looked.layout ▸ known
      split
      · refine Action.Ends.bind (writeSector_ends number _) ?_ ?_
        · intro _ later wrote
          have recorded : Recorded after later := by
            refine recorded_fsinfo accounted.exact known' (fun counted has' => ?_) wrote
            obtain rfl : free = counted :=
              Option.some.inj (has.symm.trans (looked.freeCount ▸ has'))
            exact u32At_fsinfo _ (freeCount_small exact has) _
          exact ends ⟨accounted.served recorded.toServed,
            recorded.freeCount.trans looked.freeCount⟩
        · rintro halt later ⟨faulty, _, _, wrote⟩
          exact absurd (wrote.steady.calm accounted.exact.sure) faulty
      · rename_i unsigned
        refine ends ⟨accounted.served
          (.refl ⟨accounted.exact, fun _ _ other also lead struct => ?_⟩), looked.freeCount⟩
        obtain rfl : number = other := Option.some.inj (known'.symm.trans also)
        rw [looked.layout, looked.disk] at lead struct
        exact absurd ⟨lead, struct⟩ unsigned

omit exact in
/-- A call that changes the volume: its work, and then FSInfo. A panic leaves it in the middle. -/
theorem change_serves {work : FatAction Unit} (accounts : work.Leads Accounted fat)
    : (do finishChange (← attempt work) : FatAction Unit).Ends fat (fun _ => Served fat)
        (fun halt after => Served fat after ∨ halt = .panic ∧ Accounted fat after) := by
  have ends {result : Except FatError Unit} {after : Volume} (accounted : Accounted fat after)
      : (finishChange result).Ends after (fun _ => Served fat)
          (fun halt final => Served fat final ∨ halt = .panic ∧ Accounted fat final) :=
    Action.Ends.mono (finishChange_serves accounted.exact result)
      (fun _ _ known => accounted.served known.2.toServed)
      (fun _ _ known => .inl (accounted.served known.2.toServed))
  unfold attempt
  simp only [Action.ends_bind, Action.ends_tryCatch, Action.ends_pure]
  refine Action.Ends.mono accounts (fun _ after accounted => ends accounted) ?_
  rintro (error | _) after accounted
  · exact ends accounted
  · exact .inr ⟨rfl, accounted⟩

end Ending

----------
-- Any calls
----------

/-- One call: the counts agree after it if it returns, and are exact even if it panics. -/
theorem call_serves {fat : Volume} (tallied : Tallied fat) (call : Call)
    : call.run.Ends fat (fun _ => Served fat)
        (fun halt after => Served fat after ∨ halt = .panic ∧ Accounted fat after) := by
  have reads {α : Type} {action : FatAction α} {answer : Except FatError α}
      (reads : Reads action fat answer)
      : (discard action).Ends fat (fun _ => Served fat)
          (fun halt after => Served fat after ∨ halt = .panic ∧ Accounted fat after) :=
    (Action.ends_map ..).mpr (Action.Ends.mono reads
      (fun _ _ known => known.2.served tallied) (fun _ _ known => .inl (known.1.served tallied)))
  have coherent := tallied.exact.ready.coherent
  cases call with
  | readDir path => exact reads (readDir_reads coherent path)
  | metadata path => exact reads (metadata_reads coherent path)
  | readFile path => exact reads (readFile_reads coherent path)
  | writeFile path data => exact change_serves (accounted_upkeep.writeFileInner_leads tallied.exact path data)
  | createDir path => exact change_serves (accounted_upkeep.createDirInner_leads tallied.exact path)
  | remove path => exact change_serves (accounted_upkeep.removeInner_leads tallied.exact path)
  | freeClusters => exact reads (freeClusters_reads coherent)
  | setTime now =>
    have exact : Exact { fat with stamp := now } :=
      ⟨⟨tallied.exact.counted, tallied.exact.fine⟩,
        ⟨tallied.exact.ready.proper, tallied.exact.ready.cache, tallied.exact.ready.clean⟩,
        tallied.exact.sure⟩
    exact (⟨⟨exact, tallied.told⟩, rfl, fun _ _ _ _ same => same⟩ : Served fat _)

theorem serve_of_outcome {fat after : Volume} {call : Call} {result : Except Halt Unit}
    (ends : call.run.outcome fat = (result, after)) (fine : result ≠ .error .panic)
    : serve fat call = some after := by
  unfold serve
  rw [ends]
  rcases result with (_ | _) | _
  · rfl
  · exact absurd rfl fine
  · rfl

theorem served_of_serve {fat after : Volume} {call : Call} (tallied : Tallied fat)
    (returned : serve fat call = some after)
    : Served fat after := by
  have ends := call_serves tallied call
  unfold serve at returned
  unfold Action.Ends at ends
  generalize call.run.outcome fat = outcome at returned ends
  rcases outcome with ⟨(error | panic) | _, final⟩
  · cases returned
    exact ends.resolve_right (fun panicked => nomatch panicked.1)
  · cases returned
  · cases returned
    exact ends

theorem readBlock_sure {device : Device} (sure : device.plan = []) (lba : Nat)
    : device.readBlock lba = (.ok (device.disk lba), device.called) := by
  unfold Device.readBlock Device.next
  rw [sure]
  rfl

theorem mount_tallied {device : Device} (sure : device.plan = []) {start : Nat} {fat : Volume}
    (mounted : mount device start = .ok fat) (proper : fat.layout.Proper)
    : Tallied fat ∧ fat.device.disk = device.disk := by
  unfold mount at mounted
  rw [readBlock_sure sure] at mounted
  have called : device.called.plan = [] := (congrArg List.tail sure).trans rfl
  cases accepted : layoutOf start (device.disk start) with
  | error =>
    simp only [accepted] at mounted
    cases mounted
  | ok layout =>
    simp only [accepted] at mounted
    cases mounted
    exact ⟨⟨⟨⟨nofun, rfl⟩, ⟨proper, nofun, rfl⟩, called⟩, nofun⟩, rfl⟩

/-- Whatever the FAT and the directories hold, after any calls the count is the number of free
clusters and what FSInfo has, and copies of the FAT that were the same at first are the same. No
call subtracts more than the count, not even one that panics.
-/
theorem freeSpace_of_calls (device : Device) (start : Nat) (fat reached : Volume)
    (sure : device.plan = []) (mounted : mount device start = .ok fat)
    (apart : fat.layout.Proper) (calls : Reaches serve anyEvent fat reached)
    : reached.layout = fat.layout
      ∧ (∀ free, reached.freeCount = some free →
          free = fat.layout.freeCells reached.device.disk
          ∧ fat.layout.Tells reached.device.disk free)
      ∧ (∀ call : Call, (call.run.outcome reached).2.underflowed = false)
      ∧ ∀ first < fat.layout.fatCount, ∀ second < fat.layout.fatCount,
          fat.layout.SameCopies device.disk first second
          → fat.layout.SameCopies reached.device.disk first second := by
  obtain ⟨tallied, disk⟩ := mount_tallied sure mounted apart
  have served : Served fat reached :=
    calls.invariant (.refl tallied) (fun before call after served _ returned =>
      served.trans (served_of_serve served.tallied returned))
  refine ⟨served.layout, fun free has => ?_, fun call => ?_, fun first _ second _ same => ?_⟩
  · rw [← served.layout]
    exact ⟨served.tallied.exact.counted free has, served.tallied.told free has⟩
  · have fine : call.run.Ends reached (fun _ after => after.underflowed = false)
        (fun _ after => after.underflowed = false) := by
      refine (call_serves served.tallied call).mono (fun _ _ made => made.tallied.exact.fine) ?_
      rintro _ after (made | ⟨_, accounted⟩)
      · exact made.tallied.exact.fine
      · exact accounted.exact.fine
    exact fine.leaves
  · exact served.mirrored first ‹_› second ‹_› (disk ▸ same)

----------
-- A full volume
----------

/-- A boot sector of a FAT32 volume of 65525 clusters of one sector, with two FATs. -/
def largeBoot : Block :=
  Block.ofBytes (List.replicate 11 0 ++ le16 blockSize ++ [1] ++ le16 2 ++ [2] ++ le16 0 ++ le16 0
    ++ [0xF8] ++ le16 0 ++ List.replicate 8 0 ++ le32 66551 ++ le32 512 ++ List.replicate 4 0
    ++ le32 2 ++ le16 1 ++ List.replicate 460 0 ++ [0x55, 0xAA])

/-- FSInfo with a count of seven clusters. -/
def staleInfo : Block :=
  Block.ofBytes (le32 fsinfoLead ++ List.replicate 480 0 ++ le32 fsinfoStruct ++ le32 7)

/-- A FAT32 volume with no free cluster: every FAT entry ends a chain. -/
def fullDevice : Device where
  disk number :=
    if number = 0 then largeBoot else if number = 1 then staleInfo
    else Block.ofBytes (List.replicate blockSize 0xFF)
  written := []
  plan := []

theorem largeBoot_proper : (BootSector.layout 0 largeBoot).Proper where
  clusterSectors := by decide +kernel
  reserved := by decide +kernel
  copies := by decide +kernel
  covers := by decide +kernel
  beforeData := by decide +kernel
  between start sectors fixed := by
    have root : (BootSector.layout 0 largeBoot).root = .chain 2 := by decide +kernel
    cases root.symm.trans fixed
  numbers := by decide +kernel
  info number known := by
    have place : (BootSector.layout 0 largeBoot).fsinfo = some 1 := by decide +kernel
    cases place.symm.trans known
    decide +kernel

theorem largeBoot_full {disk : Disk}
    (used : ∀ number, (BootSector.layout 0 largeBoot).InFat number → ∀ index < 128,
      FatType.fat32.decode (disk number) (4 * index) ≠ 0)
    : (BootSector.layout 0 largeBoot).freeCells disk = 0 := by
  refine List.countP_eq_zero.mpr (fun cluster member => ?_)
  have inside : (BootSector.layout 0 largeBoot).contains cluster = true := by
    rw [contains_iff]
    have := List.mem_range'_1.mp member
    omega
  have fat32 : (BootSector.layout 0 largeBoot).fatType = .fat32 := by decide +kernel
  have start : (BootSector.layout 0 largeBoot).start = 0 := by decide +kernel
  have offset : ((BootSector.layout 0 largeBoot).fatPosition cluster).2 = 4 * (cluster % 128) := by
    unfold Layout.fatPosition
    rw [fat32, Nat.mul_comm cluster]
    exact Nat.mul_mod_mul_left 4 cluster 128
  unfold Layout.fatValue Layout.sector
  rw [offset, fat32, start, Nat.zero_add, decide_eq_true_eq]
  exact used _ (fatPosition_range largeBoot_proper inside) _ (Nat.mod_lt _ (by decide))

theorem fullDevice_full : (BootSector.layout 0 largeBoot).freeCells fullDevice.disk = 0 := by
  have start : (BootSector.layout 0 largeBoot).fatStart = 2 := by decide +kernel
  refine largeBoot_full (fun number place => ?_)
  have low := place.1
  have full : fullDevice.disk number = Block.ofBytes (List.replicate blockSize 0xFF) :=
    (if_neg (by omega)).trans (if_neg (by omega))
  rw [full]
  decide +kernel

/-- Making a directory where there is no room for it: the clusters have been counted by then. -/
theorem createDirInner_full {fat : Volume} (exact : Exact fat) (uncounted : fat.freeCount = none)
    (informed : fat.layout.fsinfo.isSome = true)
    (full : fat.layout.freeCells fat.device.disk = 0) {path name : Str}
    (parts : splitPath path = ([], name)) (valid : checkName name = .ok ()) {image : DirImage}
    (loaded : fat.layout.dirImage fat.device.disk .root = .ok image)
    (absent : (parseLocated image.bytes fat.layout.fatType).any (fun located =>
      namesMatch located.entry.name name) = false)
    : (createDirInner path).Ends fat (fun _ _ => False)
        (fun halt after => halt = .error .noSpace ∧ after.freeCount = some 0) := by
  unfold createDirInner
  simp only [parts, valid]
  refine (Reads.pure exact.ready.coherent ()).bind_sure exact.sure (fun named checked => ?_)
  have sure {after : Volume} (looked : Looked fat after) : after.device.plan = [] :=
    looked.tended.sure exact.sure
  have root : Reads (findDir []) named (.ok .root) := findDir_reads checked.coherent []
  refine root.bind_sure (sure checked) (fun found inParent => ?_)
  have inRoot := checked.trans inParent
  have image := loadDir_reads inRoot.coherent .root
  rw [inRoot.layout, inRoot.disk, loaded] at image
  refine image.bind_sure (sure inRoot) (fun read looked => ?_)
  have begun := inRoot.trans looked
  rw [Action.ends_bind, Action.ends_get, begun.layout, if_neg (by rw [absent]; decide)]
  unfold beginChange
  simp only [Action.ends_bind, Action.ends_get]
  rw [if_pos (by rw [begun.layout, begun.freeCount, informed, uncounted]; rfl)]
  have counts := freeClusters_reads begun.coherent
  rw [begun.layout, begun.disk, full] at counts
  refine counts.bind_sure (sure begun) (fun counted same => ?_)
  have all := begun.trans same
  have ready : Ready { counted with freeCount := some 0 } := (all.ready exact.ready).recount _ _ _
  rw [Action.ends_modify]
  refine (allocate_ends ready 1).mono ?_ ?_
  · rintro clusters after ⟨fresh, one, _⟩
    obtain ⟨cluster, rfl⟩ := List.length_eq_one_iff.mp one
    have inside := fresh.inside cluster List.mem_cons_self
    have free := fresh.free cluster List.mem_cons_self
    simp only [all.layout, all.disk] at inside free
    rw [contains_iff] at inside
    have place := List.mem_range'_1.mpr (⟨inside.1, by omega⟩
      : 2 ≤ cluster ∧ cluster < 2 + fat.layout.clusterCount)
    exact absurd (decide_eq_true free) (List.countP_eq_zero.mp full cluster place)
  · rintro halt after ⟨rfl | failed, looked⟩
    · exact ⟨rfl, looked.freeCount⟩
    · exact absurd (sure all) failed.1

/-- On a full volume whose FSInfo has a wrong count, a call that fails for want of room leaves the
right one there.
-/
theorem freeSpace_of_fullVolume
    : ∃ fat reached, mount fullDevice 0 = .ok fat ∧ Reaches serve anyEvent fat reached
      ∧ reached.freeCount = some 0 ∧ fat.layout.Tells reached.device.disk 0 := by
  have accepted : layoutOf 0 (fullDevice.disk 0) = .ok (BootSector.layout 0 largeBoot) := by
    decide +kernel
  obtain ⟨fat, mounted, layout, uncounted⟩ : ∃ fat, mount fullDevice 0 = .ok fat
      ∧ fat.layout = BootSector.layout 0 largeBoot ∧ fat.freeCount = none := by
    unfold mount
    rw [readBlock_sure rfl]
    simp only [accepted]
    exact ⟨_, rfl, rfl, rfl⟩
  have proper : fat.layout.Proper := layout ▸ largeBoot_proper
  obtain ⟨tallied, disk⟩ := mount_tallied rfl mounted proper
  have root : ((BootSector.layout 0 largeBoot).dirImage fullDevice.disk .root).toOption.any
      (fun image => !(parseLocated image.bytes (BootSector.layout 0 largeBoot).fatType).any
        (fun located => namesMatch located.entry.name "a".toList)) = true := by
    decide +kernel
  have ends : (createDirInner "/a".toList).Ends fat (fun _ _ => False)
      (fun halt after => halt = .error .noSpace ∧ after.freeCount = some 0) := by
    obtain ⟨image, loaded, absent⟩ := (Option.any_eq_true _ _).mp root
    rw [← layout, ← disk] at loaded
    rw [← layout, Bool.not_eq_true'] at absent
    have informed : fat.layout.fsinfo.isSome = true := by
      rw [layout]
      decide +kernel
    have full : fat.layout.freeCells fat.device.disk = 0 := by
      rw [layout, disk]
      exact fullDevice_full
    have found : fat.layout.dirImage fat.device.disk .root = .ok image := by
      generalize fat.layout.dirImage fat.device.disk .root = answer at loaded
      cases answer with
      | error => cases loaded
      | ok other => exact congrArg Except.ok (Option.some.inj loaded)
    exact createDirInner_full tallied.exact uncounted informed full (by decide +kernel)
      (by decide +kernel) found absent
  have served : (createDir "/a".toList).Ends fat (fun _ _ => False)
      (fun halt after => halt = .error .noSpace ∧ after.freeCount = some 0) := by
    unfold createDir attempt
    simp only [Action.ends_bind, Action.ends_tryCatch, Action.ends_pure]
    refine Action.Ends.mono (ends.and (accounted_upkeep.createDirInner_leads tallied.exact _))
      (fun _ _ never => never.1.elim) ?_
    rintro _ after ⟨⟨rfl, counted⟩, accounted⟩
    refine (finishChange_serves accounted.exact (.error .noSpace)).mono ?_ ?_
    · rintro _ _ ⟨⟨⟩, _⟩
    · rintro _ final ⟨⟨_, ⟨⟩, rfl⟩, recorded⟩
      exact ⟨rfl, recorded.freeCount.trans counted⟩
  obtain ⟨reached, returned, counted⟩ : ∃ reached, serve fat (.createDir "/a".toList) = some reached
      ∧ reached.freeCount = some 0 := by
    unfold Action.Ends at served
    cases ran : (createDir "/a".toList).outcome fat with
    | mk result final =>
      rw [ran] at served
      cases result with
      | error halt =>
        obtain ⟨rfl, counted⟩ := served
        exact ⟨final, serve_of_outcome ran (by simp), counted⟩
      | ok => cases served
  have run : Reaches serve anyEvent fat reached := .next .start trivial returned
  refine ⟨fat, reached, mounted, run, counted, ?_⟩
  exact ((freeSpace_of_calls fullDevice 0 fat reached rfl mounted proper run).2.1 0 counted).2

end RustyPi.Fat
