import RustyPi.Fat.View

/-! Writing to a volume, whatever the device does. A call that fails can have any effect on the
blocks it was to write and none on others, so what is written after the FATs leaves the FATs alone.
-/

namespace RustyPi.Fat

open RustyPi.Bytes RustyPi.Journal

/-- The sectors after the FATs. -/
def Layout.Outside (layout : Layout) (number : Nat) : Prop :=
  layout.fatStart + layout.fatCount * layout.fatSize ≤ number

/-- The device calls made between two states have all succeeded. -/
def Calm (before after : Volume) : Prop :=
  ∃ count, before.device.plan = List.replicate count .none ++ after.device.plan

theorem Calm.split {a b c : Volume} (first : b.device.plan <:+ a.device.plan)
    (second : c.device.plan <:+ b.device.plan) (calm : Calm a c)
    : Calm a b ∧ Calm b c := by
  obtain ⟨early, first⟩ := first
  obtain ⟨late, second⟩ := second
  obtain ⟨count, all⟩ := calm
  rw [← first, ← second, ← List.append_assoc] at all
  obtain ⟨_, same, same'⟩ := List.append_eq_replicate_iff.mp (List.append_cancel_right all)
  exact ⟨⟨early.length, by rw [← first, ← same]⟩, late.length, by rw [← second, ← same']⟩

/-- The layout and the counts are as before, and only what is noted has reached the disk. -/
structure Steady (before after : Volume) : Prop where
  layout : after.layout = before.layout
  freeCount : after.freeCount = before.freeCount
  underflowed : after.underflowed = before.underflowed
  plan : after.device.plan <:+ before.device.plan
  trail
    : ∃ writes,
        after.device.written = before.device.written ++ writes
        ∧ after.device.disk = replay before.device.disk writes

namespace Steady

variable {a b c : Volume}

theorem refl (a : Volume) : Steady a a :=
  ⟨rfl, rfl, rfl, List.suffix_rfl, [], (List.append_nil _).symm, rfl⟩

theorem trans (first : Steady a b) (second : Steady b c) : Steady a c where
  layout := second.layout.trans first.layout
  freeCount := second.freeCount.trans first.freeCount
  underflowed := second.underflowed.trans first.underflowed
  plan := second.plan.trans first.plan
  trail := by
    obtain ⟨early, written, disk⟩ := first.trail
    obtain ⟨late, written', disk'⟩ := second.trail
    refine ⟨early ++ late, ?_, ?_⟩
    · rw [written', written, List.append_assoc]
    · rw [disk', disk, replay_append]

theorem sure (steady : Steady a b) (sure : a.device.plan = []) : b.device.plan = [] :=
  List.suffix_nil.mp (sure ▸ steady.plan)

theorem calm (steady : Steady a b) (sure : a.device.plan = []) : Calm a b :=
  ⟨0, sure.trans (steady.sure sure).symm⟩

end Steady

/-- Only the device is different: these blocks reached the disk. -/
structure Wrote (writes : List (Nat × Block)) (before after : Volume) : Prop where
  same : after = { before with device := after.device }
  written : after.device.written = before.device.written ++ writes
  disk : after.device.disk = replay before.device.disk writes
  plan : after.device.plan <:+ before.device.plan

namespace Wrote

variable {a b c : Volume} {early late : List (Nat × Block)}

theorem trans (first : Wrote early a b) (second : Wrote late b c) : Wrote (early ++ late) a c where
  same := by
    have later := second.same
    rw [first.same] at later
    exact later
  written := by rw [second.written, first.written, List.append_assoc]
  disk := by rw [second.disk, first.disk, replay_append]
  plan := second.plan.trans first.plan

theorem steady (wrote : Wrote early a b) : Steady a b :=
  ⟨by rw [wrote.same], by rw [wrote.same], by rw [wrote.same], wrote.plan, early, wrote.written,
    wrote.disk⟩

theorem cache (wrote : Wrote early a b) : b.fatCache = a.fatCache := by rw [wrote.same]

theorem dirty (wrote : Wrote early a b) : b.fatDirty = a.fatDirty := by rw [wrote.same]

/-- FSInfo is before the FATs, so whatever becomes of writing it, nothing after it changes. -/
theorem informed (wrote : Wrote early a b) (ready : Ready a) {number : Nat}
    (known : a.layout.fsinfo = some number)
    (each : ∀ write ∈ early, write.1 = a.layout.start + number)
    : Ready b
      ∧ ∀ other, a.layout.fatStart ≤ other →
          a.layout.sector b.device.disk other = a.layout.sector a.device.disk other := by
  have low := (ready.proper.info number known).2
  have same (other : Nat) (high : a.layout.fatStart ≤ other)
      : a.layout.sector b.device.disk other = a.layout.sector a.device.disk other := by
    unfold Layout.sector
    rw [wrote.disk]
    refine replay_of_not_mem (fun write member place => ?_)
    rw [each write member] at place
    omega
  refine ⟨⟨wrote.steady.layout ▸ ready.proper, fun cached block held => ?_,
    wrote.dirty.trans ready.clean⟩, same⟩
  obtain ⟨place, coherent⟩ := ready.cache cached block (wrote.cache ▸ held)
  rw [wrote.steady.layout, same cached place.1]
  exact ⟨place, coherent⟩

end Wrote

variable {fat : Volume} {number : Nat}

theorem mem_numbered {lba : Nat} {blocks : List Block} {write : Nat × Block}
    (member : write ∈ Device.numbered lba blocks)
    : ∃ i < blocks.length, write.1 = lba + i := by
  obtain ⟨i, bound, rfl⟩ := List.mem_mapIdx.mp member
  exact ⟨i, bound, rfl⟩

/-- Whatever became of a failed call's blocks, it was to write them. -/
theorem mem_landed {writes : List (Nat × Block)} {effects : List Effect} {write : Nat × Block}
    (member : write ∈ Device.landed writes effects)
    : ∃ meant ∈ writes, write.1 = meant.1 := by
  obtain ⟨⟨meant, effect⟩, paired, came⟩ := List.mem_filterMap.mp member
  refine ⟨meant, (List.of_mem_zip paired).1, ?_⟩
  cases effect with
  | lost => cases came
  | reached => rw [Option.some.inj came]
  | garbled block => rw [← Option.some.inj came]

theorem not_calm_called {fat after : Volume} (faulty : fat.device.next ≠ .none)
    (called : after.device.plan = fat.device.plan.tail)
    : ¬ Calm fat after := by
  rintro ⟨count, all⟩
  rw [called] at all
  unfold Device.next at faulty
  cases planned : fat.device.plan with
  | nil => exact faulty (by rw [planned]; rfl)
  | cons fault rest =>
    rw [planned, List.tail_cons] at all
    rw [planned, List.headD_cons] at faulty
    have one : [fault] = List.replicate count .none := List.append_cancel_right (by rw [← all]; rfl)
    exact faulty (List.eq_of_mem_replicate (one ▸ List.mem_singleton_self fault))

/-- A write puts its blocks on the disk, or fails and has some effect on them. -/
theorem writeSectors_ends (number : Nat) (blocks : List Block)
    : (writeSectors number blocks).Ends fat
        (fun _ => Wrote (Device.numbered (fat.layout.start + number) blocks) fat)
        (fun _ after =>
          ¬ Calm fat after
          ∧ ∃ writes,
              (∀ write ∈ writes, ∃ i < blocks.length, write.1 = fat.layout.start + number + i)
              ∧ Wrote writes fat after) := by
  unfold writeSectors deviceCall
  simp only [Action.ends_bind, Action.ends_get, Action.ends_set]
  unfold Device.writeBlocks
  cases faulty : fat.device.next with
  | none => exact ⟨rfl, rfl, rfl, List.tail_suffix _⟩
  | failed error effects =>
    refine ⟨not_calm_called (by rw [faulty]; exact Fault.noConfusion) rfl, _, ?_, rfl, rfl, rfl,
      List.tail_suffix _⟩
    intro write member
    obtain ⟨meant, planned, same⟩ := mem_landed member
    rw [same]
    exact mem_numbered planned

theorem writeSector_ends (number : Nat) (block : Block)
    : (writeSector number block).Ends fat
        (fun _ => Wrote [(fat.layout.start + number, block)] fat)
        (fun _ after =>
          ¬ Calm fat after
          ∧ ∃ writes,
              (∀ write ∈ writes, write.1 = fat.layout.start + number)
              ∧ Wrote writes fat after) := by
  refine (writeSectors_ends number [block]).mono (fun _ _ wrote => wrote) ?_
  rintro _ after ⟨faulty, writes, each, wrote⟩
  refine ⟨faulty, writes, fun write member => ?_, wrote⟩
  obtain ⟨i, bound, place⟩ := each write member
  obtain rfl : i = 0 := Nat.lt_one_iff.mp bound
  exact place

/-- Only sectors after the FATs are different. -/
structure Aside (before after : Volume) : Prop extends Steady before after where
  sectors
    : ∀ number, ¬ before.layout.Outside number →
        before.layout.sector after.device.disk number = before.layout.sector before.device.disk number
  cache : after.fatCache = before.fatCache
  dirty : after.fatDirty = before.fatDirty

namespace Aside

variable {a b c : Volume}

theorem refl (a : Volume) : Aside a a := ⟨.refl a, fun _ _ => rfl, rfl, rfl⟩

theorem trans (first : Aside a b) (second : Aside b c) : Aside a c where
  toSteady := first.toSteady.trans second.toSteady
  sectors number inside := by
    have later := second.sectors number
    rw [first.layout] at later
    exact (later inside).trans (first.sectors number inside)
  cache := second.cache.trans first.cache
  dirty := second.dirty.trans first.dirty

instance : Trans Aside Aside Aside := ⟨trans⟩

theorem fat_sector (aside : Aside a b) (proper : a.layout.Proper) {number : Nat}
    (place : a.layout.InFat number)
    : a.layout.sector b.device.disk number = a.layout.sector a.device.disk number := by
  have room := Nat.mul_le_mul_right a.layout.fatSize proper.copies
  rw [Nat.one_mul] at room
  refine aside.sectors number (fun outside => ?_)
  obtain ⟨_, high⟩ := place
  unfold Layout.Outside at outside
  omega

theorem ready (aside : Aside a b) (ready : Ready a) : Ready b where
  proper := aside.layout ▸ ready.proper
  cache number block cached := by
    rw [aside.cache] at cached
    obtain ⟨place, same⟩ := ready.cache number block cached
    rw [aside.layout]
    exact ⟨place, same.trans (aside.fat_sector ready.proper place).symm⟩
  clean := aside.dirty.trans ready.clean

theorem fatValue (aside : Aside a b) (proper : a.layout.Proper) {cluster : Nat}
    (inside : a.layout.contains cluster = true)
    : a.layout.fatValue b.device.disk cluster = a.layout.fatValue a.device.disk cluster := by
  unfold Layout.fatValue
  rw [aside.fat_sector proper (fatPosition_range proper inside)]

end Aside

theorem Wrote.aside {after : Volume} {writes : List (Nat × Block)} (wrote : Wrote writes fat after)
    (each : ∀ write ∈ writes, ∃ number, fat.layout.Outside number
      ∧ write.1 = fat.layout.start + number)
    : Aside fat after := by
  refine ⟨wrote.steady, fun number inside => ?_, wrote.cache, wrote.dirty⟩
  unfold Layout.sector
  rw [wrote.disk]
  refine replay_of_not_mem (fun write member same => inside ?_)
  obtain ⟨other, outside, place⟩ := each write member
  obtain rfl : other = number := by omega
  exact outside

theorem writeSectors_aside {blocks : List Block}
    (outside : ∀ i < blocks.length, fat.layout.Outside (number + i))
    : (writeSectors number blocks).Leads Aside fat := by
  have places {writes : List (Nat × Block)}
      (each : ∀ write ∈ writes, ∃ i < blocks.length, write.1 = fat.layout.start + number + i)
      : ∀ write ∈ writes, ∃ other, fat.layout.Outside other ∧ write.1 = fat.layout.start + other := by
    intro write member
    obtain ⟨i, bound, place⟩ := each write member
    exact ⟨number + i, outside i bound, place.trans (Nat.add_assoc ..)⟩
  refine (writeSectors_ends number blocks).mono ?_ ?_
  · exact fun _ after wrote => wrote.aside (places (fun _ => mem_numbered))
  · rintro _ after ⟨_, writes, each, wrote⟩
    exact wrote.aside (places each)

theorem writeSector_aside {block : Block} (outside : fat.layout.Outside number)
    : (writeSector number block).Leads Aside fat := by
  refine @writeSectors_aside fat number [block] (fun i bound => ?_)
  obtain rfl : i = 0 := Nat.lt_one_iff.mp bound
  exact outside

theorem firstSector_outside {layout : Layout} (proper : layout.Proper) (cluster i : Nat)
    : layout.Outside (layout.firstSector cluster + i) := by
  have order := proper.beforeData
  unfold Layout.Outside Layout.firstSector
  omega

theorem writeRuns_aside (steps : Nat) (clusters : List Nat) (blocks : List Block)
    (proper : fat.layout.Proper)
    : (writeRuns steps clusters blocks).Leads Aside fat := by
  induction steps generalizing clusters blocks fat with
  | zero => exact Aside.refl fat
  | succ steps ih =>
    cases clusters with
    | nil => exact Aside.refl fat
    | cons first rest =>
      refine Action.Leads.get_bind (Action.Leads.bind (writeSectors_aside ?_) ?_)
      · exact fun i _ => firstSector_outside proper first i
      · exact fun _ after aside => ih _ _ (aside.layout ▸ proper)

theorem writeClusters_aside (clusters : List Nat) (data : List UInt8) (proper : fat.layout.Proper)
    : (writeClusters clusters data).Leads Aside fat :=
  Action.Leads.get_bind (writeRuns_aside _ _ _ proper)

theorem storeSectors_aside (image : DirImage) (left index : Nat)
    (outside : ∀ number ∈ image.sectors, fat.layout.Outside number)
    : (storeSectors image left index).Leads Aside fat := by
  induction left generalizing index fat with
  | zero => exact Aside.refl fat
  | succ left ih =>
    have onward (after : Volume) (aside : Aside fat after)
        : (storeSectors image left (index + 1)).Leads Aside after :=
      ih (index + 1) (aside.layout ▸ outside)
    unfold storeSectors
    split
    · rename_i sector found
      refine Action.Leads.bind (writeSector_aside ?_) (fun _ => onward)
      exact outside sector (List.mem_of_getElem? found)
    · exact Action.Leads.bind (Aside.refl fat) (fun _ => onward)

end RustyPi.Fat
