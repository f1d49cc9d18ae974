import RustyPi.Fat.FreeSpace

/-! The free-space count on a device that fails. A call that fails after it has cleared a part of a
chain leaves more clusters free than it counts, and a later call then takes more from the count than
there is. If no call writes anything before it fails, the count stays right.
-/

namespace RustyPi.Fat

open RustyPi.Bytes RustyPi.Journal RustyPi.Reach

/-- No device call has failed on the way, or nothing has been written. -/
def Undisturbed (before after : Volume) : Prop :=
  Calm before after ∨ after.device.written = before.device.written

/-- Between two states of a call: if nothing was disturbed, a count that was right still is. -/
structure Weighed (before after : Volume) : Prop where
  ready : Ready after
  layout : after.layout = before.layout
  plan : after.device.plan <:+ before.device.plan
  trail
    : ∃ writes,
        after.device.written = before.device.written ++ writes
        ∧ after.device.disk = replay before.device.disk writes
  right : Undisturbed before after → Right before → Right after

theorem Steady.unwritten {a b : Volume} (steady : Steady a b)
    (same : b.device.written = a.device.written)
    : b.device.disk = a.device.disk := by
  obtain ⟨writes, written, disk⟩ := steady.trail
  rw [same, List.self_eq_append_right] at written
  rw [disk, written]
  rfl

namespace Weighed

variable {a b c : Volume}

/-- What disturbs neither of two parts is what disturbs the whole. -/
theorem split (first : Weighed a b) (second : Weighed b c) (undisturbed : Undisturbed a c)
    : Undisturbed a b ∧ Undisturbed b c := by
  rcases undisturbed with calm | same
  · exact (calm.split first.plan second.plan).imp .inl .inl
  · obtain ⟨early, written, -⟩ := first.trail
    obtain ⟨late, written', -⟩ := second.trail
    rw [written', written, List.append_assoc, List.append_right_eq_self,
      List.append_eq_nil_iff] at same
    obtain ⟨rfl, rfl⟩ := same
    rw [List.append_nil] at written written'
    exact ⟨.inr written, .inr written'⟩

theorem trans (first : Weighed a b) (second : Weighed b c) : Weighed a c where
  ready := second.ready
  layout := second.layout.trans first.layout
  plan := second.plan.trans first.plan
  trail := by
    obtain ⟨early, written, disk⟩ := first.trail
    obtain ⟨late, written', disk'⟩ := second.trail
    refine ⟨early ++ late, ?_, ?_⟩
    · rw [written', written, List.append_assoc]
    · rw [disk', disk, replay_append]
  right undisturbed right := by
    obtain ⟨early, late⟩ := first.split second undisturbed
    exact second.right late (first.right early right)

instance : Trans Weighed Weighed Weighed := ⟨trans⟩

theorem of_steady (steady : Steady a b) (ready : Ready b)
    (right : Undisturbed a b → Right a → Right b)
    : Weighed a b :=
  ⟨ready, steady.layout, steady.plan, steady.trail, right⟩

end Weighed

theorem weighed_lasting : Lasting Ready Weighed where
  ready := id
  reaches := Weighed.ready
  layout := Weighed.layout
  same _ ready tended cells :=
    .of_steady tended.toSteady ready (fun _ right => right.same tended.toSteady cells)
  stopped _ stopped := by
    refine .of_steady stopped.toSteady stopped.ready ?_
    rintro (calm | same) right
    · exact absurd calm stopped.faulty
    · exact right.same stopped.toSteady (by rw [stopped.unwritten same])
  counted ready :=
    ⟨ready.recount _ _ _, rfl, List.suffix_rfl, ⟨[], (List.append_nil _).symm, rfl⟩,
      fun _ right => right.recount⟩
  linked _ start ready tended fewer :=
    ⟨ready.recount _ _ _, tended.layout, tended.plan, tended.trail,
      fun _ right => right.linked start.proper tended.toSteady fewer⟩
  cleared _ nextFree start ready tended more :=
    ⟨ready.recount _ _ _, tended.layout, tended.plan, tended.trail,
      fun _ right => right.cleared start.proper tended.toSteady more nextFree⟩
  informed _ wrote ready cells :=
    .of_steady wrote.steady ready (fun _ right => right.same wrote.steady cells)
  stamped _ ready :=
    ⟨⟨ready.proper, ready.cache, ready.clean⟩, rfl, List.suffix_rfl,
      ⟨[], (List.append_nil _).symm, rfl⟩, fun _ right => ⟨right.counted, right.fine⟩⟩

/-- If every call in which the device fails has written nothing, nothing is taken from too small a
count.
-/
theorem noUnderflow_of_calls (device : Device) (start : Nat) (fat reached : Volume)
    (mounted : mount device start = .ok fat) (apart : fat.layout.Proper)
    (calls
      : Reaches serve (fun before call => Undisturbed before (call.run.outcome before).2) fat reached)
    : reached.underflowed = false
      ∧ ∀ call : Call,
          Undisturbed reached (call.run.outcome reached).2
          → (call.run.outcome reached).2.underflowed = false := by
  have step {before : Volume} (ready : Ready before) (right : Right before) {call : Call}
      (undisturbed : Undisturbed before (call.run.outcome before).2)
      : Ready (call.run.outcome before).2 ∧ Right (call.run.outcome before).2 := by
    have weighed := (weighed_lasting.call_leads ready call).leaves
    exact ⟨weighed.ready, weighed.right undisturbed right⟩
  have held : Ready reached ∧ Right reached := by
    refine calls.invariant (I := fun fat => Ready fat ∧ Right fat)
      ⟨mount_ready mounted apart, mount_right mounted⟩ ?_
    rintro before call after ⟨ready, right⟩ undisturbed returned
    exact outcome_of_serve returned ▸ step ready right undisturbed
  exact ⟨held.2.fine, fun call undisturbed => (step held.1 held.2 undisturbed).2.fine⟩

/-- The volume with a FAT sector cached and these calls to come. -/
def Volume.reading (fat : Volume) (number : Nat) (plan : List Fault) : Volume :=
  { fat with
    fatCache := some (number, fat.layout.sector fat.device.disk number)
    device := { fat.device with plan } }

/-- Reading leaves a volume that differs in what is cached and in the calls to come. -/
theorem Looked.reading {fat after : Volume} (looked : Looked fat after) {number : Nat}
    (cached : after.fatCache.map Prod.fst = some number)
    (clean : fat.fatDirty = none)
    : after = fat.reading number after.device.plan := by
  obtain ⟨⟨_, block⟩, held, rfl⟩ := Option.map_eq_some_iff.mp cached
  have same := looked.coherent.cache _ _ held
  rw [looked.layout, looked.disk] at same
  obtain ⟨layout, ⟨disk, written, plan⟩, freeCount, fatCache, fatDirty, stamp, nextFree, under⟩ := after
  obtain ⟨⟨-, rfl⟩, rfl, rfl, rfl, rfl, rfl, rfl, rfl, -, -⟩ := looked
  obtain rfl : fatCache = _ := held
  subst same
  rw [Volume.reading, clean]

section Reading

variable {fat : Volume} (clean : fat.fatDirty = none)
include clean

theorem fatEntry_reading {cluster number : Nat} (plan : List Fault)
    (near : (fat.layout.fatPosition cluster).1 = number
      ∨ (fat.layout.fatPosition cluster).1 = number + 1)
    : (fatEntry cluster).outcome (fat.reading number
        (List.replicate ((fat.layout.fatPosition cluster).1 - number) .none ++ plan))
      = (.ok (fat.layout.fatValue fat.device.disk cluster),
        fat.reading (fat.layout.fatPosition cluster).1 plan) := by
  unfold fatEntry
  rw [Action.outcome_bind, Action.outcome_get]
  rcases near with same | next
  · subst same
    simp only [Volume.reading, Volume.held, clean, Option.filter_none, Option.filter_some, beq_self_eq_true,
      if_true, Option.map_some, Nat.sub_self, List.replicate_zero, List.nil_append]
    rfl
  · have apart : (number == (fat.layout.fatPosition cluster).1) = false := by
      rw [next, beq_eq_false_iff_ne]
      omega
    simp only [Volume.reading, Volume.held, clean, Option.filter_none, Option.filter_some, apart,
      Bool.false_eq_true, if_false, Option.map_none]
    rw [show (fat.layout.fatPosition cluster).1 - number = 1 by omega]
    rfl

/-- Counting takes a call for each new sector. By induction on the clusters left. -/
theorem countFree_reading (left cluster free : Nat) (plan : List Fault)
    : ∃ count,
        (countFree left (cluster + 1) free).outcome (fat.reading (fat.layout.fatPosition cluster).1
          (List.replicate ((fat.layout.fatPosition (cluster + left)).1
            - (fat.layout.fatPosition cluster).1) .none ++ plan))
        = (.ok count, fat.reading (fat.layout.fatPosition (cluster + left)).1 plan) := by
  have width := fat.layout.fatType.entryWidth_cases
  induction left generalizing cluster free with
  | zero =>
    refine ⟨free, ?_⟩
    simp only [Nat.add_zero, Nat.sub_self]
    rfl
  | succ left ih =>
    have near : (fat.layout.fatPosition (cluster + 1)).1 = (fat.layout.fatPosition cluster).1
        ∨ (fat.layout.fatPosition (cluster + 1)).1 = (fat.layout.fatPosition cluster).1 + 1 := by
      simp only [Layout.fatPosition, blockSize]
      rcases width with width | width <;> rw [width] <;> omega
    have later : (fat.layout.fatPosition (cluster + 1)).1
        ≤ (fat.layout.fatPosition (cluster + 1 + left)).1 := by
      simp only [Layout.fatPosition, blockSize]
      rcases width with width | width <;> rw [width] <;> omega
    have split : (fat.layout.fatPosition (cluster + (left + 1))).1
          - (fat.layout.fatPosition cluster).1
        = ((fat.layout.fatPosition (cluster + 1)).1 - (fat.layout.fatPosition cluster).1)
          + ((fat.layout.fatPosition (cluster + 1 + left)).1
            - (fat.layout.fatPosition (cluster + 1)).1) := by
      rw [Nat.add_right_comm] at later ⊢
      rw [← Nat.add_assoc]
      omega
    unfold countFree
    rw [Action.outcome_bind, split, List.replicate_add, List.append_assoc,
      fatEntry_reading clean _ near]
    dsimp only
    rw [show cluster + (left + 1) = cluster + 1 + left by omega]
    exact ih (cluster + 1) _

theorem beginChange_reading (informed : fat.layout.fsinfo.isSome = true)
    (uncounted : fat.freeCount = none) (plan : List Fault)
    : beginChange.outcome (fat.reading (fat.layout.fatPosition 1).1
        (List.replicate ((fat.layout.fatPosition (1 + fat.layout.clusterCount)).1
          - (fat.layout.fatPosition 1).1) .none ++ plan))
      = (.ok (), { fat.reading (fat.layout.fatPosition (1 + fat.layout.clusterCount)).1 plan with
          freeCount := some (fat.layout.freeCells fat.device.disk) }) := by
  obtain ⟨count, counts⟩ := countFree_reading clean fat.layout.clusterCount 1 0 plan
  generalize List.replicate ((fat.layout.fatPosition (1 + fat.layout.clusterCount)).1
    - (fat.layout.fatPosition 1).1) .none ++ plan = calls at counts ⊢
  have coherent : Coherent (fat.reading (fat.layout.fatPosition 1).1 calls) :=
    ⟨by rintro _ _ ⟨⟩; rfl, clean⟩
  have reads := freeClusters_reads coherent
  have counted : freeClusters.outcome (fat.reading (fat.layout.fatPosition 1).1 calls)
      = (.ok count, fat.reading (fat.layout.fatPosition (1 + fat.layout.clusterCount)).1 plan) := by
    unfold freeClusters
    rw [Action.outcome_bind, Action.outcome_get]
    exact counts
  unfold Reads Action.Ends at reads
  rw [counted] at reads
  obtain rfl : fat.layout.freeCells fat.device.disk = count := Except.ok.inj reads.1
  have asked : ((fat.reading (fat.layout.fatPosition 1).1 calls).layout.fsinfo.isSome
      && (fat.reading (fat.layout.fatPosition 1).1 calls).freeCount.isNone) = true := by
    show (fat.layout.fsinfo.isSome && fat.freeCount.isNone) = true
    rw [informed, uncounted]
    rfl
  unfold beginChange
  rw [Action.outcome_bind, Action.outcome_get]
  dsimp only
  rw [if_pos asked, Action.outcome_bind, counted]
  rfl

end Reading

/-- A number of calls that go well, and one that fails. -/
def splitCalls (count : Nat) : List Fault := List.replicate count .none ++ [.failed 0 []]

theorem mem_splitCalls {count : Nat} {fault : Fault} (member : fault ∈ splitCalls count)
    : fault = .none ∨ ∃ error, fault = .failed error [] := by
  rcases List.mem_append.mp member with sure | last
  · exact .inl (List.eq_of_mem_replicate sure)
  · exact .inr ⟨0, List.mem_singleton.mp last⟩

theorem splitCalls_add (count more : Nat)
    : splitCalls (count + more) = List.replicate count .none ++ splitCalls more := by
  rw [splitCalls, List.replicate_add, List.append_assoc]
  rfl

/-- A FAT32 volume with no free cluster. File `A` has clusters 3 and 130, with entries in two FAT
sectors.
-/
def splitDevice (plan : List Fault) : Device where
  disk number :=
    if number = 0 then largeBoot else if number = 1 then staleInfo
    else if number = 2 then
      Block.ofBytes (List.replicate 12 0xFF ++ le32 130 ++ List.replicate 496 0xFF)
    else if number = 1026 then
      Block.ofBytes ("A          ".toList.map (fun c => UInt8.ofNat c.toNat) ++ List.replicate 15 0
        ++ le16 3 ++ le32 1024)
    else Block.ofBytes (List.replicate blockSize 0xFF)
  written := []
  plan

theorem splitDevice_full (plan : List Fault)
    : (BootSector.layout 0 largeBoot).freeCells (splitDevice plan).disk = 0 := by
  have start : (BootSector.layout 0 largeBoot).fatStart = 2 := by decide +kernel
  have size : (BootSector.layout 0 largeBoot).fatSize = 512 := by decide +kernel
  refine largeBoot_full (fun number place => ?_)
  obtain ⟨low, high⟩ := place
  by_cases first : number = 2
  · subst first
    show ∀ index < 128, FatType.fat32.decode ((splitDevice []).disk 2) (4 * index) ≠ 0
    decide +kernel
  · have full : (splitDevice plan).disk number = Block.ofBytes (List.replicate blockSize 0xFF) :=
      (if_neg (by omega)).trans ((if_neg (by omega)).trans ((if_neg first).trans
        (if_neg (by omega))))
    rw [full]
    decide +kernel

/-- The volume as it is mounted. -/
def splitVolume (plan : List Fault) : Volume where
  layout := BootSector.layout 0 largeBoot
  device := splitDevice plan
  freeCount := none
  fatCache := none
  fatDirty := none
  stamp := defaultStamp
  nextFree := 2

def splitImage : DirImage := ⟨[1026], ((splitDevice []).disk 1026).bytes⟩

theorem mount_split (plan : List Fault)
    : mount (splitDevice (.none :: plan)) 0 = .ok (splitVolume plan) := by
  have accepted : layoutOf 0 largeBoot = .ok (BootSector.layout 0 largeBoot) := by decide +kernel
  have reads : (splitDevice (.none :: plan)).readBlock 0 = (.ok largeBoot, splitDevice plan) := rfl
  unfold mount
  rw [reads]
  simp only [accepted]
  rfl

section Removal

variable {rest : List Fault} (known : rest = [] ∨ rest = splitCalls 6)
include known

theorem loadDir_split
    : (loadDir .root).outcome (splitVolume (List.replicate 513 .none ++ rest))
      = (.ok splitImage, (splitVolume (List.replicate 513 .none ++ rest)).reading 2
          (List.replicate 511 .none ++ rest)) := by
  have coherent : Coherent (splitVolume (List.replicate 513 .none ++ rest)) := ⟨nofun, rfl⟩
  have reads := loadDir_reads coherent .root
  have run : let outcome := (loadDir .root).outcome (splitVolume (List.replicate 513 .none ++ rest))
      outcome.2.fatCache.map Prod.fst = some 2
      ∧ outcome.2.device.plan = List.replicate 511 .none ++ rest
      ∧ outcome.1.toOption.map (fun image => (image.sectors, image.bytes))
        = some (splitImage.sectors, splitImage.bytes) := by
    rcases known with rfl | rfl <;> decide +kernel
  obtain ⟨cached, plan, loads⟩ := run
  unfold Reads Action.Ends at reads
  generalize (loadDir .root).outcome (splitVolume (List.replicate 513 .none ++ rest)) = outcome
    at reads cached plan loads
  rcases outcome with ⟨_ | loaded, after⟩
  · cases loads
  · obtain ⟨sectors, bytes⟩ := Prod.mk.inj (Option.some.inj loads)
    have same : loaded = splitImage := by
      cases loaded
      exact congrArg₂ DirImage.mk sectors bytes
    rw [same, reads.2.reading cached rfl, show after.device.plan = _ from plan]

end Removal

theorem removeInner_outcome {fat loaded begun : Volume} {path name : Str} {image : DirImage}
    {located : Located} (parts : splitPath path = ([], name))
    (loads : (loadDir .root).outcome fat = (.ok image, loaded))
    (found : (parseLocated image.bytes loaded.layout.fatType).find? (fun located =>
      namesMatch located.entry.name name) = some located)
    (file : located.entry.kind ≠ .directory)
    (begins : beginChange.outcome loaded = (.ok (), begun))
    : (removeInner path).outcome fat
      = (do
          storeDir (image.delete located.start (located.stop - located.start)) located.start
            located.stop
          freeChain located.entry.firstCluster).outcome begun := by
  unfold removeInner
  rw [parts]
  dsimp only
  rw [Action.outcome_bind, show (findDir []).outcome fat = (.ok .root, fat) from rfl]
  dsimp only
  rw [Action.outcome_bind, loads]
  dsimp only
  rw [Action.outcome_bind, Action.outcome_get]
  dsimp only
  rw [found]
  dsimp only
  rw [if_neg file, Action.outcome_bind, begins]

/-- The removal has counted the clusters. -/
def splitBegun (rest : List Fault) : Volume :=
  { (splitVolume []).reading 513 rest with freeCount := some 0 }

def splitRest : FatAction Unit := do
  storeDir (splitImage.delete 0 (1 - 0)) 0 1
  freeChain 3

theorem removeInner_split {rest : List Fault} (known : rest = [] ∨ rest = splitCalls 6)
    : (removeInner "/A".toList).outcome (splitVolume (List.replicate 513 .none ++ rest))
      = splitRest.outcome (splitBegun rest) := by
  have found : (parseLocated splitImage.bytes (BootSector.layout 0 largeBoot).fatType).find?
        (fun located => namesMatch located.entry.name "A".toList)
      = some ⟨⟨"A".toList, .file, 1024, ⟨0, 0⟩, 3⟩, 0, 1⟩ := by
    decide +kernel
  have first : ((BootSector.layout 0 largeBoot).fatPosition 1).1 = 2 := by decide +kernel
  have last : ((BootSector.layout 0 largeBoot).fatPosition
      (1 + (BootSector.layout 0 largeBoot).clusterCount)).1 = 513 := by
    decide +kernel
  have informed : (BootSector.layout 0 largeBoot).fsinfo.isSome = true := by decide +kernel
  have begins := @beginChange_reading (splitVolume (List.replicate 513 .none ++ rest)) rfl informed rfl
    rest
  simp only [splitVolume, first, last, splitDevice_full] at begins
  have parts : splitPath "/A".toList = ([], "A".toList) := by decide
  -- The facts come first: the goal alone would have the actions unfolded.
  have removal := removeInner_outcome parts (loadDir_split known) found nofun begins
  exact removal

/-- What comes after the change sees only the result of the inner action. -/
theorem remove_outcome {fat begun : Volume} {path : Str} {rest : FatAction Unit}
    (same : (removeInner path).outcome fat = rest.outcome begun)
    : (remove path).outcome fat = (do finishChange (← attempt rest)).outcome begun := by
  unfold remove attempt
  simp only [Action.outcome_bind, Action.outcome_tryCatch, same]

/-- The rest of the removal. -/
def splitRemoval (rest : List Fault) : Except Halt Unit × Volume :=
  (do finishChange (← attempt splitRest)).outcome (splitBegun rest)

theorem removes_split {rest : List Fault} (known : rest = [] ∨ rest = splitCalls 6)
    : (Call.remove "/A".toList).run.outcome (splitVolume (List.replicate 513 .none ++ rest))
      = splitRemoval rest :=
  remove_outcome (removeInner_split known)

/-- The removal fails with cluster 3 free and not counted, so that a file of one cluster then takes one
from a count of 0.
-/
theorem underflow_of_splitVolume
    : ∃ fat between reached,
        mount (splitDevice (splitCalls 520)) 0 = .ok fat
        ∧ fat.layout.fatType = .fat32
        ∧ fat.layout.fsinfo.isSome = true
        ∧ (∀ fault ∈ splitCalls 520, fault = .none ∨ ∃ error, fault = .failed error [])
        ∧ serve fat (.remove "/A".toList) = some between
        ∧ serve between (.writeFile "/B".toList [1]) = some reached
        ∧ between.freeCount = some 0
        ∧ reached.underflowed = true := by
  have run : (splitRemoval (splitCalls 6)).1 ≠ .error .panic
      ∧ ((splitRemoval (splitCalls 6)).2.freeCount == some 0
        && (serve (splitRemoval (splitCalls 6)).2 (.writeFile "/B".toList [1])).any Volume.underflowed)
        = true := by
    decide +kernel
  have removes := removes_split (.inr rfl)
  rw [← splitCalls_add] at removes
  generalize splitRemoval (splitCalls 6) = outcome at removes run
  obtain ⟨result, between⟩ := outcome
  obtain ⟨fine, counted, writes⟩ := run.imp_right Bool.and_eq_true_iff.mp
  obtain ⟨reached, written, under⟩ := (Option.any_eq_true _ _).mp writes
  exact ⟨splitVolume (splitCalls 519), between, reached, mount_split _, by decide +kernel,
    by decide +kernel, fun _ member => mem_splitCalls member, serve_of_outcome removes fine, written,
    eq_of_beq counted, under⟩

/-- Witness: a removal fails at its first device call. The next one goes well, and so does the writing
of a file, which links one of the two clusters that are free then.
-/
theorem noUnderflow_of_splitVolume
    : ∃ fat reached,
        mount (splitDevice (.none :: .failed 0 [] :: List.replicate 513 .none)) 0 = .ok fat
        ∧ Reaches serve (fun before call => Undisturbed before (call.run.outcome before).2) fat reached
        ∧ reached.freeCount = some 1
        ∧ reached.underflowed = false := by
  have fails : (Call.remove "/A".toList).run.outcome
        (splitVolume (.failed 0 [] :: List.replicate 513 .none))
      = (.error (.error (.device 0)), splitVolume (List.replicate 513 .none)) := by
    rfl
  have removes := removes_split (.inl rfl)
  rw [List.append_nil] at removes
  have run : (splitRemoval []).1 ≠ .error .panic
      ∧ (splitRemoval []).2.device.plan = []
      ∧ (serve (splitRemoval []).2 (.writeFile "/B".toList [1])).any (fun reached =>
          reached.device.plan = [] ∧ reached.freeCount = some 1) = true := by
    decide +kernel
  generalize splitRemoval [] = outcome at removes run
  obtain ⟨result, removed⟩ := outcome
  obtain ⟨fine, planned, writes⟩ := run
  obtain ⟨reached, written, found⟩ := (Option.any_eq_true _ _).mp writes
  obtain ⟨still, counted⟩ := of_decide_eq_true found
  have calls
      : Reaches serve (fun before call => Undisturbed before (call.run.outcome before).2)
          (splitVolume (.failed 0 [] :: List.replicate 513 .none)) reached := by
    refine .next (.next (.next .start ?_ (serve_of_outcome fails nofun)) ?_
      (serve_of_outcome removes fine)) ?_ written
    · rw [fails]
      exact .inr rfl
    · rw [removes]
      exact .inl ⟨513, by rw [planned, List.append_nil]; rfl⟩
    · rw [outcome_of_serve written]
      exact .inl ⟨0, by rw [planned, still]; rfl⟩
  exact ⟨_, reached, mount_split _, calls, counted,
    (noUnderflow_of_calls _ 0 _ reached (mount_split _) largeBoot_proper calls).1⟩

end RustyPi.Fat
