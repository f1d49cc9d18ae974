import RustyPi.Fat.Table

/-! Reading a volume gives what its disk says. Each reading function is compared with a function
of the layout and the disk alone; caching, and reading runs of clusters in one go, don't show. A
device that fails only adds device errors.
-/

namespace RustyPi.Fat

open RustyPi.Bytes

/-- Nothing is pending, and the cache holds what is on the disk. -/
structure Coherent (fat : Volume) : Prop where
  cache : ∀ number block, fat.fatCache = some (number, block) →
    block = fat.layout.sector fat.device.disk number
  clean : fat.fatDirty = none

/-- Reading happened: only the cache and the calls to come are different. -/
structure Looked (before after : Volume) : Prop where
  coherent : Coherent after
  layout : after.layout = before.layout
  disk : after.device.disk = before.device.disk
  written : after.device.written = before.device.written
  freeCount : after.freeCount = before.freeCount
  underflowed : after.underflowed = before.underflowed
  stamp : after.stamp = before.stamp
  nextFree : after.nextFree = before.nextFree
  plan : after.device.plan <:+ before.device.plan
  /-- Only sectors with FAT entries come into the cache. -/
  cached
    : ∀ number block,
        after.fatCache = some (number, block)
        → (∃ block, before.fatCache = some (number, block))
          ∨ ∃ cluster,
              before.layout.contains cluster = true ∧ (before.layout.fatPosition cluster).1 = number

variable {start : Nat}

theorem mount_coherent {device : Device} {fat : Volume} (mounted : mount device start = .ok fat)
    : Coherent fat ∧ fat.fatCache = none ∧ fat.freeCount = none ∧ fat.underflowed = false := by
  unfold mount at mounted
  split at mounted
  · cases mounted
  · rename_i boot _ _
    cases described : layoutOf start boot with
    | error =>
      rw [described] at mounted
      cases mounted
    | ok layout =>
      rw [described] at mounted
      cases mounted
      exact ⟨⟨nofun, rfl⟩, rfl, rfl, rfl⟩

namespace Looked

variable {a b c : Volume}

theorem refl (coherent : Coherent a) : Looked a a :=
  ⟨coherent, rfl, rfl, rfl, rfl, rfl, rfl, rfl, List.suffix_rfl, fun _ block same => .inl ⟨block, same⟩⟩

theorem trans (first : Looked a b) (second : Looked b c) : Looked a c where
  coherent := second.coherent
  layout := second.layout.trans first.layout
  disk := second.disk.trans first.disk
  written := second.written.trans first.written
  freeCount := second.freeCount.trans first.freeCount
  underflowed := second.underflowed.trans first.underflowed
  stamp := second.stamp.trans first.stamp
  nextFree := second.nextFree.trans first.nextFree
  plan := second.plan.trans first.plan
  cached := by
    intro number block same
    rcases second.cached number block same with ⟨earlier, same⟩ | new
    · exact first.cached number earlier same
    · rw [first.layout] at new
      exact .inr new

end Looked

/-- A device error, which takes a device that fails. -/
def Failed (fat : Volume) (halt : Halt) : Prop :=
  fat.device.plan ≠ [] ∧ ∃ error, halt = .error (.device error)

theorem Failed.of_suffix {a b : Volume} {halt : Halt} (suffix : b.device.plan <:+ a.device.plan)
    (failed : Failed b halt)
    : Failed a halt := by
  refine ⟨fun empty => failed.1 ?_, failed.2⟩
  rw [empty] at suffix
  exact List.suffix_nil.mp suffix

/-- The action only reads, and gives `answer` unless the device fails. -/
def Reads {α : Type} (action : FatAction α) (fat : Volume) (answer : Except FatError α) : Prop :=
  action.Ends fat (fun a after => answer = .ok a ∧ Looked fat after)
    (fun halt after => Looked fat after
      ∧ ((∃ error, halt = .error error ∧ answer = .error error) ∨ Failed fat halt))

namespace Reads

variable {α β : Type} {fat : Volume} {answer : Except FatError α} {action : FatAction α}

theorem pure (coherent : Coherent fat) (a : α) : Reads (Pure.pure a) fat (.ok a) :=
  ⟨rfl, .refl coherent⟩

theorem fail (coherent : Coherent fat) (error : FatError)
    : Reads (fail error : FatAction α) fat (.error error) :=
  ⟨.refl coherent, .inl ⟨error, rfl, rfl⟩⟩

theorem bind {next : α → FatAction β} {result : Except FatError β} (reads : Reads action fat answer)
    (onOk : ∀ a after, answer = .ok a → Looked fat after → Reads (next a) after result)
    (onError : ∀ error, answer = .error error → result = .error error)
    : Reads (action >>= next) fat result := by
  refine Action.Ends.bind reads ?_ ?_
  · rintro a after ⟨same, looked⟩
    refine (onOk a after same looked).mono ?_ ?_
    · rintro b final ⟨answered, later⟩
      exact ⟨answered, looked.trans later⟩
    · rintro halt final ⟨later, stopped⟩
      exact ⟨looked.trans later, stopped.imp_right (fun failed => failed.of_suffix looked.plan)⟩
  · rintro halt after ⟨looked, stopped⟩
    refine ⟨looked, stopped.imp_left ?_⟩
    rintro ⟨error, stop, failed⟩
    exact ⟨error, stop, onError error failed⟩

theorem next {a : α} {next : α → FatAction β} {result : Except FatError β}
    (reads : Reads action fat (.ok a))
    (onOk : ∀ after, Looked fat after → Reads (next a) after result)
    : Reads (action >>= next) fat result := by
  refine reads.bind ?_ ?_
  · rintro _ after ⟨⟩ looked
    exact onOk after looked
  · rintro error ⟨⟩

theorem get {next : Volume → FatAction α} (reads : Reads (next fat) fat answer)
    : Reads (MonadState.get >>= next) fat answer :=
  (Action.ends_bind ..).mpr ((Action.ends_get ..).mpr reads)

theorem map (f : α → β) (reads : Reads action fat answer)
    : Reads (action >>= fun a => Pure.pure (f a)) fat (answer.map f) := by
  refine reads.bind ?_ ?_
  · rintro a after rfl looked
    exact .pure looked.coherent (f a)
  · rintro error rfl
    rfl

end Reads

variable {fat : Volume} {cluster : Nat} {read : Nat → Nat → FatAction (List UInt8)}

section Coherent

variable (coherent : Coherent fat)
include coherent

/-- A device call that reads leaves the disk alone and gives what is on it, or fails. -/
theorem deviceCall_reads {α : Type} {call : Device → Except DeviceError α × Device} {a : α}
    (device : (call fat.device).2 = fat.device.called)
    (result : (call fat.device).1 = .ok a
      ∨ fat.device.next ≠ .none ∧ ∃ error, (call fat.device).1 = .error error)
    : Reads (deviceCall call) fat (.ok a) := by
  have looked : Looked fat { fat with device := (call fat.device).2 } := by
    rw [device]
    exact ⟨⟨coherent.cache, coherent.clean⟩, rfl, rfl, rfl, rfl, rfl, rfl, rfl, List.tail_suffix _,
      fun _ block same => .inl ⟨block, same⟩⟩
  unfold Reads deviceCall
  simp only [Action.ends_bind, Action.ends_get, Action.ends_set]
  rcases result with ok | ⟨faulty, error, failed⟩
  · rw [ok]
    exact ⟨rfl, looked⟩
  · rw [failed]
    refine ⟨looked, .inr ⟨?_, error, rfl⟩⟩
    intro empty
    apply faulty
    rw [Device.next, empty]
    rfl

theorem readSector_reads (number : Nat)
    : Reads (readSector number) fat (.ok (fat.layout.sector fat.device.disk number)) := by
  unfold readSector
  refine .get (deviceCall_reads coherent ?_ ?_)
  · unfold Device.readBlock
    split <;> rfl
  · unfold Device.readBlock
    split
    · exact .inl rfl
    · rename_i error effects faulty
      exact .inr ⟨by rw [faulty]; exact Fault.noConfusion, error, rfl⟩

theorem readSectors_reads (number count : Nat)
    : Reads (readSectors number count) fat
        (.ok (bytesOf ((List.range count).map (fun i =>
          fat.layout.sector fat.device.disk (number + i))))) := by
  have reads : Reads (deviceCall (fun device =>
      device.readBlocks (fat.layout.start + number) count)) fat
      (.ok ((List.range count).map (fun i => fat.layout.sector fat.device.disk (number + i)))) := by
    apply deviceCall_reads coherent
    · unfold Device.readBlocks
      split <;> rfl
    · unfold Device.readBlocks
      split
      · refine .inl ?_
        simp only [Layout.sector, Nat.add_assoc]
      · rename_i error effects faulty
        exact .inr ⟨by rw [faulty]; exact Fault.noConfusion, error, rfl⟩
  exact .get (reads.map bytesOf)

theorem check_reads (cluster : Nat)
    : Reads (check cluster) fat
        (if fat.layout.contains cluster then .ok () else .error (.badCluster cluster)) := by
  refine .get ?_
  split
  · exact Reads.pure coherent ()
  · exact Reads.fail coherent _

theorem looked_cache (inside : fat.layout.contains cluster = true)
    : Looked fat { fat with
        fatCache := some ((fat.layout.fatPosition cluster).1,
          fat.layout.sector fat.device.disk (fat.layout.fatPosition cluster).1) } := by
  refine ⟨⟨?_, coherent.clean⟩, rfl, rfl, rfl, rfl, rfl, rfl, rfl, List.suffix_rfl, ?_⟩
  · intro other block same
    simp only [Option.some.injEq, Prod.mk.injEq] at same
    obtain ⟨rfl, rfl⟩ := same
    rfl
  · intro other block same
    exact .inr ⟨cluster, inside, congrArg Prod.fst (Option.some.inj same)⟩

theorem fatEntry_reads (inside : fat.layout.contains cluster = true)
    : Reads (fatEntry cluster) fat (.ok (fat.layout.fatValue fat.device.disk cluster)) := by
  refine .get ?_
  simp only
  split
  · rename_i block held
    -- the cache holds the sector, since nothing is pending
    unfold Volume.held at held
    rw [coherent.clean] at held
    simp only [Option.filter_none] at held
    obtain ⟨⟨number, cached⟩, found, rfl⟩ := Option.map_eq_some_iff.mp held
    rw [Option.filter_eq_some_iff] at found
    obtain ⟨found, same⟩ := found
    have coherentBlock := coherent.cache number cached found
    rw [beq_iff_eq] at same
    simp only at same
    refine ⟨?_, .refl coherent⟩
    rw [Layout.fatValue, ← same, ← coherentBlock]
  · refine (readSector_reads coherent _).next (fun after looked => ?_)
    rw [← looked.layout, ← looked.disk] at *
    exact ⟨rfl, looked_cache looked.coherent inside⟩

end Coherent

namespace Layout

/-- The cluster after `cluster` in its chain, or none at the end. -/
def next (layout : Layout) (disk : Disk) (cluster : Nat) : Except FatError (Option Nat) :=
  let value := layout.fatValue disk cluster
  if layout.fatType.chainEnd ≤ value then .ok none
  else if value = layout.fatType.bad then .error (.badCluster cluster)
  else .ok (some value)

/-- The clusters of a chain from `current` on, of at most `steps`, until `limit` bytes are
covered when `count` clusters come before them.
-/
def chainFrom (layout : Layout) (disk : Disk) (limit : Option Nat)
    : (steps count current : Nat) → Except FatError (List Nat)
  | 0, _, current =>
    if layout.contains current then .error .chainLoop else .error (.badCluster current)
  | steps + 1, count, current =>
    if layout.contains current then
      match layout.next disk current with
      | .error error => .error error
      | .ok none => .ok [current]
      | .ok (some after) =>
        if covered limit ((count + 1) * layout.clusterSize) then .ok [current]
        else (layout.chainFrom disk limit steps (count + 1) after).map (current :: ·)
    else .error (.badCluster current)

/-- The clusters that following a chain from `current` passes, of at most `steps`: until `limit` bytes
are covered when `count` clusters come before them, or there is something wrong.
-/
def passed (layout : Layout) (disk : Disk) (limit : Option Nat)
    : (steps count current : Nat) → List Nat
  | 0, _, _ => []
  | steps + 1, count, current =>
    match layout.contains current, layout.next disk current with
    | true, .ok none => [current]
    | true, .ok (some after) =>
      if covered limit ((count + 1) * layout.clusterSize) then [current]
      else current :: layout.passed disk limit steps (count + 1) after
    | _, _ => []

/-- The clusters of a whole chain. -/
def chain (layout : Layout) (disk : Disk) (first : Nat) : Except FatError (List Nat) :=
  layout.chainFrom disk none layout.clusterCount 0 first

/-- The data of clusters, one after the other. -/
def dataOf (layout : Layout) (disk : Disk) (clusters : List Nat) : List UInt8 :=
  clusters.flatMap (layout.clusterBytes disk)

/-- The chain starting at `first`: `limit` bytes of it, or all of it. -/
def readChain (layout : Layout) (disk : Disk) (first : Nat) (limit : Option Nat)
    : Except FatError (List UInt8) :=
  if limit = some 0 then .ok []
  else
    match layout.chainFrom disk limit layout.clusterCount 0 first with
    | .error error => .error error
    | .ok clusters =>
      let bytes := layout.dataOf disk clusters
      match limit with
      | some limit => if bytes.length < limit then .error .truncated else .ok (bytes.take limit)
      | none => .ok bytes

def dirSectors (layout : Layout) (disk : Disk) (dir : Dir) : Except FatError (List Nat) :=
  match dir, layout.root with
  | .root, .fixed start sectors => .ok (List.range' start sectors)
  | .root, .chain first => (layout.chain disk first).map layout.sectorsOf
  | .chain first, _ => (layout.chain disk first).map layout.sectorsOf

def bytesAt (layout : Layout) (disk : Disk) (sectors : List Nat) : List UInt8 :=
  bytesOf (sectors.map (layout.sector disk))

def dirBytes (layout : Layout) (disk : Disk) (dir : Dir) : Except FatError (List UInt8) :=
  (layout.dirSectors disk dir).map (layout.bytesAt disk)

/-- The entries of a directory, with the slots they take up. -/
def located (layout : Layout) (disk : Disk) (dir : Dir) : Except FatError (List Located) :=
  (layout.dirBytes disk dir).map (parseLocated · layout.fatType)

def entries (layout : Layout) (disk : Disk) (dir : Dir) : Except FatError (List DirEntry) :=
  (layout.located disk dir).map (List.map Located.entry)

def findIn (layout : Layout) (disk : Disk) (dir : Dir) (name : Str)
    : Except FatError DirEntry :=
  match layout.entries disk dir with
  | .error error => .error error
  | .ok found =>
    match found.find? (fun entry => namesMatch entry.name name) with
    | some entry => .ok entry
    | none => .error .notFound

def descend (layout : Layout) (disk : Disk) (dir : Dir) : (names : List Str) → Except FatError Dir
  | [] => .ok dir
  | name :: rest =>
    match layout.findIn disk dir name with
    | .error error => .error error
    | .ok entry =>
      if entry.kind ≠ .directory then .error .notADirectory
      else layout.descend disk entry.dir rest

def findDir (layout : Layout) (disk : Disk) (path : Str) : Except FatError Dir :=
  layout.descend disk .root (components path)

def readDir (layout : Layout) (disk : Disk) (path : Str) : Except FatError (List DirEntry) :=
  match layout.findDir disk path with
  | .error error => .error error
  | .ok dir => layout.entries disk dir

def metadata (layout : Layout) (disk : Disk) (path : Str) : Except FatError DirEntry :=
  match metadataParts path with
  | none => .error .notFound
  | some (parent, name) =>
    match layout.findDir disk parent with
    | .error error => .error error
    | .ok dir => layout.findIn disk dir name

def readFile (layout : Layout) (disk : Disk) (path : Str) : Except FatError (List UInt8) :=
  match layout.metadata disk path with
  | .error error => .error error
  | .ok entry =>
    if entry.kind ≠ .file then .error .notAFile
    else layout.readChain disk entry.firstCluster (some entry.size)

end Layout

theorem next_reads (coherent : Coherent fat) (inside : fat.layout.contains cluster = true)
    : Reads (next cluster) fat (fat.layout.next fat.device.disk cluster) := by
  refine .get ((fatEntry_reads coherent inside).next (fun after looked => ?_))
  unfold Layout.next
  simp only
  split
  · exact Reads.pure looked.coherent none
  · split
    · exact Reads.fail looked.coherent _
    · exact Reads.pure looked.coherent _

theorem reads_check {α β : Type} (coherent : Coherent fat) {f : β → α}
    {next : Unit → FatAction α} {result : Except FatError β}
    (inside : fat.layout.contains cluster = true → ∀ after, Looked fat after →
      Reads (next ()) after (result.map f))
    : Reads (check cluster >>= next) fat
        ((if fat.layout.contains cluster then result else .error (.badCluster cluster)).map f) := by
  have checked := check_reads coherent cluster
  by_cases contained : fat.layout.contains cluster
  · rw [if_pos contained] at checked ⊢
    exact checked.next (inside contained)
  · rw [if_neg contained] at checked ⊢
    exact checked.bind nofun (fun _ same => congrArg Except.error (Except.error.inj same))

theorem chainFrom_reads (steps : Nat) (count current : Nat) (clusters : List Nat)
    (coherent : Coherent fat)
    : Reads (chainFrom steps current clusters) fat
        ((fat.layout.chainFrom fat.device.disk none steps count current).map (clusters ++ ·)) := by
  induction steps generalizing count current clusters fat with
  | zero => exact reads_check coherent (fun _ after looked => Reads.fail looked.coherent _)
  | succ steps ih =>
    refine reads_check coherent (fun inside after looked => ?_)
    rw [← looked.layout, ← looked.disk]
    rw [← looked.layout] at inside
    refine (next_reads looked.coherent inside).bind ?_ ?_
    · rintro follower later found lookedLater
      rw [found]
      cases follower with
      | none => exact Reads.pure lookedLater.coherent _
      | some cluster =>
        have rest := ih (count + 1) cluster (clusters ++ [current]) lookedLater.coherent
        rw [lookedLater.layout, lookedLater.disk] at rest
        simp only [covered, Option.any_none, Bool.false_eq_true, if_false]
        convert rest using 1
        cases after.layout.chainFrom after.device.disk none steps (count + 1) cluster with
        | error => rfl
        | ok found => simp [Except.map]
    · rintro error failed
      rw [failed]
      rfl

theorem chain_reads (coherent : Coherent fat) (first : Nat)
    : Reads (chain first) fat (fat.layout.chain fat.device.disk first) := by
  refine .get ?_
  convert chainFrom_reads fat.layout.clusterCount 0 first [] coherent using 1
  unfold Layout.chain
  cases fat.layout.chainFrom fat.device.disk none fat.layout.clusterCount 0 first <;> rfl

theorem firstSector_add (layout : Layout) (low : 2 ≤ start) (run : Nat)
    : layout.firstSector (start + run)
      = layout.firstSector start + run * layout.sectorsPerCluster := by
  unfold Layout.firstSector
  rw [show start + run - 2 = start - 2 + run by omega, Nat.add_mul, Nat.add_assoc]

theorem clusterBlocks_run (layout : Layout) (disk : Disk) (low : 2 ≤ start) (run : Nat)
    : (List.range (run * layout.sectorsPerCluster)).map (fun i =>
        layout.sector disk (layout.firstSector start + i))
      = (List.range' start run).flatMap (layout.clusterBlocks disk) := by
  induction run with
  | zero => simp
  | succ run ih =>
    rw [Nat.succ_mul, List.range_add, List.map_append, ih, List.range'_concat,
      List.flatMap_append]
    simp only [List.map_map, Nat.one_mul, List.flatMap_singleton, Layout.clusterBlocks]
    congr 1
    apply List.map_congr_left
    intro i _
    rw [Layout.clusterBlock, firstSector_add layout low, Nat.add_assoc]
    rfl

theorem clusterBytes_length (layout : Layout) (disk : Disk) (cluster : Nat)
    : (layout.clusterBytes disk cluster).length = layout.clusterSize := by
  simp [Layout.clusterBytes, bytesOf, Layout.clusterBlocks, List.length_flatMap, Block.sized,
    Layout.clusterSize, Function.comp_def]

theorem dataOf_run (layout : Layout) (disk : Disk) (low : 2 ≤ start) (run : Nat)
    : bytesOf ((List.range (run * layout.sectorsPerCluster)).map (fun i =>
        layout.sector disk (layout.firstSector start + i)))
      = layout.dataOf disk (List.range' start run) := by
  rw [clusterBlocks_run layout disk low, bytesOf, List.flatMap_assoc]
  rfl

/-- `readRuns`, with another way to read sectors of data. -/
def readRunsWith (read : Nat → Nat → FatAction (List UInt8)) (limit : Option Nat)
    : (steps : Nat) → (start current : Nat) → (run : Nat) → (bytes : List UInt8)
      → FatAction (List UInt8)
  | 0, _, current, _, _ => do
      check current
      fail .chainLoop
  | steps + 1, start, current, run, bytes => do
      check current
      let layout := (← get).layout
      let run := run + 1
      let after ← next current
      if after = some (current + 1) ∧ run < layout.maxRun
          ∧ !covered limit (bytes.length + run * layout.clusterSize) then
        readRunsWith read limit steps start (current + 1) run bytes
      else
        let more ← read (layout.firstSector start) (run * layout.sectorsPerCluster)
        let bytes := bytes ++ more
        match after with
        | some cluster =>
          if covered limit bytes.length then return bytes
          else readRunsWith read limit steps cluster cluster 0 bytes
        | none => return bytes

/-- `readChain`, with another way to read sectors of data. -/
def readChainWith (read : Nat → Nat → FatAction (List UInt8)) (first : Nat) (limit : Option Nat)
    : FatAction (List UInt8) := do
  if limit = some 0 then return []
  let fat ← get
  let bytes ← readRunsWith read limit fat.layout.clusterCount first first 0 []
  match limit with
  | some limit => if bytes.length < limit then fail .truncated else return bytes.take limit
  | none => return bytes

/-- Sectors of these clusters only: one cluster, or no more of them than are read in one go. -/
structure Asked (layout : Layout) (clusters : List Nat) (sector count : Nat) : Prop where
  few : count ≤ maxRunSectors ∨ count = layout.sectorsPerCluster
  inside
    : ∀ number,
        sector ≤ number
        → number < sector + count
        → ∃ cluster ∈ clusters,
            layout.firstSector cluster ≤ number
            ∧ number < layout.firstSector cluster + layout.sectorsPerCluster

theorem asked_of_run {layout : Layout} {clusters : List Nat} {run : Nat} (low : 2 ≤ start)
    (short : run ≤ layout.maxRun) (member : ∀ cluster ∈ List.range' start run, cluster ∈ clusters)
    : Asked layout clusters (layout.firstSector start) (run * layout.sectorsPerCluster) where
  few := by
    have either : run ≤ maxRunSectors / layout.sectorsPerCluster ∨ run ≤ 1 := by
      unfold Layout.maxRun at short
      omega
    rcases either with fits | one
    · exact .inl (Nat.le_trans (Nat.mul_le_mul_right _ fits) (Nat.div_mul_le_self ..))
    · rcases Nat.le_one_iff_eq_zero_or_eq_one.mp one with rfl | rfl
      · exact .inl (by simp)
      · exact .inr (Nat.one_mul _)
  inside number after before := by
    obtain ⟨offset, rfl⟩ := Nat.exists_eq_add_of_le after
    have inRun : offset < run * layout.sectorsPerCluster := Nat.lt_of_add_lt_add_left before
    have positive : 0 < layout.sectorsPerCluster :=
      Nat.pos_of_mul_pos_left (Nat.lt_of_le_of_lt (Nat.zero_le _) inRun)
    have index : offset / layout.sectorsPerCluster < run :=
      Nat.div_lt_of_lt_mul (by rwa [Nat.mul_comm])
    have below := Nat.div_mul_le_self offset layout.sectorsPerCluster
    have above := @Nat.lt_div_mul_add offset _ positive
    generalize offset / layout.sectorsPerCluster = number at *
    have place := firstSector_add layout low number
    exact ⟨_, member (start + number) (List.mem_range'_1.mpr ⟨by omega, by omega⟩), by omega,
      by omega⟩

theorem readRunsWith_readSectors (limit : Option Nat) (steps start current run : Nat)
    (bytes : List UInt8)
    : readRunsWith readSectors limit steps start current run bytes
      = readRuns limit steps start current run bytes := by
  induction steps generalizing start current run bytes with
  | zero => rfl
  | succ steps ih =>
    simp only [readRunsWith, ih]
    rfl

/-- Reading run by run gives the data of the chain cluster by cluster, and asks for clusters that are
passed only. By induction on the steps left; the run from `start` to before `current` is still to be
read.
-/
theorem readRunsWith_reads {limit : Option Nat} {clusters : List Nat}
    (steps count start current run : Nat)
    (bytes : List UInt8) (coherent : Coherent fat)
    (same
      : ∀ sector count,
          Asked fat.layout clusters sector count → read sector count = readSectors sector count)
    (pending : ∀ cluster ∈ List.range' start run, 2 ≤ cluster ∧ cluster ∈ clusters)
    (consecutive : start + run = current) (short : run < fat.layout.maxRun)
    (counted : bytes.length + run * fat.layout.clusterSize = count * fat.layout.clusterSize)
    (passed
      : ∀ cluster ∈ fat.layout.passed fat.device.disk limit steps count current, cluster ∈ clusters)
    : Reads (readRunsWith read limit steps start current run bytes) fat
        ((fat.layout.chainFrom fat.device.disk limit steps count current).map (fun clusters =>
          bytes ++ fat.layout.dataOf fat.device.disk (List.range' start run ++ clusters))) := by
  induction steps generalizing count start current run bytes fat with
  | zero => exact reads_check coherent (fun _ after looked => Reads.fail looked.coherent _)
  | succ steps ih =>
    refine reads_check coherent (fun inside after looked => ?_)
    rw [← looked.layout, ← looked.disk]
    rw [← looked.layout] at inside counted same short passed
    rw [← looked.disk] at passed
    unfold Layout.passed at passed
    rw [inside] at passed
    have range := (contains_iff current).mp inside
    have extended : List.range' start (run + 1) = List.range' start run ++ [current] := by
      rw [List.range'_concat, Nat.one_mul, consecutive]
    refine .get ((next_reads looked.coherent inside).bind ?_ ?_)
    · rintro follower later found lookedLater
      rw [found] at passed ⊢
      have countedNext : bytes.length + (run + 1) * after.layout.clusterSize
          = (count + 1) * after.layout.clusterSize := by
        rw [Nat.succ_mul, Nat.succ_mul]
        omega
      have here : current ∈ clusters := by
        cases follower with
        | none => exact passed current List.mem_cons_self
        | some next =>
          dsimp only at passed
          split at passed <;> exact passed current List.mem_cons_self
      have pendingNow
          : ∀ cluster ∈ List.range' start (run + 1), 2 ≤ cluster ∧ cluster ∈ clusters := by
        rw [extended]
        intro cluster member
        rcases List.mem_append.mp member with earlier | last
        · exact pending cluster earlier
        · exact List.mem_singleton.mp last ▸ ⟨range.1, here⟩
      have low : 2 ≤ start := (pendingNow start (by simp)).1
      have onward {next : Nat} (goes : follower = some next)
          (more : covered limit ((count + 1) * after.layout.clusterSize) = false)
          : ∀ cluster ∈ after.layout.passed after.device.disk limit steps (count + 1) next,
              cluster ∈ clusters := by
        subst goes
        simp only [more, Bool.false_eq_true, if_false] at passed
        exact fun cluster member => passed cluster (List.mem_cons_of_mem _ member)
      rw [← lookedLater.layout, ← lookedLater.disk] at onward ⊢
      rw [← lookedLater.layout] at same short countedNext
      split
      · rename_i extends_
        obtain ⟨rfl, roomy, uncovered⟩ := extends_
        rw [countedNext, Bool.not_eq_true'] at uncovered
        have rest := ih (count + 1) start (current + 1) (run + 1) bytes lookedLater.coherent same
          pendingNow (by omega) roomy countedNext (onward rfl uncovered)
        simp only [uncovered, Bool.false_eq_true, if_false]
        convert rest using 1
        cases later.layout.chainFrom later.device.disk limit steps (count + 1) (current + 1) with
        | error => rfl
        | ok found =>
          simp only [Except.map, extended, List.append_assoc, List.singleton_append]
      · have asked := asked_of_run low short (fun cluster member => (pendingNow cluster member).2)
        have sectors := readSectors_reads lookedLater.coherent (later.layout.firstSector start)
          ((run + 1) * later.layout.sectorsPerCluster)
        rw [dataOf_run _ _ low] at sectors
        rw [same _ _ asked]
        refine sectors.next (fun final lookedFinal => ?_)
        have length : (bytes ++ later.layout.dataOf later.device.disk
            (List.range' start (run + 1))).length = (count + 1) * later.layout.clusterSize := by
          simp [Layout.dataOf, List.length_flatMap, clusterBytes_length, countedNext]
        cases follower with
        | none =>
          rw [extended]
          exact Reads.pure lookedFinal.coherent _
        | some cluster =>
          simp only [length]
          split
          · rw [extended]
            exact Reads.pure lookedFinal.coherent _
          · rename_i uncovered
            rw [Bool.not_eq_true] at uncovered
            have rest := ih (count + 1) cluster cluster 0 (bytes
                ++ later.layout.dataOf later.device.disk (List.range' start (run + 1)))
              lookedFinal.coherent (by rwa [lookedFinal.layout]) (by simp) rfl
              (Nat.lt_of_lt_of_le Nat.one_pos (Nat.le_max_right ..))
              (by rw [length, lookedFinal.layout]; omega)
              (by rw [lookedFinal.layout, lookedFinal.disk]; exact onward rfl uncovered)
            rw [lookedFinal.layout, lookedFinal.disk] at rest
            convert rest using 1
            cases later.layout.chainFrom later.device.disk limit steps (count + 1)
                cluster with
            | error => rfl
            | ok found =>
              simp only [Except.map, extended, Layout.dataOf, List.range'_zero,
                List.nil_append, List.append_assoc, List.flatMap_append,
                List.flatMap_cons, List.flatMap_nil, List.append_nil]
    · rintro error failed
      rw [failed]
      rfl

theorem readChainWith_reads (coherent : Coherent fat) (first : Nat) (limit : Option Nat)
    (same
      : ∀ sector count,
          Asked fat.layout
            (fat.layout.passed fat.device.disk limit fat.layout.clusterCount 0 first) sector count
          → read sector count = readSectors sector count)
    : Reads (readChainWith read first limit) fat
        (fat.layout.readChain fat.device.disk first limit) := by
  unfold readChainWith Layout.readChain
  split
  · exact Reads.pure coherent []
  · have read := readRunsWith_reads fat.layout.clusterCount 0 first first 0 [] coherent same (by simp)
      rfl (Nat.lt_of_lt_of_le Nat.one_pos (Nat.le_max_right ..)) (by simp) (fun _ member => member)
    refine .get ?_
    cases walked : fat.layout.chainFrom fat.device.disk limit fat.layout.clusterCount 0 first with
    | error =>
      rw [walked] at read
      exact read.bind nofun (fun _ failed => failed)
    | ok clusters =>
      rw [walked] at read
      refine read.next (fun after looked => ?_)
      simp only [List.range'_zero, List.nil_append]
      cases limit with
      | none => exact Reads.pure looked.coherent _
      | some limit =>
        simp only
        split
        · exact Reads.fail looked.coherent _
        · exact Reads.pure looked.coherent _

theorem readChainWith_readSectors (first : Nat) (limit : Option Nat)
    : readChainWith readSectors first limit = readChain first limit := by
  unfold readChainWith
  simp only [readRunsWith_readSectors]
  rfl

theorem readChain_reads (coherent : Coherent fat) (first : Nat) (limit : Option Nat)
    : Reads (readChain first limit) fat (fat.layout.readChain fat.device.disk first limit) :=
  readChainWith_readSectors first limit ▸ readChainWith_reads coherent first limit (fun _ _ _ => rfl)

theorem bytesAt_sectorsOf (layout : Layout) (disk : Disk) (clusters : List Nat)
    : layout.bytesAt disk (layout.sectorsOf clusters) = layout.dataOf disk clusters := by
  unfold Layout.bytesAt Layout.sectorsOf Layout.dataOf bytesOf
  rw [List.map_flatMap, List.flatMap_assoc]
  congr 1
  funext cluster
  rw [Layout.clusterBytes, bytesOf, Layout.clusterBlocks, List.range'_eq_map_range, List.map_map]
  rfl

theorem readChain_none (layout : Layout) (disk : Disk) (first : Nat)
    : layout.readChain disk first none
      = ((layout.chain disk first).map layout.sectorsOf).map (layout.bytesAt disk) := by
  unfold Layout.readChain Layout.chain
  cases layout.chainFrom disk none layout.clusterCount 0 first with
  | error => rfl
  | ok clusters => exact congrArg Except.ok (bytesAt_sectorsOf layout disk clusters).symm

theorem entries_reads (coherent : Coherent fat) (dir : Dir)
    : Reads (entries dir) fat (fat.layout.entries fat.device.disk dir) := by
  have listed (bytes : Except FatError (List UInt8))
      : (bytes.map (parseLocated · fat.layout.fatType)).map (List.map Located.entry)
        = bytes.map (parseEntries · fat.layout.fatType) := by
    cases bytes <;> rfl
  unfold entries Layout.entries Layout.located Layout.dirBytes Layout.dirSectors
  rw [listed]
  refine .get ?_
  have whole (first : Nat)
      : Reads (do
          let bytes ← readChain first none
          return parseEntries bytes fat.layout.fatType) fat
          ((((fat.layout.chain fat.device.disk first).map fat.layout.sectorsOf).map
            (fat.layout.bytesAt fat.device.disk)).map (parseEntries · fat.layout.fatType)) := by
    have read := (readChain_reads coherent first none).map (parseEntries · fat.layout.fatType)
    rwa [readChain_none] at read
  generalize fat.layout.root = root
  cases dir with
  | chain first => exact whole first
  | root =>
    cases root with
    | chain first => exact whole first
    | fixed start sectors =>
      have read := (readSectors_reads coherent start sectors).map
        (parseEntries · fat.layout.fatType)
      have same : fat.layout.bytesAt fat.device.disk (List.range' start sectors)
          = bytesOf ((List.range sectors).map (fun i =>
            fat.layout.sector fat.device.disk (start + i))) := by
        rw [Layout.bytesAt, List.range'_eq_map_range, List.map_map]
        rfl
      rw [← same] at read
      exact read

theorem findIn_reads (coherent : Coherent fat) (dir : Dir) (name : Str)
    : Reads (findIn dir name) fat (fat.layout.findIn fat.device.disk dir name) := by
  unfold findIn Layout.findIn
  refine (entries_reads coherent dir).bind (fun found after same looked => ?_)
    (fun error failed => by rw [failed])
  rw [same]
  simp only
  cases found.find? (fun entry => namesMatch entry.name name) with
  | some entry => exact Reads.pure looked.coherent _
  | none => exact Reads.fail looked.coherent _

theorem descend_reads (names : List Str) (coherent : Coherent fat) (dir : Dir)
    : Reads (descend dir names) fat (fat.layout.descend fat.device.disk dir names) := by
  induction names generalizing fat dir with
  | nil => exact Reads.pure coherent dir
  | cons name rest ih =>
    unfold descend Layout.descend
    refine (findIn_reads coherent dir name).bind (fun entry after same looked => ?_)
      (fun error failed => by rw [failed])
    rw [same]
    simp only
    split
    · exact Reads.fail looked.coherent _
    · have below := ih looked.coherent entry.dir
      rwa [looked.layout, looked.disk] at below

theorem findDir_reads (coherent : Coherent fat) (path : Str)
    : Reads (findDir path) fat (fat.layout.findDir fat.device.disk path) :=
  descend_reads (components path) coherent .root

theorem readDir_reads (coherent : Coherent fat) (path : Str)
    : Reads (readDir path) fat (fat.layout.readDir fat.device.disk path) := by
  unfold readDir Layout.readDir
  refine (findDir_reads coherent path).bind (fun dir after same looked => ?_)
    (fun error failed => by rw [failed])
  rw [same]
  have listed := entries_reads looked.coherent dir
  rwa [looked.layout, looked.disk] at listed

theorem metadata_reads (coherent : Coherent fat) (path : Str)
    : Reads (metadata path) fat (fat.layout.metadata fat.device.disk path) := by
  unfold metadata Layout.metadata
  split
  · rename_i parent name parts
    simp only [parts]
    refine (findDir_reads coherent parent).bind (fun dir after same looked => ?_)
      (fun error failed => by rw [failed])
    rw [same]
    have found := findIn_reads looked.coherent dir name
    rwa [looked.layout, looked.disk] at found
  · rename_i parts
    simp only [parts]
    exact Reads.fail coherent _

theorem readFile_reads (coherent : Coherent fat) (path : Str)
    : Reads (readFile path) fat (fat.layout.readFile fat.device.disk path) := by
  unfold readFile Layout.readFile
  refine (metadata_reads coherent path).bind (fun entry after same looked => ?_)
    (fun error failed => by rw [failed])
  rw [same]
  simp only
  split
  · exact Reads.fail looked.coherent _
  · have read := readChain_reads looked.coherent entry.firstCluster (some entry.size)
    rwa [looked.layout, looked.disk] at read

theorem loadSectors_reads (sectors : List Nat) (coherent : Coherent fat)
    : Reads (loadSectors sectors) fat (.ok (fat.layout.bytesAt fat.device.disk sectors)) := by
  induction sectors generalizing fat with
  | nil => exact Reads.pure coherent []
  | cons sector rest ih =>
    unfold loadSectors
    refine (readSector_reads coherent sector).next (fun after looked => ?_)
    refine (ih looked.coherent).next (fun later lookedLater => ?_)
    rw [looked.layout, looked.disk]
    exact Reads.pure lookedLater.coherent _

/-- A directory as it is on the disk. -/
def Layout.dirImage (layout : Layout) (disk : Disk) (dir : Dir) : Except FatError DirImage :=
  (layout.dirSectors disk dir).map (fun sectors =>
    { sectors, bytes := layout.bytesAt disk sectors })

theorem loadDir_reads (coherent : Coherent fat) (dir : Dir)
    : Reads (loadDir dir) fat (fat.layout.dirImage fat.device.disk dir) := by
  have loaded (sectors : List Nat) {after : Volume} (looked : Looked fat after)
      : Reads (do
          let bytes ← loadSectors sectors
          return DirImage.mk sectors bytes) after
          (.ok { sectors, bytes := fat.layout.bytesAt fat.device.disk sectors }) := by
    have read := (loadSectors_reads sectors looked.coherent).map (DirImage.mk sectors)
    rwa [looked.layout, looked.disk] at read
  have whole (first : Nat)
      : Reads (do
          let sectors ← fat.layout.sectorsOf <$> chain first
          let bytes ← loadSectors sectors
          return DirImage.mk sectors bytes) fat
          (((fat.layout.chain fat.device.disk first).map fat.layout.sectorsOf).map
            (fun sectors => { sectors, bytes := fat.layout.bytesAt fat.device.disk sectors })) := by
    rw [← bind_pure_comp]
    refine ((chain_reads coherent first).map fat.layout.sectorsOf).bind
      (fun sectors after same looked => ?_) (fun error failed => by rw [failed]; rfl)
    rw [same]
    exact loaded sectors looked
  unfold loadDir Layout.dirImage Layout.dirSectors
  refine .get ?_
  simp only
  generalize fat.layout.root = root
  cases dir with
  | chain first => exact whole first
  | root =>
    cases root with
    | chain first => exact whole first
    | fixed start sectors => exact loaded _ (.refl coherent)

/-- A volume between two calls: the cache holds what is on the disk, and nothing is pending. -/
structure Ready (fat : Volume) : Prop where
  proper : fat.layout.Proper
  cache : ∀ number block, fat.fatCache = some (number, block) →
    fat.layout.InFat number ∧ block = fat.layout.sector fat.device.disk number
  clean : fat.fatDirty = none

theorem Ready.coherent (ready : Ready fat) : Coherent fat :=
  ⟨fun number block same => (ready.cache number block same).2, ready.clean⟩

theorem mount_ready {device : Device} (mounted : mount device start = .ok fat)
    (proper : fat.layout.Proper)
    : Ready fat := by
  obtain ⟨coherent, empty, -⟩ := mount_coherent mounted
  exact ⟨proper, fun _ _ cached => (nomatch empty.symm.trans cached), coherent.clean⟩

/-- The counters don't matter to anything that is read. -/
theorem Ready.recount (ready : Ready fat) (freeCount : Option Nat) (nextFree : Nat)
    (underflowed : Bool)
    : Ready { fat with freeCount, nextFree, underflowed } :=
  ⟨ready.proper, ready.cache, ready.clean⟩

theorem Looked.ready {after : Volume} (looked : Looked fat after) (ready : Ready fat)
    : Ready after := by
  refine ⟨looked.layout ▸ ready.proper, fun number block same => ?_, looked.coherent.clean⟩
  refine ⟨?_, looked.coherent.cache number block same⟩
  rw [looked.layout]
  rcases looked.cached number block same with ⟨earlier, same⟩ | ⟨cluster, inside, rfl⟩
  · exact (ready.cache number earlier same).1
  · exact fatPosition_range ready.proper inside

/-- Reading what is there on a device that never fails, and then going on with it. -/
theorem Reads.bind_sure {α β : Type} {action : FatAction α} {a : α} {next : α → FatAction β}
    {done : β → Volume → Prop} {stopped : Halt → Volume → Prop} (reads : Reads action fat (.ok a))
    (sure : fat.device.plan = [])
    (onward : ∀ after, Looked fat after → (next a).Ends after done stopped)
    : (action >>= next).Ends fat done stopped := by
  refine Action.Ends.bind reads ?_ ?_
  · rintro _ after ⟨⟨⟩, looked⟩
    exact onward after looked
  · rintro halt after ⟨_, ⟨_, _, ⟨⟩⟩ | failed⟩
    exact absurd sure failed.1

end RustyPi.Fat
