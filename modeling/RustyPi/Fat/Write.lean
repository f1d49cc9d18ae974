import RustyPi.Fat.Volume

/-! Writing FAT volumes, as in `rustypi-core/src/fat/write.rs`: new data goes into free
clusters, the FAT links them into a chain in every copy, a directory entry points at the chain,
and only then are old clusters freed.
-/

namespace RustyPi.Fat

open RustyPi.Bytes

def fsinfoLead : Nat := 0x41615252

def fsinfoStruct : Nat := 0x61417272

def perSector : Nat := blockSize / dirEntrySize

/-- A whole directory in memory, with the sectors it lives in, to change and write back. -/
structure DirImage where
  sectors : List Nat
  bytes : List UInt8

/-- The first run of `count` free slots from slot `index` on, of `total`, when the `run` slots
before `index` are deleted ones.
-/
def freeRunFrom (total count : Nat) : (index run : Nat) → List Slot → Option Nat
  | _, _, [] => none
  | index, run, slot :: rest =>
    -- everything from the end marker on is free
    if slot.isEnd then if index - run + count ≤ total then some (index - run) else none
    else
      let run := if slot.isDeleted then run + 1 else 0
      if run = count then some (index + 1 - count)
      else freeRunFrom total count (index + 1) run rest

namespace DirImage

/-- The image with slots written over it from slot `index` on. -/
def put (image : DirImage) (index : Nat) (slots : List Slot) : DirImage :=
  { image with bytes := splice image.bytes (index * dirEntrySize) slots.flatten }

def slot (image : DirImage) (index : Nat) : Slot :=
  (image.bytes.drop (index * dirEntrySize)).take dirEntrySize

def slots (image : DirImage) : Nat := image.bytes.length / dirEntrySize

/-- The 8.3 names in use, which a new alias mustn't repeat. -/
def shortNames (image : DirImage) : List ShortName :=
  (((slotsOf image.bytes).takeWhile (fun slot => !slot.isEnd)).filter (fun slot =>
    !slot.isDeleted && !slot.isLongName)).map (fun slot => slot.take 11)

/-- The first run of `count` free slots: deleted ones, or any after the end marker. -/
def freeRun (image : DirImage) (count : Nat) : Option Nat :=
  freeRunFrom image.slots count 0 0 (slotsOf image.bytes)

end DirImage

def writeSector (sector : Nat) (block : Block) : FatAction Unit := do
  let fat ← get
  deviceCall (fun device => device.writeBlocks (fat.layout.start + sector) [block])

/-- Writes sectors of the volume, in one call. -/
def writeSectors (sector : Nat) (blocks : List Block) : FatAction Unit := do
  let fat ← get
  deviceCall (fun device => device.writeBlocks (fat.layout.start + sector) blocks)

/-- How many of `left` clusters from `cluster` on are free, and `free` more. -/
def countFree : (left : Nat) → (cluster : Nat) → (free : Nat) → FatAction Nat
  | 0, _, free => return free
  | left + 1, cluster, free => do
      let value ← fatEntry cluster
      countFree left (cluster + 1) (if value = 0 then free + 1 else free)

/-- Clusters no chain uses. Reads the whole FAT. -/
def freeClusters : FatAction Nat := do
  let fat ← get
  countFree fat.layout.clusterCount 2 0

/-- Before the first change on FAT32: counts the free clusters, so FSInfo can be kept up. -/
def beginChange : FatAction Unit := do
  let fat ← get
  if fat.layout.fsinfo.isSome && fat.freeCount.isNone then
    let free ← freeClusters
    modify (fun fat => { fat with freeCount := some free })

/-- After a change, successful or not: brings FSInfo up to date. -/
def finishChange (result : Except FatError Unit) : FatAction Unit := do
  let fat ← get
  match fat.layout.fsinfo, fat.freeCount with
  | some sector, some free =>
    let block ← readSector sector
    if u32At block.bytes 0 = fsinfoLead ∧ u32At block.bytes 484 = fsinfoStruct then
      writeSector sector ((block.copy 488 (le32 free)).copy 492 (le32 fat.nextFree))
  | _, _ => pure ()
  match result with
  | .ok () => pure ()
  | .error error => fail error

/-- An action's result as a value. A panic ends everything all the same. -/
def attempt (action : FatAction Unit) : FatAction (Except FatError Unit) :=
  tryCatch (do action; return .ok ()) (fun halt =>
    match halt with
    | .error error => return .error error
    | .panic => throw .panic)

/-- Looks at `left` clusters from the `i`th after `start` on, until there are `count` free ones
in `clusters`.
-/
def allocateFrom (count start total : Nat)
    : (left i : Nat) → (clusters : List Nat) → FatAction (List Nat)
  | 0, _, clusters => return clusters
  | left + 1, i, clusters => do
      if clusters.length = count then return clusters
      else
        let cluster := 2 + (start - 2 + i) % total
        let value ← fatEntry cluster
        allocateFrom count start total left (i + 1)
          (if value = 0 then clusters ++ [cluster] else clusters)

/-- Finds `count` free clusters. Nothing is marked yet: they stay free until `link`. -/
def allocate (count : Nat) : FatAction (List Nat) := do
  let fat ← get
  let total := fat.layout.clusterCount
  let start := max 2 (min fat.nextFree (total + 1))
  let clusters ← allocateFrom count start total total 0 []
  if clusters.length < count then fail .noSpace
  else
    modify (fun fat => { fat with nextFree := (clusters.getLast?.map (· + 1)).getD 2 })
    return clusters

/-- The length of the run of consecutive clusters that starts with `first` and goes on in the
given ones, when `run` of it are known.
-/
def runFrom (first : Nat) (maxRun : Nat) : (run : Nat) → List Nat → Nat
  | run, [] => run
  | run, cluster :: rest =>
    if cluster = first + run ∧ run < maxRun then runFrom first maxRun (run + 1) rest else run

/-- Writes blocks into clusters a run at a time, at most `steps` runs. -/
def writeRuns : (steps : Nat) → List Nat → List Block → FatAction Unit
  | steps + 1, first :: rest, blocks => do
      let layout := (← get).layout
      let run := runFrom first layout.maxRun 1 rest
      let count := run * layout.sectorsPerCluster
      writeSectors (layout.firstSector first) (blocks.take count)
      writeRuns steps (rest.drop (run - 1)) (blocks.drop count)
  | _, _, _ => pure ()

/-- Writes `data` (zero-padded to whole clusters) into `clusters`, a run of consecutive ones at a
time.
-/
def writeClusters (clusters : List Nat) (data : List UInt8) : FatAction Unit := do
  let fat ← get
  let size := clusters.length * fat.layout.clusterSize
  let padded := (data ++ List.replicate (size - data.length) 0).take size
  writeRuns clusters.length clusters (blocksOf padded)

/-- Writes a FAT sector to `left` copies of the FAT, from number `copy` on. -/
def writeCopies (sector : Nat) (block : Block) : (left copy : Nat) → FatAction Unit
  | 0, _ => pure ()
  | left + 1, copy => do
      let fat ← get
      writeSector (sector + copy * fat.layout.fatSize) block
      writeCopies sector block left (copy + 1)

/-- Writes the pending FAT sector to every copy of the FAT. -/
def flushFat : FatAction Unit := do
  let fat ← get
  match fat.fatDirty with
  | none => pure ()
  | some (sector, block) =>
    set { fat with fatDirty := none }
    writeCopies sector block fat.layout.fatCount 0
    modify (fun fat => { fat with fatCache := some (sector, block) })

/-- A FAT sector with one entry changed. FAT32's reserved top bits are kept. -/
def FatType.encode (fatType : FatType) (block : Block) (at_ value : Nat) : Block :=
  match fatType with
  | .fat16 => block.copy at_ (le16 value)
  | .fat32 =>
    let kept := u32At block.bytes at_ &&& (0xFFFFFFFF - fatType.entryMask)
    block.copy at_ (le32 (kept ||| value))

/-- The FAT sector to change, from the cache (which loses it) or the disk. -/
def takeSector (sector : Nat) : FatAction Block := do
  let fat ← get
  set { fat with fatCache := none }
  match fat.fatCache.filter (fun cached => cached.1 == sector) with
  | some (_, block) => return block
  | none => readSector sector

/-- Changes FAT entry `cluster` in the pending sector, writing out another pending one first. -/
def setFatEntry (cluster : Nat) (value : Nat) : FatAction Unit := do
  let (sector, at_) := (← get).layout.fatPosition cluster
  if (← get).fatDirty.any (fun dirty => dirty.1 != sector) then flushFat
  let block ← match (← get).fatDirty with
    | some (_, block) => pure block
    | none => takeSector sector
  modify (fun fat => { fat with
    fatDirty := some (sector, fat.layout.fatType.encode block at_ value) })

/-- Chains clusters in the FAT, in order, ending the chain after the last with `ending`. -/
def linkFrom (ending : Nat) : List Nat → FatAction Unit
  | [] => pure ()
  | cluster :: rest => do
      setFatEntry cluster (rest.head?.getD ending)
      linkFrom ending rest

/-- Chains `clusters` in the FAT, in order, ending the chain after the last. -/
def link (clusters : List Nat) : FatAction Unit := do
  let fat ← get
  linkFrom fat.layout.fatType.entryMask clusters
  flushFat
  modify (fun fat => { fat with
    freeCount := fat.freeCount.map (fun free =>
      (free + (0x100000000 - clusters.length % 0x100000000)) % 0x100000000)
    underflowed := fat.underflowed || fat.freeCount.any (fun free => free < clusters.length) })

/-- Puts `data` in new clusters, chained in the FAT, and returns the first (0 for none). -/
def writeChain (data : List UInt8) : FatAction Nat := do
  if data.isEmpty then return 0
  else
    let size := (← get).layout.clusterSize
    let clusters ← allocate ((data.length + size - 1) / size)
    writeClusters clusters data
    link clusters
    return clusters.headD 0

/-- Follows the chain from `current`, at most `steps` clusters, adding to `chain`. -/
def chainFrom : (steps : Nat) → (current : Nat) → (chain : List Nat)
    → FatAction (List Nat)
  | 0, current, _ => do
      check current
      fail .chainLoop
  | steps + 1, current, chain => do
      check current
      match (← next current) with
      | some cluster => chainFrom steps cluster (chain ++ [current])
      | none => return chain ++ [current]

/-- The clusters of the chain starting at `first`, checked. -/
def chain (first : Nat) : FatAction (List Nat) := do
  let fat ← get
  chainFrom fat.layout.clusterCount first []

def clearEntries : List Nat → FatAction Unit
  | [] => pure ()
  | cluster :: rest => do
      setFatEntry cluster 0
      clearEntries rest

/-- Frees the chain starting at `first` (nothing for 0, an empty file's). -/
def freeChain (first : Nat) : FatAction Unit := do
  let clusters ← if first = 0 then pure [] else chain first
  clearEntries clusters
  flushFat
  modify (fun fat => { fat with
    freeCount := fat.freeCount.map (fun free => (free + clusters.length) % 0x100000000)
    nextFree := (clusters.min?.map (fun lowest => min fat.nextFree lowest)).getD fat.nextFree })

def Layout.sectorsOf (layout : Layout) (clusters : List Nat) : List Nat :=
  clusters.flatMap (fun cluster =>
    List.range' (layout.firstSector cluster) layout.sectorsPerCluster)

def loadSectors : List Nat → FatAction (List UInt8)
  | [] => return []
  | sector :: rest => do
      let block ← readSector sector
      let more ← loadSectors rest
      return block.bytes ++ more

/-- Reads a whole directory, noting the sectors it is in. -/
def loadDir (dir : Dir) : FatAction DirImage := do
  let layout := (← get).layout
  let sectors ← match dir, layout.root with
    | .root, .fixed start sectors => pure (List.range' start sectors)
    | .root, .chain first => layout.sectorsOf <$> chain first
    | .chain first, _ => layout.sectorsOf <$> chain first
  let bytes ← loadSectors sectors
  return { sectors, bytes }

/-- Writes back `left` sectors of a directory, from its sector number `index` on. -/
def storeSectors (image : DirImage) : (left index : Nat) → FatAction Unit
  | 0, _ => pure ()
  | left + 1, index => do
      match image.sectors[index]? with
      | some sector =>
        writeSector sector (Block.ofBytes ((image.bytes.drop (index * blockSize)).take blockSize))
      | none => throw .panic
      storeSectors image left (index + 1)

/-- Writes back the sectors holding slots `start` to `stop` of a directory. -/
def storeDir (image : DirImage) (start stop : Nat) : FatAction Unit :=
  let first := start / perSector
  storeSectors image ((stop + perSector - 1) / perSector - first) first

/-- Adds zeroed clusters to a directory's chain until it has `needed` free slots at its end, and
returns where they start.
-/
def growDir (dir : Dir) (image : DirImage) (needed : Nat) : FatAction (Nat × DirImage) := do
  let layout := (← get).layout
  let first ← match dir, layout.root with
    | .root, .fixed _ _ => fail .directoryFull
    | .root, .chain first => pure first
    | .chain first, _ => pure first
  let clusters ← chain first
  -- free slots at the end already count towards what's needed
  let end_ := (slotsOf image.bytes).findIdx Slot.isEnd
  let freeAtEnd := image.slots - end_
  let perCluster := layout.clusterSize / dirEntrySize
  let count := (needed - freeAtEnd + perCluster - 1) / perCluster
  let new ← allocate count
  writeClusters new (List.replicate (count * layout.clusterSize) 0)
  -- chain the new clusters, then hook them onto the directory's last one
  link new
  setFatEntry (clusters.getLastD 0) (new.headD 0)
  flushFat
  let sectors := image.sectors ++ layout.sectorsOf new
  return (end_, {
    sectors
    bytes := image.bytes ++ List.replicate (sectors.length * blockSize - image.bytes.length) 0 })

/-- Adds entries for `name` to a directory, growing it by a cluster if it is full (or failing,
for FAT16's fixed root).
-/
def addEntry (dir : Dir) (image : DirImage) (name : Str) (attr : UInt8) (cluster : Nat)
    (size : Nat)
    : FatAction Unit := do
  let stamp := (← get).stamp
  match newSlots name image.shortNames attr cluster size stamp with
  | none => throw .panic
  | some slots =>
    let (at_, image) ← match image.freeRun slots.length with
      | some at_ => pure (at_, image)
      | none => growDir dir image slots.length
    storeDir (image.put at_ slots) at_ (at_ + slots.length)

/-- Nothing points at the new chain; gives it back. -/
def giveBack (first : Nat) (halt : Halt) : FatAction Unit :=
  match halt with
  | .error error => do
      freeChain first
      fail error
  | .panic => throw .panic

def writeFileInner (path : Str) (data : List UInt8) : FatAction Unit := do
  if 0x100000000 ≤ data.length then fail .tooBig
  let (parent, name) := splitPath path
  Action.ofExcept ((checkName name).mapError Halt.error)
  let dir ← findDir parent
  let image ← loadDir dir
  let existing := (parseLocated image.bytes (← get).layout.fatType).find? (fun located =>
    namesMatch located.entry.name name)
  if existing.any (fun located => located.entry.kind == .directory) then fail .notAFile
  beginChange
  let first ← writeChain data
  match existing with
  | some located =>
    -- point the entry at the new chain, then let the old one go
    let slot := located.stop - 1
    let stamp := (← get).stamp
    let changed := setModified (setClusterAndSize (image.slot slot) first data.length) stamp
    storeDir (image.put slot [changed]) slot (slot + 1)
    freeChain located.entry.firstCluster
  | none =>
    tryCatch (addEntry dir image name attrArchive first data.length) (giveBack first)

/-- Creates the file at `path` with `data` in it, or replaces what an existing file holds. The
parent directory must exist.
-/
def writeFile (path : Str) (data : List UInt8) : FatAction Unit := do
  finishChange (← attempt (writeFileInner path data))

def dotName : ShortName := asByte '.' :: List.replicate 10 space

def dotDotName : ShortName := asByte '.' :: asByte '.' :: List.replicate 9 space

/-- What a new directory holds: `.` is the directory itself, `..` its parent, which is 0 for the
root.
-/
def newDirContents (layout : Layout) (dir : Dir) (cluster : Nat) (stamp : Stamp)
    : List UInt8 :=
  let parentCluster := match dir with
    | .root => 0
    | .chain cluster => cluster
  let dots := shortEntry dotName 0 attrDirectory cluster 0 stamp
    ++ shortEntry dotDotName 0 attrDirectory parentCluster 0 stamp
  dots ++ List.replicate (layout.clusterSize - dots.length) 0

def createDirInner (path : Str) : FatAction Unit := do
  let (parent, name) := splitPath path
  Action.ofExcept ((checkName name).mapError Halt.error)
  let dir ← findDir parent
  let image ← loadDir dir
  let fat ← get
  if (parseLocated image.bytes fat.layout.fatType).any (fun located =>
      namesMatch located.entry.name name) then
    fail .alreadyExists
  beginChange
  let cluster := (← allocate 1).headD 0
  writeClusters [cluster] (newDirContents fat.layout dir cluster fat.stamp)
  link [cluster]
  tryCatch (addEntry dir image name attrDirectory cluster 0) (giveBack cluster)

/-- Makes an empty directory at `path`. The parent must exist. -/
def createDir (path : Str) : FatAction Unit := do
  finishChange (← attempt (createDirInner path))

/-- The image with the slots from `index` on, `count` of them, marked deleted. -/
def DirImage.delete (image : DirImage) (index count : Nat) : DirImage :=
  image.put index ((List.range' index count).map (fun index => splice (image.slot index) 0 [0xE5]))

def removeInner (path : Str) : FatAction Unit := do
  let (parent, name) := splitPath path
  let dir ← findDir parent
  let image ← loadDir dir
  let fatType := (← get).layout.fatType
  match (parseLocated image.bytes fatType).find? (fun located =>
      namesMatch located.entry.name name) with
  | none => fail .notFound
  | some located =>
    let first := located.entry.firstCluster
    if located.entry.kind = .directory then
      let contents ← loadDir (.chain first)
      if !(parseLocated contents.bytes fatType).isEmpty then fail .notEmpty
    beginChange
    let count := located.stop - located.start
    storeDir (image.delete located.start count) located.start located.stop
    freeChain first

/-- Removes the file, or empty directory, at `path`. -/
def remove (path : Str) : FatAction Unit := do
  finishChange (← attempt (removeInner path))

/-- The time entries created or changed from now on get, already as FAT has it. -/
def setTime (now : Stamp) : FatAction Unit := modify (fun fat => { fat with stamp := now })

/-- The public operations of a mounted volume. -/
inductive Call
  | readDir (path : Str)
  | metadata (path : Str)
  | readFile (path : Str)
  | writeFile (path : Str) (data : List UInt8)
  | createDir (path : Str)
  | remove (path : Str)
  | freeClusters
  | setTime (now : Stamp)

def Call.run : Call → FatAction Unit
  | .readDir path => discard (Fat.readDir path)
  | .metadata path => discard (Fat.metadata path)
  | .readFile path => discard (Fat.readFile path)
  | .writeFile path data => Fat.writeFile path data
  | .createDir path => Fat.createDir path
  | .remove path => Fat.remove path
  | .freeClusters => discard Fat.freeClusters
  | .setTime now => Fat.setTime now

/-- The volume a call leaves when it returns, with a result or an error. -/
def serve (fat : Volume) (call : Call) : Option Volume :=
  match call.run.outcome fat with
  | (.error .panic, _) => none
  | (_, after) => some after

end RustyPi.Fat
