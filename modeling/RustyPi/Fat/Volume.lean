import RustyPi.Fat.Device
import RustyPi.Fat.Slots
import RustyPi.Lib.Action

/-! FAT volumes and reading them, as in `rustypi-core/src/fat/mod.rs`: the layout a boot sector
describes, the FAT entries behind a one-sector cache, cluster chains read a run at a time, and
looking up paths. The volume label, which nothing here reads, is left out.
-/

namespace RustyPi.Fat

open RustyPi.Bytes

inductive RootDir
  /-- FAT16: a fixed run of sectors after the FATs. -/
  | fixed (start sectors : Nat)
  /-- FAT32: an ordinary cluster chain. -/
  | chain (cluster : Nat)
  deriving DecidableEq, Repr

inductive Dir
  | root
  | chain (cluster : Nat)
  deriving DecidableEq, Repr

/-- What the boot sector says of a volume. Sector numbers are relative to `start`. -/
structure Layout where
  start : Nat
  fatType : FatType
  sectorsPerCluster : Nat
  fatStart : Nat
  root : RootDir
  dataStart : Nat
  clusterCount : Nat
  fatCount : Nat
  fatSize : Nat
  fsinfo : Option Nat
  deriving DecidableEq, Repr

/-- A mounted volume. -/
structure Volume where
  layout : Layout
  device : Device
  /-- Free clusters, once counted (FAT32 only, for FSInfo). -/
  freeCount : Option Nat
  /-- The last FAT sector read, since chains mostly stay within one. -/
  fatCache : Option (Nat × Block)
  /-- A FAT sector changed and not written to the FATs yet. Reads see it first. -/
  fatDirty : Option (Nat × Block)
  /-- The date and time new and changed entries get. -/
  stamp : Stamp
  /-- Where allocating starts looking for free clusters. -/
  nextFree : Nat
  /-- Whether more was ever subtracted from `freeCount` than it was. Nothing reads it. -/
  underflowed : Bool := false

/-- What ends a call early: an error it returns, or a panic. -/
inductive Halt
  | error (error : FatError)
  | panic
  deriving DecidableEq, Repr

abbrev FatAction := Action Volume Halt

def fail {α : Type} (error : FatError) : FatAction α := throw (.error error)

/-- The date and time entries get until `set_time`: 2026-01-01 00:00. -/
def defaultStamp : Stamp := { date := (2026 - 1980) * 0x200 + 0x20 + 1, time := 0 }

def isPowerOfTwo (n : Nat) : Bool := n != 0 && n &&& (n - 1) == 0

/-- The layout described by a boot sector at `start`. -/
def layoutOf (start : Nat) (block : Block) : Except FatError Layout := do
  let boot := block.bytes
  if byteAt boot 510 ≠ 0x55 ∨ byteAt boot 511 ≠ 0xAA then
    throw (.notFat "no boot signature")
  if u16At boot 11 ≠ blockSize then
    throw (.unsupportedSectorSize (u16At boot 11))
  let sectorsPerCluster := byteAt boot 13
  if !isPowerOfTwo sectorsPerCluster then
    throw (.notFat "cluster size is not a power of two")
  let reserved := u16At boot 14
  let fatCount := byteAt boot 16
  let rootEntries := u16At boot 17
  let total := if u16At boot 19 = 0 then u32At boot 32 else u16At boot 19
  let fatSize := if u16At boot 22 = 0 then u32At boot 36 else u16At boot 22
  if reserved = 0 ∨ fatCount = 0 ∨ fatSize = 0 then
    throw (.notFat "empty reserved area or FAT")
  let rootSectors := (rootEntries * dirEntrySize + blockSize - 1) / blockSize
  let rootStart := reserved + fatCount * fatSize
  let dataStart := rootStart + rootSectors
  if total ≤ dataStart then
    throw (.notFat "no room for data")
  let clusterCount := min ((total - dataStart) / sectorsPerCluster) 0x0FFFFFF5
  -- the cluster count alone decides the FAT type
  if clusterCount < 4085 then
    throw .fat12
  let fatType := if clusterCount < 65525 then FatType.fat16 else FatType.fat32
  let root := match fatType with
    | .fat16 => RootDir.fixed rootStart rootSectors
    | .fat32 => RootDir.chain (u32At boot 44)
  let sector := u16At boot 48
  let fsinfo := if fatType = .fat32 ∧ sector ≠ 0 ∧ sector ≠ 0xFFFF then some sector else none
  return {
    start, fatType, sectorsPerCluster, root, dataStart, clusterCount, fatCount, fatSize, fsinfo
    fatStart := reserved
  }

/-- Opens the volume whose boot sector is at `start`. -/
def mount (device : Device) (start : Nat) : Except FatError Volume :=
  match device.readBlock start with
  | (.error error, _) => .error (.device error)
  | (.ok boot, device) =>
    (layoutOf start boot).map (fun layout => {
      layout, device
      freeCount := none
      fatCache := none
      fatDirty := none
      stamp := defaultStamp
      nextFree := 2
    })

/-- Passes a device's answer on, keeping the device as the call left it. -/
def deviceCall {α : Type} (call : Device → Except DeviceError α × Device) : FatAction α := do
  let fat ← get
  let (result, device) := call fat.device
  set { fat with device }
  match result with
  | .ok a => pure a
  | .error error => fail (.device error)

def readSector (sector : Nat) : FatAction Block := do
  let fat ← get
  deviceCall (fun device => device.readBlock (fat.layout.start + sector))

/-- Reads sectors of the volume, in one call. -/
def readSectors (sector count : Nat) : FatAction (List UInt8) := do
  let fat ← get
  let blocks ← deviceCall (fun device => device.readBlocks (fat.layout.start + sector) count)
  return bytesOf blocks

def FatType.entryWidth : FatType → Nat
  | .fat16 => 2
  | .fat32 => 4

/-- The bits of a FAT entry that hold its value (FAT32's top four are reserved). -/
def FatType.entryMask : FatType → Nat
  | .fat16 => 0xFFFF
  | .fat32 => 0x0FFFFFFF

def FatType.decode (fatType : FatType) (block : Block) (at_ : Nat) : Nat :=
  let raw := match fatType with
    | .fat16 => u16At block.bytes at_
    | .fat32 => u32At block.bytes at_
  raw &&& fatType.entryMask

/-- The lowest value that ends a chain. -/
def FatType.chainEnd : FatType → Nat
  | .fat16 => 0xFFF8
  | .fat32 => 0x0FFFFFF8

/-- The value that marks a cluster bad. -/
def FatType.bad : FatType → Nat
  | .fat16 => 0xFFF7
  | .fat32 => 0x0FFFFFF7

/-- Most sectors read or written in one go. -/
def maxRunSectors : Nat := 256

namespace Layout

def clusterSize (layout : Layout) : Nat := layout.sectorsPerCluster * blockSize

/-- The volume sector a data cluster starts at. -/
def firstSector (layout : Layout) (cluster : Nat) : Nat :=
  layout.dataStart + (cluster - 2) * layout.sectorsPerCluster

/-- Where FAT entry `cluster` is: the sector (in the first FAT) and the offset in it. -/
def fatPosition (layout : Layout) (cluster : Nat) : Nat × Nat :=
  let offset := cluster * layout.fatType.entryWidth
  (layout.fatStart + offset / blockSize, offset % blockSize)

/-- Whether `cluster` is a data cluster of the volume. -/
def contains (layout : Layout) (cluster : Nat) : Bool :=
  decide (2 ≤ cluster ∧ cluster < layout.clusterCount + 2)

/-- Most clusters read or written in one go. -/
def maxRun (layout : Layout) : Nat := max (maxRunSectors / layout.sectorsPerCluster) 1

end Layout

def check (cluster : Nat) : FatAction Unit := do
  let fat ← get
  if fat.layout.contains cluster then pure () else fail (.badCluster cluster)

/-- The FAT sector to read an entry from without asking the device, if there is one. -/
def Volume.held (fat : Volume) (sector : Nat) : Option Block :=
  match fat.fatDirty.filter (fun held => held.1 == sector) with
  | some (_, block) => some block
  | none => (fat.fatCache.filter (fun held => held.1 == sector)).map Prod.snd

/-- FAT entry `cluster`, masked to its value bits. A pending change wins over the disk. -/
def fatEntry (cluster : Nat) : FatAction Nat := do
  let fat ← get
  let (sector, at_) := fat.layout.fatPosition cluster
  match fat.held sector with
  | some block => return fat.layout.fatType.decode block at_
  | none =>
    let block ← readSector sector
    modify (fun fat => { fat with fatCache := some (sector, block) })
    return fat.layout.fatType.decode block at_

/-- The cluster after `cluster` in its chain, or none at the end. -/
def next (cluster : Nat) : FatAction (Option Nat) := do
  let fat ← get
  let value ← fatEntry cluster
  if fat.layout.fatType.chainEnd ≤ value then return none
  else if value = fat.layout.fatType.bad then fail (.badCluster cluster)
  else return some value

/-- Whether `bytes` bytes are as many as asked for. -/
def covered (limit : Option Nat) (bytes : Nat) : Bool := limit.any (fun limit => limit ≤ bytes)

/-- Follows the chain from `current`, at most `steps` clusters. The run from `start` to before
`current` has not been read yet; a run is read when the chain doesn't go on to the very next
cluster, or the run is long enough.
-/
def readRuns (limit : Option Nat)
    : (steps : Nat) → (start current : Nat) → (run : Nat) → (bytes : List UInt8)
      → FatAction (List UInt8)
  | 0, _, current, _, _ => do
      check current
      fail .chainLoop
  | steps + 1, start, current, run, bytes => do
      check current
      let layout := (← get).layout
      let run := run + 1
      let after ← next current
      if after = some (current + 1) ∧ run < layout.maxRun
          ∧ !covered limit (bytes.length + run * layout.clusterSize) then
        readRuns limit steps start (current + 1) run bytes
      else
        let more ← readSectors (layout.firstSector start) (run * layout.sectorsPerCluster)
        let bytes := bytes ++ more
        match after with
        | some cluster =>
          if covered limit bytes.length then return bytes
          else readRuns limit steps cluster cluster 0 bytes
        | none => return bytes

/-- Reads the chain starting at `first`: `limit` bytes of it, or all of it. Runs of consecutive
clusters (the usual layout of a file) are read in one go.
-/
def readChain (first : Nat) (limit : Option Nat) : FatAction (List UInt8) := do
  if limit = some 0 then return []
  let fat ← get
  let bytes ← readRuns limit fat.layout.clusterCount first first 0 []
  match limit with
  | some limit => if bytes.length < limit then fail .truncated else return bytes.take limit
  | none => return bytes

def entries (dir : Dir) : FatAction (List DirEntry) := do
  let fat ← get
  let bytes ← match dir, fat.layout.root with
    | .root, .fixed start sectors => readSectors start sectors
    | .root, .chain cluster => readChain cluster none
    | .chain cluster, _ => readChain cluster none
  return parseEntries bytes fat.layout.fatType

def findIn (dir : Dir) (name : Str) : FatAction DirEntry := do
  match (← entries dir).find? (fun entry => namesMatch entry.name name) with
  | some entry => return entry
  | none => fail .notFound

/-- The directory an entry stands for. Cluster 0 means the root, as in a `..` entry (which lookups
skip).
-/
def DirEntry.dir (entry : DirEntry) : Dir :=
  if entry.firstCluster = 0 then .root else .chain entry.firstCluster

/-- Goes down from `dir` by names. -/
def descend (dir : Dir) : (names : List Str) → FatAction Dir
  | [] => return dir
  | name :: rest => do
      let entry ← findIn dir name
      if entry.kind ≠ .directory then fail .notADirectory
      else descend entry.dir rest

def findDir (path : Str) : FatAction Dir := descend .root (components path)

/-- Lists a directory. `path` is absolute, `/`-separated and matched case-insensitively. `.` and
`..` are left out.
-/
def readDir (path : Str) : FatAction (List DirEntry) := do entries (← findDir path)

/-- The parent directory and name that `metadata` looks for, if the path has a name. -/
def metadataParts (path : Str) : Option (Str × Str) :=
  let inner := (path.dropWhile (· == '/')).rdropWhile (· == '/')
  let whole := if inner.isEmpty then none else some ([], inner)
  match rsplitOnce '/' (path.rdropWhile (· == '/')) with
  | some (parent, name) => if name.isEmpty then whole else some (parent, name)
  | none => whole

/-- Looks up a file or directory. The root itself has no entry, so `/` is not found. -/
def metadata (path : Str) : FatAction DirEntry := do
  match metadataParts path with
  | some (parent, name) => findIn (← findDir parent) name
  | none => fail .notFound

def readFile (path : Str) : FatAction (List UInt8) := do
  let entry ← metadata path
  if entry.kind ≠ .file then fail .notAFile
  else readChain entry.firstCluster (some entry.size)

end RustyPi.Fat
