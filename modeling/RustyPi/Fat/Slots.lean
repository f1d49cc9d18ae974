import RustyPi.Fat.Names

/-! Directory entries as 32-byte slots: writing the slots of a name, and `parse_located`, which
collects long names piece by piece and ties each to the 8.3 entry after it.
-/

namespace RustyPi.Fat

open RustyPi.Bytes

/-- The 32 bytes of one directory entry. -/
abbrev Slot := List UInt8

def dirEntrySize : Nat := 32

def attrDirectory : UInt8 := 0x10

def attrArchive : UInt8 := 0x20

def attrLongName : UInt8 := 0x0F

def lfnChars : Nat := 13

/-- Where a long name entry keeps its UTF-16 units, in three runs. -/
def lfnOffsets : List Nat := [1, 3, 5, 7, 9, 14, 16, 18, 20, 22, 24, 28, 30]

inductive FatType
  | fat16
  | fat32
  deriving DecidableEq, Repr

inductive EntryKind
  | file
  | directory
  deriving DecidableEq, Repr

structure Stamp where
  date : Nat
  time : Nat
  deriving DecidableEq, Repr

structure DirEntry where
  name : Str
  kind : EntryKind
  size : Nat
  modified : Stamp
  firstCluster : Nat
  deriving DecidableEq, Repr

/-- A directory entry, and the slots it takes up: its long name pieces, then itself. -/
structure Located where
  entry : DirEntry
  start : Nat
  stop : Nat
  deriving DecidableEq, Repr

/-- The end marker: nothing after it counts. -/
def Slot.isEnd (slot : Slot) : Bool := byteAt slot 0 == 0

def Slot.isDeleted (slot : Slot) : Bool := byteAt slot 0 == 0xE5

def Slot.isLongName (slot : Slot) : Bool := byteAt slot 11 &&& 0x3F == 0x0F

def Slot.isVolumeId (slot : Slot) : Bool := byteAt slot 11 &&& 0x08 != 0

/-- A long name entry that starts a name. -/
def Slot.isLast (slot : Slot) : Bool := byteAt slot 0 &&& 0x40 != 0

def setModified (slot : Slot) (stamp : Stamp) : Slot :=
  splice (splice slot 22 (le16 stamp.time)) 24 (le16 stamp.date)

def setClusterAndSize (slot : Slot) (cluster : Nat) (size : Nat) : Slot :=
  splice (splice (splice slot 20 (le16 (cluster / 0x10000))) 26 (le16 cluster)) 28 (le32 size)

/-- The 8.3 entry for a file or directory, created and modified at `stamp`. -/
def shortEntry (short : ShortName) (case attr : UInt8) (cluster : Nat) (size : Nat)
    (stamp : Stamp)
    : Slot :=
  short ++ [attr, case, 0] ++ le16 stamp.time ++ le16 stamp.date ++ le16 stamp.date
    ++ le16 (cluster / 0x10000) ++ le16 stamp.time ++ le16 stamp.date ++ le16 cluster
    ++ le32 size

/-- The units of a name as its pieces hold them: a terminator if there is room, then padding. -/
def lfnUnits (name : Str) : List Nat :=
  let units := Utf16.encode name
  let pieces := (units.length + lfnChars - 1) / lfnChars
  let ended := if units.length % lfnChars ≠ 0 then units ++ [0] else units
  ended ++ List.replicate (pieces * lfnChars - ended.length) 0xFFFF

/-- One long name entry, with number `seq`, holding 13 units in its three runs. -/
def longEntry (seq : Nat) (last : Bool) (checksum : UInt8) (units : List Nat) : Slot :=
  let run (first count : Nat) := ((units.drop first).take count).flatMap le16
  UInt8.ofNat (seq ||| if last then 0x40 else 0) :: run 0 5 ++ [attrLongName, 0, checksum]
    ++ run 5 6 ++ [0, 0] ++ run 11 2

/-- The long name entries for `name`, in the order they are stored (last piece first). -/
def longEntries (name : Str) (short : ShortName) : List Slot :=
  let units := lfnUnits name
  let pieces := ((Utf16.encode name).length + lfnChars - 1) / lfnChars
  (List.range pieces).reverse.map (fun piece =>
    longEntry (piece + 1) (piece + 1 == pieces) (shortNameChecksum short)
      ((units.drop (piece * lfnChars)).take lfnChars))

/-- The slots `add_entry` makes for a name, if it has an alias left. -/
def newSlots (name : Str) (taken : List ShortName) (attr : UInt8) (cluster : Nat)
    (size : Nat) (stamp : Stamp)
    : Option (List Slot) :=
  match exactShortName name with
  | some (short, case) => some [shortEntry short case attr cluster size stamp]
  | none =>
    (aliasFor name taken).map (fun short =>
      longEntries name short ++ [shortEntry short 0 attr cluster size stamp])

/-- The pieces of a long name collected so far. `expected` is the number of the next piece,
counting down to 1, or 0 if none is in progress.
-/
structure LongName where
  units : List Nat
  checksum : UInt8
  expected : Nat
  deriving DecidableEq, Repr

namespace LongName

def new : LongName := { units := [], checksum := 0, expected := 0 }

def reset (long : LongName) : LongName := { long with units := [], expected := 0 }

def add (long : LongName) (slot : Slot) : LongName :=
  let seq := byteAt slot 0 &&& 0x1F
  let checksum := slot[13]?.getD 0
  let begun :=
    if slot.isLast then
      { units := List.replicate (seq * lfnChars) 0xFFFF, checksum, expected := seq }
    else long
  if seq = 0 ∨ seq ≠ begun.expected ∨ checksum ≠ begun.checksum then begun.reset
  else
    { begun with
      units := splice begun.units ((seq - 1) * lfnChars) (lfnOffsets.map (u16At slot))
      expected := begun.expected - 1 }

/-- The finished name, if a complete one matching `short` was collected. -/
def take (long : LongName) (short : ShortName) : Option Str :=
  if long.expected = 0 ∧ long.units ≠ [] ∧ long.checksum = shortNameChecksum short then
    some (Utf16.decode (long.units.takeWhile (fun unit => unit != 0 && unit != 0xFFFF)))
  else none

end LongName

/-- What an 8.3 slot says of its file or directory, under the name it goes by. -/
def readEntry (fatType : FatType) (slot : Slot) (name : Str) : DirEntry :=
  let directory := byteAt slot 11 &&& 0x10 != 0
  {
    name
    kind := if directory then .directory else .file
    size := if directory then 0 else u32At slot 28
    modified := { date := u16At slot 24, time := u16At slot 22 }
    firstCluster :=
      (if fatType = .fat32 then u16At slot 20 else 0) * 0x10000 + u16At slot 26
  }

/-- The slots from number `index` on, with the long name collected so far, which started at
slot `longStart`.
-/
def parseFrom (fatType : FatType)
    : (index : Nat) → (long : LongName) → (longStart : Nat) → List Slot → List Located
  | _, _, _, [] => []
  | index, long, longStart, slot :: rest =>
    if slot.isEnd then []
    else if slot.isDeleted then parseFrom fatType (index + 1) long.reset longStart rest
    else if slot.isLongName then
      parseFrom fatType (index + 1) (long.add slot)
        (if slot.isLast then index else longStart) rest
    else if slot.isVolumeId then parseFrom fatType (index + 1) long.reset longStart rest
    else
      let longName := long.take (slot.take 11)
      let name := longName.getD (shortName slot)
      let others := parseFrom fatType (index + 1) long.reset longStart rest
      if name = ['.'] ∨ name = ['.', '.'] then others
      else
        {
          entry := readEntry fatType slot name
          start := if longName.isSome then longStart else index
          stop := index + 1
        } :: others

def slotsOf (bytes : List UInt8) : List Slot := chunks dirEntrySize bytes

def parseLocated (bytes : List UInt8) (fatType : FatType) : List Located :=
  parseFrom fatType 0 .new 0 (slotsOf bytes)

def parseEntries (bytes : List UInt8) (fatType : FatType) : List DirEntry :=
  (parseLocated bytes fatType).map Located.entry

end RustyPi.Fat
