import RustyPi.Lib.Bytes
import RustyPi.Memory.Frames

/-! User address spaces of `rustypi-core/src/paging.rs`: their tables and pages are page frames, and
the tables are in memory in the layout that the MMU walks.
-/

namespace RustyPi.Memory

open RustyPi.Leases

def userBase : Nat := 0x80000000

def userEnd : Nat := 0xC0000000

/-- Physical memory. -/
abbrev Ram := Nat → UInt8

/-- The entries of a translation table, 512 of them. -/
abbrev Table := Nat → Nat

def entries : Nat := 512

namespace Ram

/-- A word's bytes, low byte first, from `address` on. -/
def storeWord (address value : Nat) (ram : Ram) : Ram := fun place =>
  if address ≤ place ∧ place < address + 8 then UInt8.ofNat (value / 0x100 ^ (place - address))
  else ram place

def zeroPage (frame : Nat) (ram : Ram) : Ram := fun place =>
  if frame ≤ place ∧ place < frame + pageSize then 0 else ram place

def storeTable (frame : Nat) (table : Table) (ram : Ram) : Ram :=
  (List.range entries).foldl (fun ram index => ram.storeWord (frame + 8 * index) (table index)) ram

/-- The number in `count` bytes from `address` on, low byte first. -/
def loadLittle (ram : Ram) (address : Nat) : Nat → Nat
  | 0 => 0
  | count + 1 => (ram address).toNat + 0x100 * ram.loadLittle (address + 1) count

def loadWord (address : Nat) (ram : Ram) : Nat := ram.loadLittle address 8

def storeBytes (address : Nat) (bytes : List UInt8) (ram : Ram) : Ram := fun place =>
  if address ≤ place then bytes[place - address]?.getD (ram place) else ram place

def loadBytes (address count : Nat) (ram : Ram) : List UInt8 :=
  (List.range count).map (fun offset => ram (address + offset))

end Ram

/-- What running code of an address space does: it allocates and frees frames and writes memory. -/
abbrev Paging := Program Nat Ram

def zeroedFrame : Paging (Option Nat) := do
  let some frame ← Program.taken | return none
  Program.modified (Ram.zeroPage frame)
  return some frame

----------
-- Descriptors
----------

def valid : Nat := 1 <<< 0

/-- At levels 1 and 2: points to a table rather than being a block. At level 3: required. -/
def tableOrPage : Nat := 1 <<< 1

def attrNormal : Nat := 0 <<< 2

def apEl0 : Nat := 1 <<< 6

def apReadOnly : Nat := 1 <<< 7

def innerShareable : Nat := 3 <<< 8

def accessFlag : Nat := 1 <<< 10

def notGlobal : Nat := 1 <<< 11

def privilegedExecuteNever : Nat := 1 <<< 53

def userExecuteNever : Nat := 1 <<< 54

def addressMask : Nat := 0x0000FFFFFFFFF000

inductive Access
  | readOnly
  | readWrite
  | readExecute
  deriving DecidableEq, Repr

def Access.descriptorBits (access : Access) : Nat :=
  let common := valid ||| tableOrPage ||| attrNormal ||| apEl0 ||| innerShareable ||| accessFlag
    ||| notGlobal ||| privilegedExecuteNever
  match access with
  | .readOnly => common ||| apReadOnly ||| userExecuteNever
  | .readWrite => common ||| userExecuteNever
  | .readExecute => common ||| apReadOnly

def Access.all : List Access := [.readOnly, .readWrite, .readExecute]

def Access.fromDescriptor (descriptor : Nat) : Option Access :=
  Access.all.find? (fun access =>
    access.descriptorBits = descriptor &&& (wordLimit - 1 - addressMask))

def Access.writable (access : Access) : Bool := access = .readWrite

inductive MapError
  | notAligned
  | outsideWindow
  | alreadyMapped
  | outOfMemory
  deriving DecidableEq, Repr

/-- A program may not access `address` that way: it is unmapped, or not writable. -/
structure AccessFault where
  address : Nat
  deriving DecidableEq, Repr

def level1Index (va : Nat) : Nat := (va >>> 30) % entries

def level2Index (va : Nat) : Nat := (va >>> 21) % entries

def level3Index (va : Nat) : Nat := (va >>> 12) % entries

----------
-- Address spaces
----------

/-- `BTreeMap::insert` on the pairs in order of their keys. -/
def insertKey (key value : Nat) : List (Nat × Nat) → List (Nat × Nat)
  | [] => [(key, value)]
  | (other, old) :: rest =>
    if key < other then (key, value) :: (other, old) :: rest
    else if key = other then (key, value) :: rest
    else (other, old) :: insertKey key value rest

structure AddressSpace where
  /-- Physical addresses of its tables. -/
  root : Nat
  level2 : Nat
  /-- By level 2 index. -/
  level3 : List (Nat × Nat)
  /-- Physical addresses of its pages, by virtual address. -/
  frames : List (Nat × Nat)
  deriving DecidableEq, Repr

namespace AddressSpace

/-- An address space with the kernel's entries and nothing mapped in the user window. -/
def new (kernel : Table) : Paging (Option AddressSpace) := do
  let some root ← zeroedFrame | return none
  let some level2 ← zeroedFrame
    | do
      Program.given root
      return none
  Program.modified (Ram.storeTable root kernel)
  Program.modified
    (Ram.storeWord (root + 8 * level1Index userBase) (level2 ||| valid ||| tableOrPage))
  return some { root, level2, level3 := [], frames := [] }

/-- The level 3 table for `va`, which is made if there is none. -/
def level3For (space : AddressSpace) (va : Nat) : Paging (AddressSpace × Option Nat) :=
  match space.level3.lookup (level2Index va) with
  | some level3 => return (space, some level3)
  | none => do
      let some level3 ← zeroedFrame | return (space, none)
      Program.modified
        (Ram.storeWord (space.level2 + 8 * level2Index va) (level3 ||| valid ||| tableOrPage))
      return ({ space with level3 := insertKey (level2Index va) level3 space.level3 }, some level3)

/-- Maps a zeroed page at `va`. -/
def map (space : AddressSpace) (va : Nat) (access : Access)
    : Paging (AddressSpace × Except MapError Unit) :=
  if va % pageSize ≠ 0 then return (space, .error .notAligned)
  else if ¬ (userBase ≤ va ∧ va < userEnd) then return (space, .error .outsideWindow)
  else if (space.frames.lookup va).isSome then return (space, .error .alreadyMapped)
  else do
    match ← space.level3For va with
    | (space, none) => return (space, .error .outOfMemory)
    | (space, some level3) => do
        let some frame ← zeroedFrame | return (space, .error .outOfMemory)
        Program.modified
          (Ram.storeWord (level3 + 8 * level3Index va) (frame ||| access.descriptorBits))
        return ({ space with frames := insertKey va frame space.frames }, .ok ())

/-- Maps pages from `va` on until one fails. -/
def mapPages (access : Access) (space : AddressSpace)
    : Nat → Nat → Paging (AddressSpace × Except MapError Unit)
  | 0, _ => return (space, .ok ())
  | count + 1, va => do
      match ← space.map va access with
      | (space, .error error) => return (space, .error error)
      | (space, .ok ()) => mapPages access space count (va + pageSize)

/-- Maps zeroed pages over `start..start + len`. -/
def mapRange (space : AddressSpace) (start len : Nat) (access : Access)
    : Paging (AddressSpace × Except MapError Unit) :=
  if wordLimit ≤ start + len then return (space, .error .outsideWindow)
  else mapPages access space ((len + pageSize - 1) / pageSize) start

/-- All frames it uses, in the order they are freed: its pages, then its tables. -/
def allFrames (space : AddressSpace) : List Nat :=
  space.frames.map Prod.snd ++ ([space.root, space.level2] ++ space.level3.map Prod.snd)

def freeAll : List Nat → Paging Unit
  | [] => return ()
  | frame :: rest => do
      Program.given frame
      freeAll rest

def drop (space : AddressSpace) : Paging Unit := freeAll space.allFrames

/-- The TTBR0 value that makes this the current address space, tagged with `asid`. -/
def translationBase (space : AddressSpace) (asid : Nat) : Nat := space.root ||| asid <<< 48

def pages (space : AddressSpace) : Nat := space.frames.length

----------
-- The table walk
----------

/-- The table that a descriptor points to. -/
def next (descriptor : Nat) : Option Nat :=
  if descriptor &&& (valid ||| tableOrPage) = valid ||| tableOrPage then
    some (descriptor &&& addressMask)
  else none

/-- The level 3 descriptor for `va`, found by walking the tables like the MMU does. -/
def descriptor (space : AddressSpace) (va : Nat) (ram : Ram) : Option Nat :=
  if ¬ (userBase ≤ va ∧ va < userEnd) then none
  else do
    let level2 ← next (ram.loadWord (space.root + 8 * level1Index va))
    let level3 ← next (ram.loadWord (level2 + 8 * level2Index va))
    let descriptor := ram.loadWord (level3 + 8 * level3Index va)
    if descriptor &&& valid ≠ 0 then some descriptor else none

/-- Where `va` is in physical memory, and how the program may use it. -/
def translate (space : AddressSpace) (va : Nat) (ram : Ram) : Option (Nat × Access) := do
  let descriptor ← space.descriptor va ram
  let access ← Access.fromDescriptor descriptor
  return ((descriptor &&& addressMask) ||| va % pageSize, access)

/-- Runs `body` on each page-sized piece of `va..va + len` from offset `done_` on: its physical
address, its offset in the range, and its length. Stops at the first piece that `allowed` refuses.
-/
def forEachPiece {State : Type} (space : AddressSpace) (va len : Nat) (allowed : Access → Bool)
    (body : Nat → Nat → Nat → State → Paging State) (done_ : Nat) (state : State)
    : Paging (State × Except AccessFault Unit) :=
  if _ : done_ < len then
    if wordLimit ≤ va + done_ then return (state, .error ⟨wordLimit - 1⟩)
    else do
      match space.translate (va + done_) (← Program.looked) with
      | some (physical, access) =>
        if allowed access then
          let piece := min (pageSize - (va + done_) % pageSize) (len - done_)
          let state ← body physical done_ piece state
          space.forEachPiece va len allowed body (done_ + piece) state
        else return (state, .error ⟨va + done_⟩)
      | none => return (state, .error ⟨va + done_⟩)
  else return (state, .ok ())
termination_by len - done_
decreasing_by
  have : (va + done_) % pageSize < pageSize := Nat.mod_lt _ (by decide)
  omega

/-- Copies `bytes` into the pages at `va` as far as `allowed`. -/
def copyIn (space : AddressSpace) (allowed : Access → Bool) (va : Nat) (bytes : List UInt8)
    : Paging (Except AccessFault Unit) := do
  let (_, result) ← space.forEachPiece va bytes.length allowed
    (fun physical offset len _ =>
      Program.modified (Ram.storeBytes physical ((bytes.drop offset).take len)))
    0 ()
  return result

/-- Copies `bytes` into mapped pages at `va`, whatever the program may do with them. -/
def load (space : AddressSpace) (va : Nat) (bytes : List UInt8)
    : Paging (Except AccessFault Unit) :=
  space.copyIn (fun _ => true) va bytes

/-- Copies `bytes` into program memory at `va`, if the program could write all of it. -/
def writeUser (space : AddressSpace) (va : Nat) (bytes : List UInt8)
    : Paging (Except AccessFault Unit) :=
  space.copyIn Access.writable va bytes

/-- Copies program memory at `va` into `buf`, if the program could read all of it. -/
def readUser (space : AddressSpace) (va : Nat) (buf : List UInt8)
    : Paging (List UInt8 × Except AccessFault Unit) :=
  space.forEachPiece va buf.length (fun _ => true)
    (fun physical offset len buf => do
      return Bytes.splice buf offset (Ram.loadBytes physical len (← Program.looked)))
    0 buf

end AddressSpace

end RustyPi.Memory
