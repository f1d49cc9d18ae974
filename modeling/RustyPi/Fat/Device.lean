import RustyPi.Fat.Names
import RustyPi.Lib.Bytes
import RustyPi.Lib.Journal

/-! Block devices, as `rustypi-core/src/block.rs` has them: 512-byte blocks, read and written by
number. A device may report an error at any call, and a write that reports one may have reached
the disk all the same. Every block that reaches the disk is noted in order, which is what a
power cut can be anywhere in.
-/

namespace RustyPi.Fat

open RustyPi.Bytes RustyPi.Journal

def blockSize : Nat := 512

structure Block where
  bytes : List UInt8
  sized : bytes.length = blockSize
  deriving DecidableEq

/-- The first 512 of `bytes`, filled up with zeros. -/
def Block.ofBytes (bytes : List UInt8) : Block where
  bytes := (bytes ++ List.replicate blockSize 0).take blockSize
  sized := by
    rw [List.length_take, List.length_append, List.length_replicate]
    omega

theorem Block.ofBytes_bytes {bytes : List UInt8} (sized : bytes.length = blockSize)
    : (Block.ofBytes bytes).bytes = bytes := by
  show (bytes ++ _).take blockSize = bytes
  rw [← sized, List.take_left]

/-- `block` with `new` copied over it from byte `at_` on. -/
def Block.copy (block : Block) (at_ : Nat) (new : List UInt8) : Block :=
  Block.ofBytes (splice block.bytes at_ new)

theorem Block.copy_bytes (block : Block) {at_ : Nat} {new : List UInt8}
    (fits : at_ + new.length ≤ blockSize)
    : (block.copy at_ new).bytes = splice block.bytes at_ new :=
  Block.ofBytes_bytes (by rw [splice_length (by rw [block.sized]; exact fits), block.sized])

/-- The blocks of `bytes`; a rest too short for one is left out. -/
def blocksOf (bytes : List UInt8) : List Block := (chunks blockSize bytes).map Block.ofBytes

/-- The bytes of blocks one after the other. -/
def bytesOf (blocks : List Block) : List UInt8 := blocks.flatMap Block.bytes

/-- Blocks by number (logical block address). -/
abbrev Disk := Nat → Block

/-- What became of a block whose write reported an error. -/
inductive Effect
  | lost
  | reached
  | garbled (block : Block)
  deriving DecidableEq

/-- How one device call goes: a failed one names its error, and what became of each block it
was to write (lost, where nothing is said).
-/
inductive Fault
  | none
  | failed (error : DeviceError) (effects : List Effect)
  deriving DecidableEq

/-- A disk, the blocks that reached it in order, and how the next calls go: when `plan` has run
out, calls succeed.
-/
structure Device where
  disk : Disk
  written : List (Nat × Block)
  plan : List Fault

namespace Device

def next (device : Device) : Fault := device.plan.headD .none

def called (device : Device) : Device := { device with plan := device.plan.tail }

/-- Lets writes reach the disk. -/
def land (device : Device) (writes : List (Nat × Block)) : Device :=
  { device with
    disk := replay device.disk writes
    written := device.written ++ writes }

/-- `blocks` with the numbers from `lba` on. -/
def numbered (lba : Nat) (blocks : List Block) : List (Nat × Block) :=
  blocks.mapIdx (fun i block => (lba + i, block))

/-- The writes that reach the disk although their call fails. -/
def landed (writes : List (Nat × Block)) (effects : List Effect) : List (Nat × Block) :=
  (writes.zip effects).filterMap (fun (write, effect) =>
    match effect with
    | .lost => none
    | .reached => some write
    | .garbled block => some (write.1, block))

def readBlock (device : Device) (lba : Nat) : Except DeviceError Block × Device :=
  match device.next with
  | .none => (.ok (device.disk lba), device.called)
  | .failed error _ => (.error error, device.called)

/-- Reads `count` blocks from `lba` on, in one call. -/
def readBlocks (device : Device) (lba : Nat) (count : Nat)
    : Except DeviceError (List Block) × Device :=
  match device.next with
  | .none => (.ok ((List.range count).map (fun i => device.disk (lba + i))), device.called)
  | .failed error _ => (.error error, device.called)

/-- Writes `blocks` from `lba` on, in one call. -/
def writeBlocks (device : Device) (lba : Nat) (blocks : List Block)
    : Except DeviceError Unit × Device :=
  match device.next with
  | .none => (.ok (), device.called.land (numbered lba blocks))
  | .failed error effects =>
    (.error error, device.called.land (landed (numbered lba blocks) effects))

end Device

end RustyPi.Fat
