import Mathlib.Algebra.Group.Nat.Defs
import Mathlib.Data.Option.Basic
import RustyPi.Lib.Bytes
import RustyPi.Lib.Utf8

/-! Receiving a new kernel image, `rustypi-core/src/update.rs`. The sender announces the image's size
and CRC-32, sends its chunks and says when it is done.
-/

namespace RustyPi.Update

open RustyPi.Bytes

/-- Bytes of image in a data datagram, at most: every chunk but the last is this long. -/
def chunk : Nat := 1024

/-- The biggest image taken. -/
def maxImage : Nat := 8 * 1024 * 1024

/-- One bit of a CRC-32. -/
def crcBit (crc : UInt32) : UInt32 :=
  if crc &&& 1 != 0 then (crc >>> 1) ^^^ 0xEDB88320 else crc >>> 1

/-- CRC-32 (IEEE 802.3) of the data. -/
def crc32 (data : List UInt8) : UInt32 :=
  let crc := data.foldl
    (fun crc byte => (List.range 8).foldl (fun crc _ => crcBit crc) (crc ^^^ byte.toUInt32))
    0xFFFFFFFF
  ~~~crc

/-- What to do with a datagram's result. -/
inductive Response
  /-- Answer the sender with this. -/
  | reply (bytes : List UInt8)
  /-- The whole image arrived and its CRC-32 matches. -/
  | complete (image : List UInt8)
  deriving DecidableEq, Repr

def ascii (char : Char) : UInt8 := UInt8.ofNat char.toNat

def refuse (reason : String) : Response := .reply (ascii 'X' :: Utf8.encode reason.toList)

structure Transfer where
  crc : UInt32
  image : List UInt8
  /-- Which chunks have arrived. -/
  arrived : List Bool
  missing : Nat
  deriving DecidableEq, Repr

/-- Takes one update at a time. -/
structure Receiver where
  transfer : Option Transfer
  deriving DecidableEq, Repr

/-- The number at an offset, if the datagram reaches that far. -/
def word (datagram : List UInt8) (at_ : Nat) : Option Nat :=
  if at_ + 4 ≤ datagram.length then some (u32At datagram at_) else none

def chunkCount (size : Nat) : Nat := (size + (chunk - 1)) / chunk

/-- An update that nothing has arrived of. -/
def Transfer.begun (size : Nat) (crc : UInt32) : Transfer :=
  { crc, image := List.replicate size 0, arrived := List.replicate (chunkCount size) false
    missing := chunkCount size }

/-- Copies a chunk into the image. Nothing if that is out of range or the count would underflow. -/
def Transfer.put (transfer : Transfer) (offset : Nat) (bytes : List UInt8) : Option Transfer := do
  let arrived ← transfer.arrived[offset / chunk]?
  if arrived then return transfer
  if offset + bytes.length ≤ transfer.image.length ∧ transfer.missing ≠ 0 then
    return { transfer with
      image := splice transfer.image offset bytes
      arrived := transfer.arrived.set (offset / chunk) true
      missing := transfer.missing - 1 }
  else none

/-- The answer to a chunk. -/
def ack (offset : Nat) : List UInt8 := ascii 'A' :: le32 offset

namespace Receiver

def new : Receiver := { transfer := none }

def reset (_ : Receiver) : Receiver := { transfer := none }

def handleBegin (receiver : Receiver) (datagram : List UInt8) : Receiver × Response :=
  match word datagram 1, word datagram 5 with
  | some size, some crc =>
    if size = 0 ∨ maxImage < size then ({ transfer := none }, refuse "bad size")
    else
      ({ transfer := some (Transfer.begun size (UInt32.ofNat crc)) }, .reply [ascii 'K'])
  | _, _ => (receiver, refuse "short begin")

def handleData (receiver : Receiver) (datagram : List UInt8) : Option (Receiver × Response) :=
  match receiver.transfer with
  | none => some (receiver, refuse "not begun")
  | some transfer =>
    match word datagram 1 with
    | none => some (receiver, refuse "short data")
    | some offset =>
      let bytes := datagram.drop 5
      let expected := min (transfer.image.length - offset) chunk
      -- Chunks start on chunk boundaries and fill them, all but the last.
      if offset % chunk ≠ 0 ∨ transfer.image.length ≤ offset ∨ bytes.length ≠ expected then
        some (receiver, refuse "bad chunk")
      else
        (transfer.put offset bytes).map
          (fun transfer => ({ transfer := some transfer }, .reply (ack offset)))

def handleEnd (receiver : Receiver) : Receiver × Response :=
  match receiver.transfer with
  | none => (receiver, refuse "not begun")
  | some transfer =>
    if transfer.missing ≠ 0 then (receiver, refuse "chunks missing")
    else if crc32 transfer.image ≠ transfer.crc then
      ({ transfer := none }, refuse "CRC-32 mismatch")
    else ({ transfer := none }, .complete transfer.image)

/-- Takes a datagram from the sender. Nothing if that panics. -/
def handle (receiver : Receiver) (datagram : List UInt8) : Option (Receiver × Response) :=
  match datagram with
  | [] => some (receiver, refuse "unknown")
  | kind :: _ =>
    if kind = ascii 'B' then some (receiver.handleBegin datagram)
    else if kind = ascii 'D' then receiver.handleData datagram
    else if kind = ascii 'E' then some receiver.handleEnd
    else some (receiver, refuse "unknown")

end Receiver

/-- The size and CRC-32 that a datagram announces, if it begins an update. -/
def announced (datagram : List UInt8) : Option (Nat × UInt32) := do
  guard (datagram.head? = some (ascii 'B'))
  let size ← word datagram 1
  let crc ← word datagram 5
  guard (size ≠ 0 ∧ size ≤ maxImage)
  return (size, UInt32.ofNat crc)

/-- What a datagram has for a chunk of an image, if it has exactly the bytes that are expected. -/
def chunkOf (size index : Nat) (datagram : List UInt8) : Option (List UInt8) :=
  if datagram.head? = some (ascii 'D') ∧ word datagram 1 = some (index * chunk)
      ∧ (datagram.drop 5).length = min chunk (size - index * chunk) then
    some (datagram.drop 5)
  else none

/-- The flags and the count of a transfer fit its image. -/
structure Transfer.Valid (transfer : Transfer) : Prop where
  flags : transfer.arrived.length = chunkCount transfer.image.length
  missing : transfer.missing = transfer.arrived.count false

def Receiver.Valid (receiver : Receiver) : Prop :=
  ∀ transfer ∈ receiver.transfer, transfer.Valid

variable {size index : Nat} {datagram bytes : List UInt8} {receiver : Receiver}

theorem lt_chunkCount : index < chunkCount size ↔ index * chunk < size := by
  rw [chunkCount, Nat.lt_div_iff_mul_lt (by decide)]
  simp only [chunk]
  omega

theorem valid_begun (size : Nat) (crc : UInt32) : (Transfer.begun size crc).Valid where
  flags := by simp [Transfer.begun]
  missing := by simp [Transfer.begun]

theorem Transfer.Valid.stored {transfer : Transfer} (valid : transfer.Valid)
    (missing : transfer.arrived[index]? = some false)
    (fits : index * chunk + bytes.length ≤ transfer.image.length)
    : Transfer.Valid { transfer with
        image := splice transfer.image (index * chunk) bytes
        arrived := transfer.arrived.set index true
        missing := transfer.missing - 1 } where
  flags := by rw [List.length_set, splice_length fits, valid.flags]
  missing := by
    obtain ⟨known, get⟩ := List.getElem?_eq_some_iff.mp missing
    rw [List.count_set known, get]
    simp [valid.missing]

/-- The ways a datagram is taken. -/
inductive Handled (receiver : Receiver) (datagram : List UInt8) : Receiver → Response → Prop
  | begun {size crc} (begins : announced datagram = some (size, crc))
    : Handled receiver datagram { transfer := some (.begun size crc) } (.reply [ascii 'K'])
  | dropped {reason} (others : announced datagram = none)
    (noData : datagram.head? ≠ some (ascii 'D'))
    : Handled receiver datagram { transfer := none } (refuse reason)
  | refused {reason} (others : announced datagram = none)
    (noChunk
      : ∀ transfer ∈ receiver.transfer, ∀ index,
          index * chunk < transfer.image.length
          → chunkOf transfer.image.length index datagram = none)
    : Handled receiver datagram receiver (refuse reason)
  | again {transfer index bytes}
    (going : receiver.transfer = some transfer) (others : announced datagram = none)
    (inside : index * chunk < transfer.image.length)
    (found : chunkOf transfer.image.length index datagram = some bytes)
    (arrived : transfer.arrived[index]? = some true)
    : Handled receiver datagram receiver (.reply (ack (index * chunk)))
  | stored {transfer index bytes}
    (going : receiver.transfer = some transfer) (others : announced datagram = none)
    (inside : index * chunk < transfer.image.length)
    (found : chunkOf transfer.image.length index datagram = some bytes)
    (missing : transfer.arrived[index]? = some false)
    : Handled receiver datagram
        { transfer := some { transfer with
            image := splice transfer.image (index * chunk) bytes
            arrived := transfer.arrived.set index true
            missing := transfer.missing - 1 } }
        (.reply (ack (index * chunk)))
  | complete {transfer} (going : receiver.transfer = some transfer)
    (ends : datagram.head? = some (ascii 'E')) (whole : transfer.missing = 0)
    (matches_ : crc32 transfer.image = transfer.crc)
    : Handled receiver datagram { transfer := none } (.complete transfer.image)

theorem announced_of_head (other : datagram.head? ≠ some (ascii 'B'))
    : announced datagram = none := by
  rw [announced, guard, if_neg other]
  rfl

theorem announced_of_words {crc : Nat} (head : datagram.head? = some (ascii 'B'))
    (first : word datagram 1 = some size) (second : word datagram 5 = some crc)
    : announced datagram
      = if size ≠ 0 ∧ size ≤ maxImage then some (size, UInt32.ofNat crc) else none := by
  split
  · rename_i good
    simp [announced, head, first, second, guard, good]
  · rename_i bad
    simp [announced, head, first, second, guard, bad]

theorem chunkOf_of_head (other : datagram.head? ≠ some (ascii 'D'))
    : chunkOf size index datagram = none := by
  rw [chunkOf, if_neg (fun found => other found.1)]

theorem chunkOf_inv (found : chunkOf size index datagram = some bytes)
    : datagram.head? = some (ascii 'D') ∧ word datagram 1 = some (index * chunk)
      ∧ bytes = datagram.drop 5 ∧ bytes.length = min chunk (size - index * chunk) := by
  unfold chunkOf at found
  split at found
  · rename_i parts
    cases found
    exact ⟨parts.1, parts.2.1, rfl, parts.2.2⟩
  · cases found

theorem handled_begin (receiver : Receiver) (head : datagram.head? = some (ascii 'B'))
    : Handled receiver datagram (receiver.handleBegin datagram).1
        (receiver.handleBegin datagram).2 := by
  have noChunk : ∀ size index, chunkOf size index datagram = none :=
    fun _ _ => chunkOf_of_head (by rw [head]; decide)
  unfold Receiver.handleBegin
  split
  · rename_i size crc first second
    split
    · rename_i bad
      refine .dropped ?_ (by rw [head]; decide)
      rw [announced_of_words head first second, if_neg (by omega)]
    · rename_i good
      refine .begun ?_
      rw [announced_of_words head first second, if_pos (by omega)]
  · rename_i short
    refine .refused ?_ (fun _ _ _ _ => noChunk _ _)
    cases first : word datagram 1 with
    | none => simp [announced, first]
    | some size =>
      cases second : word datagram 5 with
      | none => simp [announced, second]
      | some crc => exact absurd second (short size crc first)

theorem handled_data (valid : receiver.Valid) (head : datagram.head? = some (ascii 'D'))
    : ∃ after response, receiver.handleData datagram = some (after, response)
        ∧ Handled receiver datagram after response := by
  have others : announced datagram = none := announced_of_head (by rw [head]; decide)
  unfold Receiver.handleData
  split
  · rename_i idle
    exact ⟨_, _, rfl, .refused others (by simp [idle])⟩
  · rename_i transfer going
    split
    · rename_i short
      refine ⟨_, _, rfl, .refused others ?_⟩
      intro transfer _ index _
      simp [chunkOf, short]
    · rename_i offset located
      dsimp only
      split
      · rename_i bad
        refine ⟨_, _, rfl, .refused others ?_⟩
        intro transfer' going' index inside
        obtain rfl : transfer = transfer' := Option.some.inj (going.symm.trans going')
        rw [chunkOf, if_neg]
        rintro ⟨_, found, sized⟩
        obtain rfl : offset = index * chunk := Option.some.inj (located.symm.trans found)
        rw [Nat.mul_mod_left, Nat.min_comm] at bad
        omega
      · rename_i good
        have aligned : offset / chunk * chunk = offset := by
          have := Nat.div_add_mod' offset chunk
          omega
        generalize index_eq : offset / chunk = index at aligned
        obtain rfl := aligned
        have inside : index * chunk < transfer.image.length := by omega
        have sized : (datagram.drop 5).length
            = min chunk (transfer.image.length - index * chunk) := by
          rw [Nat.min_comm]
          omega
        have found : chunkOf transfer.image.length index datagram = some (datagram.drop 5) := by
          rw [chunkOf, if_pos ⟨head, located, sized⟩]
        have valid := valid transfer going
        have known : index < transfer.arrived.length := by
          rw [valid.flags]
          exact lt_chunkCount.mpr inside
        cases flag : transfer.arrived[index]? with
        | none =>
          rw [List.getElem?_eq_none_iff] at flag
          omega
        | some arrived =>
          cases arrived with
          | true =>
            have put : transfer.put (index * chunk) (datagram.drop 5) = some transfer := by
              simp [Transfer.put, index_eq, flag]
            have same : receiver = { transfer := some transfer } := by rw [← going]
            rw [put]
            refine ⟨_, _, rfl, ?_⟩
            rw [← same]
            exact .again going others inside found flag
          | false =>
            have missing : transfer.missing ≠ 0 := by
              rw [valid.missing]
              have counted := List.count_pos_iff.mpr (List.mem_of_getElem? flag)
              omega
            have room : index * chunk + (datagram.drop 5).length ≤ transfer.image.length := by
              omega
            have put : transfer.put (index * chunk) (datagram.drop 5)
                = some { transfer with
                    image := splice transfer.image (index * chunk) (datagram.drop 5)
                    arrived := transfer.arrived.set index true
                    missing := transfer.missing - 1 } := by
              simp only [Transfer.put, index_eq, flag, bind, Option.bind_some]
              rw [if_neg (by decide), if_pos ⟨room, missing⟩]
              rfl
            rw [put]
            exact ⟨_, _, rfl, .stored going others inside found flag⟩

/-- The end of an update lets out a whole image whose CRC-32 matches. -/
theorem handled_end (receiver : Receiver) (head : datagram.head? = some (ascii 'E'))
    : Handled receiver datagram receiver.handleEnd.1 receiver.handleEnd.2 := by
  have others : announced datagram = none := announced_of_head (by rw [head]; decide)
  have noChunk : ∀ size index, chunkOf size index datagram = none :=
    fun _ _ => chunkOf_of_head (by rw [head]; decide)
  unfold Receiver.handleEnd
  split
  · exact .refused others (fun _ _ _ _ => noChunk _ _)
  · rename_i transfer going
    split
    · exact .refused others (fun _ _ _ _ => noChunk _ _)
    · rename_i whole
      split
      · exact .dropped others (by rw [head]; decide)
      · rename_i same
        exact .complete going head (not_not.mp whole) (not_not.mp same)

/-- Every datagram is taken in one of these ways, without a panic. -/
theorem handled_of_valid (valid : receiver.Valid) (datagram : List UInt8)
    : ∃ after response, receiver.handle datagram = some (after, response)
        ∧ Handled receiver datagram after response := by
  cases datagram with
  | nil =>
    exact ⟨_, _, rfl, .refused (announced_of_head (by simp))
      (fun _ _ _ _ => chunkOf_of_head (by simp))⟩
  | cons kind rest =>
    unfold Receiver.handle
    dsimp only
    split
    · rename_i begins
      exact ⟨_, _, rfl, handled_begin receiver (by rw [begins]; rfl)⟩
    · rename_i noBegin
      split
      · rename_i isData
        exact handled_data valid (by rw [isData]; rfl)
      · rename_i noData
        split
        · rename_i ends
          exact ⟨_, _, rfl, handled_end receiver (by rw [ends]; rfl)⟩
        · refine ⟨_, _, rfl, .refused (announced_of_head ?_) ?_⟩
          · exact fun same => noBegin (Option.some.inj same)
          · exact fun _ _ _ _ => chunkOf_of_head (fun same => noData (Option.some.inj same))

theorem Handled.valid {after : Receiver} {response : Response}
    (handled : Handled receiver datagram after response) (valid : receiver.Valid)
    : after.Valid := by
  intro transfer going
  cases handled with
  | begun =>
    cases going
    exact valid_begun _ _
  | dropped | complete => cases going
  | refused | again => exact valid transfer going
  | stored current others inside found missing =>
    cases going
    obtain ⟨_, _, _, length⟩ := chunkOf_inv found
    exact (valid _ current).stored missing (by omega)

end RustyPi.Update
