import Mathlib.Data.List.Induction
import RustyPi.Update.Receiving

/-! What comes out of the receiver. Against any datagrams, an image that comes out is made of the
chunks that arrived first since the update began, all of them.
-/

namespace RustyPi.Update

open RustyPi.Bytes

/-- What happens to the receiver. -/
inductive Input
  | datagram (bytes : List UInt8)
  | reset
  deriving DecidableEq, Repr

def Receiver.step (receiver : Receiver) : Input → Option Receiver
  | .datagram bytes => (receiver.handle bytes).map Prod.fst
  | .reset => some receiver.reset

/-- The receiver after everything that happened. -/
def Receiver.run (inputs : List Input) : Option Receiver := inputs.foldlM Receiver.step .new

/-- The first bytes that arrived for a chunk. -/
def firstOf (size index : Nat) (since : List (List UInt8)) : Option (List UInt8) :=
  since.findSome? (chunkOf size index)

/-- A transfer has exactly what arrived since it began. -/
structure Assembled (transfer : Transfer) (size : Nat) (crc : UInt32)
    (since : List (List UInt8))
    : Prop where
  sized : transfer.image.length = size
  crc : transfer.crc = crc
  flags : transfer.arrived.length = chunkCount size
  arrived
    : ∀ index, index * chunk < size
        → transfer.arrived[index]? = some (firstOf size index since).isSome
  bytes
    : ∀ index, index * chunk < size
        → ∀ bytes, firstOf size index since = some bytes → part chunk index transfer.image = bytes
  missing : transfer.missing = transfer.arrived.count false

/-- The update in progress, if there is one, began with the last datagram that began one. -/
def Tracks (receiver : Receiver) (inputs : List Input) : Prop :=
  ∀ transfer ∈ receiver.transfer, ∃ before begins since size crc,
    inputs = before ++ .datagram begins :: since.map .datagram
    ∧ announced begins = some (size, crc)
    ∧ (∀ datagram ∈ since, announced datagram = none)
    ∧ Assembled transfer size crc since

variable {transfer : Transfer} {size : Nat} {crc : UInt32} {since : List (List UInt8)}
variable {datagram : List UInt8}

theorem Assembled.valid (assembled : Assembled transfer size crc since)
    : transfer.Valid where
  flags := by rw [assembled.flags, assembled.sized]
  missing := assembled.missing

theorem Tracks.valid {receiver : Receiver} {inputs : List Input} (tracks : Tracks receiver inputs)
    : receiver.Valid := by
  intro transfer going
  obtain ⟨_, _, _, _, _, _, _, _, assembled⟩ := tracks transfer going
  exact assembled.valid

theorem assembled_begun (size : Nat) (crc : UInt32)
    : Assembled (.begun size crc) size crc [] where
  sized := List.length_replicate
  crc := rfl
  flags := List.length_replicate
  arrived := by
    intro index inside
    exact List.getElem?_replicate_of_lt (lt_chunkCount.mpr inside)
  bytes := by rintro index _ bytes ⟨⟩
  missing := (valid_begun size crc).missing

theorem firstOf_append (size index : Nat) (since : List (List UInt8)) (datagram : List UInt8)
    : firstOf size index (since ++ [datagram])
      = (firstOf size index since).or (chunkOf size index datagram) := by
  simp [firstOf, List.findSome?_append]

/-- A datagram that brings no chunk that is missing changes nothing. -/
theorem Assembled.skipped (assembled : Assembled transfer size crc since)
    (nothing
      : ∀ index, index * chunk < size → firstOf size index since = none
          → chunkOf size index datagram = none)
    : Assembled transfer size crc (since ++ [datagram]) := by
  have same : ∀ index, index * chunk < size
      → firstOf size index (since ++ [datagram]) = firstOf size index since := by
    intro index inside
    rw [firstOf_append]
    cases first : firstOf size index since with
    | none => rw [nothing index inside first, Option.none_or]
    | some bytes => rw [Option.some_or]
  refine { assembled with arrived := ?_, bytes := ?_ }
  · intro index inside
    rw [same index inside]
    exact assembled.arrived index inside
  · intro index inside bytes first
    rw [same index inside] at first
    exact assembled.bytes index inside bytes first

theorem chunkOf_unique {one other : Nat} {bytes bytes' : List UInt8}
    (first : chunkOf size one datagram = some bytes)
    (second : chunkOf size other datagram = some bytes')
    : one = other := by
  obtain ⟨_, located, _⟩ := chunkOf_inv first
  obtain ⟨_, located', _⟩ := chunkOf_inv second
  have same : one * chunk = other * chunk := Option.some.inj (located.symm.trans located')
  exact Nat.eq_of_mul_eq_mul_right (by decide) same

theorem Assembled.stored (assembled : Assembled transfer size crc since) {bytes : List UInt8}
    {index : Nat} (inside : index * chunk < size) (found : chunkOf size index datagram = some bytes)
    (missing : transfer.arrived[index]? = some false)
    : Assembled
        { transfer with
          image := splice transfer.image (index * chunk) bytes
          arrived := transfer.arrived.set index true
          missing := transfer.missing - 1 }
        size crc (since ++ [datagram]) := by
  obtain ⟨_, _, _, length⟩ := chunkOf_inv found
  rw [← assembled.sized] at inside length
  have fits : index * chunk + bytes.length ≤ transfer.image.length := by omega
  have known : index < transfer.arrived.length := (List.getElem?_eq_some_iff.mp missing).1
  have first : firstOf size index since = none := by
    have flag := assembled.arrived index (assembled.sized ▸ inside)
    rw [missing, Option.some.injEq] at flag
    exact Option.isSome_eq_false_iff.mp flag.symm |> Option.isNone_iff_eq_none.mp
  have others : ∀ other, other ≠ index
      → firstOf size other (since ++ [datagram]) = firstOf size other since := by
    intro other different
    rw [firstOf_append]
    cases found' : chunkOf size other datagram with
    | none => rw [Option.or_none]
    | some _ => exact absurd (chunkOf_unique found' found) different
  have here : firstOf size index (since ++ [datagram]) = some bytes := by
    rw [firstOf_append, first, found, Option.none_or]
  constructor
  case sized => rw [splice_length fits, assembled.sized]
  case crc => exact assembled.crc
  case flags => rw [List.length_set, assembled.flags]
  case arrived =>
    intro other inside'
    rw [List.getElem?_set]
    split
    · rename_i same
      rw [← same, here]
      rfl
    · rename_i different
      rw [others other (Ne.symm different)]
      exact assembled.arrived other inside'
  case bytes =>
    intro other inside' bytes' first'
    by_cases same : other = index
    · subst same
      rw [here] at first'
      obtain rfl := Option.some.inj first'
      exact part_splice length inside
    · rw [others other same] at first'
      rw [part_splice_of_ne same length inside]
      exact assembled.bytes other inside' bytes' first'
  case missing => exact (assembled.valid.stored missing fits).missing

theorem Tracks.handled {receiver after : Receiver} {inputs : List Input} {response : Response}
    (tracks : Tracks receiver inputs) (handled : Handled receiver datagram after response)
    : Tracks after (inputs ++ [.datagram datagram]) := by
  intro transfer going
  cases handled with
  | begun begins =>
    rename_i size crc
    cases going
    exact ⟨inputs, datagram, [], size, crc, rfl, begins, by simp, assembled_begun size crc⟩
  | dropped | complete => cases going
  | refused others noChunk =>
    obtain ⟨before, begins, since, size, crc, rfl, announces, none, assembled⟩ :=
      tracks transfer going
    have noChunk := noChunk transfer going
    rw [assembled.sized] at noChunk
    refine ⟨before, begins, since ++ [datagram], size, crc, by simp, announces, ?_,
      assembled.skipped (fun index inside _ => noChunk index inside)⟩
    simpa [or_imp, forall_and] using ⟨none, others⟩
  | again going' others inside found arrived =>
    rename_i transfer' index bytes
    obtain rfl : transfer' = transfer := Option.some.inj (going'.symm.trans going)
    obtain ⟨before, begins, since, size, crc, rfl, announces, none, assembled⟩ :=
      tracks transfer' going
    rw [assembled.sized] at inside found
    refine ⟨before, begins, since ++ [datagram], size, crc, by simp, announces, ?_,
      assembled.skipped ?_⟩
    · simpa [or_imp, forall_and] using ⟨none, others⟩
    · intro other inside' missing
      cases found' : chunkOf size other datagram with
      | none => rfl
      | some _ =>
        obtain rfl := chunkOf_unique found' found
        have flag := assembled.arrived other inside
        rw [arrived, missing] at flag
        cases flag
  | stored going' others inside found missing =>
    rename_i before' index bytes
    cases going
    obtain ⟨before, begins, since, size, crc, rfl, announces, none, assembled⟩ :=
      tracks before' going'
    rw [assembled.sized] at inside found
    refine ⟨before, begins, since ++ [datagram], size, crc, by simp, announces, ?_,
      assembled.stored inside found missing⟩
    simpa [or_imp, forall_and] using ⟨none, others⟩

/-- Nothing that happens makes the receiver panic, and it keeps track, by induction on what happened
last.
-/
theorem tracks_of_run (inputs : List Input)
    : ∃ receiver, Receiver.run inputs = some receiver ∧ Tracks receiver inputs := by
  induction inputs using List.reverseRecOn with
  | nil => exact ⟨.new, rfl, by rintro transfer ⟨⟩⟩
  | append_singleton earlier last ih =>
    obtain ⟨receiver, ran, tracks⟩ := ih
    have step : Receiver.run (earlier ++ [last]) = receiver.step last := by
      rw [Receiver.run, List.foldlM_append]
      rw [Receiver.run] at ran
      rw [ran]
      simp
    cases last with
    | reset => exact ⟨receiver.reset, step, by rintro transfer ⟨⟩⟩
    | datagram bytes =>
      obtain ⟨after, response, taken, handled⟩ := handled_of_valid tracks.valid bytes
      refine ⟨after, ?_, tracks.handled handled⟩
      rw [step, Receiver.step, taken]
      rfl

/-- Whatever happened to the receiver, it counts the chunks that haven't arrived, takes any datagram
without a panic, and what it lets out is a whole image: since the datagram that began the update,
every chunk arrived with its expected size, the image has the first bytes of each, and its CRC-32 is
the one announced.
-/
theorem complete_of_run (inputs : List Input)
    : ∃ receiver, Receiver.run inputs = some receiver
        ∧ Tracks receiver inputs
        ∧ ∀ datagram, ∃ after response,
            receiver.handle datagram = some (after, response)
            ∧ ∀ image, response = .complete image
              → ∃ before begins since size crc,
                  inputs = before ++ .datagram begins :: since.map .datagram
                  ∧ announced begins = some (size, crc)
                  ∧ (∀ other ∈ since, announced other = none)
                  ∧ image.length = size
                  ∧ crc32 image = crc
                  ∧ ∀ index, index * chunk < size → ∃ bytes,
                      firstOf size index since = some bytes
                      ∧ part chunk index image = bytes := by
  obtain ⟨receiver, ran, tracks⟩ := tracks_of_run inputs
  refine ⟨receiver, ran, tracks, fun datagram => ?_⟩
  obtain ⟨after, response, taken, handled⟩ := handled_of_valid tracks.valid datagram
  refine ⟨after, response, taken, fun image completes => ?_⟩
  cases handled with
  | begun | dropped | refused | again | stored => cases completes
  | complete going ends whole same =>
    rename_i transfer
    obtain rfl := Response.complete.inj completes
    obtain ⟨before, begins, since, size, crc, rfl, announces, none, assembled⟩ :=
      tracks transfer going
    refine ⟨before, begins, since, size, crc, rfl, announces, none, assembled.sized, ?_, ?_⟩
    · rw [← assembled.crc]
      exact same
    · intro index inside
      have flag := assembled.arrived index inside
      have noneMissing : false ∉ transfer.arrived := by
        rw [← List.count_eq_zero, ← assembled.missing]
        exact whole
      cases first : firstOf size index since with
      | none =>
        rw [first] at flag
        exact absurd (List.mem_of_getElem? flag) noneMissing
      | some bytes => exact ⟨bytes, rfl, assembled.bytes index inside bytes first⟩

end RustyPi.Update
