import RustyPi.Lib.Reach
import RustyPi.Update.Images

/-! The sender of an update, `tools/deploy.py`, and the receiver, over a network that may lose,
duplicate, delay and reorder datagrams: whatever was sent once may arrive at any time later, any
number of times.
-/

namespace RustyPi.Update

open RustyPi.Bytes RustyPi.Reach

/-- What the sender waits for. -/
inductive Phase
  | beginning
  | sending (index : Nat)
  | finishing
  | done
  /-- It was refused, or got no answer. -/
  | failed
  deriving DecidableEq, Repr

structure Deployment where
  sender : Phase
  receiver : Receiver
  /-- The datagrams that were sent. -/
  posted : List (List UInt8)
  /-- The answers that were sent. -/
  answers : List (List UInt8)
  /-- Whether the end of the update has reached the receiver. -/
  ended : Bool
  deriving DecidableEq

inductive DeployEvent
  /-- The sender sends its datagram, or sends it again. -/
  | send
  /-- A datagram reaches the receiver; if that completes the image, installing it may fail. -/
  | deliver (datagram : List UInt8) (error : Option (List UInt8))
  /-- An answer reaches the sender. -/
  | answer (answer : List UInt8)
  /-- The sender has sent its datagram often enough. -/
  | giveUp

/-- The first datagram; packing fails for a size that needs more than 32 bits. -/
def beginDatagram (image : List UInt8) : Option (List UInt8) :=
  if image.length < 2 ^ 32 then
    some (ascii 'B' :: le32 image.length ++ le32 (crc32 image).toNat)
  else none

def dataDatagram (image : List UInt8) (index : Nat) : List UInt8 :=
  ascii 'D' :: le32 (index * chunk) ++ part chunk index image

def endDatagram : List UInt8 := [ascii 'E']

def Phase.datagram (image : List UInt8) : Phase → Option (List UInt8)
  | .beginning => beginDatagram image
  | .sending index => some (dataDatagram image index)
  | .finishing => some endDatagram
  | .done | .failed => none

/-- The answer that the sender accepts. -/
def Phase.accepts : Phase → List UInt8 → Bool
  | .beginning, answer => answer = [ascii 'K']
  | .sending index, answer => answer = ack (index * chunk)
  | .finishing, answer => answer = [ascii 'F']
  | .done, _ | .failed, _ => false

/-- The chunk to send, or the end if there are no more. -/
def chunkOrEnd (image : List UInt8) (index : Nat) : Phase :=
  if index * chunk < image.length then .sending index else .finishing

def Phase.next (image : List UInt8) : Phase → Phase
  | .beginning => chunkOrEnd image 0
  | .sending index => chunkOrEnd image (index + 1)
  | .finishing => .done
  | .done => .done
  | .failed => .failed

/-- What the kernel answers. -/
def answerOf (error : Option (List UInt8)) : Response → List UInt8
  | .reply bytes => bytes
  | .complete _ => error.elim [ascii 'F'] (ascii 'X' :: ·)

namespace Deployment

/-- Nothing is sent yet; the receiver may have an old update in progress. -/
def start (receiver : Receiver) : Deployment :=
  { sender := .beginning, receiver, posted := [], answers := [], ended := false }

def step (image : List UInt8) (state : Deployment) : DeployEvent → Option Deployment
  | .send => do
      let datagram ← state.sender.datagram image
      return { state with posted := state.posted ++ [datagram] }
  | .deliver datagram error =>
    if datagram ∈ state.posted then do
      let (receiver, response) ← state.receiver.handle datagram
      return { state with
        receiver
        answers := state.answers ++ [answerOf error response]
        ended := state.ended || datagram = endDatagram }
    else none
  | .answer answer =>
    if answer ∈ state.answers ∧ state.sender ≠ .done ∧ state.sender ≠ .failed then
      if answer.head? = some (ascii 'X') then some { state with sender := .failed }
      else if state.sender.accepts answer then
        some { state with sender := state.sender.next image }
      else some state
    else none
  | .giveUp => some { state with sender := .failed }

/-- No copy of the datagram that begins the update comes late: the sender still waits for the answer
to it, or no chunk has arrived yet.
-/
def Timely (state : Deployment) : DeployEvent → Prop
  | .deliver datagram _ =>
    (announced datagram).isSome = true
    → state.sender = .beginning ∨ ∀ transfer ∈ state.receiver.transfer, true ∉ transfer.arrived
  | _ => True

instance (state : Deployment) (event : DeployEvent) : Decidable (state.Timely event) := by
  unfold Timely
  split <;> infer_instance

end Deployment

theorem word_append_le32 (first rest : List UInt8) {value : Nat} (small : value < 2 ^ 32)
    : word (first ++ (le32 value ++ rest)) first.length = some value := by
  rw [word, if_pos (by simp), u32At_append_le32,
    Nat.mod_eq_of_lt (show value < 0x100000000 from small)]

/-- The receiver takes the datagram that begins the update. -/
def Taken (image : List UInt8) : Prop := image.length ≠ 0 ∧ image.length ≤ maxImage

instance (image : List UInt8) : Decidable (Taken image) := inferInstanceAs (Decidable (_ ∧ _))

variable {image datagram : List UInt8}

theorem head_begin (begins : beginDatagram image = some datagram)
    : datagram.head? = some (ascii 'B') := by
  unfold beginDatagram at begins
  split at begins
  · cases begins
    rfl
  · cases begins

/-- The first datagram announces the image, unless that is empty or too big. -/
theorem announced_begin (begins : beginDatagram image = some datagram)
    : announced datagram
      = if Taken image then some (image.length, crc32 image) else none := by
  unfold beginDatagram at begins
  split at begins
  · rename_i small
    cases begins
    have size : word (ascii 'B' :: le32 image.length ++ le32 (crc32 image).toNat) 1
        = some image.length := word_append_le32 [ascii 'B'] _ small
    have crc : word (ascii 'B' :: le32 image.length ++ le32 (crc32 image).toNat) 5
        = some (crc32 image).toNat := by
      have found := word_append_le32 (ascii 'B' :: le32 image.length) [] (crc32 image).toNat_lt
      rw [List.append_nil] at found
      exact found
    rw [announced_of_words rfl size crc, UInt32.ofNat_toNat]
    rfl
  · cases begins

theorem chunkOf_data {index : Nat} (small : image.length < 2 ^ 32)
    (inside : index * chunk < image.length)
    : chunkOf image.length index (dataDatagram image index) = some (part chunk index image) := by
  have located : word (dataDatagram image index) 1 = some (index * chunk) :=
    word_append_le32 [ascii 'D'] _ (by omega)
  have bytes : (dataDatagram image index).drop 5 = part chunk index image :=
    List.drop_left' (by simp)
  rw [chunkOf, if_pos ⟨rfl, located, by rw [bytes, part_length]⟩, bytes]

theorem ack_injective {one other : Nat} (small : one < 2 ^ 32) (small' : other < 2 ^ 32)
    (same : ack one = ack other)
    : one = other := by
  have first := u32At_append_le32 [ascii 'A'] [] one
  have second := u32At_append_le32 [ascii 'A'] [] other
  rw [List.append_nil] at first second
  have numbers : u32At (ack one) 1 = u32At (ack other) 1 := by rw [same]
  rw [Nat.mod_eq_of_lt (show one < 0x100000000 from small)] at first
  rw [Nat.mod_eq_of_lt (show other < 0x100000000 from small')] at second
  exact first.symm.trans (numbers.trans second)

/-- A transfer of the sender's image: the chunks that arrived are the image's. -/
structure Ours (image : List UInt8) (transfer : Transfer) : Prop where
  valid : transfer.Valid
  sized : transfer.image.length = image.length
  crc : transfer.crc = crc32 image
  parts
    : ∀ index, transfer.arrived[index]? = some true
        → part chunk index transfer.image = part chunk index image

theorem ours_begun (image : List UInt8) : Ours image (.begun image.length (crc32 image)) where
  valid := valid_begun _ _
  sized := List.length_replicate
  crc := rfl
  parts := by
    intro index arrived
    rw [Transfer.begun, List.getElem?_replicate] at arrived
    split at arrived <;> cases arrived

/-- The image is whole once every chunk arrived. -/
theorem Ours.complete {transfer : Transfer} (ours : Ours image transfer)
    (arrived : ∀ index, index * chunk < image.length → transfer.arrived[index]? = some true)
    : transfer.missing = 0 ∧ transfer.image = image := by
  refine ⟨?_, ?_⟩
  · rw [ours.valid.missing, List.count_eq_zero]
    intro missing
    obtain ⟨index, flag⟩ := List.mem_iff_getElem?.mp missing
    have inside := (List.getElem?_eq_some_iff.mp flag).1
    rw [ours.valid.flags, ours.sized, lt_chunkCount] at inside
    rw [arrived index inside] at flag
    cases flag
  · have positive : 0 < chunk := by decide
    refine eq_of_parts positive (fun index inside => ?_) ours.sized
    rw [ours.sized] at inside
    exact ours.parts index (arrived index inside)

/-- A copy of a chunk leaves the transfer the sender's, and the chunk has arrived. -/
theorem Ours.stored {bytes : List UInt8} {transfer : Transfer} (ours : Ours image transfer)
    {index : Nat} (inside : index * chunk < image.length) (same : bytes = part chunk index image)
    (missing : transfer.arrived[index]? = some false)
    : Ours image { transfer with
        image := splice transfer.image (index * chunk) bytes
        arrived := transfer.arrived.set index true
        missing := transfer.missing - 1 } := by
  have length : bytes.length = min chunk (transfer.image.length - index * chunk) := by
    rw [same, part_length, ours.sized]
  rw [← ours.sized] at inside
  have fits : index * chunk + bytes.length ≤ transfer.image.length := by omega
  constructor
  case valid => exact ours.valid.stored missing fits
  case sized => rw [splice_length fits, ours.sized]
  case crc => exact ours.crc
  case parts =>
    intro other flag
    by_cases here : other = index
    · subst here
      rw [part_splice length inside, same]
    · rw [List.getElem?_set_ne (Ne.symm here)] at flag
      rw [part_splice_of_ne here length inside]
      exact ours.parts other flag

namespace Deployment

/-- A chunk of the sender's image has arrived. -/
def Arrived (receiver : Receiver) (index : Nat) : Prop :=
  ∃ transfer, receiver.transfer = some transfer ∧ transfer.arrived[index]? = some true

/-- Before the sender got its first answer, only that datagram was sent. -/
structure Beginning (image : List UInt8) (state : Deployment) : Prop where
  posted : ∀ datagram ∈ state.posted, beginDatagram image = some datagram
  noAck : ∀ offset, ack offset ∉ state.answers
  begun
    : [ascii 'K'] ∈ state.answers
        → Taken image ∧ ∃ transfer, state.receiver.transfer = some transfer ∧ Ours image transfer

/-- Afterwards the receiver has the sender's image, with every chunk that was acknowledged. -/
structure Going (image : List UInt8) (state : Deployment) (passed : Nat) : Prop where
  taken : Taken image
  posted
    : ∀ datagram ∈ state.posted,
        beginDatagram image = some datagram
        ∨ (∃ index, index * chunk < image.length ∧ datagram = dataDatagram image index)
        ∨ datagram = endDatagram ∧ state.sender = .finishing
  going : ∃ transfer, state.receiver.transfer = some transfer ∧ Ours image transfer
  acked
    : ∀ index, index * chunk < image.length → ack (index * chunk) ∈ state.answers
        → Arrived state.receiver index
  passed
    : ∀ index, index < passed → index * chunk < image.length → Arrived state.receiver index

/-- What holds until the end of the update reaches the receiver, by what the sender waits for. -/
def Underway (image : List UInt8) (state : Deployment) : Prop :=
  match state.sender with
  | .beginning => Beginning image state
  | .sending index => index * chunk < image.length ∧ Going image state index
  | .finishing => Going image state (chunkCount image.length)
  | .done | .failed => True

theorem underway_start (image : List UInt8) (receiver : Receiver)
    : Underway image (start receiver) where
  posted := by simp [start]
  noAck := by simp [start]
  begun := by simp [start]

variable {error : Option (List UInt8)} {image : List UInt8} {state after : Deployment}
variable {passed : Nat} {event : DeployEvent}

theorem mem_of_refuse {answers : List (List UInt8)} {answer : List UInt8} {reason : String}
    (member : answer ∈ answers ++ [answerOf error (refuse reason)])
    (other : answer.head? ≠ some (ascii 'X'))
    : answer ∈ answers := by
  rcases List.mem_append.mp member with earlier | new
  · exact earlier
  · rw [List.mem_singleton.mp new] at other
    exact absurd rfl other

/-- Datagrams that only begin the update give no other answer, and leave the sender's image. -/
theorem Beginning.delivered (beginning : Beginning image state) {after : Receiver}
    {response : Response} {ended : Bool} (posted : datagram ∈ state.posted)
    (handled : Handled state.receiver datagram after response)
    : Beginning image { state with
        receiver := after, answers := state.answers ++ [answerOf error response], ended } := by
  have begins := beginning.posted datagram posted
  have announces := announced_begin begins
  have head := head_begin begins
  cases handled with
  | begun begun =>
    rename_i size crc
    rw [begun] at announces
    split at announces
    · rename_i taken
      cases announces
      refine ⟨beginning.posted, ?_, fun _ => ⟨taken, _, rfl, ours_begun image⟩⟩
      intro offset member
      rcases List.mem_append.mp member with earlier | new
      · exact beginning.noAck offset earlier
      · cases List.mem_singleton.mp new
    · cases announces
  | dropped others | refused others =>
    have bad : ¬Taken image := by
      intro taken
      rw [others, if_pos taken] at announces
      cases announces
    refine ⟨beginning.posted, fun offset member => ?_, fun member => ?_⟩
    · exact beginning.noAck offset (mem_of_refuse member (by simp [ack, ascii]))
    · exact absurd (beginning.begun (mem_of_refuse member (by simp [ascii]))).1 bad
  | again _ _ _ found | stored _ _ _ found =>
    rw [(chunkOf_inv found).1] at head
    cases head
  | complete _ ends =>
    rw [ends] at head
    cases head

/-- A late copy of the first datagram does no harm while nothing has arrived. -/
theorem Going.begunAgain (going : Going image state passed) {ended : Bool}
    (empty : ∀ transfer ∈ state.receiver.transfer, true ∉ transfer.arrived)
    : Going image
        { state with
          receiver := { transfer := some (.begun image.length (crc32 image)) }
          answers := state.answers ++ [[ascii 'K']], ended }
        passed := by
  have nothing : ∀ index, ¬Arrived state.receiver index := by
    rintro index ⟨transfer, current, flag⟩
    exact empty transfer current (List.mem_of_getElem? flag)
  refine ⟨going.taken, going.posted, ⟨_, rfl, ours_begun image⟩, ?_, ?_⟩
  · intro index inside member
    rcases List.mem_append.mp member with earlier | new
    · exact absurd (going.acked index inside earlier) (nothing index)
    · cases List.mem_singleton.mp new
  · intro index lower inside
    exact absurd (going.passed index lower inside) (nothing index)

theorem Going.chunk {index : Nat} (going : Going image state passed) {after : Receiver}
    {ended : Bool} (small : image.length < 2 ^ 32) (inside : index * chunk < image.length)
    (ours : ∃ transfer, after.transfer = some transfer ∧ Ours image transfer)
    (arrived : Arrived after index)
    (kept : ∀ other, Arrived state.receiver other → Arrived after other)
    : Going image
        { state with
          receiver := after, answers := state.answers ++ [ack (index * chunk)], ended }
        passed := by
  refine ⟨going.taken, going.posted, ours, ?_, ?_⟩
  · intro other inside' member
    rcases List.mem_append.mp member with earlier | new
    · exact kept other (going.acked other inside' earlier)
    · have same := ack_injective (by omega) (by omega) (List.mem_singleton.mp new)
      obtain rfl : other = index := Nat.eq_of_mul_eq_mul_right (by decide) same
      exact arrived
  · intro other lower inside'
    exact kept other (going.passed other lower inside')

/-- Any datagram but the last keeps the image and what arrived of it, if no first one comes late. -/
theorem Going.delivered (going : Going image state passed)
    {after : Receiver} {response : Response} {ended : Bool} (posted : datagram ∈ state.posted)
    (handled : Handled state.receiver datagram after response)
    (timely
      : (announced datagram).isSome = true
        → ∀ transfer ∈ state.receiver.transfer, true ∉ transfer.arrived)
    (other : datagram ≠ endDatagram)
    : Going image
        { state with
          receiver := after, answers := state.answers ++ [answerOf error response], ended }
        passed := by
  have small : image.length < 2 ^ 32 := by
    have max := going.taken.2
    simp only [maxImage] at max
    omega
  rcases going.posted datagram posted with begins | ⟨index, inside, rfl⟩ | ⟨ends, _⟩
  · have announces := announced_begin begins
    rw [if_pos going.taken] at announces
    cases handled with
    | begun begun =>
      rw [announces] at begun
      cases begun
      exact going.begunAgain (timely (by rw [announces]; rfl))
    | dropped others | refused others | again _ others | stored _ others =>
      rw [announces] at others
      cases others
    | complete _ ends =>
      rw [head_begin begins] at ends
      cases ends
  · obtain ⟨transfer, current, ours⟩ := going.going
    have found := chunkOf_data small inside
    have head : (dataDatagram image index).head? = some (ascii 'D') := rfl
    have none : announced (dataDatagram image index) = none :=
      announced_of_head (by rw [head]; decide)
    cases handled with
    | begun begun =>
      rw [none] at begun
      cases begun
    | dropped _ noData => exact absurd rfl noData
    | refused _ noChunk =>
      have noChunk := noChunk transfer current index (by rw [ours.sized]; exact inside)
      rw [ours.sized, found] at noChunk
      cases noChunk
    | again current' others inside' found' flag =>
      rename_i transfer' index' bytes
      obtain rfl : transfer' = transfer := Option.some.inj (current'.symm.trans current)
      rw [ours.sized] at found'
      obtain rfl := chunkOf_unique found' found
      exact going.chunk small inside ⟨_, current, ours⟩ ⟨_, current, flag⟩ (fun _ => id)
    | stored current' others inside' found' missing =>
      rename_i transfer' index' bytes
      obtain rfl : transfer' = transfer := Option.some.inj (current'.symm.trans current)
      rw [ours.sized] at found'
      obtain rfl := chunkOf_unique found' found
      cases found'.symm.trans found
      have known := (List.getElem?_eq_some_iff.mp missing).1
      refine going.chunk small inside ⟨_, rfl, ours.stored inside rfl missing⟩ ⟨_, rfl, ?_⟩ ?_
      · exact List.getElem?_set_self known
      · rintro other ⟨earlier, same, flag⟩
        cases current.symm.trans same
        refine ⟨_, rfl, ?_⟩
        rw [List.getElem?_set]
        split
        · simp_all
        · exact flag
    | complete _ ends => cases ends
  · exact absurd ends other

/-- A step, by what it does. -/
inductive Steps (image : List UInt8) (state : Deployment) : DeployEvent → Deployment → Prop
  | sent {datagram : List UInt8} (current : state.sender.datagram image = some datagram)
    : Steps image state .send { state with posted := state.posted ++ [datagram] }
  | delivered {datagram : List UInt8} {error : Option (List UInt8)} {receiver : Receiver}
    {response : Response} (posted : datagram ∈ state.posted)
    (handled : state.receiver.handle datagram = some (receiver, response))
    : Steps image state (.deliver datagram error)
        { state with
          receiver
          answers := state.answers ++ [answerOf error response]
          ended := state.ended || datagram = endDatagram }
  | failed {event : DeployEvent} : Steps image state event { state with sender := .failed }
  | accepted {answer : List UInt8} (member : answer ∈ state.answers)
    (accepts : state.sender.accepts answer = true)
    : Steps image state (.answer answer) { state with sender := state.sender.next image }
  | ignored {answer : List UInt8} : Steps image state (.answer answer) state

theorem steps_of_step (taken : step image state event = some after)
    : Steps image state event after := by
  cases event with
  | send =>
    simp only [step, bind, Option.bind_eq_some_iff] at taken
    obtain ⟨datagram, current, taken⟩ := taken
    cases taken
    exact .sent current
  | deliver datagram error =>
    simp only [step, bind, Option.ite_none_right_eq_some, Option.bind_eq_some_iff] at taken
    obtain ⟨posted, ⟨receiver, response⟩, handled, taken⟩ := taken
    cases taken
    exact .delivered posted handled
  | answer answer =>
    simp only [step, Option.ite_none_right_eq_some] at taken
    obtain ⟨⟨member, _⟩, taken⟩ := taken
    split at taken
    · cases taken
      exact .failed
    · split at taken
      · cases taken
        exact .accepted member ‹_›
      · cases taken
        exact .ignored
  | giveUp =>
    cases taken
    exact .failed

theorem Beginning.sent (beginning : Beginning image state)
    (begins : beginDatagram image = some datagram)
    : Beginning image { state with posted := state.posted ++ [datagram] } := by
  refine { beginning with posted := fun other member => ?_ }
  rcases List.mem_append.mp member with earlier | new
  · exact beginning.posted other earlier
  · rw [List.mem_singleton.mp new]
    exact begins

theorem Going.sent (going : Going image state passed)
    (known
      : (∃ index, index * Update.chunk < image.length ∧ datagram = dataDatagram image index)
        ∨ datagram = endDatagram ∧ state.sender = .finishing)
    : Going image { state with posted := state.posted ++ [datagram] } passed := by
  refine { going with posted := fun other member => ?_ }
  rcases List.mem_append.mp member with earlier | new
  · exact going.posted other earlier
  · rw [List.mem_singleton.mp new]
    exact .inr known

/-- The sender goes on to the next chunk, or to the end if there is none. -/
theorem Going.next (going : Going image state passed) (others : state.sender ≠ .finishing)
    : Underway image { state with sender := chunkOrEnd image passed } := by
  have posted : ∀ datagram ∈ state.posted,
      beginDatagram image = some datagram
      ∨ ∃ index, index * Update.chunk < image.length ∧ datagram = dataDatagram image index := by
    intro datagram member
    rcases going.posted datagram member with begins | data | ⟨_, finishing⟩
    · exact .inl begins
    · exact .inr data
    · exact absurd finishing others
  unfold chunkOrEnd
  split
  · rename_i inside
    exact ⟨inside, { going with
      posted := fun datagram member => (posted datagram member).imp_right Or.inl }⟩
  · rename_i beyond
    refine { going with
      posted := fun datagram member => (posted datagram member).imp_right Or.inl
      passed := fun index _ inside => going.passed index ?_ inside }
    by_contra above
    exact beyond (Nat.lt_of_le_of_lt (Nat.mul_le_mul_right _ (Nat.le_of_not_lt above)) inside)

/-- Until the end of the update reaches the receiver, every step keeps what holds underway. -/
theorem Steps.underway (steps : Steps image state event after) (valid : state.receiver.Valid)
    (underway : Underway image state) (timely : state.Timely event) (going : after.ended = false)
    : Underway image after := by
  obtain ⟨sender, receiver, posted, answers, ended⟩ := state
  cases steps with
  | failed => trivial
  | ignored => exact underway
  | sent current =>
    cases sender with
    | beginning => exact Beginning.sent underway current
    | sending index =>
      cases current
      exact ⟨underway.1, underway.2.sent (Or.inl ⟨index, underway.1, rfl⟩)⟩
    | finishing =>
      cases current
      exact Going.sent underway (Or.inr ⟨rfl, rfl⟩)
    | done | failed => trivial
  | delivered member handled =>
    rename_i datagram error after response
    obtain ⟨after', response', taken, cases_⟩ := handled_of_valid valid datagram
    obtain ⟨rfl, rfl⟩ := Prod.mk.inj (Option.some.inj (handled.symm.trans taken))
    have other : datagram ≠ endDatagram := by
      have going : (ended || decide (datagram = endDatagram)) = false := going
      simp only [Bool.or_eq_false_iff, decide_eq_false_iff_not] at going
      exact going.2
    cases sender with
    | beginning => exact Beginning.delivered underway member cases_
    | sending index =>
      refine ⟨underway.1, underway.2.delivered member cases_ (fun begins => ?_) other⟩
      exact (timely begins).resolve_left (by simp)
    | finishing =>
      refine Going.delivered underway member cases_ (fun begins => ?_) other
      exact (timely begins).resolve_left (by simp)
    | done | failed => trivial
  | accepted member accepts =>
    rename_i answer
    cases sender with
    | beginning =>
      have beginning : Beginning image _ := underway
      obtain rfl : answer = [ascii 'K'] := of_decide_eq_true accepts
      obtain ⟨taken, ours⟩ := beginning.begun member
      refine Going.next { taken, going := ours, posted := ?_, acked := ?_, passed := ?_ } (by simp)
      · exact fun datagram posted => Or.inl (beginning.posted datagram posted)
      · exact fun index _ acked => absurd acked (beginning.noAck _)
      · exact fun index lower => absurd lower (Nat.not_lt_zero index)
    | sending index =>
      obtain ⟨inside, going⟩ := underway
      obtain rfl : answer = ack (index * Update.chunk) := of_decide_eq_true accepts
      refine Going.next { going with passed := fun other lower inside' => ?_ } (by simp)
      rcases Nat.lt_succ_iff_lt_or_eq.mp lower with before | rfl
      · exact going.passed other before inside'
      · exact going.acked other inside' member
    | finishing => trivial
    | done | failed => cases accepts

theorem Steps.valid (steps : Steps image state event after) (valid : state.receiver.Valid)
    : after.receiver.Valid := by
  cases steps with
  | delivered member handled =>
    rename_i datagram error receiver response
    obtain ⟨_, _, taken, cases_⟩ := handled_of_valid valid datagram
    obtain ⟨rfl, rfl⟩ := Prod.mk.inj (Option.some.inj (handled.symm.trans taken))
    exact cases_.valid valid
  | sent | failed | accepted | ignored => exact valid

theorem Steps.ended (steps : Steps image state event after) (going : after.ended = false)
    : state.ended = false := by
  cases steps with
  | delivered =>
    have going : (state.ended || _) = false := going
    exact (Bool.or_eq_false_iff.mp going).1
  | sent | failed | accepted | ignored => exact going

/-- If no copy of the first datagram comes late, then once the sender has got the answer to it and to
every chunk, the receiver's answer to the end of the update is the sender's image.
-/
theorem complete_of_acks {image : List UInt8} {inputs : List Input} {receiver : Receiver}
    {state : Deployment} (earlier : Receiver.run inputs = some receiver)
    (reached : Reaches (step image) Timely (start receiver) state)
    (acked : state.sender = .finishing) (going : state.ended = false)
    : ∃ after, state.receiver.handle endDatagram = some (after, .complete image) := by
  have initial : receiver.Valid := by
    obtain ⟨receiver', ran, tracks⟩ := tracks_of_run inputs
    cases earlier.symm.trans ran
    exact tracks.valid
  have underway : state.receiver.Valid ∧ (state.ended = false → Underway image state) := by
    refine reached.invariant
      (I := fun state => state.receiver.Valid ∧ (state.ended = false → Underway image state))
      ⟨initial, fun _ => underway_start image receiver⟩ ?_
    rintro before event after ⟨valid, underway⟩ timely taken
    have steps := steps_of_step taken
    refine ⟨steps.valid valid, fun going => ?_⟩
    exact steps.underway valid (underway (steps.ended going)) timely going
  have finishing := underway.2 going
  rw [Underway, acked] at finishing
  obtain ⟨transfer, current, ours⟩ := finishing.going
  obtain ⟨whole, same⟩ := ours.complete (fun index inside => by
    obtain ⟨transfer', current', flag⟩ :=
      finishing.passed index (lt_chunkCount.mpr inside) inside
    cases current.symm.trans current'
    exact flag)
  refine ⟨{ transfer := none }, ?_⟩
  have ends : state.receiver.handleEnd = ({ transfer := none }, .complete image) := by
    simp [Receiver.handleEnd, current, whole, same, ours.crc]
  show some state.receiver.handleEnd = _
  rw [ends]

/-- An image of one byte, whose first datagram arrives once more after its chunk. -/
def late : List DeployEvent :=
  [.send, .deliver (ascii 'B' :: le32 1 ++ le32 (crc32 [7]).toNat) none, .answer [ascii 'K'], .send,
    .deliver (dataDatagram [7] 0) none,
    .deliver (ascii 'B' :: le32 1 ++ le32 (crc32 [7]).toNat) none, .answer (ack 0), .send]

/-- The same without the late copy. -/
def inTime : List DeployEvent :=
  [.send, .deliver (ascii 'B' :: le32 1 ++ le32 (crc32 [7]).toNat) none, .answer [ascii 'K'], .send,
    .deliver (dataDatagram [7] 0) none, .answer (ack 0), .send]

theorem complete_of_inTime
    : ∃ state, Reaches (step [7]) Timely (start .new) state
        ∧ state.sender = .finishing ∧ endDatagram ∈ state.posted
        ∧ ∃ after, state.receiver.handle endDatagram = some (after, .complete [7]) := by
  have executed : (runAll (step [7]) Timely (start .new) inTime).any (fun state =>
      state.sender = .finishing ∧ endDatagram ∈ state.posted ∧ state.ended = false) = true := by
    decide +kernel
  obtain ⟨state, reached, found⟩ := Reaches.of_check executed
  obtain ⟨acked, posted, going⟩ := of_decide_eq_true found
  have earlier : Receiver.run [] = some .new := rfl
  exact ⟨state, reached, acked, posted, complete_of_acks earlier reached acked going⟩

/-- A late copy of the first datagram starts the update over: the sender has every acknowledgement,
but its end is refused.
-/
theorem refused_of_late
    : ∃ state, Reaches (step [7]) anyEvent (start .new) state
        ∧ state.sender = .finishing ∧ endDatagram ∈ state.posted ∧ state.ended = false
        ∧ state.receiver.handle endDatagram = some (state.receiver, refuse "chunks missing") := by
  have executed : (runAll (step [7]) anyEvent (start .new) late).any (fun state =>
      state.sender = .finishing ∧ endDatagram ∈ state.posted ∧ state.ended = false
      ∧ state.receiver.handle endDatagram
        = some (state.receiver, refuse "chunks missing")) = true := by
    decide +kernel
  obtain ⟨state, reached, found⟩ := Reaches.of_check executed
  exact ⟨state, reached, of_decide_eq_true found⟩

end Deployment

end RustyPi.Update
