import RustyPi.Usb.Trees

/-! The packet size of endpoint 0. It comes from the device's own descriptor and ends up as a divisor
in the host driver, `direct_transfer` and `split_transfer` of `src/drivers/usb.rs`.
-/

namespace RustyPi.Usb

open RustyPi.Bytes RustyPi.Calls

variable {E : Type}

/-- How many packets a stage of a direct transfer takes; dividing by zero panics. -/
def packetCount (length maxPacket : Nat) : Option Nat :=
  if maxPacket = 0 then none else some (max ((length + (maxPacket - 1)) / maxPacket) 1)

/-- Why a transfer ends without its data. -/
inductive UsbError
  | timeout (what : String)
  | stalled (stage : String)
  /-- These are the channel's interrupt bits. -/
  | transfer (stage : String) (interrupts : UInt32)

def splitTimeoutUs : Nat := 1_000_000

def maxSplitErrors : Nat := 3

def maxNyets : Nat := 3

def intXferComplete : UInt32 := 0x1

def intStall : UInt32 := 0x8

def intNak : UInt32 := 0x10

def intAck : UInt32 := 0x20

def intErrors : UInt32 := 0x78C

/-- A run of the channel: what the time was before it, and how it ended, with the interrupts and how
much the channel says is left.
-/
structure ChannelRun where
  now : Nat
  result : Except UsbError (UInt32 × Nat)

/-- Where a split packet is: at its start split, or at a complete split, after as many answers that
there is no answer yet.
-/
inductive SplitPhase
  | start
  | complete (nyets : Nat)

/-- Where a stage of a split transfer is: how many bytes are done, in how many packets, and how many
errors the packet at hand has run into.
-/
structure SplitStage where
  done : Nat
  packets : Nat
  errors : Nat
  phase : SplitPhase

inductive SplitStep
  | goes (stage : SplitStage)
  | ends (result : Except UsbError Nat)

namespace SplitStage

def begin : SplitStage := { done := 0, packets := 0, errors := 0, phase := .start }

/-- One more error: the packet starts over, or is given up. -/
def fail (stage : SplitStage) (name : String) (interrupts : UInt32) : SplitStep :=
  if maxSplitErrors < stage.errors + 1 then .ends (.error (.transfer name interrupts))
  else .goes { stage with errors := stage.errors + 1, phase := .start }

/-- A packet is over, and has moved so many of its bytes: the next one follows. -/
def next (stage : SplitStage) (length size moved : Nat) : SplitStep :=
  -- A short packet ends the stage early.
  if moved < size ∨ length ≤ stage.done + moved then .ends (.ok (stage.done + moved))
  else .goes { done := stage.done + moved, packets := stage.packets + 1, errors := 0, phase := .start }

/-- `split_packet` from one run of the channel to the next, and `split_transfer` around it. -/
def step (stage : SplitStage) (length maxPacket : Nat) (name : String) (started : Nat)
    (run : ChannelRun)
    : SplitStep :=
  let size := min (length - stage.done) maxPacket
  match stage.phase with
  | .start =>
    if splitTimeoutUs < run.now - started then .ends (.error (.timeout "a split transaction"))
    else
      match run.result with
      | .error error => .ends (.error error)
      | .ok (interrupts, _) =>
        if interrupts &&& intStall ≠ 0 then .ends (.error (.stalled name))
        else if interrupts &&& intAck = 0 then
          if interrupts &&& intErrors ≠ 0 then stage.fail name interrupts else .goes stage
        else .goes { stage with phase := .complete 0 }
  | .complete nyets =>
    match run.result with
    | .error error => .ends (.error error)
    | .ok (interrupts, remaining) =>
      if interrupts &&& intStall ≠ 0 then .ends (.error (.stalled name))
      else if interrupts &&& intXferComplete ≠ 0 then
        stage.next length size (size - min remaining size)
      else if interrupts &&& intNak ≠ 0 then .goes { stage with phase := .start }
      else if interrupts &&& intErrors ≠ 0 then stage.fail name interrupts
      else if maxNyets < nyets + 1 then .goes { stage with phase := .start }
      else .goes { stage with phase := .complete (nyets + 1) }

end SplitStage

/-- A stage of a split transfer, over the runs of the channel. -/
def splitTransfer (length maxPacket : Nat) (name : String) (started : Nat)
    : SplitStage → List ChannelRun → SplitStep
  | stage, [] => .goes stage
  | stage, run :: rest =>
    match stage.step length maxPacket name started run with
    | .ends result => .ends result
    | .goes stage => splitTransfer length maxPacket name started stage rest

/-- The lengths of the stages of a control transfer: setup, data if it has any, and status. -/
def SetupPacket.stages (setup : SetupPacket) : List Nat :=
  8 :: (if 0 < setup.length then [setup.length] else []) ++ [0]

/-- A stage of a transfer to a target doesn't panic; and if it is split, then however the channel's runs
end, each packet after which it goes on has moved a byte at least.
-/
def Progresses (target : Target) (length : Nat) : Prop :=
  match target.translator with
  | none => (packetCount length target.maxPacket).isSome = true
  | some _ =>
    ∀ name started runs stage,
      splitTransfer length target.maxPacket name started .begin runs = .goes stage
      → stage.packets ≤ stage.done ∧ stage.done ≤ length

section Split

variable {length maxPacket started : Nat} {name : String} {stage later : SplitStage}

theorem SplitStage.fail_goes {interrupts : UInt32} (goes : stage.fail name interrupts = .goes later)
    : later.packets = stage.packets ∧ later.done = stage.done := by
  unfold fail at goes
  split at goes
  · cases goes
  · cases goes
    exact ⟨rfl, rfl⟩

/-- What happens to a stage that goes on: its packet does, or the next one begins behind a full one. -/
theorem SplitStage.step_goes {run : ChannelRun}
    (goes : stage.step length maxPacket name started run = .goes later)
    : later.packets = stage.packets ∧ later.done = stage.done
      ∨ later.packets = stage.packets + 1 ∧ later.done < length
        ∧ later.done = stage.done + min (length - stage.done) maxPacket := by
  unfold step at goes
  dsimp only at goes
  repeat' split at goes
  any_goals cases goes
  any_goals exact .inl ⟨rfl, rfl⟩
  any_goals exact .inl (fail_goes goes)
  unfold next at goes
  split at goes
  · cases goes
  · rename_i more
    cases goes
    dsimp only
    omega

/-- A stage whose packets aren't empty moves a byte with each. By induction on the runs. -/
theorem splitTransfer_moves (positive : maxPacket ≠ 0) {runs : List ChannelRun}
    (goes : splitTransfer length maxPacket name started stage runs = .goes later)
    (moves : stage.packets ≤ stage.done) (inside : stage.done ≤ length)
    : later.packets ≤ later.done ∧ later.done ≤ length := by
  induction runs generalizing stage with
  | nil =>
    cases goes
    exact ⟨moves, inside⟩
  | cons run rest ih =>
    rw [splitTransfer] at goes
    split at goes
    · cases goes
    · rename_i next went
      have packet := SplitStage.step_goes went
      exact ih goes (by omega) (by omega)

end Split

variable {target hub : Target} {bytes : List UInt8} {deeper : Deeper E}

theorem progresses_of_sized (sized : target.maxPacket ≠ 0) (length : Nat)
    : Progresses target length := by
  unfold Progresses
  split
  · simp [packetCount, sized]
  · exact fun name started runs stage goes =>
      splitTransfer_moves sized goes (Nat.le_refl 0) (Nat.zero_le length)

/-- With empty packets, a stage with data panics, or goes on after a packet that moved nothing. -/
theorem not_progresses_of_empty {length : Nat} (data : 0 < length) (empty : target.maxPacket = 0)
    : ¬ Progresses target length := by
  have goes : splitTransfer length target.maxPacket "setup" 0 .begin
      [⟨0, .ok (intAck, 0)⟩, ⟨0, .ok (intXferComplete, 0)⟩]
      = .goes { done := 0, packets := 1, errors := 0, phase := .start } := by
    have unstalled : intAck &&& intStall = 0 ∧ intXferComplete &&& intStall = 0 := by decide
    have raised : intAck ≠ 0 ∧ intXferComplete ≠ 0 := by decide
    simp [empty, splitTransfer, SplitStage.step, SplitStage.begin, SplitStage.next, unstalled, raised,
      Nat.ne_of_gt data]
  unfold Progresses
  split
  · simp [packetCount, empty]
  · exact fun progresses => absurd (progresses _ _ _ _ goes).1 (by decide)

/-- An answer to a request for the device descriptor that passes for the start of one says that packets
aren't empty.
-/
def Sized : Request → Except E (List UInt8) → Prop
  | .control _ setup, .ok bytes =>
    setup = .getDescriptor DescriptorType.device 0 setup.length
    → check (bytes.take setup.length) DescriptorType.device 8 = .ok ()
    → byteAt bytes 7 ≠ 0
  | _, _ => True

instance (request : Request) (response : Except E (List UInt8))
    : Decidable (Sized request response) := by
  unfold Sized
  split <;> infer_instance

/-- Control transfers have a packet size, and all their stages get somewhere. -/
def Works : Request → Prop
  | .control target setup =>
    target.maxPacket ≠ 0 ∧ ∀ length ∈ setup.stages, Progresses target length
  | .delay _ => True

/-- A bus whose devices give packet sizes. -/
def sizedBus : Setting Unit Request (Except E (List UInt8)) where
  allowed _ request := Works request
  answers _ request response _ := Sized request response

theorem works_of_sized {target : Target} (sized : target.maxPacket ≠ 0) (setup : SetupPacket)
    : Works (.control target setup) :=
  ⟨sized, fun length _ => progresses_of_sized sized length⟩

theorem check_of_le {kind least more : Nat} (le : least ≤ more)
    (passed : check bytes kind more = .ok ())
    : check bytes kind least = .ok () := by
  unfold check at passed ⊢
  split at passed
  · cases passed
  · rw [if_neg (by omega)]
    exact passed

theorem length_of_check {kind least : Nat} (passed : check bytes kind least = .ok ())
    : least ≤ bytes.length := by
  unfold check at passed
  split at passed
  · cases passed
  · omega

theorem maxPacketSizeOf_inv {size : Nat} (found : DeviceDescriptor.maxPacketSizeOf bytes = .ok size)
    : check bytes DescriptorType.device 8 = .ok () ∧ size = byteAt bytes 7 := by
  unfold DeviceDescriptor.maxPacketSizeOf at found
  cases passed : check bytes DescriptorType.device 8 with
  | error error =>
    rw [passed] at found
    cases found
  | ok =>
    rw [passed] at found
    cases found
    exact ⟨rfl, rfl⟩

theorem parse_inv {descriptor : DeviceDescriptor}
    (found : DeviceDescriptor.parse bytes = .ok descriptor)
    : check bytes DescriptorType.device 8 = .ok () ∧ descriptor.maxPacketSize = byteAt bytes 7 := by
  unfold DeviceDescriptor.parse at found
  cases passed : check bytes DescriptorType.device DeviceDescriptor.length with
  | error error =>
    rw [passed] at found
    cases found
  | ok =>
    rw [passed] at found
    cases found
    exact ⟨check_of_le (by decide) passed, rfl⟩

/-- What is received for a device descriptor. -/
def heardSized (setup : SetupPacket) (bytes : List UInt8) : Prop :=
  setup = .getDescriptor DescriptorType.device 0 setup.length
  → check bytes DescriptorType.device 8 = .ok ()
  → byteAt bytes 7 ≠ 0

theorem survey_sized : Survey (E := E) sizedBus (.plain (fun size => size ≠ 0) heardSized) := by
  refine .plain ⟨Nat.succ_ne_zero 7, ?_, ?_⟩ (fun target setup sized addresses => ?_)
    (fun ms addresses => tries_delay trivial (fun _ _ _ => ⟨⟨rfl, rfl⟩, trivial⟩))
  · intro bytes size heard found
    obtain ⟨passed, rfl⟩ := maxPacketSizeOf_inv found
    exact heard rfl passed
  · intro bytes descriptor heard found
    obtain ⟨passed, same⟩ := parse_inv found
    rw [same]
    exact heard rfl passed
  · refine tries_control (works_of_sized sized setup) (fun response _ answers => ?_)
    cases response with
    | error error => exact ⟨rfl, rfl⟩
    | ok bytes =>
      refine ⟨⟨rfl, rfl⟩, fun isDevice passed => ?_⟩
      have long := length_of_check passed
      rw [List.length_take] at long
      have same : byteAt (bytes.take setup.length) 7 = byteAt bytes 7 := by
        rw [byteAt, byteAt, List.getElem?_take_of_lt (by omega)]
      rw [same]
      exact answers isDevice passed

mutual

theorem fit_walkInto {fit : Nat → Prop} (depth : Nat)
    : ∀ device : Device E, device.Fine fit
        → ∀ found ∈ walkInto depth device, fit found.2.target.maxPacket
  | { hub := none, .. }, fine, found, member => by
      obtain rfl := List.mem_singleton.mp member
      exact fine
  | { hub := some ⟨_, ports⟩, .. }, fine, found, member => by
      rcases List.mem_cons.mp member with rfl | behind
      · exact fine.1
      · exact fit_walkPorts (depth + 1) ports _ _ fine.2 found behind

theorem fit_walkPorts {fit : Nat → Prop} (depth : Nat)
    : ∀ (ports : List (Port (Device E) E)) (given : Nat → Speed → Option Translator) (number : Nat),
        portsFine fit given number ports
        → ∀ found ∈ walkPorts depth ports, fit found.2.target.maxPacket
  | .device device :: rest, given, number, fine, found, member => by
      rcases List.mem_append.mp member with here | later
      · exact fit_walkInto depth device fine.1.2 found here
      · exact fit_walkPorts depth rest given _ fine.2 found later
  | .empty :: rest, given, number, fine, found, member
  | .failed _ :: rest, given, number, fine, found, member =>
    fit_walkPorts depth rest given _ fine found member

end

/-- The trees that there are when devices give packet sizes. -/
def KnownSized (speed : Speed) (tree : Tree E) : Prop :=
  Session sizedBus (fun _ => True) (fun _ _ => True) speed tree ()

/-- If every device descriptor that the bus gives has a packet size, then every control transfer of
enumeration and of polling has one, and so has every later one to a device of the tree: no packet
count divides by zero, and every split transfer gets on with each packet.
-/
theorem works_of_sizes (speed : Speed)
    : (∀ request next,
        (enumerate speed : BusProgram E _).Gets sizedBus () (.call request next) ()
        → Works request)
      ∧ ∀ tree : Tree E, KnownSized speed tree
          → (∀ found ∈ tree.root.walk, ∀ setup, Works (.control found.2.target setup))
            ∧ ∀ request next,
                tree.pollChanges.Gets sizedBus () (.call request next) () → Works request := by
  have enumerates : (enumerate speed : BusProgram E _).Ensures sizedBus _ () :=
    survey_sized.enumerate_shown speed trivial
  refine ⟨fun request next gets => (enumerates.gets gets).1, fun tree known => ?_⟩
  have shown : Shown (.plain (fun size => size ≠ 0) heardSized) tree () := by
    refine Session.invariant (I := fun tree _ => Shown (.plain _ heardSized) tree ()) known
      (fun _ _ => enumerates.mono ?_) (fun _ _ shown => ?_) (fun _ _ _ shown _ => shown)
    · rintro _ _ holds tree rfl
      exact holds
    · exact (survey_sized.pollChanges_shown shown).mono (fun _ _ holds => holds.1)
  refine ⟨fun found member setup => ?_, fun request next gets => ?_⟩
  · exact works_of_sized (fit_walkInto 0 tree.root shown.fine found member) setup
  · exact ((survey_sized.pollChanges_shown shown).gets gets).1

def nextRequest {α : Type} : BusProgram E α → Option Request
  | .call request _ => some request
  | .done _ => none

/-- The first 8 bytes of a device descriptor with a packet size. -/
def firstBytes (maxPacket : UInt8) : List UInt8 := [18, 1, 0, 2, 9, 0, 0, maxPacket]

/-- The transfer that gives a device its address. -/
def addressing (maxPacket : Nat) : Request :=
  .control { address := 0, maxPacket, speed := .high, translator := none } (.setAddress 1)

theorem works_of_firstBytes
    : ∃ next, (enumerate .high : BusProgram Unit _).Gets sizedBus () (.call (addressing 64) next) ()
        ∧ Works (addressing 64) := by
  have executed : ((enumerate .high : BusProgram Unit _).follow
      (fun request response => Sized request response) [.ok (firstBytes 64)]).any
      (fun later => nextRequest later = some (addressing 64)) = true := by
    decide +kernel
  obtain ⟨later, gets, found⟩ := Program.Gets.of_check sizedBus
    (fun request response sized => (of_decide_eq_true sized : Sized request response)) executed
  rcases later with _ | ⟨request, next⟩
  · cases of_decide_eq_true found
  · obtain rfl : request = addressing 64 := Option.some.inj (of_decide_eq_true found)
    exact ⟨next, gets, (works_of_sizes .high).1 _ _ gets⟩

/-- A device that gives 0 as its packet size makes the next transfer divide by zero. A split one would
repeat empty packets instead, until its time is over.
-/
theorem panics_of_zero
    : ∃ next, (enumerate .high : BusProgram Unit _).Gets .free () (.call (addressing 0) next) ()
        ∧ packetCount 8 0 = none
        ∧ ∀ target : Target, target.maxPacket = 0 → ¬ Progresses target 8 := by
  have executed : ((enumerate .high : BusProgram Unit _).follow (fun _ _ => true)
      [.ok (firstBytes 0)]).any (fun later => nextRequest later = some (addressing 0)) = true := by
    decide +kernel
  obtain ⟨later, gets, found⟩ := Program.Gets.of_check .free (fun _ _ _ => trivial) executed
  rcases later with _ | ⟨request, next⟩
  · cases of_decide_eq_true found
  · obtain rfl : request = addressing 0 := Option.some.inj (of_decide_eq_true found)
    exact ⟨next, gets, rfl, fun target empty => not_progresses_of_empty (by decide) empty⟩

end RustyPi.Usb
