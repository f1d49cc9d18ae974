import Mathlib.Algebra.BigOperators.Group.List.Basic
import Mathlib.Algebra.GroupWithZero.Nat
import RustyPi.Lib.Reach

/-! File bytes that the kernel holds for programs, `src/process/buffer.rs`, and the budget that they
share. A step is one access to the counter of the bytes held, or an allocation, so that the calls of
any number of programs interleave.
-/

namespace RustyPi.Process

/-- `rustypi_abi::MAX_FILE`. -/
def maxFile : Nat := 4 * 1024 * 1024

/-- Bytes that all file buffers hold together. -/
def budget : Nat := 8 * 1024 * 1024

inductive BufferErrno
  | noSpace
  | noMemory
  deriving DecidableEq, Repr

/-- Bytes in memory that has room for so many. -/
structure FileBuffer where
  bytes : List UInt8
  capacity : Nat
  fits : bytes.length ≤ capacity
  deriving DecidableEq

namespace FileBuffer

def new : FileBuffer := { bytes := [], capacity := 0, fits := Nat.le_refl 0 }

/-- In memory of another size, if that isn't smaller. -/
def reallocate (buffer : FileBuffer) (capacity : Nat) : FileBuffer where
  bytes := buffer.bytes
  capacity := max buffer.capacity capacity
  fits := Nat.le_trans buffer.fits (Nat.le_max_left _ _)

/-- `Vec::extend_from_slice`, which would make room itself if there weren't enough. -/
def extendFromSlice (buffer : FileBuffer) (bytes : List UInt8) : FileBuffer where
  bytes := buffer.bytes ++ bytes
  capacity := max buffer.capacity (buffer.bytes ++ bytes).length
  fits := Nat.le_max_right _ _

theorem length_extendFromSlice (buffer : FileBuffer) (bytes : List UInt8)
    : (buffer.extendFromSlice bytes).bytes.length = buffer.bytes.length + bytes.length :=
  List.length_append

/-- With room for the bytes, the buffer stays where it is. -/
theorem capacity_extendFromSlice {buffer : FileBuffer} {bytes : List UInt8}
    (room : buffer.bytes.length + bytes.length ≤ buffer.capacity)
    : (buffer.extendFromSlice bytes).capacity = buffer.capacity :=
  Nat.max_eq_left (by rwa [List.length_append])

end FileBuffer

/-- Where `take` is: it loads the counter, and replaces it unless it changed meanwhile. -/
inductive Taking
  | loading
  | swapping (seen : Nat)
  deriving DecidableEq, Repr

/-- What comes of the next access of `take`. -/
inductive Took
  /-- With what the counter is then. -/
  | taken (held : Nat)
  | again (taking : Taking)
  | refused
  deriving DecidableEq, Repr

/-- Whether so many more fit, by the counter just loaded. -/
def tryTake (held need : Nat) : Took :=
  if held + need ≤ budget then .again (.swapping held) else .refused

/-- The next access. The exchange may also fail for no reason. -/
def Taking.advance (held need : Nat) (spurious : Bool) : Taking → Took
  | .loading => tryTake held need
  | .swapping seen => if seen = held ∧ spurious = false then .taken (seen + need) else tryTake held need

----------
-- Calls
----------

/-- Where a call is. -/
inductive CallPhase
  | adopting (taking : Taking)
  /-- `extend` takes from the budget what it grows to. -/
  | growing (bytes : List UInt8) (grown : Nat) (taking : Taking)
  /-- That is taken: about to allocate. -/
  | reserved (bytes : List UInt8) (grown : Nat)
  /-- The buffer has moved: about to count what it has got beyond that. -/
  | moved (bytes : List UInt8) (grown : Nat) (buffer : FileBuffer)
  deriving DecidableEq

/-- A call in progress, with the buffer as it was before and what the call has added to the counter.
-/
structure BufferCall where
  before : FileBuffer
  phase : CallPhase
  added : Int
  deriving DecidableEq

/-- What comes of a call's next access: it goes on, or ends; with what the counter is then. -/
inductive Progress
  | going (held : Nat) (phase : CallPhase)
  | done (held : Nat) (result : Except BufferErrno FileBuffer)

/-- The next access of a call to the counter. -/
def CallPhase.advance (before : FileBuffer) (held : Nat) (spurious : Bool) : CallPhase → Option Progress
  | .adopting taking =>
    match taking.advance held before.capacity spurious with
    | .taken held => some (.done held (.ok before))
    | .again taking => some (.going held (.adopting taking))
    | .refused => some (.done held (.error .noMemory))
  | .growing bytes grown taking =>
    match taking.advance held (grown - before.capacity) spurious with
    | .taken held => some (.going held (.reserved bytes grown))
    | .again taking => some (.going held (.growing bytes grown taking))
    | .refused => some (.done held (.error .noMemory))
  | .reserved _ _ => none
  | .moved bytes grown buffer =>
    some (.done (held + (buffer.capacity - grown)) (.ok (buffer.extendFromSlice bytes)))

inductive CallKind
  | adopt
  | extend
  deriving DecidableEq, Repr

def CallPhase.kind : CallPhase → CallKind
  | .adopting _ => .adopt
  | _ => .extend

/-- A call that has returned: the buffer before it, what it added to the counter, and what is left: an
adopted buffer that is refused is dropped, one that isn't extended stays.
-/
structure Ended where
  kind : CallKind
  before : FileBuffer
  added : Int
  error : Option BufferErrno
  left : Option FileBuffer
  deriving DecidableEq

/-- How a call ends. -/
def Ended.of (kind : CallKind) (before : FileBuffer) (added : Int)
    : Except BufferErrno FileBuffer → Ended
  | .ok buffer => { kind, before, added, error := none, left := some buffer }
  | .error error =>
    { kind, before, added, error := some error, left := if kind = .extend then some before else none }

/-- The counter, the buffers that no call is at, and the calls. -/
structure Buffers where
  held : Nat
  resting : List FileBuffer
  calls : List BufferCall
  ended : List Ended

namespace Buffers

def start : Buffers := { held := 0, resting := [], calls := [], ended := [] }

inductive Event
  | create
  | adopt (buffer : FileBuffer)
  | extend (index : Nat) (bytes : List UInt8)
  | drop (index : Nat)
  /-- The next access to the counter of a call. -/
  | advance (index : Nat) (spurious : Bool)
  /-- A call gets the memory that it reserved; the allocator may give more. -/
  | allocate (index : Nat) (capacity : Nat)

def finish (state : Buffers) (ended : Ended) : Buffers :=
  { state with resting := ended.left.toList ++ state.resting, ended := ended :: state.ended }

/-- `extend` up to the first access to the counter. -/
def beginExtend (state : Buffers) (index : Nat) (bytes : List UInt8) : Option Buffers := do
  let buffer ← state.resting[index]?
  let others := { state with resting := state.resting.eraseIdx index }
  let length := buffer.bytes.length + bytes.length
  if maxFile < length then return others.finish (.of .extend buffer 0 (.error .noSpace))
  else if buffer.capacity < length then
    let grown := min (max length (buffer.capacity * 2)) maxFile
    return { others with
      calls := { before := buffer, phase := .growing bytes grown .loading, added := 0 } :: state.calls }
  else return others.finish (.of .extend buffer 0 (.ok (buffer.extendFromSlice bytes)))

/-- The next access to the counter of a call. -/
def advance (state : Buffers) (index : Nat) (spurious : Bool) : Option Buffers := do
  let call ← state.calls[index]?
  match ← call.phase.advance call.before state.held spurious with
  | .going held phase =>
    let added := call.added + (held - state.held)
    return { state with held, calls := state.calls.set index { call with phase, added } }
  | .done held result =>
    let added := call.added + (held - state.held)
    let others := { state with held, calls := state.calls.eraseIdx index }
    return others.finish (.of call.phase.kind call.before added result)

def allocate (state : Buffers) (index capacity : Nat) : Option Buffers := do
  let call ← state.calls[index]?
  match call.phase with
  | .reserved bytes grown =>
    if grown ≤ capacity then
      let phase := .moved bytes grown (call.before.reallocate capacity)
      return { state with calls := state.calls.set index { call with phase } }
    else none
  | _ => none

def step (state : Buffers) : Event → Option Buffers
  | .create => some { state with resting := .new :: state.resting }
  | .adopt buffer =>
    some { state with
      calls := { before := buffer, phase := .adopting .loading, added := 0 } :: state.calls }
  | .extend index bytes => state.beginExtend index bytes
  | .drop index => do
      let buffer ← state.resting[index]?
      return { state with
        held := state.held - buffer.capacity, resting := state.resting.eraseIdx index }
  | .advance index spurious => state.advance index spurious
  | .allocate index capacity => state.allocate index capacity

/-- The allocator gives exactly what was asked for. -/
def exact (state : Buffers) : Event → Bool
  | .allocate index capacity =>
    match (state.calls[index]?).map BufferCall.phase with
    | some (.reserved _ grown) => capacity = grown
    | _ => true
  | _ => true

def Exact (state : Buffers) (event : Event) : Prop := state.exact event = true

instance (state : Buffers) (event : Event) : Decidable (state.Exact event) :=
  inferInstanceAs (Decidable (_ = true))

end Buffers

----------
-- What is held
----------

namespace BufferCall

/-- The capacity of the buffer that the call is at; bytes to adopt aren't one yet. -/
def capacity (call : BufferCall) : Nat :=
  match call.phase with
  | .adopting _ => 0
  | .growing _ _ _ => call.before.capacity
  | .reserved _ _ => call.before.capacity
  | .moved _ _ buffer => buffer.capacity

/-- What the call has reserved beyond that. -/
def reservation (call : BufferCall) : Nat :=
  match call.phase with
  | .reserved _ grown => grown - call.before.capacity
  | _ => 0

end BufferCall

namespace Ended

/-- An extended buffer stays within what files may have. -/
def Bounded (ended : Ended) : Prop :=
  ended.kind = .extend → ended.error = none
    → ∃ buffer, ended.left = some buffer
      ∧ buffer.bytes.length ≤ maxFile
      ∧ buffer.capacity ≤ max ended.before.capacity maxFile

/-- If the call failed, it left the counter and the buffer as they were. -/
def Unchanged (ended : Ended) : Prop :=
  ended.error ≠ none → ended.added = 0 ∧ (ended.kind = .extend → ended.left = some ended.before)

end Ended

/-- The counter is what the buffers and reservations come to, and within the budget; and every call
that has returned was bounded, and without effect if it failed.
-/
structure Buffers.Within (state : Buffers) : Prop where
  counted : state.held
    = (state.resting.map FileBuffer.capacity).sum + (state.calls.map BufferCall.capacity).sum
      + (state.calls.map BufferCall.reservation).sum
  bounded : state.held ≤ budget
  extended : ∀ ended ∈ state.ended, ended.Bounded
  failed : ∀ ended ∈ state.ended, ended.Unchanged

----------
-- Every call
----------

/-- What is to be put into the counter is within the budget. -/
def Taking.Ok (need : Nat) : Taking → Prop
  | .loading => True
  | .swapping seen => seen + need ≤ budget

/-- What is known of a call at each place. -/
def BufferCall.Sound (call : BufferCall) : Prop :=
  match call.phase with
  | .adopting taking => call.added = 0 ∧ taking.Ok call.before.capacity
  | .growing bytes grown taking =>
    call.added = 0 ∧ taking.Ok (grown - call.before.capacity)
    ∧ call.before.capacity ≤ grown ∧ call.before.bytes.length + bytes.length ≤ grown
    ∧ grown ≤ maxFile
  | .reserved bytes grown =>
    call.before.capacity ≤ grown ∧ call.before.bytes.length + bytes.length ≤ grown
    ∧ grown ≤ maxFile
  | .moved bytes grown buffer =>
    buffer.bytes = call.before.bytes ∧ buffer.capacity = grown
    ∧ call.before.bytes.length + bytes.length ≤ grown ∧ grown ≤ maxFile

/-- What the counter has for a call. -/
def BufferCall.weight (call : BufferCall) : Nat := call.capacity + call.reservation

/-- An access of `take` either adds what is needed, within the budget, or leaves the counter alone. -/
theorem Taking.advance_inv (held : Nat) (spurious : Bool) {need : Nat} {taking : Taking}
    (ok : taking.Ok need)
    : (taking.advance held need spurious = .taken (held + need) ∧ held + need ≤ budget)
      ∨ (∃ taking', taking.advance held need spurious = .again taking' ∧ taking'.Ok need)
      ∨ taking.advance held need spurious = .refused := by
  have tried : (∃ taking', tryTake held need = .again taking' ∧ taking'.Ok need)
      ∨ tryTake held need = .refused := by
    unfold tryTake
    split
    · rename_i fits
      exact .inl ⟨_, rfl, fits⟩
    · exact .inr rfl
  cases taking with
  | loading => exact .inr tried
  | swapping seen =>
    by_cases same : seen = held ∧ spurious = false
    · rw [Taking.advance, if_pos same, ← same.1]
      exact .inl ⟨rfl, ok⟩
    · rw [Taking.advance, if_neg same]
      exact .inr tried

/-- What the counter has for a buffer that may be there. -/
def weightOf (left : Option FileBuffer) : Nat := (left.toList.map FileBuffer.capacity).sum

/-- A call's access changes the counter by as much as what it stands for; it keeps to the budget, and
if the call ends, it does so as it should.
-/
theorem BufferCall.advance_inv {call : BufferCall} {held : Nat} {spurious : Bool} {progress : Progress}
    (sound : call.Sound) (within : held ≤ budget)
    (advanced : call.phase.advance call.before held spurious = some progress)
    : match progress with
      | .going next phase =>
        let after := { call with phase, added := call.added + (next - held) }
        after.Sound ∧ next + call.weight = held + after.weight ∧ next ≤ budget
      | .done next result =>
        let ended := Ended.of call.phase.kind call.before (call.added + (next - held)) result
        (ended.Bounded ∧ ended.Unchanged)
        ∧ next + call.weight = held + weightOf ended.left ∧ next ≤ budget := by
  obtain ⟨before, phase, added⟩ := call
  cases phase with
  | adopting taking =>
    obtain ⟨rfl, ok⟩ := sound
    rcases Taking.advance_inv held spurious ok with ⟨took, fits⟩ | ⟨later, took, ok⟩ | took
    all_goals
      simp only [CallPhase.advance, took, Option.some.injEq] at advanced
      subst advanced
    · refine ⟨⟨nofun, fun failed => absurd rfl failed⟩, ?_, fits⟩
      simp [BufferCall.weight, BufferCall.capacity, BufferCall.reservation, Ended.of, weightOf]
    · refine ⟨⟨by simp, ok⟩, by simp [BufferCall.weight, BufferCall.capacity, BufferCall.reservation], within⟩
    · refine ⟨⟨nofun, fun _ => ⟨by simp [Ended.of], nofun⟩⟩, ?_, within⟩
      simp [BufferCall.weight, BufferCall.capacity, BufferCall.reservation, Ended.of, weightOf, CallPhase.kind]
  | growing bytes grown taking =>
    obtain ⟨rfl, ok, larger, fits, small⟩ := sound
    rcases Taking.advance_inv held spurious ok with ⟨took, room⟩ | ⟨later, took, ok⟩ | took
    all_goals
      simp only [CallPhase.advance, took, Option.some.injEq] at advanced
      subst advanced
    · refine ⟨⟨larger, fits, small⟩, ?_, room⟩
      simp only [BufferCall.weight, BufferCall.capacity, BufferCall.reservation]
      omega
    · refine ⟨⟨by simp, ok, larger, fits, small⟩, ?_, within⟩
      simp [BufferCall.weight, BufferCall.capacity, BufferCall.reservation]
    · refine ⟨⟨fun _ => nofun, fun _ => ⟨by simp [Ended.of], fun _ => rfl⟩⟩, ?_, within⟩
      simp [BufferCall.weight, BufferCall.capacity, BufferCall.reservation, Ended.of, weightOf, CallPhase.kind]
  | reserved bytes grown => cases advanced
  | moved bytes grown buffer =>
    obtain ⟨same, rfl, fits, small⟩ := sound
    simp only [CallPhase.advance, Nat.sub_self, Nat.add_zero, Option.some.injEq] at advanced
    subst advanced
    have fits : buffer.bytes.length + bytes.length ≤ buffer.capacity := same ▸ fits
    have stays := FileBuffer.capacity_extendFromSlice fits
    refine ⟨⟨fun _ _ => ⟨_, rfl, ?_, ?_⟩, fun failed => absurd rfl failed⟩, ?_, within⟩
    · rw [FileBuffer.length_extendFromSlice]
      exact Nat.le_trans fits small
    · rw [stays]
      exact Nat.le_trans small (Nat.le_max_right _ _)
    · simp only [BufferCall.weight, BufferCall.capacity, BufferCall.reservation, Ended.of, weightOf, Option.toList,
        List.map_cons, List.map_nil, List.sum_cons, List.sum_nil, stays]

----------
-- Every run
----------

/-- Taking one out of a list, or replacing it, changes a sum by as much. -/
theorem sum_eraseIdx {α : Type} (weight : α → Nat) {items : List α} {index : Nat} {item : α}
    (found : items[index]? = some item)
    : ((items.eraseIdx index).map weight).sum + weight item = (items.map weight).sum := by
  induction items generalizing index with
  | nil => cases found
  | cons first rest ih =>
    cases index with
    | zero =>
      cases found
      simp [Nat.add_comm]
    | succ index =>
      have later := ih (show rest[index]? = some item from found)
      simp only [List.eraseIdx_cons_succ, List.map_cons, List.sum_cons]
      omega

theorem sum_set {α : Type} (weight : α → Nat) {items : List α} {index : Nat} {item : α} (other : α)
    (found : items[index]? = some item)
    : ((items.set index other).map weight).sum + weight item = (items.map weight).sum + weight other := by
  induction items generalizing index with
  | nil => cases found
  | cons first rest ih =>
    cases index with
    | zero =>
      cases found
      simp only [List.set_cons_zero, List.map_cons, List.sum_cons]
      omega
    | succ index =>
      have later := ih (show rest[index]? = some item from found)
      simp only [List.set_cons_succ, List.map_cons, List.sum_cons]
      omega

namespace Buffers

/-- What holds in every run: all of the above, with the counter by calls. -/
structure Sound (state : Buffers) : Prop where
  counted : state.held
    = (state.resting.map FileBuffer.capacity).sum + (state.calls.map BufferCall.weight).sum
  bounded : state.held ≤ budget
  calls : ∀ call ∈ state.calls, call.Sound
  ended : ∀ ended ∈ state.ended, ended.Bounded ∧ ended.Unchanged

theorem start_sound : start.Sound := ⟨rfl, Nat.zero_le _, nofun, nofun⟩

variable {state next : Buffers} {index : Nat}

theorem Sound.finish {ended : Ended}
    (counted : state.held = weightOf ended.left
      + (state.resting.map FileBuffer.capacity).sum + (state.calls.map BufferCall.weight).sum)
    (bounded : state.held ≤ budget) (calls : ∀ call ∈ state.calls, call.Sound)
    (earlier : ∀ ended ∈ state.ended, ended.Bounded ∧ ended.Unchanged)
    (ok : ended.Bounded ∧ ended.Unchanged)
    : (state.finish ended).Sound where
  counted := by
    rw [Buffers.finish, List.map_append, List.sum_append]
    exact counted
  bounded := bounded
  calls := calls
  ended := List.forall_mem_cons.mpr ⟨ok, earlier⟩

theorem beginExtend_sound {bytes : List UInt8} (sound : state.Sound)
    (taken : state.beginExtend index bytes = some next)
    : next.Sound := by
  obtain ⟨buffer, found, taken⟩ := Option.bind_eq_some_iff.mp taken
  have sum := sum_eraseIdx FileBuffer.capacity found
  have counted := sound.counted
  dsimp only at taken
  split at taken
  · cases taken
    refine .finish ?_ sound.bounded sound.calls sound.ended
      ⟨fun _ => nofun, fun _ => ⟨rfl, fun _ => rfl⟩⟩
    simp only [Ended.of, if_true, weightOf, Option.toList, List.map_cons, List.map_nil, List.sum_cons,
      List.sum_nil]
    omega
  · rename_i short
    split at taken
    · rename_i outgrows
      cases taken
      refine ⟨?_, sound.bounded, List.forall_mem_cons.mpr ⟨?_, sound.calls⟩, sound.ended⟩
      · simp only [List.map_cons, List.sum_cons, BufferCall.weight, BufferCall.capacity, BufferCall.reservation] at *
        omega
      · refine ⟨rfl, trivial, ?_, ?_, Nat.min_le_right _ _⟩ <;> dsimp only <;> omega
    · rename_i roomy
      cases taken
      have stays := FileBuffer.capacity_extendFromSlice (Nat.le_of_not_lt roomy)
      refine .finish ?_ sound.bounded sound.calls sound.ended
        ⟨fun _ _ => ⟨_, rfl, ?_, ?_⟩, fun failed => absurd rfl failed⟩
      · simp only [Ended.of, weightOf, Option.toList, List.map_cons, List.map_nil, List.sum_cons,
          List.sum_nil, stays]
        omega
      · rw [FileBuffer.length_extendFromSlice]
        exact Nat.le_of_not_lt short
      · rw [stays]
        exact Nat.le_max_left _ _

theorem advance_sound {spurious : Bool} (sound : state.Sound)
    (taken : state.advance index spurious = some next)
    : next.Sound := by
  obtain ⟨call, found, taken⟩ := Option.bind_eq_some_iff.mp taken
  obtain ⟨progress, advanced, taken⟩ := Option.bind_eq_some_iff.mp taken
  have callSound := sound.calls call (List.mem_of_getElem? found)
  have inv := BufferCall.advance_inv callSound sound.bounded advanced
  have counted := sound.counted
  cases progress with
  | going held phase =>
    cases taken
    obtain ⟨after, balance, bounded⟩ := inv
    refine ⟨?_, bounded, ?_, sound.ended⟩
    · have sum := sum_set BufferCall.weight
        { call with phase, added := call.added + ((held : Int) - state.held) } found
      dsimp only at *
      omega
    · intro other member
      rcases List.mem_or_eq_of_mem_set member with earlier | rfl
      · exact sound.calls other earlier
      · exact after
  | done held result =>
    cases taken
    obtain ⟨ok, balance, bounded⟩ := inv
    have sum := sum_eraseIdx BufferCall.weight found
    refine .finish ?_ bounded ?_ sound.ended ok
    · dsimp only at *
      omega
    · exact fun other member => sound.calls other (List.mem_of_mem_eraseIdx member)

theorem allocate_sound {capacity : Nat} (sound : state.Sound)
    (exact : state.Exact (.allocate index capacity))
    (taken : state.allocate index capacity = some next)
    : next.Sound := by
  obtain ⟨call, found, taken⟩ := Option.bind_eq_some_iff.mp taken
  have callSound := sound.calls call (List.mem_of_getElem? found)
  obtain ⟨before, phase, added⟩ := call
  cases phase with
  | reserved bytes grown =>
    obtain rfl : capacity = grown := by
      simpa [Exact, Buffers.exact, found] using exact
    obtain ⟨larger, fits, small⟩ := callSound
    simp only [Nat.le_refl, if_true] at taken
    cases taken
    have grows : (before.reallocate capacity).capacity = capacity := Nat.max_eq_right larger
    refine ⟨?_, sound.bounded, ?_, sound.ended⟩
    · have sum := sum_set BufferCall.weight
        { before, phase := .moved bytes capacity (before.reallocate capacity), added } found
      have counted := sound.counted
      simp only [BufferCall.weight, BufferCall.capacity, BufferCall.reservation, grows] at *
      omega
    · intro other member
      rcases List.mem_or_eq_of_mem_set member with earlier | rfl
      · exact sound.calls other earlier
      · exact ⟨rfl, grows, fits, small⟩
  | _ => cases taken

theorem step_sound {event : Event} (sound : state.Sound) (exact : state.Exact event)
    (taken : state.step event = some next)
    : next.Sound := by
  have counted := sound.counted
  cases event with
  | create =>
    cases taken
    exact ⟨by simpa [FileBuffer.new] using counted, sound.bounded, sound.calls, sound.ended⟩
  | adopt buffer =>
    cases taken
    refine ⟨?_, sound.bounded, List.forall_mem_cons.mpr ⟨⟨rfl, trivial⟩, sound.calls⟩, sound.ended⟩
    simpa [BufferCall.weight, BufferCall.capacity, BufferCall.reservation] using counted
  | extend index bytes => exact beginExtend_sound sound taken
  | drop index =>
    obtain ⟨buffer, found, taken⟩ := Option.bind_eq_some_iff.mp taken
    cases taken
    have sum := sum_eraseIdx FileBuffer.capacity found
    have bounded := sound.bounded
    refine ⟨?_, ?_, sound.calls, sound.ended⟩ <;> dsimp only <;> omega
  | advance index spurious => exact advance_sound sound taken
  | allocate index capacity => exact allocate_sound sound exact taken

theorem Sound.within (sound : state.Sound) : state.Within where
  counted := by
    have sums : (state.calls.map BufferCall.weight).sum
        = (state.calls.map BufferCall.capacity).sum + (state.calls.map BufferCall.reservation).sum :=
      List.sum_map_add
    rw [sound.counted, sums, Nat.add_assoc]
  bounded := sound.bounded
  extended := fun ended member => (sound.ended ended member).1
  failed := fun ended member => (sound.ended ended member).2

/-- However calls interleave: if memory comes as it was asked for, the counter is what the buffers
hold and the calls have reserved, and within the budget. No buffer is extended past what files may
have, and a call that fails changes nothing.
-/
theorem within_of_exact {state : Buffers} (run : Reach.Reaches step Exact start state)
    : state.Within :=
  (run.invariant start_sound (fun _ _ _ => step_sound)).within

/-- Witness: one program adopts a file while another one's buffer grows; what the first takes makes the
other one try again. A third is refused.
-/
theorem within_of_overlap
    : ∃ state, Reach.Reaches step Exact start state
        ∧ state.held = 8 * 1024 * 1024
        ∧ state.ended.any (fun ended => ended.error = some .noMemory)
        ∧ state.Within := by
  have executed : (Reach.runAll step Exact start
      [.create, .extend 0 [1, 2], .advance 0 false,
        .adopt { bytes := [], capacity := 8 * 1024 * 1024 - 2, fits := Nat.zero_le _ },
        .advance 0 false, .advance 0 false, .advance 0 false, .advance 0 false, .allocate 0 2,
        .advance 0 false, .create, .extend 0 [3], .advance 0 false]).any (fun state =>
          state.held = 8 * 1024 * 1024
          ∧ state.ended.any (fun ended => ended.error = some .noMemory)) = true := by
    decide +kernel
  obtain ⟨state, run, found⟩ := Reach.Reaches.of_check executed
  obtain ⟨held, refused⟩ := of_decide_eq_true found
  exact ⟨state, run, held, refused, within_of_exact run⟩

end Buffers

end RustyPi.Process
