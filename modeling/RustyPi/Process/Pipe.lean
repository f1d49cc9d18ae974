import Mathlib.Logic.Function.Basic
import RustyPi.Sched.Notifications

/-! Pipes between programs: `src/process/pipe.rs`. Each read and write looks at the pipe in one
critical section and acts on it in another, and waits in between through `sched::wait_until`; a
step here is one critical section of one task, of a drop or of a kill.
-/

namespace RustyPi.Process

open RustyPi.Sched

/-- `rustypi_abi::PIPE_CAPACITY`. -/
def pipeCapacity : Nat := 4096

/-- `sched::PIPE`. -/
def pipeEvent : Event := 4

inductive Errno
  | brokenPipe
  deriving DecidableEq, Repr

inductive End
  | read
  | write
  deriving DecidableEq, Repr

/-- The shared state of a pipe. -/
structure Pipe where
  bytes : List UInt8
  readers : Nat
  writers : Nat
  deriving DecidableEq, Repr

namespace Pipe

/-- A pipe as `pair` makes it. -/
def fresh : Pipe := { bytes := [], readers := 1, writers := 1 }

/-- The condition a read or a write of the pipe waits for. -/
def ready (pipe : Pipe) : End → Bool
  | .read => !pipe.bytes.isEmpty || pipe.writers == 0
  | .write => decide (pipe.bytes.length < pipeCapacity) || pipe.readers == 0

def duplicate (pipe : Pipe) : End → Pipe
  | .read => { pipe with readers := pipe.readers + 1 }
  | .write => { pipe with writers := pipe.writers + 1 }

def drop (pipe : Pipe) : End → Pipe
  | .read => { pipe with readers := pipe.readers - 1 }
  | .write => { pipe with writers := pipe.writers - 1 }

/-- Takes up to `room` bytes. -/
def drain (pipe : Pipe) (room : Nat) : Pipe × List UInt8 :=
  let count := min room pipe.bytes.length
  ({ pipe with bytes := pipe.bytes.drop count }, pipe.bytes.take count)

/-- Adds as much of `bytes` as fits. -/
def add (pipe : Pipe) (bytes : List UInt8) : Except Errno (Pipe × Nat) :=
  if pipe.readers = 0 then .error .brokenPipe
  else
    let count := min bytes.length (pipeCapacity - pipe.bytes.length)
    .ok ({ pipe with bytes := pipe.bytes ++ bytes.take count }, count)

end Pipe

/-- One end of a pipe, counted while it exists. -/
structure PipeEnd where
  pipe : Nat
  side : End
  deriving DecidableEq, Repr

/-- A call of `Pipe::read` with a buffer of `room` bytes, or of `Pipe::write`. -/
inductive Request
  | read (pipe room : Nat)
  | write (pipe : Nat) (bytes : List UInt8)
  deriving DecidableEq, Repr

namespace Request

def pipe : Request → Nat
  | .read pipe _ | .write pipe _ => pipe

def side : Request → End
  | .read _ _ => .read
  | .write _ _ => .write

/-- A buffer with room, or a slice with bytes. -/
def nonEmpty : Request → Bool
  | .read _ room => room != 0
  | .write _ bytes => !bytes.isEmpty

end Request

/-- What a call answers: the bytes read, or how many were written. -/
inductive Answer
  | read (bytes : List UInt8)
  | wrote (count : Nat)
  | failed (error : Errno)
  deriving DecidableEq, Repr

/-- How many bytes the call moved; it notifies when there were any. -/
def Answer.count : Answer → Nat
  | .read bytes => bytes.length
  | .wrote count => count
  | .failed _ => 0

/-- The second critical section of a call: what it leaves of the pipe, and what it answers. -/
def Request.act (pipe : Pipe) : Request → Pipe × Answer
  | .read _ room => ((pipe.drain room).1, .read (pipe.drain room).2)
  | .write _ bytes =>
    match pipe.add bytes with
    | .ok (after, count) => (after, .wrote count)
    | .error error => (pipe, .failed error)

variable {number : Nat} {pipe after : Pipe} {answer : Answer}

/-- A read takes bytes off the front, as many as there are and fit its buffer. -/
theorem Request.act_read {room : Nat}
    (acted : (Request.read number room).act pipe = (after, answer))
    : ∃ bytes,
        answer = .read bytes
        ∧ pipe.bytes = bytes ++ after.bytes
        ∧ bytes.length = min room pipe.bytes.length
        ∧ after.readers = pipe.readers
        ∧ after.writers = pipe.writers := by
  obtain ⟨rfl, rfl⟩ := Prod.mk.inj acted
  exact ⟨_, rfl, (List.take_append_drop _ _).symm, by simp [Pipe.drain], rfl, rfl⟩

/-- A write adds bytes at the back, as many as fit, if there are readers. -/
theorem Request.act_write {bytes : List UInt8}
    (acted : (Request.write number bytes).act pipe = (after, answer))
    : (pipe.readers = 0 ∧ after = pipe ∧ answer = .failed .brokenPipe)
      ∨ (pipe.readers ≠ 0
        ∧ ∃ count,
            answer = .wrote count
            ∧ count = min bytes.length (pipeCapacity - pipe.bytes.length)
            ∧ after = { pipe with bytes := pipe.bytes ++ bytes.take count }) := by
  by_cases broken : pipe.readers = 0
  · simp only [Request.act, Pipe.add, if_pos broken, Prod.mk.injEq] at acted
    exact .inl ⟨broken, acted.1.symm, acted.2.symm⟩
  · simp only [Request.act, Pipe.add, if_neg broken, Prod.mk.injEq] at acted
    exact .inr ⟨broken, _, acted.2.symm, rfl, acted.1.symm⟩

theorem Request.act_counts {request : Request} (acted : request.act pipe = (after, answer))
    : after.readers = pipe.readers ∧ after.writers = pipe.writers := by
  cases request with
  | read number room =>
    obtain ⟨_, _, _, _, readers, writers⟩ := Request.act_read acted
    exact ⟨readers, writers⟩
  | write number bytes =>
    rcases Request.act_write acted with ⟨_, rfl, _⟩ | ⟨_, _, _, _, rfl⟩ <;> exact ⟨rfl, rfl⟩

/-- Where a task is in a call: at the top of `wait_until`'s loop, having read the generation,
told by `stop` to go on, having found the condition false, having called `wait_current`, past the
loop (`told` to stop or not), or with its notification to do.
-/
inductive Phase
  | idle
  | starting (request : Request)
  | looked (request : Request) (seen : Generation)
  | asked (request : Request) (seen : Generation)
  | unready (request : Request) (seen : Generation)
  | waited (request : Request)
  | acting (request : Request) (told : Bool)
  | notifying (moment : Nat)
  deriving DecidableEq, Repr

/-- A call's answer, with the pipe as the call found it when it acted. -/
structure Outcome where
  request : Request
  told : Bool
  found : Pipe
  answer : Answer
  deriving DecidableEq, Repr

/-- What a write added to the pipe `number`. -/
def Outcome.accepted (number : Nat) (outcome : Outcome) : List UInt8 :=
  match outcome.request, outcome.answer with
  | .write pipe bytes, .wrote count => if pipe = number then bytes.take count else []
  | _, _ => []

/-- What a read took from the pipe `number`. -/
def Outcome.returned (number : Nat) (outcome : Outcome) : List UInt8 :=
  match outcome.request, outcome.answer with
  | .read pipe _, .read bytes => if pipe = number then bytes else []
  | _, _ => []

theorem Outcome.accepted_elsewhere (outcome : Outcome) (differ : number ≠ outcome.request.pipe)
    : outcome.accepted number = [] := by
  unfold accepted
  split
  · rename_i target _ _ request _
    rw [request] at differ
    exact if_neg (Ne.symm differ)
  · rfl

theorem Outcome.returned_elsewhere (outcome : Outcome) (differ : number ≠ outcome.request.pipe)
    : outcome.returned number = [] := by
  unfold returned
  split
  · rename_i target _ _ request _
    rw [request] at differ
    exact if_neg (Ne.symm differ)
  · rfl

/-- The run queue, the pipes by number with their ends, and where each task is in a call. `drops`
are the drops that have their notification to do, `kills` the kills that have their interrupt to
do, each under the moment of its first step.

What the steps so far did is recorded: which kill marked a task, which step last made the readers'
or the writers' condition of a pipe true, and every answer, in the order of the acting steps.
-/
structure Pipes where
  queue : RunQueue
  pipes : List Pipe
  ends : List PipeEnd
  phase : TaskId → Phase
  drops : List Nat
  kills : List (Nat × TaskId)
  clock : Nat
  killedAt : TaskId → Option Nat
  madeAt : Nat → End → Option Nat
  outcomes : List Outcome

namespace Pipes

def new (name : String) (cores : Nat) : Pipes :=
  {
    queue := RunQueue.new name cores
    pipes := []
    ends := []
    phase := fun _ => .idle
    drops := []
    kills := []
    clock := 0
    killedAt := fun _ => none
    madeAt := fun _ _ => none
    outcomes := []
  }

/-- The task whose code `core` is running. -/
def acting (state : Pipes) (core : Nat) : Option TaskId :=
  (state.queue.currentTask core).filter (fun task => state.queue.state task == some .running)

def setPhase (state : Pipes) (task : TaskId) (phase : Phase) : Pipes :=
  { state with phase := Function.update state.phase task phase }

/-- Changes a pipe, noting which conditions that made true. -/
def setPipe (state : Pipes) (number : Nat) (before after : Pipe) : Pipes :=
  { state with
    pipes := state.pipes.set number after
    clock := state.clock + 1
    madeAt := Function.update state.madeAt number (fun side =>
      if !before.ready side && after.ready side then some state.clock
      else state.madeAt number side) }

def record (state : Pipes) (outcome : Outcome) : Pipes :=
  { state with outcomes := state.outcomes ++ [outcome] }

/-- What all writes so far added to a pipe, in the order they did. -/
def added (state : Pipes) (number : Nat) : List UInt8 :=
  state.outcomes.flatMap (Outcome.accepted number)

/-- What all reads so far took from a pipe, in the order they did. -/
def drained (state : Pipes) (number : Nat) : List UInt8 :=
  state.outcomes.flatMap (Outcome.returned number)

/-- Run-queue calls of everything but pipes. Only calls on pipes wait for `pipeEvent`, a task in a
call isn't anywhere else, and only finished tasks are removed.
-/
def Elsewhere (state : Pipes) : Call → Prop
  | .op (.waitCurrent core event _) =>
    event ≠ pipeEvent ∧ ∀ task ∈ state.queue.currentTask core, state.phase task = .idle
  | .op (.sleepCurrent core _) | .op (.blockCurrent core) | .op (.finishCurrent core) =>
    ∀ task ∈ state.queue.currentTask core, state.phase task = .idle
  | .remove id => state.queue.state id = some .finished
  | _ => True

instance (state : Pipes) (call : Call) : Decidable (state.Elsewhere call) := by
  unfold Elsewhere
  split <;> infer_instance

inductive Event
  | pair
  | duplicate (index : Nat)
  /-- The count goes down; the notification is a step of its own. -/
  | drop (index : Nat)
  | notifyDrop (moment : Nat)
  | call (core : Nat) (request : Request)
  | look (core : Nat)
  /-- `stop()`, the first half of the condition. -/
  | ask (core : Nat)
  | check (core : Nat)
  | wait (core : Nat)
  | resume (core : Nat)
  | act (core : Nat)
  | notify (core : Nat)
  /-- The program is marked killed; the interrupt is a step of its own. -/
  | kill (id : TaskId)
  | interrupt (moment : Nat) (id : TaskId)
  | other (call : Call)

/-- One critical section; `none` where the task isn't there or has nothing of the kind to do. -/
def step (state : Pipes) : Event → Option Pipes
  | .pair =>
    let number := state.pipes.length
    some { state with
      pipes := state.pipes ++ [.fresh]
      ends := state.ends ++ [⟨number, .read⟩, ⟨number, .write⟩] }
  | .duplicate index =>
    state.ends[index]?.bind (fun one =>
      state.pipes[one.pipe]?.map (fun pipe =>
        { state.setPipe one.pipe pipe (pipe.duplicate one.side) with
          ends := state.ends ++ [one] }))
  | .drop index =>
    state.ends[index]?.bind (fun one =>
      state.pipes[one.pipe]?.map (fun pipe =>
        { state.setPipe one.pipe pipe (pipe.drop one.side) with
          ends := state.ends.eraseIdx index
          drops := state.clock :: state.drops }))
  | .notifyDrop moment =>
    if moment ∈ state.drops then
      some { state with
        queue := (state.queue.notify pipeEvent).1
        drops := state.drops.erase moment }
    else none
  | .call core request =>
    (state.acting core).bind (fun task =>
      if state.phase task = .idle ∧ request.pipe < state.pipes.length then
        some (state.setPhase task (.starting request))
      else none)
  | .look core =>
    (state.acting core).bind (fun task =>
      match state.phase task with
      | .starting request =>
        some (state.setPhase task (.looked request (state.queue.generation pipeEvent)))
      | _ => none)
  | .ask core =>
    (state.acting core).bind (fun task =>
      match state.phase task with
      | .looked request seen =>
        some (state.setPhase task
          (if (state.killedAt task).isSome then .acting request true else .asked request seen))
      | _ => none)
  | .check core =>
    (state.acting core).bind (fun task =>
      match state.phase task with
      | .asked request seen =>
        state.pipes[request.pipe]?.map (fun pipe =>
          state.setPhase task
            (if pipe.ready request.side then .acting request false
              else .unready request seen))
      | _ => none)
  | .wait core =>
    (state.acting core).bind (fun task =>
      match state.phase task with
      | .unready request seen =>
        (state.queue.waitCurrent core pipeEvent seen).map (fun queue =>
          { state.setPhase task (.waited request) with queue })
      | _ => none)
  | .resume core =>
    (state.acting core).bind (fun task =>
      match state.phase task with
      | .waited request => some (state.setPhase task (.starting request))
      | _ => none)
  | .act core =>
    (state.acting core).bind (fun task =>
      match state.phase task with
      | .acting request told =>
        state.pipes[request.pipe]?.map (fun found =>
          let (after, answer) := request.act found
          ((state.setPipe request.pipe found after).setPhase task
            (if answer.count = 0 then .idle else .notifying state.clock)).record
              { request, told, found, answer })
      | _ => none)
  | .notify core =>
    (state.acting core).bind (fun task =>
      match state.phase task with
      | .notifying _ =>
        some { state.setPhase task .idle with queue := (state.queue.notify pipeEvent).1 }
      | _ => none)
  | .kill id =>
    some { state with
      clock := state.clock + 1
      kills := (state.clock, id) :: state.kills
      killedAt := Function.update state.killedAt id
        ((state.killedAt id).or (some state.clock)) }
  | .interrupt moment id =>
    if (moment, id) ∈ state.kills then
      some { state with
        queue := (state.queue.interrupt id).1
        kills := state.kills.erase (moment, id) }
    else none
  | .other call =>
    if state.Elsewhere call then
      (call.apply state.queue).map (fun queue => { state with queue })
    else none

section Recorded

variable (state : Pipes) (outcome : Outcome) (number : Nat)

theorem record_added
    : (state.record outcome).added number = state.added number ++ outcome.accepted number := by
  simp [added, record]

theorem record_drained
    : (state.record outcome).drained number = state.drained number ++ outcome.returned number := by
  simp [drained, record]

end Recorded

theorem acting_eq_some {state : Pipes} {core : Nat} {task : TaskId}
    : state.acting core = some task
      ↔ state.queue.currentTask core = some task ∧ state.queue.state task = some .running := by
  simp [acting, Option.filter_eq_some_iff]

/-- The steps of `step`, each with what it needs and what it leaves. -/
inductive Steps (state : Pipes) : Event → Pipes → Prop
  | pair
    : Steps state .pair
        { state with
          pipes := state.pipes ++ [.fresh]
          ends := state.ends ++ [⟨state.pipes.length, .read⟩, ⟨state.pipes.length, .write⟩] }
  | duplicate {index one pipe} (found : state.ends[index]? = some one)
    (there : state.pipes[one.pipe]? = some pipe)
    : Steps state (.duplicate index)
        { state.setPipe one.pipe pipe (pipe.duplicate one.side) with ends := state.ends ++ [one] }
  | drop {index one pipe} (found : state.ends[index]? = some one)
    (there : state.pipes[one.pipe]? = some pipe)
    : Steps state (.drop index)
        { state.setPipe one.pipe pipe (pipe.drop one.side) with
          ends := state.ends.eraseIdx index
          drops := state.clock :: state.drops }
  | notifyDrop {moment} (owed : moment ∈ state.drops)
    : Steps state (.notifyDrop moment)
        { state with
          queue := (state.queue.notify pipeEvent).1
          drops := state.drops.erase moment }
  | call {core request task} (acts : state.acting core = some task)
    (phase : state.phase task = .idle) (known : request.pipe < state.pipes.length)
    : Steps state (.call core request) (state.setPhase task (.starting request))
  | look {core request task} (acts : state.acting core = some task)
    (phase : state.phase task = .starting request)
    : Steps state (.look core)
        (state.setPhase task (.looked request (state.queue.generation pipeEvent)))
  | told {core request task seen} (acts : state.acting core = some task)
    (phase : state.phase task = .looked request seen) (killed : (state.killedAt task).isSome)
    : Steps state (.ask core) (state.setPhase task (.acting request true))
  | asked {core request task seen} (acts : state.acting core = some task)
    (phase : state.phase task = .looked request seen) (alive : state.killedAt task = none)
    : Steps state (.ask core) (state.setPhase task (.asked request seen))
  | ready {core request task seen pipe} (acts : state.acting core = some task)
    (phase : state.phase task = .asked request seen)
    (there : state.pipes[request.pipe]? = some pipe) (ready : pipe.ready request.side = true)
    : Steps state (.check core) (state.setPhase task (.acting request false))
  | unready {core request task seen pipe} (acts : state.acting core = some task)
    (phase : state.phase task = .asked request seen)
    (there : state.pipes[request.pipe]? = some pipe) (unready : pipe.ready request.side = false)
    : Steps state (.check core) (state.setPhase task (.unready request seen))
  | wait {core request task seen queue} (acts : state.acting core = some task)
    (phase : state.phase task = .unready request seen)
    (waited : state.queue.waitCurrent core pipeEvent seen = some queue)
    : Steps state (.wait core) { state.setPhase task (.waited request) with queue }
  | resume {core request task} (acts : state.acting core = some task)
    (phase : state.phase task = .waited request)
    : Steps state (.resume core) (state.setPhase task (.starting request))
  | act {core request told task found after answer} (acts : state.acting core = some task)
    (phase : state.phase task = .acting request told)
    (there : state.pipes[request.pipe]? = some found)
    (acted : request.act found = (after, answer))
    : Steps state (.act core)
        (((state.setPipe request.pipe found after).setPhase task
          (if answer.count = 0 then .idle else .notifying state.clock)).record
            { request, told, found, answer })
  | notify {core task moment} (acts : state.acting core = some task)
    (phase : state.phase task = .notifying moment)
    : Steps state (.notify core)
        { state.setPhase task .idle with queue := (state.queue.notify pipeEvent).1 }
  | kill (id : TaskId)
    : Steps state (.kill id)
        { state with
          clock := state.clock + 1
          kills := (state.clock, id) :: state.kills
          killedAt := Function.update state.killedAt id
            ((state.killedAt id).or (some state.clock)) }
  | interrupt {moment id} (owed : (moment, id) ∈ state.kills)
    : Steps state (.interrupt moment id)
        { state with
          queue := (state.queue.interrupt id).1
          kills := state.kills.erase (moment, id) }
  | other {call queue} (elsewhere : state.Elsewhere call)
    (applied : call.apply state.queue = some queue)
    : Steps state (.other call) { state with queue }

theorem steps_of_step {state after : Pipes} {event : Event} (taken : state.step event = some after)
    : Steps state event after := by
  cases event <;>
    simp only [step, Option.bind_eq_some_iff, Option.map_eq_some_iff, Option.ite_none_right_eq_some,
      Option.some.injEq] at taken <;>
    grind [Steps, Option.map_eq_some_iff, Option.not_isSome_iff_eq_none]

end Pipes

end RustyPi.Process
