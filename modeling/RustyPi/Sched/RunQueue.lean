import Mathlib.Data.List.Basic

/-! The scheduling policy of `rustypi-core/src/sched.rs`: task states, the run queue and
its lock-protected operations. An operation the source would panic in (a core that has not
started, a core started twice) gives `none`.
-/

namespace RustyPi.Sched

abbrev TaskId := Nat

/-- Something tasks can wait for. -/
abbrev Event := Nat

/-- How many times an event has been notified. -/
abbrev Generation := Nat

inductive State
  | running
  | ready
  | sleeping (untilUs : Nat)
  | waiting (event : Event)
  | blocked
  | finished
  deriving DecidableEq, Repr

/-- Core 0's ticks in a CPU accounting window. -/
def cpuWindow : Nat := 100

structure Entry where
  name : String
  state : State
  ticks : Nat := 0
  windowTicks : Nat := 0
  recentTicks : Nat := 0
  wakePending : Bool := false
  interruptPending : Bool := false
  deriving DecidableEq, Repr

/-- Tasks are indexed by id and `none` once reaped; `current` and `idle` by core. -/
structure RunQueue where
  tasks : List (Option Entry)
  current : List (Option TaskId)
  idle : List (Option TaskId)
  generations : List Nat
  windowElapsed : Nat
  deriving DecidableEq, Repr

namespace RunQueue

----------
-- Construction and lookups
----------

/-- A queue for `cores` cores whose only task is the code already running on core 0. -/
def new (name : String) (cores : Nat) : RunQueue :=
  {
    tasks := [some { name, state := .running }]
    current := (List.replicate cores none).set 0 (some 0)
    idle := List.replicate cores none
    generations := []
    windowElapsed := 0
  }

/-- The task a core is running; `none` models the panic for a core that has not started. -/
def currentTask (queue : RunQueue) (core : Nat) : Option TaskId :=
  queue.current[core]?.join

def entry (queue : RunQueue) (id : TaskId) : Option Entry := queue.tasks[id]?.join

def state (queue : RunQueue) (id : TaskId) : Option State :=
  (queue.entry id).map Entry.state

/-- The core task `id` is running on. -/
def coreOf (queue : RunQueue) (id : TaskId) : Option Nat :=
  queue.current.findIdx? (fun current => current == some id)

def isIdle (queue : RunQueue) (id : TaskId) : Bool := queue.idle.contains (some id)

def generation (queue : RunQueue) (event : Event) : Generation :=
  queue.generations[event]?.getD 0

----------
-- Changing entries
----------

/-- Applies a change to the entry of `id`, if it has one. -/
def modifyEntry (queue : RunQueue) (id : TaskId) (change : Entry → Entry) : RunQueue :=
  { queue with tasks := queue.tasks.modify id (Option.map change) }

/-- Applies a change to every live entry. -/
def modifyAll (queue : RunQueue) (change : Entry → Entry) : RunQueue :=
  { queue with tasks := queue.tasks.map (Option.map change) }

def setState (queue : RunQueue) (id : TaskId) (state : State) : RunQueue :=
  queue.modifyEntry id (fun entry => { entry with state })

def add (queue : RunQueue) (name : String) : RunQueue × TaskId :=
  ({ queue with tasks := queue.tasks ++ [some { name, state := .ready }] },
    queue.tasks.length)

/-- Adds the task `core` runs when nothing else can. -/
def addIdle (queue : RunQueue) (name : String) (core : Nat) : Option (RunQueue × TaskId) :=
  if core < queue.idle.length then
    let (added, id) := queue.add name
    some ({ added with idle := added.idle.set core (some id) }, id)
  else none

/-- Starts `core`: the code running on it becomes its idle task. -/
def startCore (queue : RunQueue) (name : String) (core : Nat)
    : Option (RunQueue × TaskId) :=
  match queue.current[core]? with
  | some none =>
    (queue.addIdle name core).map (fun (added, id) =>
      let running := added.setState id .running
      ({ running with current := running.current.set core (some id) }, id))
  | _ => none

/-- The current task of `core`, taking a pending interrupt if it has one. -/
def takeInterrupt (queue : RunQueue) (core : Nat) : Option (RunQueue × TaskId × Bool) :=
  (queue.currentTask core).map (fun current =>
    (queue.modifyEntry current (fun entry => { entry with interruptPending := false }),
      current, (queue.entry current).any Entry.interruptPending))

def sleepCurrent (queue : RunQueue) (core : Nat) (untilUs : Nat) : Option RunQueue :=
  (queue.takeInterrupt core).map (fun (taken, current, interrupted) =>
    if interrupted then taken else taken.setState current (.sleeping untilUs))

def waitCurrent (queue : RunQueue) (core : Nat) (event : Event) (seen : Generation)
    : Option RunQueue :=
  (queue.takeInterrupt core).map (fun (taken, current, interrupted) =>
    if !interrupted && taken.generation event == seen then
      taken.setState current (.waiting event)
    else taken)

def blockCurrent (queue : RunQueue) (core : Nat) : Option RunQueue :=
  (queue.currentTask core).map (fun current =>
    let woken := (queue.entry current).any Entry.wakePending
    let taken := queue.modifyEntry current (fun entry => { entry with wakePending := false })
    if woken then taken else taken.setState current .blocked)

def finishCurrent (queue : RunQueue) (core : Nat) : Option RunQueue :=
  (queue.currentTask core).map (fun current => queue.setState current .finished)

/-- Makes a blocked task ready, or keeps the wake for its next `blockCurrent`. -/
def wake (queue : RunQueue) (id : TaskId) : RunQueue × Bool :=
  match queue.state id with
  | some .blocked => (queue.setState id .ready, true)
  | some .finished | none => (queue, false)
  | some _ => (queue.modifyEntry id (fun entry => { entry with wakePending := true }), false)

/-- Makes a sleeping or waiting task ready early, or keeps the interrupt for later. -/
def interrupt (queue : RunQueue) (id : TaskId) : RunQueue × Bool :=
  match queue.state id with
  | some (.sleeping _) | some (.waiting _) => (queue.setState id .ready, true)
  | some .running | some .ready =>
    (queue.modifyEntry id (fun entry => { entry with interruptPending := true }), false)
  | _ => (queue, false)

/-- Makes every task waiting for `event` ready, and moves its generation on. -/
def notify (queue : RunQueue) (event : Event) : RunQueue × Bool :=
  let padded := queue.generations ++ List.replicate (event + 1 - queue.generations.length) 0
  let counted := { queue with generations := padded.modify event (· + 1) }
  (counted.modifyAll (fun entry =>
      if entry.state = .waiting event then { entry with state := .ready } else entry),
    queue.tasks.any (fun slot => slot.any (fun entry => entry.state == .waiting event)))

/-- Readies a sleeper whose time has come. -/
def wakeDue (nowUs : Nat) (entry : Entry) : Entry :=
  match entry.state with
  | .sleeping untilUs => if untilUs ≤ nowUs then { entry with state := .ready } else entry
  | _ => entry

/-- Moves a complete CPU window's ticks to `recentTicks`, on core 0's last tick of it. -/
def measureWindow (queue : RunQueue) (core : Nat) : RunQueue :=
  if core = 0 then
    if queue.windowElapsed + 1 = cpuWindow then
      { queue with windowElapsed := 0 }.modifyAll (fun entry =>
        { entry with recentTicks := entry.windowTicks, windowTicks := 0 })
    else { queue with windowElapsed := queue.windowElapsed + 1 }
  else queue

/-- Accounts a timer tick on `core`, and wakes sleepers whose time has come. -/
def tick (queue : RunQueue) (core : Nat) (nowUs : Nat) : Option RunQueue :=
  (queue.currentTask core).map (fun current =>
    let counted := queue.modifyEntry current (fun entry =>
      { entry with ticks := entry.ticks + 1, windowTicks := entry.windowTicks + 1 })
    (counted.measureWindow core).modifyAll (wakeDue nowUs))

----------
-- Choosing the next task
----------

/-- Whether the round robin may take `id`. -/
def pickable (queue : RunQueue) (busy : TaskId → Bool) (id : TaskId) : Bool :=
  queue.state id == some .ready && !queue.isIdle id && !busy id

/-- The first pickable task after `current`, wrapping around. -/
def roundRobin (queue : RunQueue) (busy : TaskId → Bool) (current : TaskId)
    : Option TaskId :=
  ((List.range queue.tasks.length).map (fun offset =>
    (current + (offset + 1)) % queue.tasks.length)).find? (queue.pickable busy)

/-- Whether `current` may go on running: still runnable, and not an idle task. -/
def keepsCurrent (queue : RunQueue) (current : TaskId) : Bool :=
  queue.state current == some .running && !queue.isIdle current

/-- The task `pickNext` chooses for a core whose current task is `current`. -/
def chooseNext (queue : RunQueue) (core : Nat) (preempt : Bool) (busy : TaskId → Bool)
    (current : TaskId)
    : TaskId :=
  if queue.keepsCurrent current && !preempt then current
  else
    (((queue.roundRobin busy current).or
      (if queue.keepsCurrent current then some current else none)).or
        queue.idle[core]?.join).getD current

/-- Chooses the task `core` runs next and marks it running. -/
def pickNext (queue : RunQueue) (core : Nat) (preempt : Bool) (busy : TaskId → Bool)
    : Option (RunQueue × TaskId) :=
  (queue.currentTask core).map (fun current =>
    let next := queue.chooseNext core preempt busy current
    let left :=
      if next ≠ current ∧ queue.state current = some .running then
        queue.setState current .ready
      else queue
    ({ left with current := left.current.set core (some next) }.setState next .running, next))

/-- Finished tasks no core is running. -/
def finished (queue : RunQueue) : List TaskId :=
  (List.range queue.tasks.length).filter (fun id =>
    (queue.coreOf id).isNone && queue.state id == some .finished)

/-- Forgets a task. Its id is not reused. -/
def remove (queue : RunQueue) (id : TaskId) : RunQueue :=
  { queue with tasks := queue.tasks.set id none }

----------
-- What each operation leaves alone
----------

theorem currentTask_congr {before after : RunQueue} (same : after.current = before.current)
    (core : Nat)
    : after.currentTask core = before.currentTask core := by
  simp [currentTask, same]

section Frame

variable (queue : RunQueue) (id : TaskId) (change : Entry → Entry)

@[simp]
theorem modifyEntry_current : (queue.modifyEntry id change).current = queue.current := rfl

@[simp]
theorem modifyEntry_idle : (queue.modifyEntry id change).idle = queue.idle := rfl

@[simp]
theorem modifyEntry_length
    : (queue.modifyEntry id change).tasks.length = queue.tasks.length := by
  simp [modifyEntry]

@[simp]
theorem modifyAll_current : (queue.modifyAll change).current = queue.current := rfl

@[simp]
theorem modifyAll_idle : (queue.modifyAll change).idle = queue.idle := rfl

@[simp]
theorem modifyAll_length : (queue.modifyAll change).tasks.length = queue.tasks.length := by
  simp [modifyAll]

@[simp]
theorem setState_current (next : State) : (queue.setState id next).current = queue.current :=
  rfl

@[simp]
theorem setState_idle (next : State) : (queue.setState id next).idle = queue.idle := rfl

@[simp]
theorem setState_length (next : State)
    : (queue.setState id next).tasks.length = queue.tasks.length := by
  simp [setState]

@[simp]
theorem remove_current : (queue.remove id).current = queue.current := rfl

@[simp]
theorem remove_idle : (queue.remove id).idle = queue.idle := rfl

@[simp]
theorem remove_length : (queue.remove id).tasks.length = queue.tasks.length := by
  simp [remove]

end Frame

end RunQueue

end RustyPi.Sched
