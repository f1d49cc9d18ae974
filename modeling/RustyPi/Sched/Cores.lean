import RustyPi.Lib.Reach
import RustyPi.Sched.RunQueue

/-! The run queue as the cores of `src/sched.rs` share it: every operation runs under the
scheduler's lock, and a core that switched away from a task is still leaving it until
`sched_finish_switch`. Marking a task asleep and switching away from it are separate steps.
-/

namespace RustyPi.Sched

/-- The run queue, and per core the task it switched away from and may still be on the
stack of.
-/
structure Cores where
  queue : RunQueue
  leaving : List (Option TaskId)
  deriving DecidableEq, Repr

namespace Cores

/-- The kernel's scheduler for `cores` cores, before anything is spawned. -/
def new (name : String) (cores : Nat) : Cores :=
  { queue := RunQueue.new name cores, leaving := List.replicate cores none }

/-- Whether a core other than `core` is still on task `id`'s stack. -/
def leavingElsewhere (cores : Cores) (core : Nat) (id : TaskId) : Bool :=
  (List.range cores.leaving.length).any (fun other =>
    other != core && cores.leaving[other]? == some (some id))

/-- The finished tasks that no core may still be on the stack of, `current` being the one
`core` is on.
-/
def reapable (cores : Cores) (core : Nat) (current : TaskId) : List TaskId :=
  cores.queue.finished.filter (fun id => id != current && !cores.leavingElsewhere core id)

/-- What a switch decided: the task left, the one picked, and the finished ones freed. -/
structure Switched where
  cores : Cores
  current : TaskId
  next : TaskId
  reaped : List TaskId
  deriving DecidableEq, Repr

/-- The run queue's part of `Scheduler::switch`: picks the next task, forgets finished
ones, and notes the task being left.
-/
def switch (cores : Cores) (core : Nat) (preempt : Bool) : Option Switched :=
  (cores.queue.currentTask core).bind (fun current =>
    (cores.queue.pickNext core preempt (cores.leavingElsewhere core)).map
      (fun (picked, next) =>
        let reaped := { cores with queue := picked }.reapable core current
        {
          cores := {
            queue := reaped.foldl RunQueue.remove picked
            leaving :=
              if next ≠ current then cores.leaving.set core (some current)
              else cores.leaving
          }
          current, next, reaped
        }))

/-- `sched_finish_switch`: the core is off the stack of the task it left. -/
def finishSwitch (cores : Cores) (core : Nat) : Cores :=
  { cores with leaving := cores.leaving.set core none }

/-- One critical section of the scheduler's lock, or the end of a switch. The current task
of a core marks itself in one step and its core switches in a later one.
-/
inductive Op
  | add (name : String)
  | addIdle (name : String) (core : Nat)
  | startCore (name : String) (core : Nat)
  | sleepCurrent (core untilUs : Nat)
  | waitCurrent (core : Nat) (event : Event) (seen : Generation)
  | blockCurrent (core : Nat)
  | finishCurrent (core : Nat)
  | wake (id : TaskId)
  | interrupt (id : TaskId)
  | notify (event : Event)
  | tick (core nowUs : Nat)
  | switch (core : Nat) (preempt : Bool)
  | finishSwitch (core : Nat)
  deriving DecidableEq, Repr

/-- The operations other than switching, on the run queue alone. -/
def queueStep (queue : RunQueue) : Op → Option RunQueue
  | .add name => some (queue.add name).1
  | .addIdle name core => (queue.addIdle name core).map Prod.fst
  | .startCore name core => (queue.startCore name core).map Prod.fst
  | .sleepCurrent core untilUs => queue.sleepCurrent core untilUs
  | .waitCurrent core event seen => queue.waitCurrent core event seen
  | .blockCurrent core => queue.blockCurrent core
  | .finishCurrent core => queue.finishCurrent core
  | .wake id => some (queue.wake id).1
  | .interrupt id => some (queue.interrupt id).1
  | .notify event => some (queue.notify event).1
  | .tick core nowUs => queue.tick core nowUs
  | .switch _ _ | .finishSwitch _ => none

def step (cores : Cores) : Op → Option Cores
  | .switch core preempt => (cores.switch core preempt).map Switched.cores
  | .finishSwitch core => some (cores.finishSwitch core)
  | op => (queueStep cores.queue op).map (fun queue => { cores with queue })

/-- A step is a switch, the end of one, or an operation on the queue alone. -/
theorem step_cases {cores after : Cores} {op : Op} (taken : cores.step op = some after)
    : (∃ core preempt switched,
        op = .switch core preempt
        ∧ cores.switch core preempt = some switched
        ∧ after = switched.cores)
      ∨ (∃ core, op = .finishSwitch core ∧ after = cores.finishSwitch core)
      ∨ (∃ queue,
          queueStep cores.queue op = some queue
          ∧ after = { cores with queue }) := by
  cases op
  case switch core preempt =>
    obtain ⟨switched, found, rfl⟩ := Option.map_eq_some_iff.mp taken
    exact .inl ⟨core, preempt, switched, rfl, found, rfl⟩
  case finishSwitch core => exact .inr (Or.inl ⟨core, rfl, (Option.some.inj taken).symm⟩)
  all_goals
    simp only [step, Option.map_eq_some_iff] at taken
    obtain ⟨queue, moved, rfl⟩ := taken
    exact .inr (Or.inr ⟨queue, moved, rfl⟩)

end Cores

end RustyPi.Sched
