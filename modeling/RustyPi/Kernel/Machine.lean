import RustyPi.Sched.Exclusive

/-! The machine `src/sched.rs`, `src/arch/fp.rs` and `src/process/mod.rs` run on: tasks with
their saved contexts, each core's registers and the scheduler's per-core statics, and the
process table. One event is one critical section, one instruction or one exception.
-/

namespace RustyPi.Kernel

open Function RustyPi.Sched

----------
-- Contexts
----------

/-- A saved or running context, by where it resumes. The SPSR mode bits are EL0's for
`user` and EL1's for the rest. A program's system call keeps the address it returns to.
-/
inductive ExceptionContext
  | user (pc : Nat)
  /-- A kernel task's own code. -/
  | kernel
  /-- In a system call, before its `was_killed` check. -/
  | syscall (pc : Nat)
  /-- After the check said no, with interrupts still enabled. -/
  | checked (pc : Nat)
  /-- Interrupts disabled, about to return to the program. -/
  | returning (pc : Nat)
  | exitKilled
  /-- In `exit`. -/
  | exiting
  deriving DecidableEq, Repr

namespace ExceptionContext

def atEl0 : ExceptionContext → Bool
  | .user _ => true
  | _ => false

/-- Points a context that would resume at EL0 at `entry` instead, if it is one. -/
def redirect (context entry : ExceptionContext) : Option ExceptionContext :=
  if context.atEl0 then some entry else none

/-- Kernel code that may sleep, block or yield. -/
def mayBlock : ExceptionContext → Bool
  | .kernel | .syscall _ | .exiting => true
  | _ => false

/-- Interrupts are masked only between a system call's end and the return. -/
def irqsMasked : ExceptionContext → Bool
  | .returning _ => true
  | _ => false

end ExceptionContext

/-- Everything a program can see of the FP/SIMD unit. -/
structure FpState where
  v : Vector (BitVec 128) 32
  fpcr : BitVec 64
  fpsr : BitVec 64
  deriving DecidableEq

/-- What a program starts with. -/
def FpState.new : FpState := { v := Vector.replicate 32 0, fpcr := 0, fpsr := 0 }

structure Task where
  /-- `none` is the null pointer of a task that was never switched away from. -/
  context : Option ExceptionContext
  translationBase : Nat
  fp : Option FpState := none
  fpCore : Option Nat := none
  redirect : Option ExceptionContext := none

/-- What the kernel keeps about a running program, as far as killing it goes. -/
structure Running where
  killed : Bool := false
  deriving DecidableEq

----------
-- The machine
----------

/-- A core's registers, and its slot of the scheduler's and the FP unit's statics. -/
structure CoreState where
  /-- What it executes; `none` before it has started. -/
  cpu : Option ExceptionContext := none
  running : Option TaskId := none
  preemptDisabled : Nat := 0
  switchPending : Bool := false
  ttbr : Nat := 0
  owner : Option TaskId := none
  regs : FpState := FpState.new
  el0Fp : Bool := false

/-- How far a `kill` holding the process table's lock has come. -/
inductive Killing
  | marked (id : TaskId)
  | redirected (id : TaskId) (done : Bool)
  deriving DecidableEq

/-- The machine, with two records of its history: the FP values each program last wrote,
and the programs a `kill` has returned `Ok` for.
-/
structure Machine where
  kernelBase : Nat
  cores : Cores
  tasks : TaskId → Option Task
  hw : Nat → CoreState
  processes : TaskId → Option Running
  killing : Option Killing
  wrote : TaskId → FpState
  killReturned : TaskId → Bool

namespace Machine

def current (machine : Machine) (core : Nat) : Option TaskId :=
  machine.cores.queue.currentTask core

def setTask (machine : Machine) (id : TaskId) (task : Option Task) : Machine :=
  { machine with tasks := update machine.tasks id task }

def setCore (machine : Machine) (core : Nat) (state : CoreState) : Machine :=
  { machine with hw := update machine.hw core state }

def setProcess (machine : Machine) (id : TaskId) (process : Option Running) : Machine :=
  { machine with processes := update machine.processes id process }

/-- Where `core` executes from now on. -/
def setCpu (machine : Machine) (core : Nat) (context : ExceptionContext) : Machine :=
  machine.setCore core { machine.hw core with cpu := some context }

/-- `init` for a machine of `count` cores: the code running on core 0 becomes task 0. -/
def init (name : String) (count kernelBase : Nat) : Machine :=
  {
    kernelBase
    cores := Cores.new name count
    tasks := fun id => if id = 0 then some { context := none, translationBase := kernelBase }
      else none
    hw := fun core =>
      if core = 0 then { cpu := some .kernel, ttbr := kernelBase }
      else { ttbr := kernelBase }
    processes := fun _ => none
    killing := none
    wrote := fun _ => FpState.new
    killReturned := fun _ => false
  }

----------
-- Switching
----------

/-- What a switch does to the task it finds running: notes its context, and sends it to a
pending redirect if it was at EL0.
-/
def leaveTask (task : Task) (context : ExceptionContext) : Task :=
  match task.redirect.bind context.redirect with
  | some redirected => { task with context := some redirected, redirect := none }
  | none => { task with context := some context }

/-- Saves the core's FP registers into the task being left, if it is their owner. -/
def saveFp (task : Task) (id : TaskId) (core : CoreState) : Task :=
  if core.owner = some id then { task with fp := task.fp.map (fun _ => core.regs) }
  else task

/-- The task table after a switch away from `current`: its context noted, the reaped tasks
dropped, and its FP registers saved if another task was picked.
-/
def switchTasks (machine : Machine) (core : Nat) (context : ExceptionContext)
    (switched : Cores.Switched)
    : TaskId → Option Task :=
  fun id =>
    if id = switched.current then
      (machine.tasks id).map (fun task =>
        let left := leaveTask task context
        if switched.next ≠ switched.current then saveFp left id (machine.hw core)
        else left)
    else if id ∈ switched.reaped then none
    else machine.tasks id

/-- `Scheduler::switch`, with `context` the interrupted one, and the return from the
exception into the picked task's context.
-/
def switch (machine : Machine) (core : Nat) (context : ExceptionContext) (preempt : Bool)
    : Option Machine :=
  (machine.cores.switch core preempt).bind (fun switched =>
    let tasks := machine.switchTasks core context switched
    (tasks switched.next).bind (fun next =>
      next.context.map (fun resumed =>
        { machine with cores := switched.cores, tasks }.setCore core
          { machine.hw core with
            cpu := some resumed
            running := some switched.next
            ttbr :=
              if (machine.tasks switched.current).map Task.translationBase
                = some next.translationBase
              then (machine.hw core).ttbr
              else next.translationBase
            el0Fp := (machine.hw core).owner == some switched.next
              && next.fpCore == some core })))

/-- The run queue once `on_irq` has notified and ticked. -/
def serviced (machine : Machine) (core : Nat) (uart timer : Bool) (nowUs : Nat)
    : Option Machine :=
  let uartRx : Event := 1
  let notified :=
    if uart then (machine.cores.queue.notify uartRx).1 else machine.cores.queue
  (if timer then notified.tick core nowUs else some notified).map (fun queue =>
    { machine with cores := { machine.cores with queue } })

/-- `on_irq`: services the interrupt, then switches unless preemption is held off. -/
def onIrq (machine : Machine) (core : Nat) (context : ExceptionContext)
    (uart timer : Bool) (nowUs : Nat)
    : Option Machine :=
  (machine.serviced core uart timer nowUs).bind (fun serviced =>
    if (serviced.hw core).preemptDisabled > 0 then
      some (serviced.setCore core
        { serviced.hw core with
          switchPending := (serviced.hw core).switchPending || timer })
    else serviced.switch core context timer)

/-- The end of a `no_preempt`: takes a switch that fell due meanwhile, if it was the
outermost one.
-/
def noPreemptEnd (machine : Machine) (core : Nat) (context : ExceptionContext)
    : Option Machine :=
  let state := machine.hw core
  let depth := state.preemptDisabled - 1
  if depth = 0 ∧ state.switchPending then
    (machine.setCore core
      { state with preemptDisabled := depth, switchPending := false }).switch core context true
  else some (machine.setCore core { state with preemptDisabled := depth })

/-- Gives the running program the FP registers, loaded with its values. -/
def takeFpRegisters (machine : Machine) (core : Nat) : Option Machine :=
  (machine.current core).bind (fun current =>
    (machine.tasks current).bind (fun task =>
      task.fp.map (fun state =>
        (machine.setTask current (some { task with fpCore := some core })).setCore core
          { machine.hw core with regs := state, owner := some current, el0Fp := true })))

/-- `redirect_to_kernel`: sends a task at EL0 to `entry`, now or when it is next switched
away from. Returns whether it did so now.
-/
def redirectToKernel (machine : Machine) (id : TaskId) (entry : ExceptionContext)
    : Machine × Bool :=
  match machine.tasks id with
  | none => (machine, false)
  | some task =>
    match task.context with
    | none => (machine.setTask id (some { task with redirect := some entry }), false)
    | some context =>
      if (machine.cores.queue.coreOf id).isSome then
        (machine.setTask id (some { task with redirect := some entry }), false)
      else
        match context.redirect entry with
        | none => (machine, false)
        | some redirected =>
          (machine.setTask id (some { task with context := some redirected }), true)

----------
-- Events
----------

inductive Event
  | startCore (name : String) (core : Nat)
  | spawnIdle (name : String) (core : Nat)
  | spawnKernel (name : String)
  | spawnUser (name : String) (entry translationBase : Nat)
  /-- A program's instruction that stays at EL0. -/
  | userStep (core pc : Nat)
  /-- A program's instruction that leaves `value` in the FP registers. -/
  | fpWrite (core : Nat) (value : FpState)
  | fpTrap (core : Nat)
  | svc (core pc : Nat)
  | fault (core : Nat)
  /-- The `Exit` system call. -/
  | exitCall (core : Nat)
  | checkKilled (core : Nat)
  | disableIrq (core : Nat)
  | returnToUser (core : Nat)
  | exitProcess (core : Nat)
  /-- A run-queue operation by kernel code. -/
  | queueOp (op : Cores.Op)
  | irq (core : Nat) (uart timer : Bool) (nowUs : Nat)
  | yieldNow (core : Nat)
  | finishSwitch (core : Nat)
  | noPreemptBegin (core : Nat)
  | noPreemptEnd (core : Nat)
  | killMark (id : TaskId)
  | killRedirect
  | killInterrupt

/-- Runs an exception handler on what `core` executes, if `core` has started. -/
def onCpu (machine : Machine) (core : Nat)
    (handler : ExceptionContext → Option Machine)
    : Option Machine :=
  (machine.hw core).cpu.bind handler

/-- Which queue operations kernel code issues by itself, and where from: a task marks
itself only while its own kernel code runs.
-/
def queueOpAllowed (machine : Machine) : Cores.Op → Bool
  | .sleepCurrent core _ | .waitCurrent core _ _ | .blockCurrent core =>
    (machine.hw core).cpu.any ExceptionContext.mayBlock
  | .finishCurrent core =>
    (machine.hw core).cpu.any (fun context =>
      context == .kernel || context == .exiting)
  | .wake _ | .interrupt _ | .notify _ => true
  | _ => false

def step (machine : Machine) : Event → Option Machine
  | .startCore name core =>
    (machine.cores.queue.startCore name core).map (fun (queue, id) =>
      ({ machine with cores := { machine.cores with queue } }.setTask id
        (some { context := none, translationBase := machine.kernelBase })).setCore core
          { machine.hw core with cpu := some .kernel, running := some id })
  | .spawnIdle name core =>
    (machine.cores.queue.addIdle name core).map (fun (queue, id) =>
      { machine with cores := { machine.cores with queue } }.setTask id
        (some { context := some .kernel, translationBase := machine.kernelBase }))
  | .spawnKernel name =>
    let (queue, id) := machine.cores.queue.add name
    some ({ machine with cores := { machine.cores with queue } }.setTask id
      (some { context := some .kernel, translationBase := machine.kernelBase }))
  | .spawnUser name entry translationBase =>
    if machine.killing = none then
      let (queue, id) := machine.cores.queue.add name
      some (({ machine with
          cores := { machine.cores with queue }
          wrote := update machine.wrote id FpState.new }.setTask id
        (some {
          context := some (.user entry), translationBase, fp := some FpState.new
        })).setProcess id (some {}))
    else none
  | .userStep core pc =>
    machine.onCpu core (fun context =>
      match context with
      | .user _ => some (machine.setCpu core (.user pc))
      | _ => none)
  | .fpWrite core value =>
    machine.onCpu core (fun context =>
      match context, (machine.hw core).el0Fp, machine.current core with
      | .user _, true, some current =>
        some { machine.setCore core { machine.hw core with regs := value } with
          wrote := update machine.wrote current value }
      | _, _, _ => none)
  | .fpTrap core =>
    machine.onCpu core (fun context =>
      match context, (machine.hw core).el0Fp with
      | .user _, false => machine.takeFpRegisters core
      | _, _ => none)
  | .svc core pc =>
    machine.onCpu core (fun context =>
      match context with
      | .user _ => some (machine.setCpu core (.syscall pc))
      | _ => none)
  | .fault core =>
    machine.onCpu core (fun context =>
      match context with
      | .user _ => some (machine.setCpu core .exiting)
      | _ => none)
  | .exitCall core =>
    machine.onCpu core (fun context =>
      match context with
      | .syscall _ => some (machine.setCpu core .exiting)
      | _ => none)
  | .checkKilled core =>
    machine.onCpu core (fun context =>
      match context, machine.current core, machine.killing with
      | .syscall pc, some current, none =>
        if (machine.processes current).any Running.killed then
          some (machine.setCpu core .exiting)
        else some (machine.setCpu core (.checked pc))
      | _, _, _ => none)
  | .disableIrq core =>
    machine.onCpu core (fun context =>
      match context with
      | .checked pc => some (machine.setCpu core (.returning pc))
      | _ => none)
  | .returnToUser core =>
    machine.onCpu core (fun context =>
      match context with
      | .returning pc => some (machine.setCpu core (.user pc))
      | _ => none)
  | .exitProcess core =>
    machine.onCpu core (fun context =>
      match context, machine.current core, machine.killing with
      | .exitKilled, some current, none | .exiting, some current, none =>
        if (machine.processes current).isSome then
          (machine.tasks current).map (fun task =>
            (((machine.setProcess current none).setTask current
              (some { task with translationBase := machine.kernelBase })).setCore core
                { machine.hw core with
                  cpu := some .exiting, ttbr := machine.kernelBase }))
        else none
      | _, _, _ => none)
  | .queueOp op =>
    if machine.queueOpAllowed op then
      (machine.cores.step op).map (fun cores => { machine with cores })
    else none
  | .irq core uart timer nowUs =>
    machine.onCpu core (fun context =>
      if context.irqsMasked then none
      else machine.onIrq core context uart timer nowUs)
  | .yieldNow core =>
    machine.onCpu core (fun context =>
      if context.mayBlock then machine.switch core context true else none)
  | .finishSwitch core => some { machine with cores := machine.cores.finishSwitch core }
  | .noPreemptBegin core =>
    machine.onCpu core (fun context =>
      if context.mayBlock then
        some (machine.setCore core
          { machine.hw core with
            preemptDisabled := (machine.hw core).preemptDisabled + 1 })
      else none)
  | .noPreemptEnd core =>
    machine.onCpu core (fun context =>
      if context.mayBlock ∧ 0 < (machine.hw core).preemptDisabled then
        machine.noPreemptEnd core context
      else none)
  | .killMark id =>
    match machine.processes id, machine.killing with
    | some process, none =>
      some { machine.setProcess id (some { process with killed := true }) with
        killing := some (.marked id) }
    | _, _ => none
  | .killRedirect =>
    match machine.killing with
    | some (.marked id) =>
      let (redirected, done) := machine.redirectToKernel id .exitKilled
      some { redirected with killing := some (.redirected id done) }
    | _ => none
  | .killInterrupt =>
    match machine.killing with
    | some (.redirected id done) =>
      let queue :=
        if done then machine.cores.queue else (machine.cores.queue.interrupt id).1
      some { machine with
        cores := { machine.cores with queue }
        killing := none
        killReturned := update machine.killReturned id true }
    | _ => none

end Machine

end RustyPi.Kernel
