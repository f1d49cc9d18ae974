import RustyPi.Kernel.Machine

/-! What one event can do to the machine, said once: every step is one of a few kinds of
transition, each with the state it starts from and what it changes.
-/

namespace RustyPi.Kernel.Machine

open RustyPi.Sched

/-- A call of `Scheduler::switch`: the machine it starts from, on which core, with which
interrupted context.
-/
structure SwitchPoint where
  machine : Machine
  core : Nat
  context : ExceptionContext
  preempt : Bool

/-- The switch an event makes, if it makes one. -/
def switchPoint (machine : Machine) : Event → Option SwitchPoint
  | .irq core uart timer nowUs =>
    (machine.hw core).cpu.bind (fun context =>
      if context.irqsMasked then none
      else (machine.serviced core uart timer nowUs).bind (fun serviced =>
        if (serviced.hw core).preemptDisabled > 0 then none
        else some ⟨serviced, core, context, timer⟩))
  | .yieldNow core =>
    (machine.hw core).cpu.bind (fun context =>
      if context.mayBlock then some ⟨machine, core, context, true⟩ else none)
  | .noPreemptEnd core =>
    (machine.hw core).cpu.bind (fun context =>
      let state := machine.hw core
      if context.mayBlock ∧ state.preemptDisabled = 1 ∧ state.switchPending then
        some ⟨machine.setCore core { state with preemptDisabled := 0, switchPending := false },
          core, context, true⟩
      else none)
  | _ => none

/-- The moves of a core that depend on nothing but what it executes. -/
inductive Moves : ExceptionContext → ExceptionContext → Prop
  | run (pc next : Nat) : Moves (.user pc) (.user next)
  | svc (pc next : Nat) : Moves (.user pc) (.syscall next)
  | fault (pc : Nat) : Moves (.user pc) .exiting
  | exit (pc : Nat) : Moves (.syscall pc) .exiting
  | disable (pc : Nat) : Moves (.checked pc) (.returning pc)
  | back (pc : Nat) : Moves (.returning pc) (.user pc)

/-- The kinds of change an event can make. -/
inductive Transition (machine : Machine) : Event → Machine → Prop
  | moved {event core before after} (executing : (machine.hw core).cpu = some before)
    (move : Moves before after)
    : Transition machine event (machine.setCpu core after)
  | checked {core pc current} (executing : (machine.hw core).cpu = some (.syscall pc))
    (running : machine.current core = some current) (free : machine.killing = none)
    : Transition machine (.checkKilled core)
        (machine.setCpu core
          (if (machine.processes current).any Running.killed then .exiting
          else .checked pc))
  | queued {event cores} (unmoved : Cores.Unmoved machine.cores.queue cores.queue)
    : Transition machine event { machine with cores }
  | counted {event cores core state}
    (unmoved : Cores.Unmoved machine.cores.queue cores.queue)
    (same
      : state = { machine.hw core with
          preemptDisabled := state.preemptDisabled, switchPending := state.switchPending })
    : Transition machine event ({ machine with cores }.setCore core state)
  | started {name core queue id}
    (placement : machine.cores.queue.startCore name core = some (queue, id))
    : Transition machine (.startCore name core)
        (({ machine with cores := { machine.cores with queue } }.setTask id
          (some { context := none, translationBase := machine.kernelBase })).setCore core
            { machine.hw core with cpu := some .kernel, running := some id })
  | spawned {event cores op translationBase}
    (unmoved : cores.queue.current = machine.cores.queue.current)
    (placement : Cores.Placement machine.cores.queue op cores.queue)
    (grown : machine.cores.queue.tasks.length < cores.queue.tasks.length)
    : Transition machine event
        ({ machine with cores }.setTask machine.cores.queue.tasks.length
          (some { context := some .kernel, translationBase }))
  | spawnedUser {event cores op entry translationBase} (free : machine.killing = none)
    (unmoved : cores.queue.current = machine.cores.queue.current)
    (placement : Cores.Placement machine.cores.queue op cores.queue)
    (grown : machine.cores.queue.tasks.length < cores.queue.tasks.length)
    : Transition machine event
        (({ machine with
            cores
            wrote := Function.update machine.wrote machine.cores.queue.tasks.length
              FpState.new }.setTask machine.cores.queue.tasks.length
          (some {
            context := some (.user entry), translationBase, fp := some FpState.new
          })).setProcess machine.cores.queue.tasks.length (some {}))
  | fpWritten {core value current pc} (executing : (machine.hw core).cpu = some (.user pc))
    (access : (machine.hw core).el0Fp = true)
    (running : machine.current core = some current)
    : Transition machine (.fpWrite core value)
        { machine.setCore core { machine.hw core with regs := value } with
          wrote := Function.update machine.wrote current value }
  | fpTaken {core current task state pc} (executing : (machine.hw core).cpu = some (.user pc))
    (trapped : (machine.hw core).el0Fp = false)
    (running : machine.current core = some current)
    (found : machine.tasks current = some task) (saved : task.fp = some state)
    : Transition machine (.fpTrap core)
        ((machine.setTask current (some { task with fpCore := some core })).setCore core
          { machine.hw core with regs := state, owner := some current, el0Fp := true })
  | exited {core current context task} (executing : (machine.hw core).cpu = some context)
    (leaving : context = .exitKilled ∨ context = .exiting)
    (running : machine.current core = some current) (free : machine.killing = none)
    (found : machine.tasks current = some task)
    : Transition machine (.exitProcess core)
        (((machine.setProcess current none).setTask current
          (some { task with translationBase := machine.kernelBase })).setCore core
            { machine.hw core with cpu := some .exiting, ttbr := machine.kernelBase })
  | marked {id process} (found : machine.processes id = some process)
    (free : machine.killing = none)
    : Transition machine (.killMark id)
        { machine.setProcess id (some { process with killed := true }) with
          killing := some (.marked id) }
  | redirected {id} (holding : machine.killing = some (.marked id))
    : Transition machine .killRedirect
        { (machine.redirectToKernel id .exitKilled).1 with
          killing := some (.redirected id (machine.redirectToKernel id .exitKilled).2) }
  | interrupted {id done queue} (holding : machine.killing = some (.redirected id done))
    (unmoved : Cores.Unmoved machine.cores.queue queue)
    : Transition machine .killInterrupt
        { machine with
          cores := { machine.cores with queue }
          killing := none
          killReturned := Function.update machine.killReturned id true }
  | switched {event point after} (calls : machine.switchPoint event = some point)
    (taken : point.machine.switch point.core point.context point.preempt = some after)
    : Transition machine event after

variable {machine after : Machine} {core : Nat}

/-- Servicing an interrupt changes task states and accounts, never who runs where. -/
theorem serviced_unmoved {serviced : Machine} {uart timer : Bool} {nowUs : Nat}
    (taken : machine.serviced core uart timer nowUs = some serviced)
    : ∃ cores,
        serviced = { machine with cores }
        ∧ Cores.Unmoved machine.cores.queue cores.queue := by
  obtain ⟨queue, ticked, rfl⟩ := Option.map_eq_some_iff.mp taken
  refine ⟨_, rfl, ?_⟩
  have notified : Cores.Unmoved machine.cores.queue
      (if uart then (machine.cores.queue.notify 1).1 else machine.cores.queue) := by
    cases uart
    · exact .refl _
    · exact Cores.notify_unmoved _ _
  cases timer
  · cases ticked
    exact notified
  · exact notified.trans (Cores.tick_touched ticked).toUnmoved

/-- An event that interrupts `core` at EL1 or EL0 either switches or only counts. -/
theorem irq_transition {uart timer : Bool} {nowUs : Nat}
    (taken : machine.step (.irq core uart timer nowUs) = some after)
    : Transition machine (.irq core uart timer nowUs) after := by
  obtain ⟨context, executing, taken⟩ := Option.bind_eq_some_iff.mp taken
  obtain ⟨unmasked, taken⟩ := Option.ite_none_left_eq_some.mp taken
  obtain ⟨serviced, found, taken⟩ := Option.bind_eq_some_iff.mp taken
  split at taken
  case isTrue =>
    cases taken
    obtain ⟨cores, rfl, unmoved⟩ := serviced_unmoved found
    exact .counted unmoved rfl
  case isFalse enabled =>
    have calls : machine.switchPoint (.irq core uart timer nowUs)
        = some ⟨serviced, core, context, timer⟩ := by
      simp [switchPoint, executing, unmasked, found, enabled]
    exact .switched calls taken

theorem yieldNow_transition (taken : machine.step (.yieldNow core) = some after)
    : Transition machine (.yieldNow core) after := by
  obtain ⟨context, executing, taken⟩ := Option.bind_eq_some_iff.mp taken
  obtain ⟨allowed, taken⟩ := Option.ite_none_right_eq_some.mp taken
  have calls : machine.switchPoint (.yieldNow core) = some ⟨machine, core, context, true⟩ := by
    simp [switchPoint, executing, allowed]
  exact .switched calls taken

theorem noPreemptEnd_transition (taken : machine.step (.noPreemptEnd core) = some after)
    : Transition machine (.noPreemptEnd core) after := by
  obtain ⟨context, executing, taken⟩ := Option.bind_eq_some_iff.mp taken
  obtain ⟨allowed, taken⟩ := Option.ite_none_right_eq_some.mp taken
  unfold noPreemptEnd at taken
  dsimp only at taken
  split at taken
  case isTrue due =>
    have outermost : (machine.hw core).preemptDisabled = 1 := by omega
    have calls : machine.switchPoint (.noPreemptEnd core)
        = some ⟨machine.setCore core
            { machine.hw core with preemptDisabled := 0, switchPending := false },
          core, context, true⟩ := by
      simp [switchPoint, executing, allowed.1, outermost, due.2, setCore]
    exact .switched calls (due.1 ▸ taken)
  case isFalse =>
    cases taken
    exact .counted (.refl _) rfl

theorem queueOp_transition {op : Cores.Op} (taken : machine.step (.queueOp op) = some after)
    : Transition machine (.queueOp op) after := by
  obtain ⟨allowed, taken⟩ := Option.ite_none_right_eq_some.mp taken
  obtain ⟨cores, found, rfl⟩ := Option.map_eq_some_iff.mp taken
  refine .queued ?_
  rcases Cores.step_cases found with
    ⟨core, preempt, _, rfl, _⟩ | ⟨core, rfl, _⟩ | ⟨queue, moved, rfl⟩
  · cases allowed
  · cases allowed
  · -- only the operations that mark or ready tasks are issued on their own
    cases op <;> simp only [queueOpAllowed, Bool.false_eq_true] at allowed
    case sleepCurrent => exact (Cores.sleepCurrent_touched moved).toUnmoved
    case waitCurrent => exact (Cores.waitCurrent_touched moved).toUnmoved
    case blockCurrent => exact (Cores.blockCurrent_touched moved).toUnmoved
    case finishCurrent => exact (Cores.finishCurrent_touched moved).toUnmoved
    case wake => exact Option.some.inj moved ▸ (Cores.wake_touched _ _).toUnmoved
    case interrupt => exact Option.some.inj moved ▸ (Cores.interrupt_touched _ _).toUnmoved
    case notify => exact Option.some.inj moved ▸ Cores.notify_unmoved _ _

/-- A trap gives the program running on `core` the registers, with its saved values. -/
theorem fpTrap_result (taken : machine.step (.fpTrap core) = some after)
    : ∃ pc current task state,
        (machine.hw core).cpu = some (.user pc)
        ∧ (machine.hw core).el0Fp = false
        ∧ machine.current core = some current
        ∧ machine.tasks current = some task
        ∧ task.fp = some state
        ∧ after
          = (machine.setTask current (some { task with fpCore := some core })).setCore core
            { machine.hw core with regs := state, owner := some current, el0Fp := true } := by
  obtain ⟨context, executing, taken⟩ := Option.bind_eq_some_iff.mp taken
  split at taken
  case h_1 pc trapped =>
    simp only [takeFpRegisters, Option.bind_eq_some_iff, Option.map_eq_some_iff] at taken
    obtain ⟨current, running, task, found, state, saved, rfl⟩ := taken
    exact ⟨_, current, task, state, executing, trapped, running, found, saved, rfl⟩
  case h_2 => cases taken

theorem checkKilled_result (taken : machine.step (.checkKilled core) = some after)
    : ∃ pc current,
        (machine.hw core).cpu = some (.syscall pc)
        ∧ machine.current core = some current
        ∧ machine.killing = none
        ∧ after
          = machine.setCpu core
              (if (machine.processes current).any Running.killed then .exiting
              else .checked pc) := by
  obtain ⟨context, executing, taken⟩ := Option.bind_eq_some_iff.mp taken
  split at taken
  case h_1 pc current running free =>
    refine ⟨pc, current, executing, running, free, ?_⟩
    split at taken <;> simp_all
  case h_2 => cases taken

/-- Every step is one of the transitions. Witness: case analysis on the event, following
the handler's own matches.
-/
theorem step_transition {event : Event} (taken : machine.step event = some after)
    : Transition machine event after := by
  cases event with
  | startCore name core =>
    obtain ⟨⟨queue, id⟩, found, rfl⟩ := Option.map_eq_some_iff.mp taken
    exact .started found
  | spawnIdle name core =>
    obtain ⟨⟨queue, id⟩, found, rfl⟩ := Option.map_eq_some_iff.mp taken
    have placement := Cores.addIdle_placement found
    obtain ⟨_, rfl, rfl⟩ := Cores.addIdle_result found
    exact .spawned rfl placement (by simp [RunQueue.add])
  | spawnKernel name =>
    cases taken
    exact .spawned rfl (Cores.add_placement _ name) (by simp)
  | spawnUser name entry translationBase =>
    obtain ⟨free, taken⟩ := Option.ite_none_right_eq_some.mp taken
    cases taken
    exact .spawnedUser free rfl (Cores.add_placement _ name) (by simp)
  | userStep | svc | fault | exitCall | disableIrq | returnToUser =>
    obtain ⟨context, executing, taken⟩ := Option.bind_eq_some_iff.mp taken
    cases context <;> cases taken
    exact .moved executing (by constructor)
  | fpWrite core value =>
    obtain ⟨context, executing, taken⟩ := Option.bind_eq_some_iff.mp taken
    split at taken <;> cases taken
    case h_1 access running => exact .fpWritten executing access running
  | fpTrap core =>
    obtain ⟨pc, current, task, state, executing, trapped, running, found, saved, rfl⟩ :=
      fpTrap_result taken
    exact .fpTaken executing trapped running found saved
  | checkKilled core =>
    obtain ⟨pc, current, executing, running, free, rfl⟩ := checkKilled_result taken
    exact .checked executing running free
  | exitProcess core =>
    obtain ⟨context, executing, taken⟩ := Option.bind_eq_some_iff.mp taken
    split at taken
    case h_3 => cases taken
    all_goals
      simp only [Option.ite_none_right_eq_some, Option.map_eq_some_iff] at taken
      obtain ⟨_, task, found, rfl⟩ := taken
      exact .exited executing (by simp) ‹_› ‹_› found
  | queueOp op => exact queueOp_transition taken
  | irq core uart timer nowUs => exact irq_transition taken
  | yieldNow core => exact yieldNow_transition taken
  | finishSwitch core =>
    cases taken
    exact .queued (.refl _)
  | noPreemptBegin core =>
    obtain ⟨context, executing, taken⟩ := Option.bind_eq_some_iff.mp taken
    simp only [Option.ite_none_right_eq_some, Option.some.injEq] at taken
    obtain ⟨_, rfl⟩ := taken
    exact .counted (.refl _) rfl
  | noPreemptEnd core => exact noPreemptEnd_transition taken
  | killMark id =>
    simp only [step] at taken
    split at taken <;> cases taken
    case h_1 process found free => exact .marked found free
  | killRedirect =>
    simp only [step] at taken
    split at taken <;> cases taken
    case h_1 id holding => exact .redirected holding
  | killInterrupt =>
    simp only [step] at taken
    split at taken <;> cases taken
    case h_1 id done holding =>
      refine .interrupted holding ?_
      cases done
      · exact (Cores.interrupt_touched _ _).toUnmoved
      · exact .refl _

end RustyPi.Kernel.Machine
