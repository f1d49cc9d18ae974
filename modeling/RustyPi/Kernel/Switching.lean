import RustyPi.Kernel.Transitions

/-! Switches as the machine makes them: where they start, what they leave behind, and that
the run queue's condition keeps every task on one core in whole-machine runs too.
-/

namespace RustyPi.Kernel.Machine

open RustyPi.Sched

variable {machine : Machine} {event : Event} {core : Nat} {preempt : Bool}

/-- The machine a switch starts from differs from the one before the event in task states
and in its core's preemption counters, and the event does nothing but switch.
-/
theorem switchPoint_spec {point : SwitchPoint} (calls : machine.switchPoint event = some point)
    : machine.step event = point.machine.switch point.core point.context point.preempt
      ∧ ∃ cores state,
        point.machine = { machine with cores }.setCore point.core state
        ∧ state = { machine.hw point.core with
            preemptDisabled := state.preemptDisabled, switchPending := state.switchPending }
        ∧ Cores.Unmoved machine.cores.queue cores.queue
        ∧ (machine.hw point.core).cpu = some point.context := by
  cases event <;> simp only [switchPoint, reduceCtorEq] at calls
  case irq core uart timer nowUs =>
    obtain ⟨context, executing, calls⟩ := Option.bind_eq_some_iff.mp calls
    simp only [Option.ite_none_left_eq_some, Option.bind_eq_some_iff,
      Option.some.injEq] at calls
    obtain ⟨unmasked, serviced, found, enabled, rfl⟩ := calls
    obtain ⟨cores, same, unmoved⟩ := serviced_unmoved found
    refine ⟨?_, cores, machine.hw core, by simp [setCore, same], rfl, unmoved, executing⟩
    simp [step, onCpu, executing, unmasked, onIrq, found, enabled]
  case yieldNow core =>
    obtain ⟨context, executing, calls⟩ := Option.bind_eq_some_iff.mp calls
    simp only [Option.ite_none_right_eq_some, Option.some.injEq] at calls
    obtain ⟨allowed, rfl⟩ := calls
    refine ⟨?_, machine.cores, machine.hw core, by simp [setCore], rfl, .refl _, executing⟩
    simp [step, onCpu, executing, allowed]
  case noPreemptEnd core =>
    obtain ⟨context, executing, calls⟩ := Option.bind_eq_some_iff.mp calls
    simp only [Option.ite_none_right_eq_some, Option.some.injEq] at calls
    obtain ⟨⟨allowed, outermost, due⟩, rfl⟩ := calls
    refine ⟨?_, machine.cores, _, rfl, rfl, .refl _, executing⟩
    simp [step, onCpu, executing, allowed, noPreemptEnd, outermost, due]

/-- What a switch leaves behind: the queue's choice, the task table, and the core running
the picked task from its saved context.
-/
theorem switch_result {after : Machine} {context : ExceptionContext}
    (taken : machine.switch core context preempt = some after)
    : ∃ switched next resumed ttbr,
        machine.cores.switch core preempt = some switched
        ∧ machine.switchTasks core context switched switched.next = some next
        ∧ next.context = some resumed
        ∧ after
          = { machine with
              cores := switched.cores
              tasks := machine.switchTasks core context switched }.setCore core
              { machine.hw core with
                cpu := some resumed
                running := some switched.next
                ttbr
                el0Fp := (machine.hw core).owner == some switched.next
                  && next.fpCore == some core } := by
  simp only [switch, Option.bind_eq_some_iff, Option.map_eq_some_iff] at taken
  obtain ⟨switched, chosen, next, found, resumed, saved, rfl⟩ := taken
  exact ⟨switched, next, resumed, _, chosen, found, saved, rfl⟩

/-- Starting a core makes the fresh id its current task, and leaves the rest. -/
theorem started_current {queue after : RunQueue} {name : String} {id : TaskId}
    (started : queue.startCore name core = some (after, id))
    : queue.currentTask core = none
      ∧ ∀ other,
          after.currentTask other
          = if other = core then some id else queue.currentTask other := by
  obtain ⟨_, rfl, stopped, rfl⟩ := Cores.startCore_result started
  have inside : core < queue.current.length := (List.getElem?_eq_some_iff.mp stopped).1
  refine ⟨by simp [RunQueue.currentTask, stopped], fun other => ?_⟩
  simp only [RunQueue.currentTask, List.getElem?_set]
  by_cases same : other = core
  · simp [same, inside]
  · simp [same, Ne.symm same]

/-- The id given out next runs nowhere yet. -/
theorem fresh_not_current (placed : Cores.Placed machine.cores.queue) (core : Nat)
    : machine.current core ≠ some machine.cores.queue.tasks.length := by
  intro running
  exact Nat.lt_irrefl _ (placed.known (Or.inl (Cores.currentTask_eq_some.mp running)))

theorem reaped_not_current {cores : Cores} {switched : Cores.Switched} {other : Nat} {id : TaskId}
    (chosen : cores.switch core preempt = some switched)
    (running : switched.cores.queue.currentTask other = some id)
    : id ∉ switched.reaped := by
  simp only [Cores.switch, Option.bind_eq_some_iff, Option.map_eq_some_iff] at chosen
  obtain ⟨current, _, ⟨picked, next⟩, _, rfl⟩ := chosen
  intro reaped
  simp only [Cores.reapable, RunQueue.finished, RunQueue.coreOf, List.mem_filter,
    Bool.and_eq_true, Option.isNone_iff_eq_none, List.findIdx?_eq_none_iff] at reaped
  have held := Cores.currentTask_eq_some.mp running
  rw [(Cores.foldl_remove_fields _ picked).1] at held
  simpa using reaped.1.2.1 _ (List.mem_of_getElem? held)

/-- What `redirect_to_kernel` makes of its task. -/
def redirectTask (running : Bool) (entry : ExceptionContext) (task : Task) : Task :=
  match task.context with
  | none => { task with redirect := some entry }
  | some context =>
    if running then { task with redirect := some entry }
    else { task with context := some ((context.redirect entry).getD context) }

theorem redirectToKernel_machine (machine : Machine) (id : TaskId) (entry : ExceptionContext)
    : (machine.redirectToKernel id entry).1
      = machine.setTask id
          ((machine.tasks id).map
            (redirectTask (machine.cores.queue.coreOf id).isSome entry)) := by
  have kept (task) (found : machine.tasks id = task) : machine = machine.setTask id task := by
    simp [setTask, ← found]
  unfold redirectToKernel
  split
  case h_1 missing => exact kept _ (by simp [missing])
  case h_2 task found =>
    rw [found, Option.map_some]
    cases saved : task.context with
    | none => simp [redirectTask, saved]
    | some context =>
      cases running : (machine.cores.queue.coreOf id).isSome with
      | true => simp [redirectTask, saved]
      | false =>
        cases target : context.redirect entry with
        | none =>
          simp only [redirectTask, saved, target, Bool.false_eq_true, if_false]
          exact kept _ (by simp [found, ← saved])
        | some redirected => simp [redirectTask, saved, target]

theorem redirectTask_fp (running : Bool) (entry : ExceptionContext) (task : Task)
    : (redirectTask running entry task).fp = task.fp
      ∧ (redirectTask running entry task).fpCore = task.fpCore := by
  unfold redirectTask
  split
  · exact ⟨rfl, rfl⟩
  · split <;> exact ⟨rfl, rfl⟩

/-- Every switch of an event meets the run queue's condition: no other core's current task
has been readied.
-/
def NoneReadied (machine : Machine) (event : Event) : Prop :=
  ∀ point ∈ machine.switchPoint event,
    point.machine.cores.NoneReadied (.switch point.core point.preempt)

instance (machine : Machine) (event : Event) : Decidable (machine.NoneReadied event) :=
  inferInstanceAs (Decidable (∀ point ∈ machine.switchPoint event, _))

/-- Allowed steps keep every task on at most one core. Witness: a switch does by the run
queue's own argument, and the other transitions place at most a fresh id.
-/
theorem placed_step {after : Machine} (placed : Cores.Placed machine.cores.queue)
    (condition : machine.NoneReadied event) (transition : Transition machine event after)
    : Cores.Placed after.cores.queue := by
  cases transition with
  | moved | checked | fpWritten | fpTaken | exited | marked => exact placed
  | queued unmoved | counted unmoved | interrupted _ unmoved =>
    exact placed.of_unmoved unmoved
  | started found => exact placed.of_placement (Cores.startCore_placement found)
  | spawned _ placement _ | spawnedUser _ _ placement _ => exact placed.of_placement placement
  | @redirected id _ =>
    rw [redirectToKernel_machine]
    exact placed
  | switched calls taken =>
    obtain ⟨_, cores, state, same, _, unmoved, _⟩ := switchPoint_spec calls
    obtain ⟨switched, _, _, _, chosen, _, _, rfl⟩ := switch_result taken
    refine Cores.Placed.switch ?_ (condition _ calls) chosen
    rw [same]
    exact placed.of_unmoved unmoved

end RustyPi.Kernel.Machine
