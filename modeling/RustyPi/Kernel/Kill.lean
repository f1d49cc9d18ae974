import RustyPi.Kernel.Places

/-! Killing a program. `kill` marks the process, then points the task at `exit_killed`: at
once if it was preempted at EL0, at its next switch from EL0 if it runs. A task in a system
call sees the mark at the end of it. Between that check and the return to EL0 it sees
neither, and a kill that comes while it is preempted there leaves nothing behind.
-/

namespace RustyPi.Kernel.Machine

open RustyPi.Sched RustyPi.Reach

/-- Every place the task can be in leads to its exit: a system call that has yet to look at
the mark, the exit itself, or, if `mayRun`, EL0 on some core with a redirect pending.
-/
def Doomed (machine : Machine) (mayRun : Bool) (id : TaskId) : Prop :=
  ∀ context ∈ machine.contextOf id,
    match context with
    | .user _ =>
      mayRun = true
      ∧ (machine.cores.queue.coreOf id).isSome
      ∧ machine.redirectPending id
      ∧ machine.markedKilled id
    | .syscall _ => machine.markedKilled id
    | .exitKilled | .exiting => True
    | .kernel | .checked _ | .returning _ => False

/-- Some core executes the task's user code. -/
def AtEl0 (machine : Machine) (id : TaskId) : Prop :=
  ∃ core context,
    machine.current core = some id
    ∧ (machine.hw core).cpu = some context
    ∧ context.atEl0 = true

/-- The event switches on the core that runs the task, or ends its system call. -/
def Reconsiders (machine : Machine) (event : Event) (id : TaskId) : Prop :=
  (∃ point ∈ machine.switchPoint event, point.machine.current point.core = some id)
  ∨ ∃ core, event = .checkKilled core ∧ machine.current core = some id

/-- The task is past its `was_killed` check and not back at EL0. -/
def betweenCheckAndReturn (machine : Machine) (id : TaskId) : Bool :=
  match machine.contextOf id with
  | some (.checked _) | some (.returning _) => true
  | _ => false

/-- The event is the redirect of a `kill` whose task is past its check. -/
def redirectsPastCheck (machine : Machine) : Event → Bool
  | .killRedirect =>
    match machine.killing with
    | some (.marked id) => machine.betweenCheckAndReturn id
    | _ => false
  | _ => false

/-- No switch finds another core's task readied, and no kill redirects a task that is past
its check and not back at EL0.
-/
def KillAllowed (machine : Machine) (event : Event) : Prop :=
  machine.NoneReadied event ∧ machine.redirectsPastCheck event = false

instance (machine : Machine) (event : Event) : Decidable (machine.KillAllowed event) :=
  inferInstanceAs (Decidable (_ ∧ _))

variable {after machine : Machine} {mayRun : Bool} {id : TaskId} {core : Nat} {event : Event}

/-- What it takes for a task in this place to be doomed. -/
def Place.Doomed (place : Place) (mayRun : Bool) : Prop :=
  ∀ context ∈ place.context,
    match context with
    | .user _ => mayRun = true ∧ place.runs ∧ place.pending ∧ place.marked
    | .syscall _ => place.marked
    | .exitKilled | .exiting => True
    | .kernel | .checked _ | .returning _ => False

theorem doomed_iff : machine.Doomed mayRun id ↔ (machine.place id).Doomed mayRun := Iff.rfl

namespace Place

variable {old new : Place} {looked : Bool}

theorem Doomed.mono {place : Place} {other : Bool} (doomed : place.Doomed (mayRun && other))
    : place.Doomed mayRun := by
  intro now found
  have earlier := doomed now found
  cases now with
  | user pc => exact ⟨(Bool.and_eq_true_iff.mp earlier.1).1, earlier.2⟩
  | syscall pc => exact earlier
  | exitKilled | exiting => trivial
  | kernel | checked | returning => exact earlier

theorem Doomed.stays (doomed : old.Doomed mayRun) (stays : old.Stays new)
    : new.Doomed mayRun := by
  intro now found
  have earlier := doomed now (stays.context.symm.trans found)
  cases now with
  | user pc =>
    exact ⟨earlier.1, stays.runs earlier.2.1, stays.pending earlier.2.2.1,
      stays.marked earlier.2.2.2⟩
  | syscall pc => exact stays.marked earlier
  | exitKilled | exiting => trivial
  | kernel | checked | returning => exact earlier

/-- A redirect dooms a marked task that is neither kernel code nor past its check. -/
theorem Redirected.doomed (redirected : old.Redirected new) (marked : old.marked)
    (program : old.context ≠ some .kernel)
    (early : ∀ pc, old.context ≠ some (.checked pc) ∧ old.context ≠ some (.returning pc))
    : new.Doomed true := by
  intro now found
  have marked := redirected.marked.trans marked
  rw [redirected.context] at found
  split at found
  case isTrue running =>
    cases now with
    | user pc => exact ⟨rfl, redirected.runs.trans running, redirected.pending running, marked⟩
    | syscall pc => exact marked
    | exitKilled | exiting => trivial
    | kernel => exact program found
    | checked pc => exact (early pc).1 found
    | returning pc => exact (early pc).2 found
  case isFalse =>
    obtain ⟨context, before, rfl⟩ := Option.map_eq_some_iff.mp found
    cases context with
    | user pc | exitKilled | exiting => trivial
    | syscall pc => exact marked
    | kernel => exact program before
    | checked pc => exact (early pc).1 before
    | returning pc => exact (early pc).2 before

/-- A doomed task stays doomed wherever a step takes it, and it is no longer at EL0 once it was looked
at: user code may only go on or trap, a switch sends it to `exit_killed`, and the end of a system call
sees the mark.
-/
theorem Goes.doomed (goes : old.Goes looked new) (doomed : old.Doomed mayRun)
    : new.Doomed (mayRun && !looked) := by
  cases goes with
  | stayed stays =>
    rw [Bool.not_false, Bool.and_true]
    exact doomed.stays stays
  | moved executing move =>
    rintro _ ⟨⟩
    have earlier := doomed _ executing
    cases move with
    | run => exact ⟨(Bool.and_true _).trans earlier.1, earlier.2⟩
    | svc => exact earlier.2.2.2
    | fault | exit => trivial
    | disable | back => exact earlier.elim
  | checked executing =>
    rintro _ ⟨⟩
    rw [if_pos (doomed _ executing)]
    trivial
  | exited context =>
    intro now found
    cases context.symm.trans found
    trivial
  | redirected redirected =>
    rw [Bool.not_false, Bool.and_true]
    intro now found
    rw [redirected.context] at found
    split at found
    case isTrue running =>
      have earlier := doomed now found
      cases now with
      | user pc =>
        exact ⟨earlier.1, redirected.runs.trans running, redirected.pending running,
          redirected.marked.trans earlier.2.2.2⟩
      | syscall pc => exact redirected.marked.trans earlier
      | exitKilled | exiting => trivial
      | kernel | checked | returning => exact earlier
    case isFalse =>
      obtain ⟨context, before, rfl⟩ := Option.map_eq_some_iff.mp found
      have earlier := doomed context before
      cases context with
      | user pc | exitKilled | exiting => trivial
      | syscall pc => exact redirected.marked.trans earlier
      | kernel | checked | returning => exact earlier
  | @left context _ executing leaves marked =>
    intro now found
    have earlier := doomed context executing
    cases leaves.symm.trans found
    cases context with
    | user pc =>
      rw [if_pos (by simp [ExceptionContext.atEl0, earlier.2.2.1])]
      trivial
    | syscall pc => exact marked.trans earlier
    | exitKilled | exiting => trivial
    | kernel | checked | returning => exact earlier.elim
  | gone nowhere =>
    intro now found
    cases nowhere.symm.trans found

/-- No step puts a program into kernel code of its own. -/
theorem Goes.program (goes : old.Goes looked new) (program : old.context ≠ some .kernel)
    : new.context ≠ some .kernel := by
  cases goes with
  | stayed stays => rwa [stays.context]
  | moved executing move => cases move <;> simp
  | checked executing => split <;> simp
  | exited context => simp [context]
  | redirected redirected =>
    rw [redirected.context]
    split
    · exact program
    · intro found
      obtain ⟨context, before, sent⟩ := Option.map_eq_some_iff.mp found
      cases context <;> simp_all [ExceptionContext.redirect, ExceptionContext.atEl0]
  | left executing leaves =>
    rw [executing] at program
    rw [leaves]
    split
    · simp
    · exact program
  | gone nowhere => simp [nowhere]

end Place

/-- A `kill` of the task has returned, or has got past its redirect. -/
def Condemned (machine : Machine) (id : TaskId) : Prop :=
  machine.killReturned id = true ∨ ∃ done, machine.killing = some (.redirected id done)

/-- What holds of processes and kills in every state of an allowed run. -/
structure KillsHold (machine : Machine) : Prop where
  attended : machine.Attended
  programs
    : ∀ {id : TaskId},
        (machine.processes id).isSome
        → id < machine.cores.queue.tasks.length ∧ machine.contextOf id ≠ some .kernel
  marked : ∀ {id : TaskId}, machine.killing = some (.marked id) → machine.markedKilled id
  doomed
    : ∀ {id : TaskId},
        machine.Condemned id
        → id < machine.cores.queue.tasks.length ∧ machine.Doomed true id

theorem markedKilled_isSome (marked : machine.markedKilled id)
    : (machine.processes id).isSome := by
  simp only [markedKilled, Option.any_eq_true] at marked
  obtain ⟨_, found, _⟩ := marked
  simp [found]

/-- A process after a step was there before it, or is a fresh program at its entry. -/
theorem processes_step (attended : machine.Attended) (transition : Transition machine event after)
    (running : (after.processes id).isSome)
    : (machine.processes id).isSome
      ∨ (id < after.cores.queue.tasks.length ∧ after.contextOf id ≠ some .kernel) := by
  cases transition with
  | moved | checked | queued | counted | started | spawned | fpWritten | fpTaken
  | interrupted => exact .inl running
  | spawnedUser _ unmoved _ grown =>
    by_cases fresh : id = machine.cores.queue.tasks.length
    · subst fresh
      refine Or.inr ⟨grown, ?_⟩
      rw [contextOf_saved]
      · simp [setProcess, setTask]
      · intro core now
        exact fresh_not_current attended.placed core
          ((RunQueue.currentTask_congr unmoved core).symm.trans now)
    · exact .inl (by simpa [setProcess, setTask, fresh] using running)
  | @exited _ current _ _ _ _ _ _ _ =>
    by_cases same : id = current
    · simp [setProcess, setTask, setCore, same] at running
    · exact .inl (by simpa [setProcess, setTask, setCore, same] using running)
  | @marked target _ found _ =>
    by_cases same : id = target
    · exact .inl (by simp [same, found])
    · exact .inl (by simpa [setProcess, same] using running)
  | redirected =>
    rw [redirectToKernel_machine] at running
    exact .inl running
  | switched calls taken =>
    obtain ⟨_, cores, state, same, _⟩ := switchPoint_spec calls
    obtain ⟨_, _, _, _, _, _, _, rfl⟩ := switch_result taken
    rw [same] at running
    exact .inl running

theorem length_step (transition : Transition machine event after)
    : machine.cores.queue.tasks.length ≤ after.cores.queue.tasks.length := by
  cases transition with
  | moved | checked | fpWritten | fpTaken | exited | marked => exact Nat.le_refl _
  | queued unmoved | counted unmoved | interrupted _ unmoved =>
    exact Nat.le_of_eq unmoved.length.symm
  | started found => exact (Cores.startCore_placement found).grown
  | spawned _ placement _ | spawnedUser _ _ placement _ => exact placement.grown
  | redirected =>
    rw [redirectToKernel_machine]
    exact Nat.le_refl _
  | switched calls taken =>
    obtain ⟨_, _, unmoved, _⟩ := switchPoint_stays calls 0
    obtain ⟨_, _, _, _, chosen, _, _, rfl⟩ := switch_result taken
    exact Nat.le_of_eq ((Cores.switch_fields chosen).2.2.2.2.trans unmoved.length).symm

/-- The target of a `kill` that holds the lock is marked: nothing else changes processes
until the lock is released.
-/
theorem marked_step (marked : machine.killing = some (.marked id) → machine.markedKilled id)
    (transition : Transition machine event after) (holding : after.killing = some (.marked id))
    : after.markedKilled id := by
  cases transition with
  | moved | checked | queued | counted | started | spawned | fpWritten | fpTaken =>
    exact marked holding
  | spawnedUser free | exited _ _ _ free => cases free.symm.trans holding
  | marked =>
    simp only [Option.some.injEq, Killing.marked.injEq] at holding
    simp [markedKilled, setProcess, holding]
  | redirected | interrupted => simp at holding
  | switched calls taken =>
    obtain ⟨_, cores, state, same, _⟩ := switchPoint_spec calls
    obtain ⟨_, _, _, _, _, _, _, rfl⟩ := switch_result taken
    rw [same] at holding ⊢
    exact marked holding

/-- A task is condemned by a redirect, and stays so. -/
theorem condemned_step (transition : Transition machine event after)
    (condemned : after.Condemned id)
    : machine.Condemned id
      ∨ (machine.killing = some (.marked id)
        ∧ event = .killRedirect
        ∧ ∃ killing, after = { machine.killRedirected id with killing }) := by
  cases transition with
  | moved | checked | queued | counted | started | spawned | spawnedUser | fpWritten | fpTaken
  | exited => exact .inl condemned
  | marked =>
    rcases condemned with returned | ⟨done, holding⟩
    · exact .inl (Or.inl returned)
    · simp at holding
  | @redirected target holding =>
    rw [redirectToKernel_machine] at condemned ⊢
    rcases condemned with returned | ⟨done, now⟩
    · exact .inl (Or.inl returned)
    · simp only [Option.some.injEq, Killing.redirected.injEq] at now
      obtain rfl := now.1
      exact .inr ⟨holding, rfl, _, rfl⟩
  | @interrupted target done _ holding _ =>
    rcases condemned with returned | ⟨_, now⟩
    · by_cases same : id = target
      · exact .inl (Or.inr ⟨done, same ▸ holding⟩)
      · exact .inl (Or.inl (by simpa [same] using returned))
    · simp at now
  | switched calls taken =>
    obtain ⟨_, cores, state, same, _⟩ := switchPoint_spec calls
    obtain ⟨_, _, _, _, _, _, _, rfl⟩ := switch_result taken
    rw [same] at condemned
    exact .inl condemned

theorem Doomed.step (doomed : machine.Doomed mayRun id) (attended : machine.Attended)
    (placed' : Cores.Placed after.cores.queue) (known : id < machine.cores.queue.tasks.length)
    (transition : Transition machine event after)
    : after.Doomed mayRun id := by
  obtain ⟨between, looked, stays, goes⟩ := goes_step attended placed' known transition
  exact (goes.doomed ((doomed_iff.mp doomed).stays stays)).mono

theorem KillsHold.step (holds : machine.KillsHold) (allowed : machine.KillAllowed event)
    (transition : Transition machine event after)
    : after.KillsHold := by
  have placed' := placed_step holds.attended.placed allowed.1 transition
  have grown := length_step transition
  refine ⟨holds.attended.step placed' transition, ?_, marked_step holds.marked transition, ?_⟩
  · intro id running
    rcases processes_step holds.attended transition running with earlier | fresh
    · obtain ⟨known, program⟩ := holds.programs earlier
      obtain ⟨between, looked, stays, goes⟩ := goes_step holds.attended placed' known transition
      exact ⟨Nat.lt_of_lt_of_le known grown,
        goes.program (fun kernel => program (stays.context.symm.trans kernel))⟩
    · exact fresh
  · intro id condemned
    rcases condemned_step transition condemned with earlier | ⟨holding, rfl, killing, rfl⟩
    · obtain ⟨known, doomed⟩ := holds.doomed earlier
      exact ⟨Nat.lt_of_lt_of_le known grown, doomed.step holds.attended placed' known transition⟩
    · -- the redirect that condemns it finds it marked, a program, and not past its check
      have marked := holds.marked holding
      obtain ⟨known, program⟩ := holds.programs (markedKilled_isSome marked)
      have early : machine.betweenCheckAndReturn id = false := by
        simpa only [redirectsPastCheck, holding] using allowed.2
      refine ⟨Nat.lt_of_lt_of_le known grown, ?_⟩
      exact (redirected_killRedirected (holds.attended.runs_present id)).doomed marked program
        (fun pc => ⟨fun found => by simp [betweenCheckAndReturn, ← place_context, found] at early,
          fun found => by simp [betweenCheckAndReturn, ← place_context, found] at early⟩)

theorem init_killsHold (name : String) (count kernelBase : Nat)
    : (init name count kernelBase).KillsHold := by
  have placed : Cores.Placed (init name count kernelBase).cores.queue :=
    Cores.new_placed name count
  refine ⟨⟨placed, ?_, ?_⟩, ?_, ?_, ?_⟩
  · intro core id running
    have first : id < 1 := placed.known (Or.inl (Cores.currentTask_eq_some.mp running))
    simp [init, Nat.lt_one_iff.mp first]
  · intro id task entry found
    simp only [init] at found
    split at found
    · cases found
      simp
    · cases found
  · intro id running
    simp [init] at running
  · intro id holding
    simp [init] at holding
  · rintro id (returned | ⟨_, holding⟩)
    · simp [init] at returned
    · simp [init] at holding

/-- A switch on the core that runs a doomed task, or the end of its system call, ends its
running.
-/
theorem Doomed.reconsider (doomed : machine.Doomed true id) (attended : machine.Attended)
    (placed' : Cores.Placed after.cores.queue) (reconsiders : machine.Reconsiders event id)
    (taken : machine.step event = some after)
    : after.Doomed false id := by
  rw [doomed_iff] at *
  rcases reconsiders with ⟨point, calls, running⟩ | ⟨core, rfl, running⟩
  · obtain ⟨stays, executing, _⟩ := switchPoint_stays calls id
    rw [(switchPoint_spec calls).1] at taken
    have goes := goes_switched (attended.switchPoint calls) placed' executing taken id
    simpa [running] using goes.doomed (doomed.stays stays)
  · obtain ⟨pc, current, executing, running', _, rfl⟩ := checkKilled_result taken
    obtain rfl : current = id := Option.some.inj (running'.symm.trans running)
    simpa using (goes_checked attended.placed executing running current).doomed doomed

/-- In every run in which no kill redirects a task past its check and no switch finds another
core's task readied, a returned kill holds: every place the task can be in leads to its exit,
and once a switch or the end of a system call has come it is never at EL0 again. Witness:
being doomed is kept by every allowed step, with and without leave to run.
-/
theorem kill_holds_of_killAllowed (name : String) (count kernelBase : Nat) {machine : Machine}
    {id : TaskId} (run : Reaches step KillAllowed (init name count kernelBase) machine)
    (returned : machine.killReturned id = true)
    : machine.Doomed true id
      ∧ ∀ event next later,
          machine.KillAllowed event
          → machine.step event = some next
          → machine.Reconsiders event id
          → Reaches step KillAllowed next later
          → ¬ later.AtEl0 id := by
  have holds : machine.KillsHold :=
    run.invariant (I := KillsHold) (init_killsHold name count kernelBase)
      (fun _ _ _ holds allowed taken => holds.step allowed (step_transition taken))
  obtain ⟨known, doomed⟩ := holds.doomed (Or.inl returned)
  refine ⟨doomed, ?_⟩
  intro event next later allowed taken reconsiders onward
  have nextHolds := holds.step allowed (step_transition taken)
  have start : next.KillsHold
      ∧ id < next.cores.queue.tasks.length ∧ next.Doomed false id :=
    ⟨nextHolds, Nat.lt_of_lt_of_le known (length_step (step_transition taken)),
      doomed.reconsider holds.attended nextHolds.attended.placed reconsiders taken⟩
  obtain ⟨laterHolds, _, ended⟩ := onward.invariant
    (I := fun state => state.KillsHold
      ∧ id < state.cores.queue.tasks.length ∧ state.Doomed false id) start (by
    rintro before event after ⟨holds, known, doomed⟩ allowed taken
    have transition := step_transition taken
    have afterHolds := holds.step allowed transition
    exact ⟨afterHolds, Nat.lt_of_lt_of_le known (length_step transition),
      doomed.step holds.attended afterHolds.attended.placed known transition⟩)
  rintro ⟨core, context, running, executing, atEl0⟩
  rw [← contextOf_running laterHolds.attended.placed running] at executing
  have place := ended context executing
  cases context with
  | user pc => cases place.1
  | _ => cases atEl0

/-- Program 3 runs on core 0. -/
def programStarted : List Event :=
  [.spawnIdle "idle0" 0, .startCore "idle1" 1, .spawnUser "program" 0 7, .yieldNow 0,
    .finishSwitch 0]

/-- The three steps of a `kill` of program 3. -/
def killProgram : List Event := [.killMark 3, .killRedirect, .killInterrupt]

/-- Killed while it runs user code, the program is gone from EL0 after the next tick. -/
theorem kill_holds_of_killAllowed_running
    : ∃ machine next,
        Reaches step KillAllowed (init "shell" 2 5) machine
        ∧ machine.killReturned 3 = true
        ∧ machine.step (.irq 0 false true 0) = some next
        ∧ ¬ next.AtEl0 3 := by
  obtain ⟨machine, run, killed⟩ := Reaches.of_check
    (show (runAll step KillAllowed (init "shell" 2 5) (programStarted ++ killProgram)).any
      (fun machine =>
        machine.killReturned 3
        && (machine.step (.irq 0 false true 0)).isSome
        && decide (machine.KillAllowed (.irq 0 false true 0))
        && (machine.switchPoint (.irq 0 false true 0)).any (fun point =>
          point.machine.current point.core == some 3)) = true from by decide +kernel)
  simp only [Bool.and_eq_true, decide_eq_true_eq, Option.isSome_iff_exists,
    Option.any_eq_true, beq_iff_eq] at killed
  obtain ⟨⟨⟨returned, next, taken⟩, allowed⟩, point, calls, running⟩ := killed
  exact ⟨machine, next, run, returned, taken,
    (kill_holds_of_killAllowed "shell" 2 5 run returned).2 _ next next allowed taken
      (Or.inl ⟨point, calls, running⟩) .start⟩

/-- The program is preempted between its check and its return when the kill comes: the
redirect does not apply to it, and it runs user code with nothing pending, also after
further switches.
-/
theorem kill_lost_past_check
    : ∃ machine next later,
        Reaches step anyEvent (init "shell" 2 5) machine
        ∧ machine.killReturned 3 = true
        ∧ ¬ machine.Doomed true 3
        ∧ machine.step (.irq 0 false true 0) = some next
        ∧ machine.Reconsiders (.irq 0 false true 0) 3
        ∧ Reaches step anyEvent next later
        ∧ later.AtEl0 3 := by
  have lost : (runAll step anyEvent (init "shell" 2 5)
      (programStarted ++ [.svc 0 4, .checkKilled 0, .irq 0 false true 0, .finishSwitch 0]
        ++ killProgram
        ++ [.irq 0 false true 0, .finishSwitch 0, .disableIrq 0, .returnToUser 0])).any
      (fun machine =>
        machine.killReturned 3
        && machine.contextOf 3 == some (.user 4)
        && !machine.redirectPending 3
        && (machine.switchPoint (.irq 0 false true 0)).any (fun point =>
          point.machine.current point.core == some 3)
        && (machine.step (.irq 0 false true 0)).any (fun next =>
          (runAll step anyEvent next [.finishSwitch 0, .irq 0 false true 0]).any (fun later =>
            later.current 0 == some 3 && (later.hw 0).cpu == some (.user 4)))) = true := by
    decide +kernel
  obtain ⟨machine, run, lost⟩ := Reaches.of_check lost
  simp only [Bool.and_eq_true, Option.any_eq_true, beq_iff_eq, Bool.not_eq_true'] at lost
  obtain ⟨⟨⟨⟨returned, place⟩, dropped⟩, point, calls, running⟩, next, taken, later, ran,
    current, executing⟩ := lost
  refine ⟨machine, next, later, run, returned, ?_, taken, Or.inl ⟨point, calls, running⟩,
    .runAll .start ran, 0, .user 4, current, executing, rfl⟩
  intro doomed
  have pending := (doomed _ place).2.2.1
  simp [dropped] at pending

end RustyPi.Kernel.Machine
