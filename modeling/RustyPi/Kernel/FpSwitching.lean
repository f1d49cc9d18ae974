import RustyPi.Kernel.Switching

/-! Lazy FP switching. A core keeps the registers of the last program that used them until
another one traps, so a program's values are in its saved copy, or in the registers of the
core it last trapped on. The copy is overwritten from any core that still names the program
as its owner, whether or not the program has used FP there since it moved.
-/

namespace RustyPi.Kernel.Machine

open Function RustyPi.Sched RustyPi.Reach

/-- A core that allows FP at EL0 holds what the program running there last wrote, and a trap
loads exactly that.
-/
def FpExact (machine : Machine) : Prop :=
  ∀ (core : Nat) (program : TaskId),
    machine.current core = some program
    → ((machine.hw core).el0Fp = true → (machine.hw core).regs = machine.wrote program)
      ∧ (∀ after,
          machine.step (.fpTrap core) = some after
          → (after.hw core).regs = machine.wrote program)

/-- A switch to another task saves this core's registers only if the task being left loaded
them here last, or if they are what it has saved already.
-/
def SavesOwn (machine : Machine) (event : Event) : Prop :=
  ∀ point ∈ machine.switchPoint event,
    ∀ switched ∈ point.machine.cores.switch point.core point.preempt,
      switched.next ≠ switched.current
      → (point.machine.hw point.core).owner = some switched.current
      → ∀ task ∈ point.machine.tasks switched.current,
          task.fpCore = some point.core
          ∨ task.fp = some (point.machine.hw point.core).regs

instance (machine : Machine) (event : Event) : Decidable (machine.SavesOwn event) :=
  inferInstanceAs (Decidable (∀ point ∈ machine.switchPoint event, _))

/-- Both conditions on an event: no other core's task was readied, and no stale registers
are saved.
-/
def FpAllowed (machine : Machine) (event : Event) : Prop :=
  machine.NoneReadied event ∧ machine.SavesOwn event

instance (machine : Machine) (event : Event) : Decidable (machine.FpAllowed event) :=
  inferInstanceAs (Decidable (_ ∧ _))

/-- What lazy switching depends on: who runs where, each core's FP unit, each task's saved
copy, the core it last loaded on, and what it last wrote.
-/
@[ext]
structure FpUnits where
  current : Nat → Option TaskId
  owner : Nat → Option TaskId
  regs : Nat → FpState
  access : Nat → Bool
  copy : TaskId → Option FpState
  last : TaskId → Option Nat
  wrote : TaskId → FpState

@[simps]
def units (machine : Machine) : FpUnits where
  current := machine.current
  owner core := (machine.hw core).owner
  regs core := (machine.hw core).regs
  access core := (machine.hw core).el0Fp
  copy id := (machine.tasks id).bind Task.fp
  last id := (machine.tasks id).bind Task.fpCore
  wrote := machine.wrote

-----------
-- Where each program's values are
-----------

namespace FpUnits

structure Coherent (units : FpUnits) : Prop where
  stopped : ∀ core, units.current core = none → units.access core = false
  /-- Access means the running program loaded its registers here, and last here. -/
  loaded
    : ∀ core id,
        units.current core = some id
        → units.access core = true
        → units.owner core = some id ∧ units.last id = some core
  /-- The core a program last loaded on keeps its values while it owns them. -/
  held
    : ∀ core id,
        units.owner core = some id
        → units.last id = some core
        → units.regs core = units.wrote id
  /-- Nothing newer than the saved copy exists unless the program has access. -/
  saved
    : ∀ id state,
        units.copy id = some state
        → (∀ core, units.current core = some id → units.access core = false)
        → state = units.wrote id

variable {units : FpUnits} {core : Nat} {current : TaskId}

section Coherent

variable (coherent : units.Coherent)
include coherent

theorem Coherent.same {other : FpUnits} (same : other = units)
    : other.Coherent :=
  same ▸ coherent

/-- The saved copy of a program without access is current: it runs nowhere else. -/
theorem Coherent.saved_of_running {state : FpState}
    (alone : ∀ other, units.current other = some current → other = core)
    (trapped : units.access core = false) (found : units.copy current = some state)
    : state = units.wrote current := by
  refine coherent.saved current state found (fun other elsewhere => ?_)
  rw [alone other elsewhere]
  exact trapped

/-- Giving out a fresh id keeps coherence: no core owns its registers as its, and its saved
copy is what it starts with.
-/
theorem Coherent.spawn {places : Nat → Option TaskId} {wrote : TaskId → FpState}
    {fresh : TaskId} {copy : Option FpState}
    (unused : ∀ core, units.current core ≠ some fresh)
    (placed
      : ∀ core,
          places core = units.current core
          ∨ (units.current core = none ∧ places core = some fresh))
    (others : ∀ id ≠ fresh, wrote id = units.wrote id)
    (starts : ∀ state, copy = some state → state = wrote fresh)
    : Coherent { units with
        current := places
        copy := update units.copy fresh copy
        last := update units.last fresh none
        wrote } := by
  constructor <;> grind [Coherent, update_apply]

theorem Coherent.write (value : FpState)
    (access : units.access core = true) (running : units.current core = some current)
    : Coherent { units with
        regs := update units.regs core value
        wrote := update units.wrote current value } := by
  obtain ⟨owner, last⟩ := coherent.loaded core current running access
  constructor <;> grind [Coherent, update_apply]

/-- A trap moves the program's values into the core's registers, and its owner with them. -/
theorem Coherent.take {state : FpState}
    (alone : ∀ other, units.current other = some current → other = core)
    (trapped : units.access core = false) (running : units.current core = some current)
    (found : units.copy current = some state)
    : Coherent { units with
        owner := update units.owner core (some current)
        regs := update units.regs core state
        access := update units.access core true
        last := update units.last current (some core) } := by
  have loads := coherent.saved_of_running alone trapped found
  constructor <;> grind [Coherent, update_apply]

end Coherent

/-- `core` goes from `current` to `next`, and the tasks of `freed` are dropped. -/
def switch (units : FpUnits) (core : Nat) (current next : TaskId) (freed : List TaskId)
    : FpUnits :=
  { units with
    current := update units.current core (some next)
    access :=
      update units.access core
        (units.owner core == some next && units.last next == some core)
    copy := fun id =>
      if id = current ∧ next ≠ current ∧ units.owner core = some current then
        (units.copy id).map (fun _ => units.regs core)
      else if id ≠ current ∧ id ∈ freed then none
      else units.copy id
    last := fun id => if id ≠ current ∧ id ∈ freed then none else units.last id }

/-- A switch keeps coherence if it saves no stale registers. The task left has its values
saved, from this core or from before; the task picked gets access exactly where its values
already are.
-/
theorem Coherent.switch {next : TaskId} (freed : List TaskId) (coherent : units.Coherent)
    (alone : ∀ other, units.current other = some current → other = core)
    (running : units.current core = some current)
    (kept : ∀ other, update units.current core (some next) other ∉ freed.map some)
    (own
      : next ≠ current
        → units.owner core = some current
        → ∀ state ∈ units.copy current,
            units.last current = some core ∨ state = units.regs core)
    : (units.switch core current next freed).Coherent := by
  have exact_ : next ≠ current → units.owner core = some current →
      ∀ state, units.copy current = some state → units.regs core = units.wrote current := by
    intro differ owner state found
    rcases own differ owner state found with here | rfl
    · exact coherent.held core current owner here
    · cases access : units.access core with
      | true =>
        exact coherent.held core current owner (coherent.loaded core current running access).2
      | false => exact coherent.saved_of_running alone access found
  constructor
  case saved =>
    intro id state found idle
    dsimp only [FpUnits.switch] at found idle
    split at found
    case isTrue saving =>
      obtain ⟨rfl, differ, owner⟩ := saving
      obtain ⟨before, copied, rfl⟩ := Option.map_eq_some_iff.mp found
      exact exact_ differ owner before copied
    case isFalse unsaved =>
      refine coherent.saved id state (by grind) (fun other elsewhere => ?_)
      have shut := idle other
      grind [Coherent, update_apply]
  all_goals
    dsimp only [FpUnits.switch]
    grind [Coherent, update_apply]

end FpUnits

structure FpCoherent (machine : Machine) : Prop where
  placed : Cores.Placed machine.cores.queue
  coherent : machine.units.Coherent

variable {machine after : Machine} {core : Nat} {id : TaskId} {task : Task}

/-- A task runs on one core only. -/
theorem FpCoherent.alone (fp : machine.FpCoherent) (running : machine.current core = some id)
    (other : Nat) (elsewhere : machine.units.current other = some id)
    : other = core := by
  by_contra differ
  exact fp.placed.exclusive other core id differ elsewhere running

/-- Coherence is all the property asks for. -/
theorem FpCoherent.fpExact (fp : machine.FpCoherent)
    : machine.FpExact := by
  intro core program running
  constructor
  · intro access
    obtain ⟨owner, last⟩ := fp.coherent.loaded core program running access
    exact fp.coherent.held core program owner last
  · intro after taken
    obtain ⟨_, current, task, state, _, trapped, running', found, saved, rfl⟩ :=
      fpTrap_result taken
    obtain rfl : current = program := Option.some.inj (running'.symm.trans running)
    have copy : machine.units.copy current = some state := by simp [found, saved]
    simpa [setCore] using fp.coherent.saved_of_running (fp.alone running) trapped copy

theorem units_setTask (machine : Machine) (id : TaskId) (task : Option Task)
    : (machine.setTask id task).units
      = { machine.units with
          copy := update machine.units.copy id (task.bind Task.fp)
          last := update machine.units.last id (task.bind Task.fpCore) } :=
  FpUnits.ext rfl rfl rfl rfl (comp_update (Option.bind · Task.fp) ..)
    (comp_update (Option.bind · Task.fpCore) ..) rfl

theorem units_setCore (machine : Machine) (core : Nat) (state : CoreState)
    : (machine.setCore core state).units
      = { machine.units with
          owner := update machine.units.owner core state.owner
          regs := update machine.units.regs core state.regs
          access := update machine.units.access core state.el0Fp } :=
  FpUnits.ext rfl (comp_update CoreState.owner ..)
    (comp_update CoreState.regs ..) (comp_update CoreState.el0Fp ..) rfl rfl rfl

theorem units_setCore_same {state : CoreState} (owner : state.owner = (machine.hw core).owner)
    (regs : state.regs = (machine.hw core).regs) (el0Fp : state.el0Fp = (machine.hw core).el0Fp)
    : (machine.setCore core state).units = machine.units := by
  rw [units_setCore, owner, regs, el0Fp]
  exact FpUnits.ext rfl (update_eq_self ..) (update_eq_self ..)
    (update_eq_self ..) rfl rfl rfl

/-- Replacing one task by one with the same saved copy, last loaded on the same core. -/
theorem units_setTask_same {changed : Option Task}
    (copy : changed.bind Task.fp = (machine.tasks id).bind Task.fp)
    (last : changed.bind Task.fpCore = (machine.tasks id).bind Task.fpCore)
    : (machine.setTask id changed).units = machine.units := by
  rw [units_setTask, copy, last]
  exact FpUnits.ext rfl rfl rfl rfl (update_eq_self ..) (update_eq_self ..) rfl

theorem units_requeue {cores : Cores}
    (current : ∀ core, cores.queue.currentTask core = machine.current core)
    : { machine with cores }.units = machine.units :=
  FpUnits.ext (funext current) rfl rfl rfl rfl rfl rfl

theorem leaveTask_fp (task : Task) (context : ExceptionContext)
    : (leaveTask task context).fp = task.fp ∧ (leaveTask task context).fpCore = task.fpCore := by
  unfold leaveTask
  split <;> exact ⟨rfl, rfl⟩

/-- A switch changes the saved copy of the task it leaves for another one, and frees others. -/
theorem units_switchTasks (machine : Machine) (core : Nat) (context : ExceptionContext)
    (switched : Cores.Switched)
    : (∀ id,
        (machine.switchTasks core context switched id).bind Task.fp
        = if id = switched.current ∧ switched.next ≠ switched.current
              ∧ machine.units.owner core = some switched.current then
            (machine.units.copy id).map (fun _ => machine.units.regs core)
          else if id ≠ switched.current ∧ id ∈ switched.reaped then none
          else machine.units.copy id)
      ∧ ∀ id,
          (machine.switchTasks core context switched id).bind Task.fpCore
          = if id ≠ switched.current ∧ id ∈ switched.reaped then none
            else machine.units.last id := by
  refine ⟨fun id => ?_, fun id => ?_⟩ <;>
    · cases found : machine.tasks id <;>
        grind [switchTasks, saveFp, leaveTask_fp, units_copy, units_last, units_owner, units_regs]

theorem FpCoherent.switch {context : ExceptionContext} {preempt : Bool} (fp : machine.FpCoherent)
    (own
      : ∀ switched ∈ machine.cores.switch core preempt,
          switched.next ≠ switched.current
          → (machine.hw core).owner = some switched.current
          → ∀ task ∈ machine.tasks switched.current,
              task.fpCore = some core ∨ task.fp = some (machine.hw core).regs)
    (taken : machine.switch core context preempt = some after)
    : after.units.Coherent := by
  obtain ⟨switched, next, resumed, ttbr, chosen, picked, _, rfl⟩ := switch_result taken
  have running : machine.current core = some switched.current :=
    (Cores.switch_fields chosen).1
  have moved : switched.cores.queue.currentTask
      = update machine.units.current core (some switched.next) := by
    funext other
    rw [Cores.switch_currentTask chosen, update_apply]
    rfl
  have kept {other : Nat} {id : TaskId}
      (runs : update machine.units.current core (some switched.next) other = some id)
      : id ∉ switched.reaped :=
    reaped_not_current chosen ((congrFun moved other).trans runs)
  obtain ⟨copy, last⟩ := units_switchTasks machine core context switched
  have loaded : next.fpCore = machine.units.last switched.next := by
    have unfreed := kept (update_self core (some switched.next) machine.units.current)
    simpa [picked, unfreed] using last switched.next
  rw [units_setCore, loaded]
  refine (fp.coherent.switch switched.reaped (fp.alone running) running ?_ ?_).same
    (FpUnits.ext moved (update_eq_self core machine.units.owner)
      (update_eq_self core machine.units.regs) rfl (funext copy) (funext last) rfl)
  · intro other freed
    obtain ⟨id, reaped, runs⟩ := List.mem_map.mp freed
    exact kept runs.symm reaped
  · intro differ owner state found
    obtain ⟨task, lookup, saved⟩ := Option.bind_eq_some_iff.mp found
    simpa [lookup, saved] using own switched chosen differ owner task lookup

theorem units_redirectToKernel (machine : Machine) (id : TaskId) (entry : ExceptionContext)
    : (machine.redirectToKernel id entry).1.units = machine.units := by
  rw [redirectToKernel_machine]
  cases found : machine.tasks id <;>
    exact units_setTask_same (by simp [found, redirectTask_fp]) (by simp [found, redirectTask_fp])

theorem FpCoherent.step {event : Event} (fp : machine.FpCoherent)
    (allowed : machine.FpAllowed event) (transition : Transition machine event after)
    : after.FpCoherent := by
  refine ⟨placed_step fp.placed allowed.1 transition, ?_⟩
  have coherent := fp.coherent
  have unused := fresh_not_current fp.placed
  cases transition with
  | moved | checked => exact coherent.same (units_setCore_same rfl rfl rfl)
  | queued unmoved | interrupted _ unmoved =>
    exact coherent.same (units_requeue unmoved.currentTask)
  | counted unmoved same =>
    exact (coherent.same (units_requeue unmoved.currentTask)).same
      (units_setCore_same (by rw [same]) (by rw [same]) (by rw [same]))
  | @started name core queue id found =>
    obtain ⟨stopped, moved⟩ := started_current found
    obtain ⟨_, rfl, _⟩ := Cores.startCore_result found
    refine ((coherent.spawn unused (fun other => ?_) (fun _ _ => rfl)
      (fun _ none_ => by cases none_)).same (units_setTask ..)).same
      (units_setCore_same rfl rfl rfl)
    by_cases at_ : other = core
    · exact .inr ⟨at_ ▸ stopped, (moved other).trans (if_pos at_)⟩
    · exact .inl ((moved other).trans (if_neg at_))
  | spawned unmoved _ _ =>
    exact (coherent.spawn unused
      (fun core => Or.inl (RunQueue.currentTask_congr unmoved core)) (fun _ _ => rfl)
      (fun _ none_ => by cases none_)).same (units_setTask ..)
  | spawnedUser _ unmoved _ _ =>
    refine (coherent.spawn unused
      (fun core => Or.inl (RunQueue.currentTask_congr unmoved core)) ?_ ?_).same
      (FpUnits.ext rfl rfl rfl rfl (comp_update (Option.bind · Task.fp) ..)
        (comp_update (Option.bind · Task.fpCore) ..) rfl)
    · exact fun id differ => update_of_ne differ ..
    · simp [setTask, setProcess]
  | fpWritten _ access running =>
    exact (coherent.write _ access running).same (FpUnits.ext rfl
      ((comp_update CoreState.owner ..).trans (update_eq_self ..))
      (comp_update CoreState.regs ..)
      ((comp_update CoreState.el0Fp ..).trans (update_eq_self ..)) rfl rfl rfl)
  | @fpTaken core current task state _ _ trapped running found saved =>
    have copy : machine.units.copy current = some state := by simp [found, saved]
    refine (coherent.take (fp.alone running) trapped running copy).same
      ((units_setCore ..).trans ?_)
    rw [units_setTask, Option.bind_some, saved, ← copy, update_eq_self]
    rfl
  | exited _ _ _ _ found =>
    exact (coherent.same (units_setTask_same (by simp [found])
      (by simp [found]))).same (units_setCore_same rfl rfl rfl)
  | marked => exact coherent
  | redirected => exact (units_redirectToKernel ..).symm ▸ coherent
  | switched calls taken =>
    obtain ⟨_, cores, state, same, counts, unmoved, _⟩ := switchPoint_spec calls
    refine FpCoherent.switch ⟨?_, ?_⟩ (allowed.2 _ calls) taken <;> rw [same]
    · exact fp.placed.of_unmoved unmoved
    · exact (coherent.same (units_requeue unmoved.currentTask)).same
        (units_setCore_same (by rw [counts]) (by rw [counts]) (by rw [counts]))

theorem init_fpCoherent (name : String) (count kernelBase : Nat)
    : (init name count kernelBase).FpCoherent := by
  refine ⟨Cores.new_placed name count, ?_⟩
  constructor <;> simp only [units, init] <;> grind

/-- In every run whose switches find no other core's task readied and save no stale
registers, FP access means holding what the program last wrote, and traps load exactly that.
Witness: coherence is an invariant of the allowed steps.
-/
theorem fpExact_of_fpAllowed (name : String) (count kernelBase : Nat) {machine : Machine}
    (run : Reaches step FpAllowed (init name count kernelBase) machine)
    : machine.FpExact := by
  have coherent : machine.FpCoherent :=
    run.invariant (I := FpCoherent) (init_fpCoherent name count kernelBase)
      (fun _ _ _ coherent allowed taken => coherent.step allowed (step_transition taken))
  exact coherent.fpExact

/-- Register values told apart by their FPCR. -/
def fpValue (fpcr : BitVec 64) : FpState := { FpState.new with fpcr }

/-- Program 3 writes 1 on core 0, is preempted, and writes 2 on core 1. -/
def fpMigration : List Event :=
  [.spawnIdle "idle0" 0, .startCore "idle1" 1, .spawnUser "program" 0 7,
    .yieldNow 0, .finishSwitch 0, .fpTrap 0, .fpWrite 0 (fpValue 1),
    .irq 0 false true 0, .finishSwitch 0, .irq 1 false true 0, .finishSwitch 1,
    .fpTrap 1, .fpWrite 1 (fpValue 2)]

/-- After the migration, core 1 holds what the program wrote there. -/
theorem fpExact_of_fpAllowed_migration
    : ∃ machine,
        Reaches step FpAllowed (init "shell" 2 5) machine
        ∧ machine.current 1 = some 3
        ∧ (machine.hw 1).el0Fp = true
        ∧ (machine.hw 1).regs = machine.wrote 3 := by
  obtain ⟨machine, run, arrived⟩ := Reaches.of_check
    (show (runAll step FpAllowed (init "shell" 2 5) fpMigration).any (fun machine =>
      machine.current 1 == some 3 && (machine.hw 1).el0Fp) = true from by decide +kernel)
  simp only [Bool.and_eq_true, beq_iff_eq] at arrived
  have exactly := fpExact_of_fpAllowed "shell" 2 5 run 1 3 arrived.1
  exact ⟨machine, run, arrived.1, arrived.2, exactly.1 arrived.2⟩

/-- After the migration the program visits core 0 without touching FP. Leaving it, core 0
saves the 1 it still holds over the program's 2, and the next trap loads the 1.
-/
theorem fpExact_fails_stale_save
    : ∃ machine,
        Reaches step anyEvent (init "shell" 2 5) machine
        ∧ ¬ machine.FpExact := by
  obtain ⟨machine, run, loses⟩ := Reaches.of_check
    (show (runAll step anyEvent (init "shell" 2 5)
      (fpMigration ++ [.spawnKernel "other", .irq 1 false true 0, .finishSwitch 1,
        .irq 0 false true 0, .finishSwitch 0, .irq 0 false true 0, .finishSwitch 0,
        .irq 0 false true 0])).any (fun machine =>
          machine.current 0 == some 3
          && (machine.step (.fpTrap 0)).any (fun after =>
            (after.hw 0).regs == fpValue 1 && machine.wrote 3 == fpValue 2)) = true
      from by decide +kernel)
  refine ⟨machine, run, fun exactly => ?_⟩
  simp only [Bool.and_eq_true, beq_iff_eq, Option.any_eq_true] at loses
  obtain ⟨running, after, taken, stale, wrote⟩ := loses
  have loaded := (exactly 0 3 running).2 after taken
  rw [stale, wrote] at loaded
  exact absurd loaded (by decide)

end RustyPi.Kernel.Machine
