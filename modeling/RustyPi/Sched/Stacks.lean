import RustyPi.Sched.Exclusive

/-! Which stack each core executes on. A core that switches stays on the stack of the task it left
until `sched_finish_switch`, which clears its `LEAVING` word without the scheduler's lock: another
core's switch may read the word before that and finish after it.
-/

namespace RustyPi.Sched

open RustyPi.Reach

namespace Cores

/-- Whether a switch on `core` reads that another core is leaving `id`: it still is, or its word
was read before it was cleared.
-/
def seenLeaving (cores : Cores) (core : Nat) (stale : List TaskId) (id : TaskId) : Bool :=
  cores.leavingElsewhere core id || stale.contains id

/-- The run queue's part of `Scheduler::switch`, when the tasks in `early` were still being left
as it looked for the next one, and those in `late` as it freed the finished ones.
-/
def switchSeeing (cores : Cores) (core : Nat) (preempt : Bool) (early late : List TaskId)
    : Option Switched :=
  (cores.queue.currentTask core).bind (fun current =>
    (cores.queue.pickNext core preempt (cores.seenLeaving core early)).map
      (fun (picked, next) =>
        let reaped := picked.finished.filter (fun id =>
          id != current && !cores.seenLeaving core late id)
        {
          cores := {
            queue := reaped.foldl RunQueue.remove picked
            leaving :=
              if next ≠ current then cores.leaving.set core (some current)
              else cores.leaving
          }
          current, next, reaped
        }))

theorem switchSeeing_nil (cores : Cores) (core : Nat) (preempt : Bool)
    : cores.switchSeeing core preempt [] [] = cores.switch core preempt := by
  have seen : cores.seenLeaving core [] = cores.leavingElsewhere core := by
    funext id
    simp [seenLeaving]
  simp only [switchSeeing, switch, reapable, seen]
  rfl

/-- What a switch decided and left: `picked` is the queue before finished tasks are freed. -/
theorem switchSeeing_result {cores : Cores} {switched : Switched} {core : Nat} {preempt : Bool}
    {early late : List TaskId}
    (taken : cores.switchSeeing core preempt early late = some switched)
    : ∃ picked,
        cores.queue.currentTask core = some switched.current
        ∧ cores.queue.pickNext core preempt (cores.seenLeaving core early)
          = some (picked, switched.next)
        ∧ switched.reaped = picked.finished.filter (fun id =>
            id != switched.current && !cores.seenLeaving core late id)
        ∧ switched.cores.queue = switched.reaped.foldl RunQueue.remove picked
        ∧ switched.cores.leaving
          = if switched.next ≠ switched.current then
              cores.leaving.set core (some switched.current)
            else cores.leaving := by
  simp only [switchSeeing, Option.bind_eq_some_iff, Option.map_eq_some_iff] at taken
  obtain ⟨current, running, ⟨picked, next⟩, chosen, rfl⟩ := taken
  exact ⟨picked, running, chosen, rfl, rfl, rfl⟩

end Cores

/-- The scheduler, and per core the task whose stack it executes on. -/
structure Stacks where
  cores : Cores
  stack : Nat → Option TaskId

namespace Stacks

/-- The boot code of core 0 is task 0, on its own stack. -/
def new (name : String) (count : Nat) : Stacks :=
  { cores := .new name count, stack := (RunQueue.new name count).currentTask }

/-- One critical section of the scheduler's lock, or the end of a switch. -/
inductive Event
  | op (op : Cores.Op)
  | switch (core : Nat) (preempt : Bool) (early late : List TaskId)
  | finishSwitch (core : Nat)
  deriving DecidableEq, Repr

/-- A switch runs in the exception handler, on the current task's stack, and interrupts stay masked
until the handler's core has finished it. A core that starts is on its idle task's stack.
-/
def step (system : Stacks) : Event → Option Stacks
  | .switch core preempt early late =>
    if system.stack core = system.cores.queue.currentTask core then
      (system.cores.switchSeeing core preempt early late).map (fun switched =>
        { system with cores := switched.cores })
    else none
  | .finishSwitch core =>
    some {
      cores := system.cores.finishSwitch core
      stack := Function.update system.stack core (system.cores.queue.currentTask core)
    }
  | .op op =>
    (Cores.queueStep system.cores.queue op).map (fun queue =>
      {
        cores := { system.cores with queue }
        stack := match op with
          | .startCore _ core => Function.update system.stack core (queue.currentTask core)
          | _ => system.stack
      })

/-- A core executes on the stack of its current task, or of the one it is leaving. -/
structure Tracked (system : Stacks) : Prop where
  sized : system.cores.leaving.length = system.cores.queue.current.length
  onStack
    : ∀ core task,
        system.stack core = some task
        → system.cores.queue.currentTask core = some task
          ∨ system.cores.leaving[core]? = some (some task)

theorem new_tracked (name : String) (count : Nat) : Tracked (new name count) where
  sized := by simp [new, Cores.new, RunQueue.new]
  onStack _ _ on := Or.inl on

theorem Tracked.op {system after : Stacks} {op : Cores.Op} (tracked : Tracked system)
    (taken : system.step (.op op) = some after)
    : Tracked after := by
  obtain ⟨queue, moved, rfl⟩ := Option.map_eq_some_iff.mp taken
  have placement := (Cores.queueStep_stepped moved).placement
  have sized : queue.current.length = system.cores.queue.current.length := by
    cases placement with
    | unmoved unmoved => rw [unmoved.current]
    | added current | idleAdded current => rw [current]
    | started _ _ current => rw [current, List.length_set]
  have elsewhere (core : Nat) (unstarted : ∀ name, op ≠ .startCore name core)
      : queue.currentTask core = system.cores.queue.currentTask core := by
    cases placement with
    | unmoved unmoved => exact unmoved.currentTask core
    | added current | idleAdded current => exact RunQueue.currentTask_congr current core
    | started _ _ current =>
      rw [RunQueue.currentTask, current, List.getElem?_set_ne, RunQueue.currentTask]
      rintro rfl
      exact unstarted _ rfl
  refine ⟨tracked.sized.trans sized.symm, fun core task on => ?_⟩
  simp only at on ⊢
  split at on
  · rename_i started
    by_cases here : core = started
    · subst here
      rw [Function.update_self] at on
      exact .inl on
    · rw [Function.update_of_ne here] at on
      rw [elsewhere core (by rintro _ ⟨⟩; exact here rfl)]
      exact tracked.onStack core task on
  · rename_i unstarted
    rw [elsewhere core (fun name => unstarted name core)]
    exact tracked.onStack core task on

theorem Tracked.switch {system after : Stacks} {core : Nat} {preempt : Bool}
    {early late : List TaskId} (tracked : Tracked system)
    (taken : system.step (.switch core preempt early late) = some after)
    : Tracked after := by
  simp only [step, Option.ite_none_right_eq_some, Option.map_eq_some_iff] at taken
  obtain ⟨here, switched, chosen, rfl⟩ := taken
  obtain ⟨picked, running, next, _, queue, leaving⟩ := Cores.switchSeeing_result chosen
  obtain ⟨_, _, _, current, _, _⟩ := Cores.pickNext_fields next
  have current' : switched.cores.queue.current
      = system.cores.queue.current.set core (some switched.next) := by
    rw [queue, (Cores.foldl_remove_fields _ _).1, current]
  have inside : core < system.cores.queue.current.length :=
    (List.getElem?_eq_some_iff.mp (Cores.currentTask_eq_some.mp running)).1
  refine ⟨?_, fun other task on => ?_⟩
  · rw [leaving, current', List.length_set]
    split
    · rw [List.length_set, tracked.sized]
    · exact tracked.sized
  · simp only [RunQueue.currentTask, current', leaving]
    by_cases same : other = core
    · subst same
      -- it is on the stack of the task it was running, which it is now leaving or goes on with
      obtain rfl : switched.current = task :=
        Option.some.inj (running.symm.trans (here.symm.trans on))
      by_cases moves : switched.next = switched.current
      · left
        simp [inside, moves]
      · right
        have within : other < system.cores.leaving.length := tracked.sized ▸ inside
        simp [moves, within]
    · rw [List.getElem?_set_ne (Ne.symm same)]
      have before := tracked.onStack other task on
      split
      · rwa [List.getElem?_set_ne (Ne.symm same)]
      · exact before

theorem Tracked.step {system after : Stacks} {event : Event} (tracked : Tracked system)
    (taken : system.step event = some after)
    : Tracked after := by
  cases event with
  | op op => exact tracked.op taken
  | switch core preempt early late => exact tracked.switch taken
  | finishSwitch core =>
    cases taken
    refine ⟨by simpa [Cores.finishSwitch] using tracked.sized, fun other task on => ?_⟩
    by_cases same : other = core
    · subst same
      simp only [Function.update_self] at on
      exact .inl on
    · simp only [Function.update_of_ne same, Cores.finishSwitch,
        List.getElem?_set_ne (Ne.symm same)] at on ⊢
      exact tracked.onStack other task on

/-- A task is forgotten only by a switch that frees it. -/
theorem forgotten_by_switch {before after : Stacks} {event : Event} {id : TaskId}
    (taken : before.step event = some after) (there : before.cores.queue.standing id ≠ none)
    (gone : after.cores.queue.standing id = none)
    : ∃ core preempt early late switched,
        before.cores.switchSeeing core preempt early late = some switched
        ∧ before.stack core = before.cores.queue.currentTask core
        ∧ after = { before with cores := switched.cores }
        ∧ id ∈ switched.reaped := by
  cases event with
  | op op =>
    obtain ⟨queue, moved, rfl⟩ := Option.map_eq_some_iff.mp taken
    have acts := (Cores.queueStep_stepped moved).standing id
    rw [show queue.standing id = none from gone] at acts
    split at acts
    · rename_i fresh
      exact absurd (fresh ▸ before.cores.queue.standing_beyond) there
    · exact absurd (Option.map_eq_none_iff.mp acts.symm) there
  | switch core preempt early late =>
    simp only [step, Option.ite_none_right_eq_some, Option.map_eq_some_iff] at taken
    obtain ⟨here, switched, chosen, rfl⟩ := taken
    refine ⟨core, preempt, early, late, switched, chosen, here, rfl, ?_⟩
    obtain ⟨picked, running, next, _, queue, _⟩ := Cores.switchSeeing_result chosen
    by_contra kept
    rw [queue, RunQueue.standing_foldl_remove, if_neg kept,
      Cores.pickNext_standing next running, Option.map_eq_none_iff] at gone
    exact there gone
  | finishSwitch core =>
    cases taken
    exact absurd gone there

/-- A switch frees only tasks that have finished and that no core runs or leaves. -/
theorem reaped_unused {cores : Cores} {switched : Cores.Switched} {core : Nat} {preempt : Bool}
    {early late : List TaskId} {id : TaskId}
    (taken : cores.switchSeeing core preempt early late = some switched)
    (reaped : id ∈ switched.reaped)
    : cores.queue.state id = some .finished
      ∧ (∀ other, cores.queue.currentTask other ≠ some id)
      ∧ (∀ other, switched.cores.queue.currentTask other ≠ some id)
      ∧ cores.leavingElsewhere core id = false := by
  obtain ⟨picked, running, next, freed, queue, _⟩ := Cores.switchSeeing_result taken
  obtain ⟨_, _, _, current, _, _⟩ := Cores.pickNext_fields next
  rw [freed] at reaped
  simp only [RunQueue.finished, Cores.seenLeaving, List.mem_filter, List.mem_range,
    Bool.and_eq_true, Option.isNone_iff_eq_none, beq_iff_eq, bne_iff_ne, Bool.not_eq_true',
    Bool.or_eq_false_iff] at reaped
  obtain ⟨⟨_, nowhere, finished⟩, notCurrent, unleft, _⟩ := reaped
  rw [Cores.coreOf_eq_none] at nowhere
  refine ⟨?_, ?_, ?_, unleft⟩
  · -- picking the next task finishes nobody
    rw [RunQueue.state_eq_standing, Cores.pickNext_standing next running] at finished
    rw [RunQueue.state_eq_standing]
    cases here : cores.queue.standing id with
    | none => simp [here] at finished
    | some standing =>
      simp only [here, Option.map_some, Cores.picked, Option.some.injEq] at finished ⊢
      split_ifs at finished with isNext left
      exact finished
  · intro other runs
    by_cases same : other = core
    · subst same
      exact notCurrent (Option.some.inj (running.symm.trans runs)).symm
    · apply nowhere other
      rw [RunQueue.currentTask, current, List.getElem?_set_ne (Ne.symm same)]
      exact runs
  · intro other runs
    rw [queue, RunQueue.currentTask, (Cores.foldl_remove_fields _ _).1] at runs
    exact nowhere other runs

/-- In every run of any number of cores, a task that is forgotten, its stack dropped, has finished,
is no core's current task, and no core executes on its stack. Witness: a core is on the stack of
its current task or of the one its `LEAVING` word names, and a switch runs on the former.
-/
theorem freed_stack_unused (name : String) (count : Nat) {before after : Stacks} {event : Event}
    {id : TaskId} (run : Reaches step anyEvent (new name count) before)
    (taken : before.step event = some after) (there : before.cores.queue.entry id ≠ none)
    (gone : after.cores.queue.entry id = none)
    : before.cores.queue.state id = some .finished
      ∧ (∀ core, before.cores.queue.currentTask core ≠ some id)
      ∧ (∀ core, after.cores.queue.currentTask core ≠ some id)
      ∧ (∀ core, before.stack core ≠ some id)
      ∧ (∀ core, after.stack core ≠ some id) := by
  have tracked : Tracked before :=
    run.invariant (new_tracked name count) (fun _ _ _ tracked _ taken => tracked.step taken)
  obtain ⟨core, preempt, early, late, switched, chosen, here, rfl, reaped⟩ :=
    forgotten_by_switch taken (by simpa [RunQueue.standing] using there)
      (by simpa [RunQueue.standing] using gone)
  obtain ⟨finished, idleBefore, idleAfter, unleft⟩ := reaped_unused chosen reaped
  have offStack : ∀ other, before.stack other ≠ some id := by
    intro other on
    rcases tracked.onStack other id on with runs | leaves
    · exact idleBefore other runs
    · by_cases same : other = core
      · exact idleBefore core (here.symm.trans (same ▸ on))
      · have inside := (List.getElem?_eq_some_iff.mp leaves).1
        have seen : before.cores.leavingElsewhere core id = true := by
          simp only [Cores.leavingElsewhere, List.any_eq_true, List.mem_range]
          exact ⟨other, inside, by simp [same, leaves]⟩
        rw [unleft] at seen
        cases seen
  exact ⟨finished, idleBefore, idleAfter, offStack, offStack⟩

/-- A task that ended on core 1 is freed by core 0's next switch once core 1 is off its stack. -/
theorem freed_stack_unused_twoCores
    : ∃ before after,
        runAll step anyEvent (new "shell" 2)
            [.op (.addIdle "idle0" 0), .op (.startCore "idle1" 1), .op (.add "job"),
              .switch 1 false [] [], .finishSwitch 1, .op (.finishCurrent 1),
              .switch 1 true [] [], .finishSwitch 1]
          = some before
        ∧ before.step (.switch 0 true [] []) = some after
        ∧ before.cores.queue.state 3 = some .finished
        ∧ after.cores.queue.entry 3 = none
        ∧ ∀ core, before.stack core ≠ some 3 := by
  have executed : runAll step anyEvent (new "shell" 2)
      [.op (.addIdle "idle0" 0), .op (.startCore "idle1" 1), .op (.add "job"),
        .switch 1 false [] [], .finishSwitch 1, .op (.finishCurrent 1),
        .switch 1 true [] [], .finishSwitch 1] = some _ := rfl
  have unused := @freed_stack_unused "shell" 2 _ _ (.switch 0 true [] []) 3
    (.runAll .start executed) rfl (Option.some_ne_none _) rfl
  exact ⟨_, _, executed, rfl, unused.1, rfl, unused.2.2.2.1⟩

end Stacks

end RustyPi.Sched
