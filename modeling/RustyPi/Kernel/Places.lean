import RustyPi.Kernel.Switching

/-! Where each task is: what its core executes, or the context it was switched away in. One
lemma says what a step can do to that, for every kind of step.
-/

namespace RustyPi.Kernel.Machine

open RustyPi.Sched

/-- Where task `id` is: what its core executes, or the context it was switched away in. -/
def contextOf (machine : Machine) (id : TaskId) : Option ExceptionContext :=
  match machine.cores.queue.coreOf id with
  | some core => (machine.hw core).cpu
  | none => (machine.tasks id).bind Task.context

/-- The process is marked, so the end of its next system call exits. -/
def markedKilled (machine : Machine) (id : TaskId) : Bool :=
  (machine.processes id).any Running.killed

/-- The task goes to `exit_killed` when it is next switched away from at EL0. -/
def redirectPending (machine : Machine) (id : TaskId) : Bool :=
  (machine.tasks id).any (fun task => task.redirect == some .exitKilled)

variable {machine : Machine} {core : Nat} {id changed : TaskId} {task : Task}
variable {context entry : ExceptionContext} {preempt : Bool} {event : Event} {after : Machine}

theorem contextOf_running (placed : Cores.Placed machine.cores.queue)
    (running : machine.current core = some id)
    : machine.contextOf id = (machine.hw core).cpu := by
  unfold contextOf
  rw [placed.coreOf_eq_some.mpr running]

theorem contextOf_saved (nowhere : ∀ core, machine.current core ≠ some id)
    : machine.contextOf id = (machine.tasks id).bind Task.context := by
  unfold contextOf
  rw [Cores.coreOf_eq_none.mpr nowhere]

theorem coreOf_ne {current : TaskId} (placed : Cores.Placed machine.cores.queue)
    (running : machine.current core = some current) (other : id ≠ current)
    : machine.cores.queue.coreOf id ≠ some core :=
  fun at_ => other (Option.some.inj ((placed.coreOf_eq_some.mp at_).symm.trans running))

theorem contextOf_setCore (machine : Machine) (core : Nat) (state : CoreState) (id : TaskId)
    : (machine.setCore core state).contextOf id
      = if machine.cores.queue.coreOf id = some core then state.cpu
        else machine.contextOf id := by
  unfold contextOf setCore
  dsimp only
  cases machine.cores.queue.coreOf id with
  | none => simp
  | some other =>
    by_cases same : other = core <;> simp [same]

/-- Where a task is, and what awaits it there. -/
structure Place where
  runs : Bool
  context : Option ExceptionContext
  pending : Bool
  marked : Bool

@[simps] def place (machine : Machine) (id : TaskId) : Place where
  runs := (machine.cores.queue.coreOf id).isSome
  context := machine.contextOf id
  pending := machine.redirectPending id
  marked := machine.markedKilled id

/-- The task stays where it is, and nothing that awaits it is lost. -/
structure Place.Stays (old new : Place) : Prop where
  runs : old.runs → new.runs
  context : new.context = old.context
  pending : old.pending → new.pending
  marked : old.marked → new.marked

theorem Place.Stays.refl (place : Place) : place.Stays place :=
  ⟨fun runs => runs, rfl, fun pending => pending, fun marked => marked⟩

theorem Place.Stays.trans {first second third : Place} (left : first.Stays second)
    (right : second.Stays third)
    : first.Stays third where
  runs before := right.runs (left.runs before)
  context := right.context.trans left.context
  pending before := right.pending (left.pending before)
  marked before := right.marked (left.marked before)

theorem stays_setCore {state : CoreState}
    (same : machine.cores.queue.coreOf id = some core → state.cpu = (machine.hw core).cpu)
    : (machine.place id).Stays ((machine.setCore core state).place id) := by
  refine ⟨fun runs => runs, ?_, fun pending => pending, fun marked => marked⟩
  rw [place_context, contextOf_setCore]
  split
  case isTrue at_ => rw [same at_, place_context, contextOf, at_]
  case isFalse => rfl

theorem stays_setTask {task : Option Task} (other : id ≠ changed)
    : (machine.place id).Stays ((machine.setTask changed task).place id) := by
  refine ⟨fun runs => runs, ?_, ?_, fun marked => marked⟩
  · simp only [place_context, contextOf, setTask, Function.update_of_ne other]
  · simp [redirectPending, setTask, other]

theorem stays_retask {new : Task} (found : machine.tasks changed = some task)
    (context : new.context = task.context) (redirect : new.redirect = task.redirect)
    : (machine.place id).Stays ((machine.setTask changed (some new)).place id) := by
  by_cases same : id = changed
  · subst same
    refine ⟨fun runs => runs, ?_, ?_, fun marked => marked⟩
    · simp [contextOf, setTask, found, context]
    · simp [redirectPending, setTask, found, redirect]
  · exact stays_setTask same

/-- Only who runs where, the cores' state, the tasks and the mark matter. -/
theorem stays_of_fields {before : Machine}
    (current : after.cores.queue.current = before.cores.queue.current) (hw : after.hw = before.hw)
    (tasks : after.tasks = before.tasks) (marked : before.markedKilled id → after.markedKilled id)
    : (before.place id).Stays (after.place id) := by
  have found : after.cores.queue.coreOf id = before.cores.queue.coreOf id := by
    simp [RunQueue.coreOf, current]
  refine ⟨fun runs => ?_, ?_, fun pending => ?_, marked⟩
  · rwa [place_runs, found]
  · simp only [place_context, contextOf, found, hw, tasks]
  · simpa only [place_pending, redirectPending, tasks] using pending

theorem stays_startCore {queue : RunQueue} {name : String} {fresh : TaskId}
    (placed : Cores.Placed machine.cores.queue) (placed' : Cores.Placed queue)
    (started : machine.cores.queue.startCore name core = some (queue, fresh)) (other : id ≠ fresh)
    : (machine.place id).Stays
        (place { machine with cores := { machine.cores with queue } } id) := by
  obtain ⟨stopped, moved⟩ := started_current started
  have same : queue.coreOf id = machine.cores.queue.coreOf id := by
    cases at_ : machine.cores.queue.coreOf id with
    | some there =>
      have running := placed.coreOf_eq_some.mp at_
      have apart : there ≠ core := by
        rintro rfl
        exact absurd (stopped.symm.trans running) (by simp)
      exact placed'.coreOf_eq_some.mpr ((moved there).trans ((if_neg apart).trans running))
    | none =>
      refine Cores.coreOf_eq_none.mpr (fun there => ?_)
      rw [moved]
      split
      · simpa using Ne.symm other
      · exact Cores.coreOf_eq_none.mp at_ there
  refine ⟨fun runs => ?_, ?_, fun pending => pending, fun marked => marked⟩
  · rwa [place_runs, same]
  · simp only [place_context, contextOf, same]

/-- A task with a pending redirect is sent there if it is left at EL0. -/
theorem leaveTask_context (redirects : ∀ entry, task.redirect = some entry → entry = .exitKilled)
    : (leaveTask task context).context
      = some (if context.atEl0 && task.redirect == some .exitKilled then .exitKilled
          else context) := by
  unfold leaveTask ExceptionContext.redirect
  cases pending : task.redirect with
  | none => simp
  | some entry =>
    obtain rfl := redirects entry pending
    cases context.atEl0 <;> simp

@[simp] theorem saveFp_context (hw : CoreState) : (saveFp task id hw).context = task.context := by
  unfold saveFp
  split <;> rfl

@[simp] theorem saveFp_redirect (hw : CoreState) : (saveFp task id hw).redirect = task.redirect := by
  unfold saveFp
  split <;> rfl

/-- Where the task being left is after a switch: where `leaveTask` puts it. -/
theorem contextOf_left (placed : Cores.Placed machine.cores.queue)
    (placed' : Cores.Placed after.cores.queue) (running : machine.current core = some id)
    (taken : machine.switch core context preempt = some after)
    : after.contextOf id
      = (machine.tasks id).bind (fun task => (leaveTask task context).context) := by
  obtain ⟨switched, next, resumed, ttbr, chosen, picked, saved, rfl⟩ := switch_result taken
  have moved := Cores.switch_currentTask chosen
  obtain rfl : switched.current = id :=
    Option.some.inj ((Cores.switch_fields chosen).1.symm.trans running)
  have table : (machine.switchTasks core context switched switched.current).bind Task.context
      = (machine.tasks switched.current).bind (fun task => (leaveTask task context).context) := by
    cases found : machine.tasks switched.current <;>
      simp [switchTasks, found, apply_ite Task.context]
  by_cases stays : switched.next = switched.current
  · have running' := (moved core).trans (if_pos rfl)
    rw [stays] at running'
    rw [contextOf_running placed' running', ← table, ← stays, picked]
    simp [setCore, saved]
  · rw [contextOf_saved]
    · exact table
    · intro other running'
      by_cases at_ : other = core
      · have now := (moved other).symm.trans running'
        simp only [at_, if_true, Option.some.injEq] at now
        exact stays now
      · have before := (moved other).symm.trans running'
        rw [if_neg at_] at before
        exact placed.exclusive other core _ at_ before running

/-- A task that a switch neither leaves nor frees stays where it is, whether it runs on
another core, waits, or is the one picked.
-/
theorem contextOf_others (placed : Cores.Placed machine.cores.queue)
    (placed' : Cores.Placed after.cores.queue) (other : machine.current core ≠ some id)
    (taken : machine.switch core context preempt = some after)
    : (machine.place id).Stays (after.place id) ∨ after.contextOf id = none := by
  obtain ⟨switched, next, resumed, ttbr, chosen, picked, saved, rfl⟩ := switch_result taken
  have moved := Cores.switch_currentTask chosen
  have differ : id ≠ switched.current := by
    rintro rfl
    exact other (Cores.switch_fields chosen).1
  have table : machine.switchTasks core context switched id
      = if id ∈ switched.reaped then none else machine.tasks id := by
    unfold switchTasks
    rw [if_neg differ]
  have pending (kept : id ∉ switched.reaped) (before : machine.redirectPending id)
      : redirectPending { machine with tasks := machine.switchTasks core context switched } id := by
    simpa only [redirectPending, table, if_neg kept] using before
  cases at_ : machine.cores.queue.coreOf id with
  | some elsewhere =>
    have running := placed.coreOf_eq_some.mp at_
    have apart : elsewhere ≠ core := fun same => other (same ▸ running)
    have running' := (moved elsewhere).trans ((if_neg apart).trans running)
    have kept := reaped_not_current chosen running'
    refine Or.inl ⟨fun _ => ?_, ?_, pending kept, fun marked => marked⟩
    · exact Option.isSome_iff_exists.mpr ⟨elsewhere, placed'.coreOf_eq_some.mpr running'⟩
    · rw [place_context, place_context, contextOf_running placed' running',
        contextOf_running placed running]
      simp [setCore, apart]
  | none =>
    have nowhere := Cores.coreOf_eq_none.mp at_
    by_cases taken_ : switched.next = id
    · subst taken_
      have running' := (moved core).trans (if_pos rfl)
      have kept := reaped_not_current chosen running'
      rw [table, if_neg kept] at picked
      refine Or.inl ⟨by simp [at_], ?_, pending kept, fun marked => marked⟩
      rw [place_context, place_context, contextOf_running placed' running',
        contextOf_saved nowhere, picked]
      simp [setCore, saved]
    · have nowhere' (there : Nat) : switched.cores.queue.currentTask there ≠ some id := by
        rw [moved]
        split
        · simpa using taken_
        · exact nowhere there
      by_cases reaped : id ∈ switched.reaped
      · right
        rw [contextOf_saved]
        · simp [setCore, table, reaped]
        · exact nowhere'
      · refine Or.inl ⟨by simp [at_], ?_, pending reaped, fun marked => marked⟩
        rw [place_context, place_context, contextOf_saved nowhere, contextOf_saved]
        · simp [setCore, table, reaped]
        · exact nowhere'

theorem switchPoint_stays {point : SwitchPoint} (calls : machine.switchPoint event = some point)
    (id : TaskId)
    : (machine.place id).Stays (point.machine.place id)
      ∧ (point.machine.hw point.core).cpu = some point.context
      ∧ Cores.Unmoved machine.cores.queue point.machine.cores.queue
      ∧ point.machine.tasks = machine.tasks := by
  obtain ⟨_, cores, state, same, counts, unmoved, executing⟩ := switchPoint_spec calls
  have requeued : (machine.place id).Stays (place { machine with cores } id) :=
    stays_of_fields unmoved.current rfl rfl (fun marked => marked)
  rw [same]
  refine ⟨requeued.trans (stays_setCore (fun _ => ?_)), ?_, unmoved, rfl⟩
  · rw [counts]
  · rw [counts]
    simpa [setCore] using executing

/-- The machine after `kill`'s redirect of `target`. -/
def killRedirected (machine : Machine) (target : TaskId) : Machine :=
  machine.setTask target
    ((machine.tasks target).map
      (redirectTask (machine.cores.queue.coreOf target).isSome .exitKilled))

/-- A redirected task has the redirect pending if it runs, and goes to `exit_killed` at once if it was
left at EL0.
-/
structure Place.Redirected (old new : Place) : Prop where
  runs : new.runs = old.runs
  context
    : new.context
      = if old.runs then old.context
        else old.context.map (fun context => (context.redirect .exitKilled).getD context)
  pending : old.runs → new.pending
  marked : new.marked = old.marked

theorem redirected_killRedirected
    (present : (machine.cores.queue.coreOf id).isSome → (machine.tasks id).isSome)
    : (machine.place id).Redirected ((machine.killRedirected id).place id) := by
  refine ⟨rfl, ?_, fun running => ?_, rfl⟩
  · simp only [place_context, place_runs, contextOf, killRedirected, setTask]
    cases machine.cores.queue.coreOf id with
    | some core => simp
    | none =>
      cases found : machine.tasks id with
      | none => simp
      | some task => cases saved : task.context <;> simp [redirectTask, saved]
  · obtain ⟨task, found⟩ := Option.isSome_iff_exists.mp (present running)
    rw [place_runs] at running
    simp only [place_pending, killRedirected, redirectPending, setTask, Function.update_self,
      found, Option.map_some, Option.any_some, running, redirectTask]
    split <;> simp

/-- What a step can do to where a task is. If `looked`, the task was switched away from or its system
call ended.
-/
inductive Place.Goes (old : Place) : (looked : Bool) → Place → Prop
  | stayed {new} (stays : old.Stays new) : Goes old false new
  | moved {before next} (executing : old.context = some before)
    (move : Moves before next)
    : Goes old false { old with context := some next }
  | checked {pc} (executing : old.context = some (.syscall pc))
    : Goes old true
        { old with context := some (if old.marked then .exiting else .checked pc) }
  | exited {new} (context : new.context = some .exiting) : Goes old false new
  | redirected {new} (redirected : old.Redirected new) : Goes old false new
  | left {context new} (executing : old.context = some context)
    (context : new.context = some (if context.atEl0 && old.pending then .exitKilled else context))
    (marked : new.marked = old.marked)
    : Goes old true new
  | gone {new} (nowhere : new.context = none) : Goes old false new

/-- Tasks that run exist, and a pending redirect leads to `exit_killed`. -/
structure Attended (machine : Machine) : Prop where
  placed : Cores.Placed machine.cores.queue
  present
    : ∀ {core : Nat} {id : TaskId},
        machine.current core = some id → (machine.tasks id).isSome
  redirects
    : ∀ {id : TaskId} {task : Task} {entry : ExceptionContext},
        machine.tasks id = some task → task.redirect = some entry → entry = .exitKilled

theorem Attended.runs_present (attended : machine.Attended) (id : TaskId)
    (runs : (machine.cores.queue.coreOf id).isSome)
    : (machine.tasks id).isSome := by
  obtain ⟨core, at_⟩ := Option.isSome_iff_exists.mp runs
  exact attended.present (attended.placed.coreOf_eq_some.mp at_)

theorem Attended.update {before : Machine} (attended : before.Attended)
    (placed' : Cores.Placed after.cores.queue)
    (current
      : ∀ core id,
          after.current core = some id → before.current core = some id ∨ id = changed)
    (tasks : after.tasks = Function.update before.tasks changed (some task))
    (redirects : ∀ entry, task.redirect = some entry → entry = .exitKilled)
    : after.Attended := by
  refine ⟨placed', ?_, ?_⟩
  · intro core id running
    rw [tasks]
    by_cases same : id = changed
    · simp [same]
    · rcases current core id running with earlier | fresh
      · simpa [same] using attended.present earlier
      · exact absurd fresh same
  · intro id found entry lookup
    rw [tasks] at lookup
    by_cases same : id = changed
    · simp only [same, Function.update_self, Option.some.injEq] at lookup
      exact lookup ▸ redirects entry
    · rw [Function.update_of_ne same] at lookup
      exact attended.redirects lookup

theorem redirectTask_redirect {running : Bool}
    (before : ∀ entry, task.redirect = some entry → entry = .exitKilled)
    (found : (redirectTask running .exitKilled task).redirect = some entry)
    : entry = .exitKilled := by
  unfold redirectTask at found
  split at found
  · exact (Option.some.inj found).symm
  · split at found
    · exact (Option.some.inj found).symm
    · exact before entry found

theorem leaveTask_redirect (found : (leaveTask task context).redirect = some entry)
    : task.redirect = some entry := by
  unfold leaveTask at found
  split at found
  · cases found
  · exact found

/-- What a switch leaves of a task's redirect is what it was. -/
theorem switchTasks_redirect {switched : Cores.Switched}
    (found : machine.switchTasks core context switched id = some task)
    (pending : task.redirect = some entry)
    : ∃ before, machine.tasks id = some before ∧ before.redirect = some entry := by
  unfold switchTasks at found
  split at found
  case isTrue =>
    obtain ⟨before, lookup, rfl⟩ := Option.map_eq_some_iff.mp found
    simp only [apply_ite Task.redirect, saveFp_redirect, ite_self] at pending
    exact ⟨before, lookup, leaveTask_redirect pending⟩
  case isFalse =>
    split at found
    · cases found
    · exact ⟨task, found, pending⟩

/-- A switch keeps running tasks present: it frees none that a core runs. -/
theorem Attended.switch (attended : machine.Attended) (placed' : Cores.Placed after.cores.queue)
    (taken : machine.switch core context preempt = some after)
    : after.Attended := by
  obtain ⟨switched, next, resumed, ttbr, chosen, picked, _, rfl⟩ := switch_result taken
  refine ⟨placed', ?_, ?_⟩
  · intro other id running
    have kept := reaped_not_current chosen running
    by_cases at_ : other = core
    · have now := (Cores.switch_currentTask chosen other).symm.trans running
      rw [if_pos at_] at now
      cases now
      simp [setCore, picked]
    · have before := (Cores.switch_currentTask chosen other).symm.trans running
      rw [if_neg at_] at before
      obtain ⟨task, found⟩ := Option.isSome_iff_exists.mp (attended.present before)
      simp only [setCore, switchTasks, kept, if_false]
      split <;> simp [found]
  · intro id task entry found pending
    obtain ⟨before, lookup, earlier⟩ := switchTasks_redirect found pending
    exact attended.redirects lookup earlier

theorem Attended.switchPoint {point : SwitchPoint} (attended : machine.Attended)
    (calls : machine.switchPoint event = some point)
    : point.machine.Attended := by
  obtain ⟨_, _, unmoved, tasks⟩ := switchPoint_stays calls 0
  refine ⟨attended.placed.of_unmoved unmoved, ?_, ?_⟩
  · intro core id running
    exact tasks ▸ attended.present ((unmoved.currentTask core).symm.trans running)
  · intro id task entry found
    exact attended.redirects (tasks ▸ found)

theorem Attended.step (attended : machine.Attended) (placed' : Cores.Placed after.cores.queue)
    (transition : Transition machine event after)
    : after.Attended := by
  have blank (entry : ExceptionContext) (pending : none = some entry)
      : entry = .exitKilled := by cases pending
  cases transition with
  | moved | checked | fpWritten | marked =>
    exact ⟨placed', attended.present, attended.redirects⟩
  | queued unmoved | counted unmoved | interrupted _ unmoved =>
    exact ⟨placed', fun running =>
      attended.present ((unmoved.currentTask _).symm.trans running), attended.redirects⟩
  | @started name core queue id found =>
    refine attended.update placed' (fun other id running => ?_) rfl blank
    have now := ((started_current found).2 other).symm.trans running
    split at now
    · exact .inr (Option.some.inj now).symm
    · exact .inl now
  | spawned unmoved _ _ | spawnedUser _ unmoved _ _ =>
    exact attended.update placed' (fun core id running =>
      Or.inl ((RunQueue.currentTask_congr unmoved core).symm.trans running)) rfl blank
  | fpTaken _ _ _ found _ | exited _ _ _ _ found =>
    exact attended.update placed' (fun _ _ running => Or.inl running) rfl
      (fun _ pending => attended.redirects found pending)
  | @redirected id _ =>
    rw [redirectToKernel_machine] at placed' ⊢
    cases found : machine.tasks id with
    | none =>
      have same : Function.update machine.tasks id none = machine.tasks :=
        found ▸ Function.update_eq_self id machine.tasks
      simp only [setTask, Option.map_none, same]
      exact ⟨placed', attended.present, attended.redirects⟩
    | some task =>
      exact attended.update placed' (fun _ _ running => Or.inl running) rfl
        (fun _ pending => redirectTask_redirect (fun _ => attended.redirects found) pending)
  | switched calls taken => exact (attended.switchPoint calls).switch placed' taken

theorem place_setCpu (at_ : machine.cores.queue.coreOf id = some core) (next : ExceptionContext)
    : (machine.setCpu core next).place id = { machine.place id with context := some next } := by
  simp only [place, setCpu, contextOf_setCore, if_pos at_]
  rfl

/-- The end of a system call concerns just the task that made it. -/
theorem goes_checked {current : TaskId} {pc : Nat} (placed : Cores.Placed machine.cores.queue)
    (executing : (machine.hw core).cpu = some (.syscall pc))
    (running : machine.current core = some current) (id : TaskId)
    : (machine.place id).Goes (id == current)
        ((machine.setCpu core
          (if (machine.processes current).any Running.killed then .exiting
          else .checked pc)).place id) := by
  by_cases same : id = current
  · subst same
    rw [beq_self_eq_true, place_setCpu (placed.coreOf_eq_some.mpr running)]
    refine @Place.Goes.checked _ pc ?_
    rw [place_context, contextOf_running placed running, executing]
  · have elsewhere := coreOf_ne placed running same
    rw [beq_eq_false_iff_ne.mpr same]
    exact .stayed (stays_setCore (fun here => absurd here elsewhere))

/-- A switch leaves the task that its core runs, to `exit_killed` if a redirect is pending at EL0. -/
theorem goes_switched (attended : machine.Attended) (placed' : Cores.Placed after.cores.queue)
    (executing : (machine.hw core).cpu = some context)
    (taken : machine.switch core context preempt = some after) (id : TaskId)
    : (machine.place id).Goes (machine.current core == some id) (after.place id) := by
  by_cases running : machine.current core = some id
  · obtain ⟨task, found⟩ := Option.isSome_iff_exists.mp (attended.present running)
    have left := contextOf_left attended.placed placed' running taken
    rw [found, Option.bind_some,
      leaveTask_context (fun _ pending => attended.redirects found pending)] at left
    rw [running, beq_self_eq_true]
    refine @Place.Goes.left _ context _ ?_ ?_ ?_
    · rw [place_context, contextOf_running attended.placed running, executing]
    · rw [place_context, left, place_pending, redirectPending, found, Option.any_some]
    · obtain ⟨_, _, _, _, _, _, _, rfl⟩ := switch_result taken
      rfl
  · rw [beq_eq_false_iff_ne.mpr running]
    rcases contextOf_others attended.placed placed' running taken with stays | nowhere
    · exact .stayed stays
    · exact .gone nowhere

/-- Where a step leaves a task. Before a switch its place may have been serviced. -/
theorem goes_step (attended : machine.Attended) (placed' : Cores.Placed after.cores.queue)
    (known : id < machine.cores.queue.tasks.length) (transition : Transition machine event after)
    : ∃ between looked,
        (machine.place id).Stays between ∧ between.Goes looked (after.place id) := by
  have once {looked : Bool} {new : Place} (goes : (machine.place id).Goes looked new)
      : ∃ between looked, (machine.place id).Stays between ∧ between.Goes looked new :=
    ⟨_, looked, .refl _, goes⟩
  have requeued {cores : Cores} (same : cores.queue.current = machine.cores.queue.current)
      : (machine.place id).Stays (place { machine with cores } id) :=
    stays_of_fields same rfl rfl (fun marked => marked)
  have older : id ≠ machine.cores.queue.tasks.length := Nat.ne_of_lt known
  cases transition with
  | @moved _ core before next executing move =>
    by_cases at_ : machine.cores.queue.coreOf id = some core
    · have here : (machine.place id).context = some before := by
        rw [place_context, contextOf, at_]
        exact executing
      rw [place_setCpu at_]
      exact once (.moved here move)
    · exact once (.stayed (stays_setCore (fun here => absurd here at_)))
  | checked executing running => exact once (goes_checked attended.placed executing running id)
  | queued unmoved => exact once (.stayed (requeued unmoved.current))
  | interrupted _ unmoved =>
    exact once (.stayed (stays_of_fields unmoved.current rfl rfl (fun marked => marked)))
  | counted unmoved same =>
    refine once (.stayed ((requeued unmoved.current).trans (stays_setCore (fun _ => ?_))))
    rw [same]
  | @started name core queue fresh found =>
    obtain ⟨_, rfl, _⟩ := Cores.startCore_result found
    refine once (.stayed (((stays_startCore attended.placed placed' found older).trans
      (stays_setTask older)).trans (stays_setCore (fun at_ => ?_))))
    have now : some id = _ :=
      (placed'.coreOf_eq_some.mp at_).symm.trans ((started_current found).2 core)
    rw [if_pos rfl] at now
    exact absurd (Option.some.inj now) older
  | spawned unmoved => exact once (.stayed ((requeued unmoved).trans (stays_setTask older)))
  | spawnedUser _ unmoved =>
    refine once (.stayed (((requeued unmoved).trans (stays_setTask older)).trans
      (stays_of_fields rfl rfl rfl ?_)))
    simp [markedKilled, setProcess, setTask, older]
  | @fpWritten core value =>
    have written : (machine.place id).Stays
        ((machine.setCore core { machine.hw core with regs := value }).place id) :=
      stays_setCore (fun _ => rfl)
    exact once (.stayed (written.trans (stays_of_fields rfl rfl rfl (fun marked => marked))))
  | @fpTaken core current task _ _ _ _ _ found =>
    have loaded : (machine.place id).Stays
        ((machine.setTask current (some { task with fpCore := some core })).place id) :=
      stays_retask found rfl rfl
    exact once (.stayed (loaded.trans (stays_setCore (fun _ => rfl))))
  | @exited core current _ task _ _ running =>
    by_cases same : id = current
    · subst same
      refine once (.exited ?_)
      rw [place_context, contextOf_setCore, if_pos]
      exact attended.placed.coreOf_eq_some.mpr running
    · have elsewhere := coreOf_ne attended.placed running same
      have untouched : (machine.place id).Stays ((machine.setProcess current none).place id) :=
        stays_of_fields rfl rfl rfl (by simp [markedKilled, setProcess, same])
      exact once (.stayed ((untouched.trans (stays_setTask same)).trans
        (stays_setCore (fun here => absurd here elsewhere))))
  | @marked target =>
    refine once (.stayed (stays_of_fields rfl rfl rfl (fun marked => ?_)))
    by_cases same : id = target
    · simp [markedKilled, setProcess, same]
    · simpa [markedKilled, setProcess, same] using marked
  | @redirected target =>
    rw [redirectToKernel_machine]
    by_cases same : id = target
    · subst same
      exact once (.redirected (redirected_killRedirected (attended.runs_present id)))
    · exact once (.stayed (stays_setTask same))
  | switched calls taken =>
    obtain ⟨stays, executing, _⟩ := switchPoint_stays calls id
    exact ⟨_, _, stays, goes_switched (attended.switchPoint calls) placed' executing taken id⟩

end RustyPi.Kernel.Machine
