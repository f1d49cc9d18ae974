import RustyPi.Sched.Stacks

/-! Cores whose current tasks are running ones, but for tasks that have marked themselves and still have
to give up their core. As long as no search for the next task can meet another core's task, those
are the only ones.
-/

namespace RustyPi.Sched.Cores

/-- Every started core has a runnable idle task, and runs its current one unless that is marked. -/
structure Seated (marked : TaskId → Prop) (cores : Cores) : Prop where
  placed : Placed cores.queue
  running
    : ∀ (core : Nat) (task : TaskId),
        ¬ marked task
        → cores.queue.currentTask core = some task
        → cores.queue.state task = some .running
  idles
    : ∀ (core : Nat) (task : TaskId),
        cores.queue.currentTask core = some task
        → ∃ idle, cores.queue.idle[core]? = some (some idle)
  idle
    : ∀ (core : Nat) (task : TaskId), cores.queue.idle[core]? = some (some task) → Runnable cores.queue task

variable {cores : Cores} {switched : Switched} {core : Nat} {preempt : Bool} {id task : TaskId}
variable {queue before after : RunQueue} {marked : TaskId → Prop} {standing : Standing}

theorem Seated.mono {more : TaskId → Prop} (seated : Seated marked cores)
    (covers : ∀ task, marked task → more task)
    : Seated more cores :=
  { seated with running := fun core task unmarked => seated.running core task (unmarked ∘ covers task) }

/-- What a switch does to a task: it is freed if it had finished, picked, or left. -/
theorem switch_standing (taken : cores.switch core preempt = some switched) (id : TaskId)
    : switched.cores.queue.standing id
      = if id ∈ switched.reaped then none
        else (cores.queue.standing id).map (picked switched.current switched.next id) := by
  simp only [switch, Option.bind_eq_some_iff, Option.map_eq_some_iff] at taken
  obtain ⟨current, running, ⟨picked, next⟩, chosen, rfl⟩ := taken
  rw [RunQueue.standing_foldl_remove, pickNext_standing chosen running]

theorem reaped_finished (taken : cores.switch core preempt = some switched)
    (reaped : id ∈ switched.reaped)
    : cores.queue.state id = some .finished
      ∧ ∀ other, switched.cores.queue.currentTask other ≠ some id := by
  rw [← switchSeeing_nil] at taken
  obtain ⟨finished, _, nowhere, _⟩ := Stacks.reaped_unused taken reaped
  exact ⟨finished, nowhere⟩

/-- The task a switch picks for a seated core was runnable. -/
theorem Seated.next (seated : Seated marked cores)
    (taken : cores.switch core preempt = some switched)
    : Runnable cores.queue switched.next := by
  obtain ⟨idle, found⟩ := seated.idles core _ (switch_fields taken).1
  rcases switch_origin taken with ⟨same, keeps | none⟩ | own | ⟨_, pickable⟩
  · simp only [RunQueue.keepsCurrent, Bool.and_eq_true, beq_iff_eq] at keeps
    exact same ▸ Or.inl keeps.1
  · exact absurd found (none idle)
  · exact seated.idle core _ own
  · simp only [RunQueue.pickable, Bool.and_eq_true, beq_iff_eq] at pickable
    exact .inr pickable.1.1

/-- What a switch leaves of a task that hasn't finished: picked it runs, left it is ready. -/
theorem switch_state (taken : cores.switch core preempt = some switched) {state : State}
    (there : cores.queue.state id = some state) (unfinished : state ≠ .finished)
    : switched.cores.queue.state id
      = some (if id = switched.next then .running
          else if id = switched.current ∧ state = .running then .ready else state) := by
  have kept : id ∉ switched.reaped := by
    intro reaped
    have finished := (reaped_finished taken reaped).1
    rw [there] at finished
    exact unfinished (Option.some.inj finished)
  rw [RunQueue.state_eq_standing, Option.map_eq_some_iff] at there
  obtain ⟨standing, found, rfl⟩ := there
  rw [RunQueue.state_eq_standing, switch_standing taken, if_neg kept, found, Option.map_some,
    Option.map_some, picked]
  split_ifs <;> rfl

/-- A switch that meets no other core's task gives its core a running one, and the task that it left
has nothing more to give up.
-/
theorem Seated.switch (seated : Seated marked cores)
    (condition : NoneReadied cores (.switch core preempt))
    (taken : cores.switch core preempt = some switched)
    : Seated (fun task => marked task ∧ task ≠ switched.current) switched.cores := by
  have runnable := seated.next taken
  obtain ⟨running, _, _, idle, _⟩ := switch_fields taken
  refine ⟨seated.placed.switch condition taken, ?_, ?_, ?_⟩
  · intro other task unmarked runs
    rw [switch_currentTask taken] at runs
    split at runs
    · cases runs
      rcases runnable with state | state <;>
        rw [switch_state taken state (by simp), if_pos rfl]
    · rename_i differ
      have holds : Holds cores.queue other task := Or.inl (currentTask_eq_some.mp runs)
      have notNext : task ≠ switched.next :=
        fun same => seated.placed.next_alone condition taken differ (same ▸ holds)
      have notLeft : task ≠ switched.current := by
        rintro rfl
        exact seated.placed.apart differ holds (Or.inl (currentTask_eq_some.mp running))
      have state := seated.running other task (fun marked => unmarked ⟨marked, notLeft⟩) runs
      rw [switch_state taken state (by simp), if_neg notNext, if_neg (fun both => notLeft both.1)]
  · intro other task runs
    rw [idle]
    rw [switch_currentTask taken] at runs
    split at runs
    · rename_i same
      exact same ▸ seated.idles core switched.current running
    · exact seated.idles other task runs
  · intro other task found
    rw [idle] at found
    unfold Runnable
    rcases seated.idle other task found with state | state <;>
      rw [switch_state taken state (by simp)] <;> split_ifs <;> simp

theorem queueStep_runnable {op : Op} (taken : queueStep before op = some after) {state : State}
    (there : before.state id = some state) (runnable : state = .running ∨ state = .ready)
    (spares : op.Spares before id)
    : after.state id = some state := by
  rw [RunQueue.state_eq_standing, Option.map_eq_some_iff] at there
  obtain ⟨old, found, rfl⟩ := there
  obtain ⟨new, stays, effect⟩ := queueStep_standing_of taken found
  rw [RunQueue.state_eq_standing, stays, Option.map_some, effect.runnable spares runnable]

/-- Between switches a core keeps its tasks, or it starts with a fresh one. -/
theorem Stepped.seat {op : Op} (stepped : Stepped before op after)
    (late : ∀ name core, op ≠ .addIdle name core) (core : Nat)
    : (after.currentTask core = before.currentTask core ∧ after.idle[core]? = before.idle[core]?)
      ∨ after.currentTask core = some before.tasks.length
        ∧ after.idle[core]? = some (some before.tasks.length)
        ∧ after.state before.tasks.length = some .running := by
  have stays (current : after.current = before.current) (idle : after.idle = before.idle)
      : after.currentTask core = before.currentTask core ∧ after.idle[core]? = before.idle[core]? := by
    rw [RunQueue.currentTask, current, idle]
    exact ⟨rfl, rfl⟩
  cases stepped.placement with
  | unmoved unmoved => exact .inl (stays unmoved.current unmoved.idle)
  | added current idle => exact .inl (stays current idle)
  | idleAdded => exact absurd rfl (late _ _)
  | @started _ started _ inside stopped current idle =>
    rw [RunQueue.currentTask, current, idle]
    by_cases same : started = core
    · subst same
      rw [List.getElem?_set_self inside, List.getElem?_set_self (List.getElem?_eq_some_iff.mp stopped).1,
        RunQueue.state_eq_standing, stepped.standing, if_pos rfl]
      exact .inr ⟨rfl, rfl, rfl⟩
    · rw [List.getElem?_set_ne same, List.getElem?_set_ne same]
      exact .inl ⟨rfl, rfl⟩

/-- Between switches, only a task that marks itself loses its seat. It must not be an idle one, and
cores get their idle tasks as they start.
-/
theorem Seated.op {op : Op} (seated : Seated marked cores)
    (taken : queueStep cores.queue op = some queue) (late : ∀ name core, op ≠ .addIdle name core)
    (busy
      : ∀ core task,
          op.marks = some core
          → cores.queue.currentTask core = some task
          → cores.queue.isIdle task = false)
    : Seated (fun task => marked task ∨ ¬ op.Spares cores.queue task) { cores with queue } := by
  have stepped := queueStep_stepped taken
  refine ⟨seated.placed.of_placement stepped.placement, fun core task unmarked runs => ?_,
    fun core task runs => ?_, fun core task found => ?_⟩
  all_goals rcases stepped.seat late core with ⟨current, idle⟩ | ⟨current, idle, fresh⟩
  · obtain ⟨unmarked, spares⟩ := not_or.mp unmarked
    have running := seated.running core task unmarked (current ▸ runs)
    exact queueStep_runnable taken running (Or.inl rfl) (not_not.mp spares)
  · cases current.symm.trans runs
    exact fresh
  · rw [idle]
    exact seated.idles core task (current ▸ runs)
  · exact ⟨_, idle⟩
  · rw [idle] at found
    have spares : op.Spares cores.queue task := by
      intro other marks runs
      have notIdle := busy other task marks runs
      simp only [RunQueue.isIdle, List.contains_eq_mem, decide_eq_false_iff_not] at notIdle
      exact notIdle (List.mem_of_getElem? found)
    exact (seated.idle core task found).imp
      (fun state => queueStep_runnable taken state (Or.inl rfl) spares)
      (fun state => queueStep_runnable taken state (Or.inr rfl) spares)
  · cases idle.symm.trans found
    exact .inl fresh

/-- A task that marks itself, and is not an idle one, is the only one more to be marked. -/
theorem Seated.mark {op : Op} (seated : Seated marked cores)
    (taken : queueStep cores.queue op = some queue) (marks : op.marks = some core)
    (runs : cores.queue.currentTask core = some task) (busy : cores.queue.isIdle task = false)
    : Seated (fun found => marked found ∨ found = task) { cores with queue } := by
  have here {other : Nat} {found : TaskId} (same : op.marks = some other)
      (current : cores.queue.currentTask other = some found)
      : found = task := by
    cases marks.symm.trans same
    exact Option.some.inj (current.symm.trans runs)
  refine (seated.op taken ?_ ?_).mono ?_
  · rintro name other rfl
    cases marks
  · intro other found same current
    rw [here same current]
    exact busy
  · rintro found (earlier | unspared)
    · exact .inl earlier
    · simp only [Op.Spares, not_forall, not_not] at unspared
      obtain ⟨other, same, current⟩ := unspared
      exact .inr (here same current)

/-- `sched::init`: the boot code is task 0 on core 0, which gets an idle task. -/
def init (name : String) (cores : Nat) : Cores :=
  let booted := Cores.new name cores
  { booted with queue := ((booted.queue.addIdle "idle0" 0).map Prod.fst).getD booted.queue }

variable {name : String} {others : Nat}

theorem init_succ
    : (init name (others + 1)).queue
      = {
          tasks := [some { name, state := .running }, some { name := "idle0", state := .ready }]
          current := some 0 :: List.replicate others none
          idle := some 1 :: List.replicate others none
          generations := []
          windowElapsed := 0
        } := by
  simp [init, Cores.new, RunQueue.new, RunQueue.addIdle, RunQueue.add, List.replicate_succ]

theorem init_standing (found : (init name (others + 1)).queue.standing id = some standing)
    : standing = .fresh .running ∨ standing = .fresh .ready := by
  rw [RunQueue.standing, RunQueue.entry, init_succ] at found
  rcases id with _ | _ | id
  · exact .inl (Option.some.inj found).symm
  · exact .inr (Option.some.inj found).symm
  · cases found

theorem init_seated : Seated marked (init name (others + 1)) := by
  have added : queueStep (RunQueue.new name (others + 1)) (.addIdle "idle0" 0)
      = some (init name (others + 1)).queue := by
    simp [queueStep, init, Cores.new, RunQueue.addIdle, RunQueue.new]
  have first {core : Nat} {own task : TaskId}
      (found : (some own :: List.replicate others none)[core]? = some (some task))
      : core = 0 ∧ task = own := by
    cases core with
    | zero => exact ⟨rfl, by simpa using found.symm⟩
    | succ core => simp [List.getElem?_replicate] at found
  refine ⟨(new_placed name (others + 1)).of_placement (queueStep_stepped added).placement, ?_, ?_, ?_⟩
  all_goals rw [init_succ]
  · intro core task _ runs
    obtain ⟨rfl, rfl⟩ := first (currentTask_eq_some.mp runs)
    rfl
  · intro core task runs
    obtain ⟨rfl, rfl⟩ := first (currentTask_eq_some.mp runs)
    exact ⟨1, rfl⟩
  · intro core task found
    obtain ⟨rfl, rfl⟩ := first found
    exact .inr rfl

/-- `block`: the current task of a core blocks, and the core switches away from it. -/
def park (cores : Cores) (core : Nat) : Option Cores :=
  (queueStep cores.queue (.blockCurrent core)).bind (fun queue =>
    ({ cores with queue }.switch core true).map Switched.cores)

/-- The switch of `block` meets no other core's task. -/
def ParkUnready (cores : Cores) (core : Nat) : Prop :=
  ∀ queue ∈ queueStep cores.queue (.blockCurrent core),
    NoneReadied { cores with queue } (.switch core true)

instance (cores : Cores) (core : Nat) : Decidable (cores.ParkUnready core) :=
  inferInstanceAs (Decidable (∀ queue ∈ queueStep cores.queue (.blockCurrent core), _))

/-- Blocking is marking and then switching, with only that task marked in between. -/
theorem Seated.parts {after : Cores} (seated : Seated marked cores)
    (runs : cores.queue.currentTask core = some task) (busy : cores.queue.isIdle task = false)
    (taken : cores.park core = some after)
    : ∃ queue switched,
        queueStep cores.queue (.blockCurrent core) = some queue
        ∧ Seated (fun found => marked found ∨ found = task) { cores with queue }
        ∧ { cores with queue }.switch core true = some switched
        ∧ switched.current = task
        ∧ after = switched.cores := by
  simp only [Cores.park, Option.bind_eq_some_iff, Option.map_eq_some_iff] at taken
  obtain ⟨queue, blocked, switched, chosen, rfl⟩ := taken
  refine ⟨queue, switched, blocked, seated.mark blocked rfl runs busy, chosen, ?_, rfl⟩
  have current := (switch_fields chosen).1
  rw [RunQueue.currentTask, (blockCurrent_touched blocked).current] at current
  exact Option.some.inj (current.symm.trans runs)

theorem Seated.park {after : Cores} (seated : Seated marked cores)
    (runs : cores.queue.currentTask core = some task) (busy : cores.queue.isIdle task = false)
    (condition : cores.ParkUnready core) (taken : cores.park core = some after)
    : Seated marked after := by
  obtain ⟨queue, switched, blocked, between, chosen, rfl, rfl⟩ := seated.parts runs busy taken
  refine (between.switch (condition queue blocked) chosen).mono ?_
  rintro found ⟨earlier | same, other⟩
  · exact earlier
  · exact absurd same other

/-- A task that is there and hasn't finished. -/
def Alive (queue : RunQueue) (id : TaskId) : Prop :=
  ∃ standing, queue.standing id = some standing ∧ standing.state ≠ .finished

/-- A wake-up is kept for the task. -/
def WakeKept (queue : RunQueue) (id : TaskId) : Prop :=
  ∃ standing, queue.standing id = some standing ∧ standing.wakePending = true

/-- Nobody was blocked or woken, and at most `gone` finished. -/
structure Undisturbed (gone : Option TaskId) (before after : RunQueue) : Prop where
  blocked : ∀ id, after.state id = some .blocked ↔ before.state id = some .blocked
  kept : ∀ id, Alive before id → WakeKept before id → WakeKept after id
  unkept : ∀ id, WakeKept after id → WakeKept before id
  alive : ∀ id, some id ≠ gone → Alive before id → Alive after id

theorem Undisturbed.refl (queue : RunQueue) : Undisturbed none queue queue :=
  ⟨fun _ => Iff.rfl, fun _ _ kept => kept, fun _ kept => kept, fun _ _ alive => alive⟩

theorem Seated.switch_undisturbed (seated : Seated marked cores)
    (taken : cores.switch core preempt = some switched)
    : Undisturbed none cores.queue switched.cores.queue := by
  have runnable := seated.next taken
  have standing := switch_standing taken
  have reaped (id : TaskId) (reaped : id ∈ switched.reaped) := reaped_finished taken reaped
  constructor <;> intro id
  all_goals
    specialize standing id
    specialize reaped id
    cases found : cores.queue.standing id <;>
      grind [RunQueue.state_eq_standing, picked, WakeKept, Alive, Runnable]

/-- Operations other than blocking and waking. -/
def Op.Plain (op : Op) : Prop :=
  (∀ core, op ≠ .blockCurrent core) ∧ ∀ id, op ≠ .wake id

/-- What a plain operation leaves of a task, when the task it marks was running. -/
theorem Effect.plain {op : Op} {old new : Standing} (effect : Effect queue id old op new)
    (plain : op.Plain)
    (running
      : ∀ core, op.marks = some core → queue.currentTask core = some id → old.state = .running)
    : new.wakePending = old.wakePending
      ∧ (new.state = .blocked ↔ old.state = .blocked)
      ∧ (new.state = .finished
        → old.state = .finished
          ∨ ∃ core, op = .finishCurrent core ∧ queue.currentTask core = some id) := by
  cases effect <;> grind [Op.Plain, Op.marks]

/-- A plain operation blocks and wakes nobody, when the task it marks was running. -/
theorem queueStep_undisturbed {op : Op} (taken : queueStep before op = some after)
    (plain : op.Plain) (gone : Option TaskId)
    (running
      : ∀ core task,
          op.marks = some core
          → before.currentTask core = some task
          → before.state task = some .running)
    (ends : ∀ core, op = .finishCurrent core → before.currentTask core = gone)
    : Undisturbed gone before after := by
  have news {id : TaskId} {new : Standing} (found : after.standing id = some new) :=
    queueStep_standing_cases taken found
  have olds {id : TaskId} {old : Standing} (found : before.standing id = some old)
      : ∃ new, after.standing id = some new
          ∧ new.wakePending = old.wakePending
          ∧ (new.state = .blocked ↔ old.state = .blocked)
          ∧ (new.state = .finished → old.state = .finished ∨ some id = gone) := by
    obtain ⟨new, there, effect⟩ := queueStep_standing_of taken found
    have effect := effect.plain plain (fun core marks current => by
      simpa [RunQueue.state_eq_standing, found] using running core id marks current)
    grind
  constructor <;> intro id
  all_goals
    cases found : before.standing id <;> cases found' : after.standing id <;>
      grind [RunQueue.state_eq_standing, WakeKept, Alive, Standing.fresh]

/-- A task that blocks gives up its core, unless a wake-up was kept for it, which it then uses up.
-/
theorem Seated.block_effect {after : Cores} (seated : Seated marked cores)
    (unmarked : ¬ marked task) (runs : cores.queue.currentTask core = some task)
    (busy : cores.queue.isIdle task = false) (taken : cores.park core = some after)
    : (∀ id, after.queue.state id = some .blocked
        ↔ if id = task then ¬ WakeKept cores.queue task else cores.queue.state id = some .blocked)
      ∧ (∀ id, id ≠ task → Alive cores.queue id → WakeKept cores.queue id → WakeKept after.queue id)
      ∧ (∀ id, WakeKept after.queue id → id ≠ task ∧ WakeKept cores.queue id)
      ∧ ∀ id, Alive cores.queue id → Alive after.queue id := by
  obtain ⟨queue, switched, blocked, between, chosen, _, rfl⟩ := seated.parts runs busy taken
  have calm := between.switch_undisturbed chosen
  have state := seated.running core task unmarked runs
  have standing := (onCurrent_eq runs ▸ blockCurrent_touched blocked).standing_only
  refine ⟨fun id => (calm.blocked id).trans ?_, fun id other alive kept => calm.kept id ?_ ?_,
    fun id kept => ?_, fun id alive => calm.alive id (by simp) ?_⟩
  all_goals
    specialize standing id
    cases found : cores.queue.standing id <;>
      grind [RunQueue.state_eq_standing, WakeKept, Alive, Standing.block, Undisturbed]

/-- Waking a task that hasn't finished readies it if it was blocked, and is kept otherwise. -/
theorem wake_effect (queue : RunQueue) (alive : Alive queue task)
    : (∀ id, (queue.wake task).1.state id = some .blocked
        ↔ id ≠ task ∧ queue.state id = some .blocked)
      ∧ (∀ id, WakeKept (queue.wake task).1 id
          ↔ WakeKept queue id ∨ (id = task ∧ queue.state task ≠ some .blocked))
      ∧ ∀ id, Alive queue id → Alive (queue.wake task).1 id := by
  have standing := (wake_touched queue task).standing_only
  refine ⟨fun id => ?_, fun id => ?_, fun id => ?_⟩
  all_goals
    specialize standing id
    grind [RunQueue.state_eq_standing, WakeKept, Alive, Standing.wake]

end RustyPi.Sched.Cores
