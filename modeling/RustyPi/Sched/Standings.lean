import RustyPi.Sched.Cores

/-! What each operation does to each task: the part of an entry that scheduling depends on, how an
operation on the run queue acts on it, task by task, and who runs and idles where afterwards.
-/

namespace RustyPi.Sched

/-- What decides whether a task may run: its state and the wake-ups kept for it. -/
structure Standing where
  state : State
  wakePending : Bool
  interruptPending : Bool
  deriving DecidableEq, Repr

def Entry.standing (entry : Entry) : Standing :=
  {
    state := entry.state
    wakePending := entry.wakePending
    interruptPending := entry.interruptPending
  }

namespace Standing

/-- A task just added. -/
def fresh (state : State) : Standing :=
  { state, wakePending := false, interruptPending := false }

def sleep (untilUs : Nat) (standing : Standing) : Standing :=
  { standing with
    interruptPending := false
    state := if standing.interruptPending then standing.state else .sleeping untilUs }

/-- Waiting for `event`; `unmoved` says its generation is the one seen. -/
def wait (event : Event) (unmoved : Bool) (standing : Standing) : Standing :=
  { standing with
    interruptPending := false
    state :=
      if !standing.interruptPending && unmoved then .waiting event else standing.state }

def block (standing : Standing) : Standing :=
  { standing with
    wakePending := false
    state := if standing.wakePending then standing.state else .blocked }

def finish (standing : Standing) : Standing := { standing with state := .finished }

def wake (standing : Standing) : Standing :=
  match standing.state with
  | .blocked => { standing with state := .ready }
  | .finished => standing
  | _ => { standing with wakePending := true }

def interrupt (standing : Standing) : Standing :=
  match standing.state with
  | .sleeping _ | .waiting _ => { standing with state := .ready }
  | .running | .ready => { standing with interruptPending := true }
  | _ => standing

def notify (event : Event) (standing : Standing) : Standing :=
  if standing.state = .waiting event then { standing with state := .ready } else standing

def tick (nowUs : Nat) (standing : Standing) : Standing :=
  match standing.state with
  | .sleeping untilUs =>
    if untilUs ≤ nowUs then { standing with state := .ready } else standing
  | _ => standing

theorem wake_pending {standing : Standing} (notBlocked : standing.state ≠ .blocked)
    (notFinished : standing.state ≠ .finished)
    : standing.wake.wakePending = true := by
  unfold wake
  split
  · contradiction
  · contradiction
  · rfl

theorem interrupt_pending {standing : Standing}
    (runnable : standing.state = .running ∨ standing.state = .ready)
    : standing.interrupt.interruptPending = true := by
  unfold interrupt
  rcases runnable with state | state <;> rw [state]

end Standing

namespace RunQueue

def standing (queue : RunQueue) (id : TaskId) : Option Standing :=
  (queue.entry id).map Entry.standing

theorem state_eq_standing (queue : RunQueue) (id : TaskId)
    : queue.state id = (queue.standing id).map Standing.state := by
  simp only [state, standing, Option.map_map]
  rfl

theorem standing_remove (queue : RunQueue) (id other : TaskId)
    : (queue.remove id).standing other = if other = id then none else queue.standing other := by
  simp only [standing, entry, remove, List.getElem?_set]
  by_cases same : other = id
  · subst same
    by_cases inside : other < queue.tasks.length <;> simp [inside]
  · simp [same, Ne.symm same]

theorem standing_foldl_remove (ids : List TaskId) (queue : RunQueue) (id : TaskId)
    : (ids.foldl remove queue).standing id = if id ∈ ids then none else queue.standing id := by
  induction ids generalizing queue with
  | nil => simp
  | cons first rest ih =>
    rw [List.foldl_cons, ih, standing_remove]
    by_cases same : id = first <;> by_cases later : id ∈ rest <;> simp [same, later]

theorem standing_append (queue : RunQueue) (fresh : Entry) (id : TaskId)
    : { queue with tasks := queue.tasks ++ [some fresh] }.standing id
      = if id = queue.tasks.length then some fresh.standing else queue.standing id := by
  simp only [standing, entry]
  split
  · subst id
    simp
  · rename_i other
    rcases Nat.lt_or_gt_of_ne other with inside | beyond
    · rw [List.getElem?_append_left inside]
    · rw [List.getElem?_eq_none (by simp; omega), List.getElem?_eq_none (by omega)]

theorem standing_beyond (queue : RunQueue) : queue.standing queue.tasks.length = none := by
  simp [standing, entry]

end RunQueue

namespace Cores

open RunQueue

/-- The same tasks run and idle on the same cores, and no id was given out. -/
structure Unmoved (before after : RunQueue) : Prop where
  current : after.current = before.current
  idle : after.idle = before.idle
  length : after.tasks.length = before.tasks.length

theorem Unmoved.refl (queue : RunQueue) : Unmoved queue queue := ⟨rfl, rfl, rfl⟩

variable {queue after before between : RunQueue} {core : Nat} {id : TaskId} {op : Op}
variable {act : Standing → Standing} {change : Entry → Entry} {name : String}

theorem Unmoved.trans (left : Unmoved before between) (right : Unmoved between after)
    : Unmoved before after :=
  ⟨right.current.trans left.current, right.idle.trans left.idle,
    right.length.trans left.length⟩

theorem Unmoved.currentTask (unmoved : Unmoved before after) (core : Nat)
    : after.currentTask core = before.currentTask core :=
  RunQueue.currentTask_congr unmoved.current core

/-- Nothing moves, and every task is acted on as `acts` tells. -/
structure Touched (acts : TaskId → Standing → Standing) (before after : RunQueue) : Prop
    extends Unmoved before after where
  generations : after.generations = before.generations
  standing : ∀ id, after.standing id = (before.standing id).map (acts id)

/-- After changes that no standing shows. -/
theorem Touched.since {acts : TaskId → Standing → Standing} (touched : Touched acts between after)
    (quiet : Touched (fun _ standing => standing) before between)
    : Touched acts before after where
  toUnmoved := quiet.toUnmoved.trans touched.toUnmoved
  generations := touched.generations.trans quiet.generations
  standing id := by rw [touched.standing, quiet.standing, Option.map_id']

/-- Acts on one task and leaves the others alone. -/
def only (id : TaskId) (act : Standing → Standing) (other : TaskId) : Standing → Standing :=
  if other = id then act else fun standing => standing

/-- Acts on the current task of `core` and leaves the others alone. -/
def onCurrent (queue : RunQueue) (core : Nat) (act : Standing → Standing) (id : TaskId)
    : Standing → Standing :=
  if queue.currentTask core = some id then act else fun standing => standing

theorem onCurrent_self (running : queue.currentTask core = some id)
    : onCurrent queue core act id = act :=
  if_pos running

theorem onCurrent_eq (running : queue.currentTask core = some id)
    : onCurrent queue core act = only id act := by
  funext other
  simp only [onCurrent, only, running, Option.some.injEq, eq_comm]

theorem Touched.standing_only (touched : Touched (only id act) before after) (other : TaskId)
    : after.standing other
      = if other = id then (before.standing other).map act else before.standing other := by
  rw [touched.standing, only]
  split <;> simp

/-- Changing the entry of one task, by what the change does to the entry it finds. -/
theorem modifyEntry_touched (queue : RunQueue) (id : TaskId)
    (follows : ∀ entry, queue.entry id = some entry → (change entry).standing = act entry.standing)
    : Touched (only id act) queue (queue.modifyEntry id change) where
  current := rfl
  idle := rfl
  length := by simp
  generations := rfl
  standing other := by
    simp only [RunQueue.standing, RunQueue.entry, modifyEntry, List.getElem?_modify, only]
    by_cases same : other = id
    · subst same
      cases there : queue.tasks[other]? with
      | none => simp
      | some slot =>
        cases slot with
        | none => simp
        | some entry => simp [follows entry (by simp [RunQueue.entry, there])]
    · simp [same, Ne.symm same, Function.comp_def]

theorem modifyEntry_twice (queue : RunQueue) (id : TaskId) (first second : Entry → Entry)
    : (queue.modifyEntry id first).modifyEntry id second
      = queue.modifyEntry id (fun entry => second (first entry)) := by
  simp [modifyEntry, List.modify_modify_eq, Function.comp_def]

theorem untouched (queue : RunQueue) (id : TaskId)
    (same : ∀ entry, queue.entry id = some entry → act entry.standing = entry.standing)
    : Touched (only id act) queue queue where
  toUnmoved := .refl queue
  generations := rfl
  standing other := by
    unfold only
    split
    · subst other
      unfold RunQueue.standing
      cases found : queue.entry id with
      | none => rfl
      | some entry => simp [same entry found]
    · exact (Option.map_id' ..).symm

theorem modifyAll_touched (queue : RunQueue)
    (follows : ∀ entry, (change entry).standing = act entry.standing)
    : Touched (fun _ => act) queue (queue.modifyAll change) where
  current := rfl
  idle := rfl
  length := by simp
  generations := rfl
  standing id := by
    simp only [RunQueue.standing, RunQueue.entry, modifyAll, List.getElem?_map]
    cases queue.tasks[id]? with
    | none => rfl
    | some slot => cases slot <;> simp [follows]

theorem sleepCurrent_touched {untilUs : Nat} (taken : queue.sleepCurrent core untilUs = some after)
    : Touched (onCurrent queue core (Standing.sleep untilUs)) queue after := by
  simp only [sleepCurrent, takeInterrupt, Option.map_map, Option.map_eq_some_iff,
    Function.comp_apply] at taken
  obtain ⟨current, running, rfl⟩ := taken
  rw [onCurrent_eq running, setState, modifyEntry_twice]
  split <;>
    exact modifyEntry_touched _ _ (fun _ _ => by simp_all [Entry.standing, Standing.sleep])

theorem waitCurrent_touched {event : Event} {seen : Generation}
    (taken : queue.waitCurrent core event seen = some after)
    : Touched (onCurrent queue core (Standing.wait event (queue.generation event == seen)))
        queue after := by
  simp only [waitCurrent, takeInterrupt, Option.map_map, Option.map_eq_some_iff,
    Function.comp_apply] at taken
  obtain ⟨current, running, rfl⟩ := taken
  have same (change : Entry → Entry)
      : (queue.modifyEntry current change).generation event = queue.generation event := rfl
  rw [onCurrent_eq running, setState, modifyEntry_twice, same]
  split <;>
    exact modifyEntry_touched _ _ (fun _ _ => by simp_all [Entry.standing, Standing.wait])

theorem blockCurrent_touched (taken : queue.blockCurrent core = some after)
    : Touched (onCurrent queue core Standing.block) queue after := by
  obtain ⟨current, running, rfl⟩ := Option.map_eq_some_iff.mp taken
  dsimp only
  rw [onCurrent_eq running, setState, modifyEntry_twice]
  split <;>
    exact modifyEntry_touched _ _ (fun _ _ => by simp_all [Entry.standing, Standing.block])

theorem finishCurrent_touched (taken : queue.finishCurrent core = some after)
    : Touched (onCurrent queue core Standing.finish) queue after := by
  obtain ⟨current, running, rfl⟩ := Option.map_eq_some_iff.mp taken
  rw [onCurrent_eq running]
  exact modifyEntry_touched _ _ (fun _ _ => rfl)

theorem wake_touched (queue : RunQueue) (id : TaskId)
    : Touched (only id Standing.wake) queue (queue.wake id).1 := by
  unfold RunQueue.wake
  split
  case h_1 =>
    exact modifyEntry_touched _ _ (fun _ _ => by
      simp_all [RunQueue.state, Entry.standing, Standing.wake])
  case h_4 =>
    refine modifyEntry_touched _ _ (fun entry _ => ?_)
    cases state : entry.state <;> simp_all [RunQueue.state, Entry.standing, Standing.wake]
  all_goals
    exact untouched _ _ (fun _ _ => by
      simp_all [RunQueue.state, Entry.standing, Standing.wake])

theorem interrupt_touched (queue : RunQueue) (id : TaskId)
    : Touched (only id Standing.interrupt) queue (queue.interrupt id).1 := by
  unfold RunQueue.interrupt
  split
  case h_5 =>
    refine untouched _ _ (fun entry _ => ?_)
    cases state : entry.state <;> simp_all [RunQueue.state, Entry.standing, Standing.interrupt]
  all_goals
    exact modifyEntry_touched _ _ (fun _ _ => by
      simp_all [RunQueue.state, Entry.standing, Standing.interrupt])

/-- A notification acts on the tasks once it has counted itself. -/
theorem notify_touched (queue : RunQueue) (event : Event)
    : Touched (fun _ => Standing.notify event)
        { queue with generations := (queue.notify event).1.generations }
        (queue.notify event).1 := by
  refine modifyAll_touched _ (fun entry => ?_)
  unfold Standing.notify
  split <;> simp_all [Entry.standing]

theorem notify_unmoved (queue : RunQueue) (event : Event)
    : Unmoved queue (queue.notify event).1 :=
  ⟨rfl, rfl, (notify_touched queue event).length⟩

theorem measureWindow_touched (queue : RunQueue) (core : Nat)
    : Touched (fun _ standing => standing) queue (queue.measureWindow core) := by
  have same : Touched (fun _ standing => standing) queue queue :=
    ⟨.refl queue, rfl, fun _ => (Option.map_id' ..).symm⟩
  unfold RunQueue.measureWindow
  split
  · split
    · refine ⟨⟨rfl, rfl, by simp⟩, rfl, fun id => ?_⟩
      refine (modifyAll_touched { queue with windowElapsed := 0 } ?_).standing id
      exact fun _ => rfl
    · exact ⟨⟨rfl, rfl, rfl⟩, rfl, same.standing⟩
  · exact same

/-- A tick counts, which no standing shows, and readies the sleepers that are due. -/
theorem tick_touched {nowUs : Nat} (taken : queue.tick core nowUs = some after)
    : Touched (fun _ => Standing.tick nowUs) queue after := by
  obtain ⟨current, _, rfl⟩ := Option.map_eq_some_iff.mp taken
  have due : ∀ entry : Entry,
      (RunQueue.wakeDue nowUs entry).standing = Standing.tick nowUs entry.standing := by
    intro entry
    unfold RunQueue.wakeDue Standing.tick
    cases state : entry.state <;> simp only [Entry.standing, state]
    split <;> simp [state]
  have counted : Touched (only current (fun standing => standing)) queue
      (queue.modifyEntry current (fun entry =>
        { entry with ticks := entry.ticks + 1, windowTicks := entry.windowTicks + 1 })) :=
    modifyEntry_touched _ _ (fun _ _ => rfl)
  have unseen : only current (fun standing => standing) = fun _ standing => standing := by
    funext other standing
    simp [only]
  exact ((modifyAll_touched _ due).since (measureWindow_touched _ core)).since (unseen ▸ counted)

theorem addIdle_result (added : queue.addIdle name core = some (after, id))
    : core < queue.idle.length
      ∧ id = queue.tasks.length
      ∧ after = { (queue.add name).1 with idle := queue.idle.set core (some queue.tasks.length) } := by
  simp only [RunQueue.addIdle, Option.ite_none_right_eq_some, Option.some.injEq,
    Prod.mk.injEq] at added
  exact ⟨added.1, added.2.2.symm, added.2.1.symm⟩

theorem startCore_result (started : queue.startCore name core = some (after, id))
    : core < queue.idle.length
      ∧ id = queue.tasks.length
      ∧ queue.current[core]? = some none
      ∧ after
        = { queue with
            tasks := queue.tasks ++ [some { name, state := .running }]
            current := queue.current.set core (some queue.tasks.length)
            idle := queue.idle.set core (some queue.tasks.length) } := by
  unfold RunQueue.startCore at started
  split at started
  case h_1 stopped =>
    simp only [Option.map_eq_some_iff, Prod.mk.injEq] at started
    obtain ⟨⟨added, fresh⟩, found, rfl, rfl⟩ := started
    obtain ⟨inside, rfl, rfl⟩ := addIdle_result found
    refine ⟨inside, rfl, stopped, ?_⟩
    simp [RunQueue.add, setState, modifyEntry, List.modify_eq_take_drop]
  case h_2 => cases started

/-- Who runs and idles where afterwards: as before, but for a fresh task that idles on a core, or
on a core that starts.
-/
inductive Placement (before : RunQueue) : Op → RunQueue → Prop
  | unmoved {op : Op} {after : RunQueue} (unmoved : Unmoved before after) : Placement before op after
  | added {name : String} {after : RunQueue} (current : after.current = before.current)
    (idle : after.idle = before.idle) (grown : before.tasks.length < after.tasks.length)
    : Placement before (.add name) after
  | idleAdded {name : String} {core : Nat} {after : RunQueue} (current : after.current = before.current)
    (idle : after.idle = before.idle.set core (some before.tasks.length))
    (grown : before.tasks.length < after.tasks.length)
    : Placement before (.addIdle name core) after
  | started {name : String} {core : Nat} {after : RunQueue} (inside : core < before.idle.length)
    (stopped : before.current[core]? = some none)
    (current : after.current = before.current.set core (some before.tasks.length))
    (idle : after.idle = before.idle.set core (some before.tasks.length))
    (grown : before.tasks.length < after.tasks.length)
    : Placement before (.startCore name core) after

theorem Placement.grown (change : Placement before op after)
    : before.tasks.length ≤ after.tasks.length := by
  cases change with
  | unmoved unmoved => exact Nat.le_of_eq unmoved.length.symm
  | added _ _ grown => exact Nat.le_of_lt grown
  | idleAdded _ _ grown => exact Nat.le_of_lt grown
  | started _ _ _ _ grown => exact Nat.le_of_lt grown

theorem add_placement (queue : RunQueue) (name : String)
    : Placement queue (.add name) (queue.add name).1 :=
  .added rfl rfl (by simp [RunQueue.add])

theorem addIdle_placement (added : queue.addIdle name core = some (after, id))
    : Placement queue (.addIdle name core) after := by
  obtain ⟨_, rfl, rfl⟩ := addIdle_result added
  exact .idleAdded rfl rfl (by simp [RunQueue.add])

theorem startCore_placement (started : queue.startCore name core = some (after, id))
    : Placement queue (.startCore name core) after := by
  obtain ⟨inside, rfl, stopped, rfl⟩ := startCore_result started
  exact .started inside stopped rfl rfl (by simp)

/-- What an operation does to each task that is there. -/
def Op.acts (queue : RunQueue) : Op → TaskId → Standing → Standing
  | .sleepCurrent core untilUs => onCurrent queue core (Standing.sleep untilUs)
  | .waitCurrent core event seen =>
    onCurrent queue core (Standing.wait event (queue.generation event == seen))
  | .blockCurrent core => onCurrent queue core Standing.block
  | .finishCurrent core => onCurrent queue core Standing.finish
  | .wake id => only id Standing.wake
  | .interrupt id => only id Standing.interrupt
  | .notify event => fun _ => Standing.notify event
  | .tick _ nowUs => fun _ => Standing.tick nowUs
  | .add _ | .addIdle _ _ | .startCore _ _ | .switch _ _ | .finishSwitch _ =>
    fun _ standing => standing

/-- The task an operation adds, under the next id. -/
def Op.adds : Op → Option Standing
  | .add _ | .addIdle _ _ => some (.fresh .ready)
  | .startCore _ _ => some (.fresh .running)
  | _ => none

/-- All that an operation changes: who runs where, the tasks, and the generations, which only a
notification moves.
-/
structure Stepped (before : RunQueue) (op : Op) (after : RunQueue) : Prop where
  placement : Placement before op after
  standing
    : ∀ id,
        after.standing id
        = if id = before.tasks.length then op.adds
          else (before.standing id).map (op.acts before id)
  generation
    : ∀ event,
        after.generation event
        = if op = .notify event then before.generation event + 1 else before.generation event

theorem Touched.stepped (touched : Touched (op.acts before) before after) (unadded : op.adds = none)
    (quiet : ∀ event, op ≠ .notify event)
    : Stepped before op after where
  placement := .unmoved touched.toUnmoved
  standing id := by
    rw [unadded, touched.standing]
    split
    · subst id
      rw [standing_beyond, Option.map_none]
    · rfl
  generation event := by
    rw [if_neg (quiet event), RunQueue.generation, touched.generations, RunQueue.generation]

theorem notify_generation (queue : RunQueue) (event other : Event)
    : (queue.notify event).1.generation other
      = if other = event then queue.generation other + 1 else queue.generation other := by
  have padded : ∀ i : Nat, (queue.generations
      ++ List.replicate (event + 1 - queue.generations.length) 0)[i]?.getD 0
      = queue.generation i := by
    intro i
    unfold RunQueue.generation
    rw [List.getElem?_append]
    split
    · rfl
    · rename_i beyond
      rw [List.getElem?_eq_none (Nat.le_of_not_lt beyond), List.getElem?_replicate]
      split <;> rfl
  have inside : event < (queue.generations
      ++ List.replicate (event + 1 - queue.generations.length) 0).length := by
    have room : ∀ index count : Nat, index < count + (index + 1 - count) := by omega
    rw [List.length_append, List.length_replicate]
    exact room event queue.generations.length
  show ((queue.generations ++ List.replicate (event + 1 - queue.generations.length) 0).modify
    event (· + 1))[other]?.getD 0 = _
  rw [List.getElem?_modify]
  by_cases same : other = event
  · subst same
    have here := padded other
    rw [List.getElem?_eq_getElem inside] at here ⊢
    simpa using here
  · rw [if_neg same, ← padded other]
    simp [Ne.symm same]

theorem queueStep_stepped (taken : queueStep before op = some after) : Stepped before op after := by
  have fresh (id : TaskId) (new : Option Standing)
      : (if id = before.tasks.length then new else before.standing id)
        = if id = before.tasks.length then new
          else (before.standing id).map (fun standing => standing) :=
    if_congr Iff.rfl rfl (Option.map_id' ..).symm
  cases op with
  | add name =>
    cases taken
    exact ⟨add_placement before name, fun id => (standing_append ..).trans (fresh id _),
      fun _ => rfl⟩
  | addIdle name core =>
    obtain ⟨⟨added, id⟩, found, rfl⟩ := Option.map_eq_some_iff.mp taken
    have placement := addIdle_placement found
    obtain ⟨_, rfl, rfl⟩ := addIdle_result found
    exact ⟨placement, fun id => (standing_append ..).trans (fresh id _), fun _ => rfl⟩
  | startCore name core =>
    obtain ⟨⟨added, id⟩, found, rfl⟩ := Option.map_eq_some_iff.mp taken
    have placement := startCore_placement found
    obtain ⟨_, rfl, _, rfl⟩ := startCore_result found
    exact ⟨placement, fun id => (standing_append ..).trans (fresh id _), fun _ => rfl⟩
  | sleepCurrent core untilUs => exact Touched.stepped (sleepCurrent_touched taken) rfl nofun
  | waitCurrent core event seen => exact Touched.stepped (waitCurrent_touched taken) rfl nofun
  | blockCurrent core => exact Touched.stepped (blockCurrent_touched taken) rfl nofun
  | finishCurrent core => exact Touched.stepped (finishCurrent_touched taken) rfl nofun
  | wake id =>
    cases taken
    exact Touched.stepped (wake_touched before id) rfl nofun
  | interrupt id =>
    cases taken
    exact Touched.stepped (interrupt_touched before id) rfl nofun
  | notify event =>
    cases taken
    refine ⟨.unmoved (notify_unmoved before event), fun id => ?_, fun other => ?_⟩
    · refine ((notify_touched before event).standing id).trans ?_
      split
      · subst id
        exact congrArg _ (standing_beyond before)
      · rfl
    · rw [notify_generation]
      exact if_congr (by simp [eq_comm]) rfl rfl
  | tick core nowUs => exact Touched.stepped (tick_touched taken) rfl nofun
  | switch core preempt => cases taken
  | finishSwitch core => cases taken

/-- What can happen to the standing of the task `id`. -/
inductive Effect (queue : RunQueue) (id : TaskId) (old : Standing) : Op → Standing → Prop
  | kept {op : Op} (deaf : ∀ event, op = .notify event → old.state ≠ .waiting event)
    : Effect queue id old op old
  | slept {core untilUs : Nat} (runs : queue.currentTask core = some id)
    (calm : old.interruptPending = false)
    : Effect queue id old (.sleepCurrent core untilUs)
        { old with state := .sleeping untilUs, interruptPending := false }
  | waited {core : Nat} {event : Event} {seen : Generation} (runs : queue.currentTask core = some id)
    (calm : old.interruptPending = false) (unmoved : queue.generation event = seen)
    : Effect queue id old (.waitCurrent core event seen)
        { old with state := .waiting event, interruptPending := false }
  | unslept {core untilUs : Nat} (runs : queue.currentTask core = some id)
    : Effect queue id old (.sleepCurrent core untilUs) { old with interruptPending := false }
  | unwaited {core : Nat} {event : Event} {seen : Generation} (runs : queue.currentTask core = some id)
    : Effect queue id old (.waitCurrent core event seen) { old with interruptPending := false }
  | blocked {core : Nat} (runs : queue.currentTask core = some id)
    : Effect queue id old (.blockCurrent core) { old with state := .blocked, wakePending := false }
  | unblocked {core : Nat} (runs : queue.currentTask core = some id)
    : Effect queue id old (.blockCurrent core) { old with wakePending := false }
  | finished {core : Nat} (runs : queue.currentTask core = some id)
    : Effect queue id old (.finishCurrent core) { old with state := .finished }
  | woken (was : old.state = .blocked) : Effect queue id old (.wake id) { old with state := .ready }
  | wakeKept : Effect queue id old (.wake id) { old with wakePending := true }
  | roused (was : (∃ untilUs, old.state = .sleeping untilUs) ∨ ∃ event, old.state = .waiting event)
    : Effect queue id old (.interrupt id) { old with state := .ready }
  | interruptKept : Effect queue id old (.interrupt id) { old with interruptPending := true }
  | notified {event : Event} (was : old.state = .waiting event)
    : Effect queue id old (.notify event) { old with state := .ready }
  | due {core nowUs untilUs : Nat} (was : old.state = .sleeping untilUs) (passed : untilUs ≤ nowUs)
    : Effect queue id old (.tick core nowUs) { old with state := .ready }

theorem acts_effect (queue : RunQueue) (id : TaskId) (old : Standing) (op : Op)
    : Effect queue id old op (op.acts queue id old) := by
  cases op with
  | sleepCurrent core untilUs =>
    simp only [Op.acts, onCurrent]
    split
    · unfold Standing.sleep
      split
      · exact .unslept ‹_›
      · exact .slept ‹_› (by simp_all)
    · exact .kept nofun
  | waitCurrent core event seen =>
    simp only [Op.acts, onCurrent]
    split
    · unfold Standing.wait
      split
      · exact .waited ‹_› (by simp_all) (by simp_all)
      · exact .unwaited ‹_›
    · exact .kept nofun
  | blockCurrent core =>
    simp only [Op.acts, onCurrent]
    split
    · unfold Standing.block
      split
      · exact .unblocked ‹_›
      · exact .blocked ‹_›
    · exact .kept nofun
  | finishCurrent core =>
    simp only [Op.acts, onCurrent]
    split
    · exact .finished ‹_›
    · exact .kept nofun
  | wake woken =>
    simp only [Op.acts, only]
    split
    · subst id
      unfold Standing.wake
      split
      · exact .woken ‹_›
      · exact .kept nofun
      · exact .wakeKept
    · exact .kept nofun
  | interrupt interrupted =>
    simp only [Op.acts, only]
    split
    · subst id
      unfold Standing.interrupt
      split
      · exact .roused (Or.inl ⟨_, ‹_›⟩)
      · exact .roused (Or.inr ⟨_, ‹_›⟩)
      · exact .interruptKept
      · exact .interruptKept
      · exact .kept nofun
    · exact .kept nofun
  | notify event =>
    simp only [Op.acts, Standing.notify]
    split
    · exact .notified ‹_›
    · exact .kept (by rintro _ ⟨⟩; assumption)
  | tick core nowUs =>
    simp only [Op.acts, Standing.tick]
    split
    · split
      · exact .due ‹_› ‹_›
      · exact .kept nofun
    · exact .kept nofun
  | add | addIdle | startCore | switch | finishSwitch => exact .kept nofun

theorem queueStep_standing_of (taken : queueStep before op = some after) {old : Standing}
    (found : before.standing id = some old)
    : ∃ new, after.standing id = some new ∧ Effect before id old op new := by
  have known : id ≠ before.tasks.length := by
    rintro rfl
    rw [standing_beyond] at found
    cases found
  refine ⟨_, ?_, acts_effect before id old op⟩
  rw [(queueStep_stepped taken).standing, if_neg known, found, Option.map_some]

/-- A task that is there afterwards is fresh, or was there before. -/
theorem queueStep_standing_cases (taken : queueStep before op = some after) {new : Standing}
    (found : after.standing id = some new)
    : (id = before.tasks.length ∧ (new = .fresh .ready ∨ new = .fresh .running))
      ∨ ∃ old, before.standing id = some old ∧ Effect before id old op new := by
  rw [(queueStep_stepped taken).standing] at found
  split at found
  · refine Or.inl ⟨‹_›, ?_⟩
    cases op <;> simp only [Op.adds, Option.some.injEq, reduceCtorEq] at found <;> simp [found]
  · obtain ⟨old, there, rfl⟩ := Option.map_eq_some_iff.mp found
    exact .inr ⟨old, there, acts_effect before id old op⟩

/-- Whether a task may be picked or go on running. -/
def Runnable (queue : RunQueue) (id : TaskId) : Prop :=
  queue.state id = some .running ∨ queue.state id = some .ready

/-- The core whose current task an operation marks as asleep, waiting, blocked or finished. -/
def Op.marks : Op → Option Nat
  | .sleepCurrent core _ | .waitCurrent core _ _ | .blockCurrent core | .finishCurrent core =>
    some core
  | _ => none

def Op.Spares (queue : RunQueue) (id : TaskId) (op : Op) : Prop :=
  ∀ core, op.marks = some core → queue.currentTask core ≠ some id

theorem Effect.runnable {old new : Standing} (effect : Effect queue id old op new)
    (spares : op.Spares queue id) (runnable : old.state = .running ∨ old.state = .ready)
    : new.state = old.state := by
  cases effect with
  | kept | unslept | unwaited | unblocked | wakeKept | interruptKept => rfl
  | slept runs | waited runs | blocked runs | finished runs => exact absurd runs (spares _ rfl)
  | woken was | notified was | due was => simp [was] at runnable
  | roused was => rcases was with ⟨_, was⟩ | ⟨_, was⟩ <;> simp [was] at runnable

/-- What picking `next` in place of `current` does to the task `id`. -/
def picked (current next id : TaskId) (standing : Standing) : Standing :=
  if id = next then { standing with state := .running }
  else if id = current ∧ standing.state = .running then { standing with state := .ready }
  else standing

theorem setState_standing (queue : RunQueue) (id : TaskId) (state : State) (other : TaskId)
    : (queue.setState id state).standing other
      = if other = id then (queue.standing other).map (fun standing => { standing with state })
        else queue.standing other := by
  have touched : Touched (only id (fun standing => { standing with state })) queue
      (queue.setState id state) :=
    modifyEntry_touched queue id (fun _ _ => rfl)
  rw [touched.standing, only]
  split
  · rfl
  · exact Option.map_id' ..

theorem pickNext_standing {preempt : Bool} {busy : TaskId → Bool} {current next : TaskId}
    (taken : queue.pickNext core preempt busy = some (after, next))
    (running : queue.currentTask core = some current) (id : TaskId)
    : after.standing id = (queue.standing id).map (picked current next id) := by
  simp only [RunQueue.pickNext, running, Option.map_some, Option.some.injEq, Prod.mk.injEq] at taken
  obtain ⟨rfl, chosen⟩ := taken
  rw [chosen] at *
  show (RunQueue.setState { (if next ≠ current ∧ queue.state current = some .running then
        queue.setState current .ready else queue) with current := _ } next .running).standing id = _
  rw [setState_standing]
  generalize moved : (if next ≠ current ∧ queue.state current = some State.running then
    queue.setState current .ready else queue) = left
  have left_standing : left.standing id
      = if id = current ∧ next ≠ current ∧ queue.state current = some .running then
          (queue.standing id).map (fun standing => { standing with state := .ready })
        else queue.standing id := by
    subst moved
    split
    · rw [setState_standing]
      by_cases same : id = current <;> simp_all
    · rename_i stays
      rw [if_neg (fun both => stays both.2)]
  show (if id = next then (left.standing id).map _ else left.standing id) = _
  rw [left_standing, state_eq_standing]
  unfold picked
  by_cases isNext : id = next
  · subst isNext
    by_cases same : id = current <;> simp [same]
  · rw [if_neg isNext]
    by_cases same : id = current
    · subst same
      cases queue.standing id with
      | none => simp
      | some standing =>
        by_cases running : standing.state = .running <;> simp [isNext, Ne.symm isNext, running]
    · simp [isNext, same]

theorem pickNext_generation {preempt : Bool} {busy : TaskId → Bool} {next : TaskId}
    (taken : queue.pickNext core preempt busy = some (after, next)) (event : Event)
    : after.generation event = queue.generation event := by
  simp only [RunQueue.pickNext, Option.map_eq_some_iff, Prod.mk.injEq] at taken
  obtain ⟨current, _, rfl, _⟩ := taken
  split <;> rfl

end Cores

end RustyPi.Sched
