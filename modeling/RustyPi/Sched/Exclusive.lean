import RustyPi.Sched.Standings

/-! When no two cores run one task. A task that marked itself asleep, waiting or blocked is
still its core's current task until the core switches, but the run queue does not keep
another core from picking it once something has readied it in between.
-/

namespace RustyPi.Sched.Cores

open RustyPi.Reach

/-- Two different cores never have the same current task. -/
def Exclusive (cores : Cores) : Prop :=
  ∀ (core other : Nat) (task : TaskId),
    core ≠ other
    → cores.queue.currentTask core = some task
    → cores.queue.currentTask other ≠ some task

/-- No other core's current task is pickable for `core`: nothing has readied one between
its marking itself and its own core's switch.
-/
def OthersUnready (cores : Cores) (core : Nat) : Prop :=
  ∀ other < cores.queue.current.length,
    other ≠ core
    → ∀ task ∈ cores.queue.currentTask other,
        cores.queue.pickable (cores.leavingElsewhere core) task = false

instance (cores : Cores) (core : Nat) : Decidable (cores.OthersUnready core) := by
  unfold OthersUnready
  infer_instance

/-- A core searches for another task only while the other cores' tasks are not pickable. -/
def NoneReadied (cores : Cores) : Op → Prop
  | .switch core preempt =>
    (cores.queue.currentTask core).all
        (fun current => cores.queue.keepsCurrent current && !preempt) = true
    ∨ cores.OthersUnready core
  | _ => True

instance (cores : Cores) : (op : Op) → Decidable (cores.NoneReadied op)
  | .switch _ _ => inferInstanceAs (Decidable (_ ∨ _))
  | .add _ | .addIdle _ _ | .startCore _ _ | .sleepCurrent _ _ | .waitCurrent _ _ _
  | .blockCurrent _ | .finishCurrent _ | .wake _ | .interrupt _ | .notify _ | .tick _ _
  | .finishSwitch _ => .isTrue trivial

/-- Task `task` runs on `core`, or is its idle task. -/
def Holds (queue : RunQueue) (core : Nat) (task : TaskId) : Prop :=
  queue.current[core]? = some (some task) ∨ queue.idle[core]? = some (some task)

/-- No task belongs to two cores, and ids in use are below the next fresh one. -/
structure Placed (queue : RunQueue) : Prop where
  apart
    : ∀ {core other : Nat} {task : TaskId},
        core ≠ other → Holds queue core task → ¬ Holds queue other task
  known : ∀ {core : Nat} {task : TaskId}, Holds queue core task → task < queue.tasks.length

variable {queue after : RunQueue} {core : Nat} {task : TaskId} {cores : Cores} {preempt : Bool}
variable {switched : Switched} {before : RunQueue}

theorem currentTask_eq_some
    : queue.currentTask core = some task ↔ queue.current[core]? = some (some task) := by
  simp [RunQueue.currentTask, Option.join_eq_some_iff]

theorem Placed.exclusive (placed : Placed cores.queue) : cores.Exclusive := by
  intro core other task differ first second
  exact placed.apart differ (Or.inl (currentTask_eq_some.mp first))
    (Or.inl (currentTask_eq_some.mp second))

theorem coreOf_eq_none
    : queue.coreOf task = none ↔ ∀ core, queue.currentTask core ≠ some task := by
  simp only [RunQueue.coreOf, List.findIdx?_eq_none_iff, beq_eq_false_iff_ne, ne_eq,
    currentTask_eq_some, List.mem_iff_getElem?]
  constructor
  · intro nowhere core running
    exact nowhere _ ⟨core, running⟩ rfl
  · rintro nowhere slot ⟨core, found⟩ rfl
    exact nowhere core found

/-- In a placed queue, `coreOf` finds the one core that runs a task. -/
theorem Placed.coreOf_eq_some (placed : Placed queue)
    : queue.coreOf task = some core ↔ queue.currentTask core = some task := by
  have finds {found : Nat} (at_ : queue.coreOf task = some found)
      : queue.currentTask found = some task := by
    obtain ⟨inside, matched, _⟩ := List.findIdx?_eq_some_iff_getElem.mp at_
    rw [currentTask_eq_some, List.getElem?_eq_getElem inside, beq_iff_eq.mp matched]
  refine ⟨finds, fun running => ?_⟩
  cases found : queue.coreOf task with
  | none => exact absurd running (coreOf_eq_none.mp found core)
  | some other =>
    by_contra differ
    have apart : other ≠ core := fun same => differ (congrArg some same)
    exact placed.apart apart (Or.inl (currentTask_eq_some.mp (finds found)))
      (Or.inl (currentTask_eq_some.mp running))

theorem set_lookup {slots : List (Option TaskId)} {other : Nat} {new found : TaskId}
    (lookup : (slots.set core (some new))[other]? = some (some found))
    : slots[other]? = some (some found) ∨ (other = core ∧ found = new) := by
  rw [List.getElem?_set] at lookup
  split at lookup
  case isTrue same =>
    split at lookup
    · exact .inr ⟨same.symm, (Option.some.inj (Option.some.inj lookup)).symm⟩
    · cases lookup
  case isFalse => exact .inl lookup

theorem new_placed (name : String) (cores : Nat) : Placed (RunQueue.new name cores) := by
  have onlyBoot {core task} (holds : Holds (RunQueue.new name cores) core task)
      : core = 0 ∧ task = 0 := by
    rcases holds with running | idle
    · rcases set_lookup running with lookup | found
      · simp [List.getElem?_replicate] at lookup
      · exact found
    · simp [RunQueue.new, List.getElem?_replicate] at idle
  constructor
  · intro core other task differ first second
    exact differ ((onlyBoot first).1.trans (onlyBoot second).1.symm)
  · intro core task holds
    simp [RunQueue.new, (onlyBoot holds).2]

/-- What an operation other than a switch adds to the placement is at most a fresh id on
one core. Witness: the shapes of `Placement`.
-/
theorem Placement.holds {op : Op} (change : Placement before op after)
    : ∃ fresh, ∀ {core task},
        Holds after core task
        → Holds before core task
          ∨ (core = fresh ∧ task = before.tasks.length
            ∧ before.tasks.length < after.tasks.length) := by
  cases change with
  | unmoved unmoved =>
    exact ⟨0, fun holds =>
      Or.inl (by simpa only [Holds, unmoved.current, unmoved.idle] using holds)⟩
  | added current idle grown =>
    exact ⟨0, fun holds => Or.inl (by simpa only [Holds, current, idle] using holds)⟩
  | @idleAdded _ fresh _ current idle grown =>
    refine ⟨fresh, fun holds => ?_⟩
    rcases holds with running | found
    · exact .inl (Or.inl (current ▸ running))
    · exact (set_lookup (idle ▸ found)).imp Or.inr (fun ⟨at_, new⟩ => ⟨at_, new, grown⟩)
  | @started _ fresh _ _ _ current idle grown =>
    refine ⟨fresh, fun holds => ?_⟩
    rcases holds with running | found
    · exact (set_lookup (current ▸ running)).imp Or.inl
        (fun ⟨at_, new⟩ => ⟨at_, new, grown⟩)
    · exact (set_lookup (idle ▸ found)).imp Or.inr (fun ⟨at_, new⟩ => ⟨at_, new, grown⟩)

/-- Operations other than switching keep the placement, since a fresh id is held nowhere else. -/
theorem Placed.of_placement {op : Op} (placed : Placed before) (change : Placement before op after)
    : Placed after := by
  obtain ⟨fresh, origin⟩ := change.holds
  constructor
  · intro core other task differ first second
    rcases origin first with old | ⟨rfl, rfl, _⟩ <;>
      rcases origin second with held | ⟨rfl, same, _⟩
    · exact placed.apart differ old held
    · exact absurd (placed.known old) (same ▸ Nat.lt_irrefl _)
    · exact absurd (placed.known held) (Nat.lt_irrefl _)
    · exact differ rfl
  · intro core task holds
    rcases origin holds with old | ⟨_, rfl, grown⟩
    · exact Nat.lt_of_lt_of_le (placed.known old) change.grown
    · exact grown

theorem Placed.of_unmoved (placed : Placed before) (unmoved : Unmoved before after)
    : Placed after where
  apart differ first second :=
    placed.apart differ (by simpa only [Holds, unmoved.current, unmoved.idle] using first)
      (by simpa only [Holds, unmoved.current, unmoved.idle] using second)
  known holds := by
    rw [unmoved.length]
    exact placed.known (by simpa only [Holds, unmoved.current, unmoved.idle] using holds)

/-- Where the next task comes from: it stays, since it runs or there is no idle task, or it is the idle
task, or the search found it ready. Witness: the alternatives of the choice, in their order.
-/
theorem chooseNext_cases (queue : RunQueue) (core : Nat) (preempt : Bool)
    (busy : TaskId → Bool) (current : TaskId)
    : let next := queue.chooseNext core preempt busy current
      (next = current
        ∧ (queue.keepsCurrent current = true ∨ ∀ idle, queue.idle[core]? ≠ some (some idle)))
      ∨ queue.idle[core]? = some (some next)
      ∨ ((queue.keepsCurrent current && !preempt) = false
        ∧ queue.pickable busy next = true) := by
  intro next
  by_cases kept : (queue.keepsCurrent current && !preempt) = true
  · exact .inl ⟨if_pos kept, Or.inl (Bool.and_eq_true_iff.mp kept).1⟩
  · have chosen : next = _ := if_neg kept
    cases found : queue.roundRobin busy current with
    | some task =>
      have taken : next = task := by rw [chosen, found]; simp
      rw [taken]
      exact .inr (Or.inr ⟨by simpa using kept, List.find?_some found⟩)
    | none =>
      rw [found, Option.none_or] at chosen
      cases stays : queue.keepsCurrent current with
      | true => exact .inl ⟨by rw [chosen, stays]; simp, Or.inl rfl⟩
      | false =>
        cases idle : queue.idle[core]?.join with
        | none =>
          refine Or.inl ⟨by rw [chosen, stays, idle]; simp, Or.inr (fun task found => ?_)⟩
          simp [found] at idle
        | some task =>
          have taken : next = task := by rw [chosen, stays, idle]; simp
          exact .inr (Or.inl (taken ▸ Option.join_eq_some_iff.mp idle))

theorem pickNext_fields {busy : TaskId → Bool} {next : TaskId}
    (picked : queue.pickNext core preempt busy = some (after, next))
    : ∃ current,
        queue.currentTask core = some current
        ∧ next = queue.chooseNext core preempt busy current
        ∧ after.current = queue.current.set core (some next)
        ∧ after.idle = queue.idle
        ∧ after.tasks.length = queue.tasks.length := by
  simp only [RunQueue.pickNext, Option.map_eq_some_iff, Prod.mk.injEq] at picked
  obtain ⟨current, running, rfl, rfl⟩ := picked
  refine ⟨current, running, rfl, ?_⟩
  split <;> simp

theorem foldl_remove_fields (ids : List TaskId) (queue : RunQueue)
    : (ids.foldl RunQueue.remove queue).current = queue.current
      ∧ (ids.foldl RunQueue.remove queue).idle = queue.idle
      ∧ (ids.foldl RunQueue.remove queue).tasks.length = queue.tasks.length := by
  induction ids generalizing queue with
  | nil => exact ⟨rfl, rfl, rfl⟩
  | cons id rest ih => simpa using ih (queue.remove id)

/-- What a switch does to the placement: `core` gets the chosen task, nothing else moves. -/
theorem switch_fields (taken : cores.switch core preempt = some switched)
    : cores.queue.currentTask core = some switched.current
      ∧ switched.next
        = cores.queue.chooseNext core preempt (cores.leavingElsewhere core) switched.current
      ∧ switched.cores.queue.current = cores.queue.current.set core (some switched.next)
      ∧ switched.cores.queue.idle = cores.queue.idle
      ∧ switched.cores.queue.tasks.length = cores.queue.tasks.length := by
  simp only [switch, Option.bind_eq_some_iff, Option.map_eq_some_iff] at taken
  obtain ⟨current, running, ⟨picked, next⟩, chosen, rfl⟩ := taken
  obtain ⟨same, running', nextEq, current', idle, length⟩ := pickNext_fields chosen
  obtain rfl : same = current := Option.some.inj (running'.symm.trans running)
  obtain ⟨removedCurrent, removedIdle, removedLength⟩ :=
    foldl_remove_fields ({ cores with queue := picked }.reapable core same) picked
  exact ⟨running, nextEq, removedCurrent.trans current', removedIdle.trans idle,
    removedLength.trans length⟩

theorem switch_origin (taken : cores.switch core preempt = some switched)
    : (switched.next = switched.current
        ∧ (cores.queue.keepsCurrent switched.current = true
          ∨ ∀ idle, cores.queue.idle[core]? ≠ some (some idle)))
      ∨ cores.queue.idle[core]? = some (some switched.next)
      ∨ ((cores.queue.keepsCurrent switched.current && !preempt) = false
        ∧ cores.queue.pickable (cores.leavingElsewhere core) switched.next = true) := by
  rw [(switch_fields taken).2.1]
  exact chooseNext_cases ..

/-- Who runs where after a switch: the picked task on its core, the rest as before. -/
theorem switch_currentTask (taken : cores.switch core preempt = some switched) (other : Nat)
    : switched.cores.queue.currentTask other
      = if other = core then some switched.next else cores.queue.currentTask other := by
  obtain ⟨running, _, current, _⟩ := switch_fields taken
  have started : core < cores.queue.current.length :=
    (List.getElem?_eq_some_iff.mp (currentTask_eq_some.mp running)).1
  simp only [RunQueue.currentTask, current, List.getElem?_set]
  by_cases same : other = core
  · simp [same, started]
  · simp [same, Ne.symm same]

section Placed

variable (placed : Placed cores.queue)
include placed

/-- The task a switch picks is held by no other core when nothing readied another core's
current task. Witness: it stays, or is the core's own idle task, or was found by a search
that the condition keeps off the other cores.
-/
theorem Placed.next_alone {other : Nat} (condition : NoneReadied cores (.switch core preempt))
    (taken : cores.switch core preempt = some switched) (differ : other ≠ core)
    : ¬ Holds cores.queue other switched.next := by
  have running := (switch_fields taken).1
  rcases switch_origin taken with ⟨stays, _⟩ | idle | ⟨searched, ready⟩
  · exact placed.apart differ.symm (Or.inl (stays ▸ currentTask_eq_some.mp running))
  · exact placed.apart differ.symm (Or.inr idle)
  · rintro (held | idle)
    · rcases condition with kept | unready
      · simp [running, searched] at kept
      · have skipped := unready other (List.getElem?_eq_some_iff.mp held).1 differ _
          (currentTask_eq_some.mpr held)
        simp [skipped] at ready
    · simp only [RunQueue.pickable, RunQueue.isIdle, Bool.and_eq_true, Bool.not_eq_true',
        List.contains_eq_mem, decide_eq_false_iff_not] at ready
      exact ready.1.2 (List.mem_of_getElem? idle)

theorem Placed.next_known (taken : cores.switch core preempt = some switched)
    : switched.next < cores.queue.tasks.length := by
  rcases switch_origin taken with ⟨stays, _⟩ | idle | ⟨_, ready⟩
  · exact stays ▸ placed.known (Or.inl (currentTask_eq_some.mp (switch_fields taken).1))
  · exact placed.known (Or.inr idle)
  · simp only [RunQueue.pickable, Bool.and_eq_true, beq_iff_eq, RunQueue.state,
      RunQueue.entry, Option.map_eq_some_iff, Option.join_eq_some_iff] at ready
    obtain ⟨_, found, _⟩ := ready.1.1
    exact (List.getElem?_eq_some_iff.mp found).1

/-- A switch keeps the placement when nothing readied another core's current task. -/
theorem Placed.switch (condition : NoneReadied cores (.switch core preempt))
    (taken : cores.switch core preempt = some switched)
    : Placed switched.cores.queue := by
  obtain ⟨running, chosen, current', idle', length'⟩ := switch_fields taken
  have alone {other} (differ : other ≠ core) := placed.next_alone condition taken differ
  have origin {other task} (holds : Holds switched.cores.queue other task)
      : Holds cores.queue other task ∨ (other = core ∧ task = switched.next) := by
    rcases holds with running | idle
    · exact (set_lookup (current' ▸ running)).imp_left Or.inl
    · exact .inl (Or.inr (idle' ▸ idle))
  constructor
  · intro first second task differ held again
    rcases origin held with old | ⟨rfl, rfl⟩ <;>
      rcases origin again with earlier | ⟨rfl, same⟩
    · exact placed.apart differ old earlier
    · exact alone differ (same ▸ old)
    · exact alone differ.symm earlier
    · exact differ rfl
  · intro other task holds
    rw [length']
    rcases origin holds with old | ⟨_, rfl⟩
    · exact placed.known old
    · exact placed.next_known taken

theorem Placed.step {after : Cores} {op : Op}
    (condition : NoneReadied cores op) (taken : cores.step op = some after)
    : Placed after.queue := by
  rcases step_cases taken with
    ⟨core, preempt, switched, rfl, found, rfl⟩ | ⟨core, rfl, rfl⟩ | ⟨queue, moved, rfl⟩
  · exact placed.switch condition found
  · exact placed
  · exact placed.of_placement (queueStep_stepped moved).placement

end Placed

/-- In every run from a fresh queue in which no switch searches while another core's current
task has been readied, no two cores ever run the same task. Witness: the placement is an
invariant of the allowed steps.
-/
theorem exclusive_of_noneReadied (name : String) (count : Nat) {cores : Cores}
    (run : Reaches step NoneReadied (new name count) cores)
    : cores.Exclusive := by
  have placed : Placed cores.queue :=
    run.invariant (I := fun cores => Placed cores.queue) (new_placed name count)
      (fun _ _ _ placed condition taken => placed.step condition taken)
  exact placed.exclusive

/-- Two cores start and core 1 takes the task added for it. -/
theorem exclusive_of_noneReadied_twoCores
    : ∃ cores,
        runAll step NoneReadied (new "shell" 2)
            [.addIdle "idle0" 0, .startCore "idle1" 1, .add "link", .switch 1 false]
          = some cores
        ∧ cores.queue.current = [some 0, some 3]
        ∧ cores.Exclusive := by
  have executed : runAll step NoneReadied (new "shell" 2)
      [.addIdle "idle0" 0, .startCore "idle1" 1, .add "link", .switch 1 false] = some _ := rfl
  exact ⟨_, executed, rfl, exclusive_of_noneReadied "shell" 2 (.runAll .start executed)⟩

/-- Task 0 goes to sleep on core 0; before core 0 switches, core 1's tick readies it and
core 1 picks it, since no core is leaving it yet.
-/
theorem exclusive_fails_readied_before_switch
    : ∃ cores,
        Reaches step anyEvent (new "shell" 2) cores
        ∧ ¬ cores.Exclusive := by
  have executed : runAll step anyEvent (new "shell" 2)
      [.addIdle "idle0" 0, .startCore "idle1" 1, .sleepCurrent 0 10, .tick 1 10,
        .switch 1 true] = some _ := rfl
  refine ⟨_, .runAll .start executed, ?_⟩
  intro exclusive
  exact exclusive 0 1 0 (by decide) rfl rfl

end RustyPi.Sched.Cores
