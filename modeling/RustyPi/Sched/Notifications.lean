import RustyPi.Sched.Exclusive

/-! Wake-ups are not lost. The run queue is watched together with everything done to it: when
each generation was read, which read each waiting task passed to `wait_current`, and when a task
in `wait_until` last looked at its condition.
-/

namespace RustyPi.Sched

open Function RustyPi.Reach

----------
-- Calls on the run queue
----------

inductive Call
  | op (op : Cores.Op)
  | pickNext (core : Nat) (preempt : Bool) (busy : List TaskId)
  | remove (id : TaskId)
  deriving DecidableEq, Repr

namespace Call

def apply (queue : RunQueue) : Call → Option RunQueue
  | .op step => Cores.queueStep queue step
  | .pickNext core preempt busy => (queue.pickNext core preempt busy.contains).map Prod.fst
  | .remove id => some (queue.remove id)

def isWait : Call → Bool
  | .op (.waitCurrent _ _ _) => true
  | _ => false

/-- What a call does to a task that is there before and after it. -/
inductive Moves (queue : RunQueue) (id : TaskId) : Call → Standing → Standing → Prop
  | op {step standing new} (effect : Cores.Effect queue id standing step new)
    : Moves queue id (.op step) standing new
  | other {call} (standing : Standing) (state : State) (elsewhere : ∀ step, call ≠ .op step)
    (kept : state = standing.state ∨ state = .running ∨ state = .ready)
    : Moves queue id call standing { standing with state }

theorem moves_picked (queue : RunQueue) (id : TaskId) {core : Nat} {preempt : Bool}
    {busy : List TaskId} (current next : TaskId) (standing : Standing)
    : Moves queue id (.pickNext core preempt busy) standing
        (Cores.picked current next id standing) := by
  unfold Cores.picked
  split_ifs
  · exact .other standing .running nofun (by simp)
  · exact .other standing .ready nofun (by simp)
  · exact .other standing standing.state nofun (by simp)

variable {before after queue : RunQueue} {id : TaskId} {new old : Standing} {call : Call}

/-- A task that is there after a call is a fresh one, or it was there before. -/
theorem apply_standing (taken : call.apply before = some after)
    (there : after.standing id = some new)
    : (id = before.tasks.length ∧ (new = .fresh .ready ∨ new = .fresh .running))
      ∨ ∃ old, before.standing id = some old ∧ Moves before id call old new := by
  cases call with
  | op step =>
    refine (Cores.queueStep_standing_cases taken there).imp_right ?_
    rintro ⟨old, found, effect⟩
    exact ⟨old, found, .op effect⟩
  | pickNext core preempt busy =>
    obtain ⟨⟨picked, next⟩, chosen, rfl⟩ := Option.map_eq_some_iff.mp taken
    obtain ⟨current, running, _⟩ := Cores.pickNext_fields chosen
    rw [Cores.pickNext_standing chosen running] at there
    obtain ⟨old, found, rfl⟩ := Option.map_eq_some_iff.mp there
    exact .inr ⟨old, found, moves_picked ..⟩
  | remove other =>
    cases taken
    rw [RunQueue.standing_remove] at there
    split at there
    · cases there
    · exact .inr ⟨new, there, .other new new.state nofun (Or.inl rfl)⟩

theorem apply_generation (taken : call.apply before = some after) (event : Event)
    : after.generation event
      = if call = .op (.notify event) then before.generation event + 1
        else before.generation event := by
  cases call with
  | op step =>
    rw [(Cores.queueStep_stepped taken).generation]
    exact if_congr (by simp) rfl rfl
  | pickNext core preempt busy =>
    obtain ⟨⟨picked, next⟩, chosen, rfl⟩ := Option.map_eq_some_iff.mp taken
    rw [if_neg (by simp)]
    exact Cores.pickNext_generation chosen event
  | remove other =>
    cases taken
    rw [if_neg (by simp)]
    rfl

theorem apply_length (taken : call.apply before = some after)
    : before.tasks.length ≤ after.tasks.length := by
  cases call with
  | op step => exact (Cores.queueStep_stepped taken).placement.grown
  | pickNext core preempt busy =>
    obtain ⟨⟨picked, next⟩, chosen, rfl⟩ := Option.map_eq_some_iff.mp taken
    obtain ⟨_, _, _, _, _, same⟩ := Cores.pickNext_fields chosen
    exact Nat.le_of_eq same.symm
  | remove other =>
    cases taken
    simp

variable {event : Event}

/-- A task waits after a call if it did before, unless the call is its own `wait_current` that saw
no notification. A notification of the event leaves nobody waiting for it.
-/
theorem Moves.waiting (moves : Moves queue id call old new)
    (waits : new.state = .waiting event)
    : call ≠ .op (.notify event)
      ∧ (old.state = .waiting event
        ∨ ∃ core seen,
            call = .op (.waitCurrent core event seen)
            ∧ queue.currentTask core = some id
            ∧ queue.generation event = seen
            ∧ old.interruptPending = false) := by
  cases moves with
  | op effect =>
    cases effect with
    | kept deaf =>
      refine ⟨?_, Or.inl waits⟩
      rintro ⟨⟩
      exact deaf event rfl waits
    | waited runs calm unmoved =>
      obtain rfl := State.waiting.inj waits
      exact ⟨nofun, Or.inr ⟨_, _, rfl, runs, unmoved, calm⟩⟩
    | unslept | unwaited | unblocked | wakeKept | interruptKept => exact ⟨nofun, Or.inl waits⟩
    | slept | blocked | finished | woken | roused | notified | due => cases waits
  | other standing state elsewhere kept =>
    refine ⟨elsewhere _, Or.inl ?_⟩
    rcases kept with rfl | rfl | rfl
    · exact waits
    · cases waits
    · cases waits

/-- The call neither marks nor removes the task. -/
def Spares (queue : RunQueue) (id : TaskId) : Call → Prop
  | .op step => step.Spares queue id
  | .remove other => other ≠ id
  | .pickNext _ _ _ => True

theorem apply_standing_of (taken : call.apply before = some after)
    (spares : call.Spares before id) (there : before.standing id = some old)
    : ∃ new, after.standing id = some new ∧ Moves before id call old new := by
  cases call with
  | op step =>
    obtain ⟨new, found, effect⟩ := Cores.queueStep_standing_of taken there
    exact ⟨new, found, .op effect⟩
  | pickNext core preempt busy =>
    obtain ⟨⟨picked, next⟩, chosen, rfl⟩ := Option.map_eq_some_iff.mp taken
    obtain ⟨current, running, _⟩ := Cores.pickNext_fields chosen
    exact ⟨_, by rw [Cores.pickNext_standing chosen running, there]; rfl, moves_picked ..⟩
  | remove other =>
    cases taken
    exact ⟨old, by rw [RunQueue.standing_remove, if_neg (Ne.symm spares), there],
      .other old old.state nofun (Or.inl rfl)⟩

/-- A running or ready task stays so if it is spared. -/
theorem Moves.runnable (moves : Moves queue id call old new)
    (spares : call.Spares queue id) (runnable : old.state = .running ∨ old.state = .ready)
    : new.state = .running ∨ new.state = .ready := by
  cases moves with
  | op effect => exact (effect.runnable spares runnable).symm ▸ runnable
  | other _ _ _ kept =>
    rcases kept with rfl | rfl | rfl
    · exact runnable
    · exact .inl rfl
    · exact .inr rfl

/-- A waiting task goes on waiting or is runnable, if it is spared. -/
theorem Moves.stays (moves : Moves queue id call old new)
    (spares : call.Spares queue id) (waits : old.state = .waiting event)
    : new.state = .waiting event ∨ new.state = .running ∨ new.state = .ready := by
  cases moves with
  | op effect =>
    cases effect with
    | kept | unslept | unwaited | unblocked | wakeKept | interruptKept => exact .inl waits
    | slept runs | waited runs | blocked runs | finished runs => exact absurd runs (spares _ rfl)
    | woken | roused | notified | due => exact .inr (Or.inr rfl)
  | other _ _ _ kept =>
    rcases kept with rfl | rfl | rfl
    · exact .inl waits
    · exact .inr (Or.inl rfl)
    · exact .inr (Or.inr rfl)

def Blocks (id : TaskId) (found : RunQueue × Call) : Prop :=
  ∃ core, found.2 = .op (.blockCurrent core) ∧ found.1.currentTask core = some id

/-- The call is a `sleep_current` or `wait_current` of task `id`. -/
def Rests (id : TaskId) (found : RunQueue × Call) : Prop :=
  ∃ core, found.1.currentTask core = some id
    ∧ ((∃ untilUs, found.2 = .op (.sleepCurrent core untilUs))
      ∨ ∃ event seen, found.2 = .op (.waitCurrent core event seen))

/-- A wake-up kept for a task stays until the task blocks. -/
theorem Moves.wakePending (moves : Moves queue id call old new)
    (stays : ¬ Blocks id (queue, call)) (pending : old.wakePending = true)
    : new.wakePending = true := by
  cases moves with
  | op effect =>
    cases effect with
    | blocked runs | unblocked runs => exact absurd ⟨_, rfl, runs⟩ stays
    | wakeKept => rfl
    | _ => exact pending
  | other => exact pending

/-- An interrupt kept for a task stays until the task sleeps or waits. -/
theorem Moves.interruptPending (moves : Moves queue id call old new)
    (stays : ¬ Rests id (queue, call)) (pending : old.interruptPending = true)
    : new.interruptPending = true := by
  cases moves with
  | op effect =>
    cases effect with
    | slept runs | unslept runs => exact absurd ⟨_, runs, Or.inl ⟨_, rfl⟩⟩ stays
    | waited runs | unwaited runs => exact absurd ⟨_, runs, Or.inr ⟨_, _, rfl⟩⟩ stays
    | interruptKept => rfl
    | _ => exact pending
  | other => exact pending

end Call

----------
-- Watching a run
----------

/-- A read of an event's generation, after `moment` calls. -/
structure Read where
  event : Event
  seen : Generation
  moment : Nat
  deriving DecidableEq, Repr

/-- How far a task is in `wait_until`: it reads the generation, finds its condition false at some
moment, and calls `wait_current` with what it read.
-/
inductive Loop
  | outside
  | read (read : Read)
  | looked (read : Read) (moment : Nat)
  | waited (read : Read) (moment : Nat)
  deriving DecidableEq, Repr

/-- The run queue, and what happened to it. -/
structure Watched where
  queue : RunQueue
  /-- Every call so far, with the queue it found. -/
  history : List (RunQueue × Call)
  reads : List Read
  /-- What a task passed to the `wait_current` that last made it wait. -/
  passed : TaskId → Option Read
  loop : TaskId → Loop

namespace Watched

def start (name : String) (count : Nat) : Watched :=
  {
    queue := .new name count
    history := []
    reads := []
    passed := fun _ => none
    loop := fun _ => .outside
  }

def record (watched : Watched) (call : Call) : Option Watched :=
  (call.apply watched.queue).map (fun queue =>
    { watched with queue, history := watched.history ++ [(watched.queue, call)] })

def readNow (watched : Watched) (event : Event) : Read :=
  { event, seen := watched.queue.generation event, moment := watched.history.length }

/-- Whether `wait_current` with `read` would make `task` wait. -/
def takes (watched : Watched) (task : TaskId) (read : Read) : Bool :=
  (watched.queue.standing task).any (fun standing => !standing.interruptPending)
    && watched.queue.generation read.event == read.seen

/-- `wait_current` by `task`, running on `core`, with what it read. -/
def waits (watched : Watched) (core : Nat) (task : TaskId) (read : Read) : Option Watched :=
  (watched.record (.op (.waitCurrent core read.event read.seen))).map (fun after =>
    if watched.takes task read then
      { after with passed := update after.passed task (some read) }
    else after)

/-- One call on the run queue, or one step of a task that waits. -/
inductive Step
  | call (call : Call)
  | read (event : Event)
  /-- `wait_current` outside `wait_until`, with any generation read before. -/
  | wait (core index : Nat)
  | loopRead (core : Nat) (event : Event)
  /-- The task looks at its condition. -/
  | loopLook (core : Nat) (ready : Bool)
  | loopWait (core : Nat)

def setLoop (watched : Watched) (task : TaskId) (loop : Loop) : Watched :=
  { watched with loop := update watched.loop task loop }

def step (watched : Watched) : Step → Option Watched
  | .call call => if call.isWait then none else watched.record call
  | .read event => some { watched with reads := watched.reads ++ [watched.readNow event] }
  | .wait core index =>
    (watched.queue.currentTask core).bind (fun task =>
      watched.reads[index]?.bind (fun read =>
        if watched.loop task = .outside then watched.waits core task read else none))
  | .loopRead core event =>
    (watched.queue.currentTask core).bind (fun task =>
      let read := watched.readNow event
      let reading := { watched with reads := watched.reads ++ [read] }.setLoop task (.read read)
      match watched.loop task with
      | .outside | .waited _ _ => some reading
      | .read _ | .looked _ _ => none)
  | .loopLook core ready =>
    (watched.queue.currentTask core).bind (fun task =>
      match watched.loop task with
      | .read read =>
        some (watched.setLoop task
          (if ready then .outside else .looked read watched.history.length))
      | _ => none)
  | .loopWait core =>
    (watched.queue.currentTask core).bind (fun task =>
      match watched.loop task with
      | .looked read moment =>
        (watched.waits core task read).map (fun after =>
          after.setLoop task (.waited read moment))
      | _ => none)

/-- `event` was notified after `moment` calls had been made. -/
def NotifiedSince (watched : Watched) (event : Event) (moment : Nat) : Prop :=
  ∃ found ∈ watched.history.drop moment, found.2 = .op (.notify event)

/-- A `wake` came for `task` when it was neither blocked nor finished, and it hasn't called
`block_current` since.
-/
def WakeKept (watched : Watched) (task : TaskId) : Prop :=
  ∃ earlier queue later state,
    watched.history = earlier ++ (queue, .op (.wake task)) :: later
    ∧ queue.state task = some state ∧ state ≠ .blocked ∧ state ≠ .finished
    ∧ ∀ found ∈ later, ¬ Call.Blocks task found

/-- An `interrupt` came for `task` when it was running or ready, and it hasn't called
`sleep_current` or `wait_current` since.
-/
def InterruptKept (watched : Watched) (task : TaskId) : Prop :=
  ∃ earlier queue later,
    watched.history = earlier ++ (queue, .op (.interrupt task)) :: later
    ∧ (queue.state task = some .running ∨ queue.state task = some .ready)
    ∧ ∀ found ∈ later, ¬ Call.Rests task found

structure NoneLost (watched : Watched) : Prop where
  /-- Whoever waits has missed no notification since it read the generation it passed. -/
  waiting
    : ∀ task event,
        watched.queue.state task = some (.waiting event)
        → ∃ read ∈ watched.reads,
            watched.passed task = some read
            ∧ read.event = event
            ∧ ¬ watched.NotifiedSince event read.moment
  /-- In `wait_until`, none since it last looked at its condition. -/
  looping
    : ∀ task event,
        watched.queue.state task = some (.waiting event)
        → ∀ read moment,
            watched.loop task = .waited read moment
            → ¬ watched.NotifiedSince event moment
  /-- A notification since the read keeps `wait_current` from making the task wait. -/
  notified
    : ∀ core task read after,
        watched.queue.currentTask core = some task
        → read ∈ watched.reads
        → watched.NotifiedSince read.event read.moment
        → watched.queue.waitCurrent core read.event read.seen = some after
        → after.state task = watched.queue.state task
  /-- A wake-up that came before keeps `block_current` from blocking the task. -/
  woken
    : ∀ core task after,
        watched.queue.currentTask core = some task
        → watched.WakeKept task
        → watched.queue.blockCurrent core = some after
        → after.state task = watched.queue.state task
  /-- An interrupt that came before keeps the next sleep or wait from happening. -/
  interrupted
    : ∀ core task after,
        watched.queue.currentTask core = some task
        → watched.InterruptKept task
        → ((∃ untilUs, watched.queue.sleepCurrent core untilUs = some after)
          ∨ ∃ event seen, watched.queue.waitCurrent core event seen = some after)
        → after.state task = watched.queue.state task

----------
-- What calls keep
----------

def notifies (event : Event) (found : RunQueue × Call) : Bool :=
  found.2 == .op (.notify event)

theorem notifiedSince_iff (watched : Watched) (event : Event) (moment : Nat)
    : watched.NotifiedSince event moment
      ↔ 0 < (watched.history.drop moment).countP (notifies event) := by
  simp [NotifiedSince, List.countP_pos_iff, notifies]

/-- What the history says of the queue and of the reads. -/
structure Recorded (watched : Watched) : Prop where
  counted
    : ∀ event, watched.queue.generation event = watched.history.countP (notifies event)
  read
    : ∀ read ∈ watched.reads,
        read.moment ≤ watched.history.length
        ∧ read.seen = (watched.history.take read.moment).countP (notifies read.event)
  lengths
    : ∀ found ∈ watched.history, found.1.tasks.length ≤ watched.queue.tasks.length
  woken
    : ∀ task standing,
        watched.WakeKept task
        → watched.queue.standing task = some standing
        → standing.wakePending = true
  interrupted
    : ∀ task standing,
        watched.InterruptKept task
        → watched.queue.standing task = some standing
        → standing.interruptPending = true

variable {watched after : Watched} {read : Read} {task : TaskId} {loop : Loop} {call : Call}

/-- A read whose generation hasn't moved has missed nothing, by counting. -/
theorem Recorded.unnotified (recorded : Recorded watched) (member : read ∈ watched.reads)
    (unmoved : watched.queue.generation read.event = read.seen)
    : ¬ watched.NotifiedSince read.event read.moment := by
  have split : watched.history.countP (notifies read.event)
      = (watched.history.take read.moment).countP (notifies read.event)
        + (watched.history.drop read.moment).countP (notifies read.event) := by
    rw [← List.countP_append, List.take_append_drop]
  have total : watched.history.countP (notifies read.event)
      = (watched.history.take read.moment).countP (notifies read.event) :=
    (recorded.counted read.event).symm.trans (unmoved.trans (recorded.read read member).2)
  rw [notifiedSince_iff]
  omega

/-- The two ways a call at the end of a history can be split off. -/
theorem history_cases {earlier later history : List (RunQueue × Call)}
    {found last : RunQueue × Call} (same : history ++ [last] = earlier ++ found :: later)
    : (later = [] ∧ found = last)
      ∨ found ∈ history
        ∧ ∃ rest, later = rest ++ [last] ∧ history = earlier ++ found :: rest := by
  rcases List.eq_nil_or_concat later with rfl | ⟨rest, final, rfl⟩
  · have ends := List.append_inj' same rfl
    exact .inl ⟨rfl, (List.cons.inj ends.2).1.symm⟩
  · rw [List.concat_eq_append, ← List.cons_append, ← List.append_assoc] at same
    have ends := List.append_inj' same rfl
    obtain rfl := (List.cons.inj ends.2).1
    exact .inr ⟨ends.1 ▸ List.mem_append_cons_self, rest, List.concat_eq_append, ends.1⟩

/-- A task that was there when a call was made has an id that is not given out again. -/
theorem Recorded.not_fresh (recorded : Recorded watched) {found : RunQueue × Call}
    (member : found ∈ watched.history) {state : State} (there : found.1.state task = some state)
    : task ≠ watched.queue.tasks.length := by
  have inside : task < found.1.tasks.length := by
    simp only [RunQueue.state, RunQueue.entry, Option.map_eq_some_iff, Option.join_eq_some_iff]
      at there
    obtain ⟨_, at_, _⟩ := there
    exact (List.getElem?_eq_some_iff.mp at_).1
  exact Nat.ne_of_lt (Nat.lt_of_lt_of_le inside (recorded.lengths found member))

theorem Recorded.record (recorded : Recorded watched)
    (taken : watched.record call = some after)
    : Recorded after := by
  obtain ⟨queue, applied, rfl⟩ := Option.map_eq_some_iff.mp taken
  have grown := Call.apply_length applied
  refine ⟨fun event => ?_, fun read member => ?_, fun found member => ?_,
    fun task standing kept there => ?_, fun task standing kept there => ?_⟩
  · simp only [Call.apply_generation applied, recorded.counted, List.countP_append,
      List.countP_singleton, notifies, beq_iff_eq]
    split <;> rfl
  · obtain ⟨inside, seen⟩ := recorded.read read member
    refine ⟨?_, ?_⟩
    · simp only [List.length_append]
      omega
    · simp only [List.take_append_of_le_length inside]
      exact seen
  · rcases List.mem_append.mp member with older | last
    · exact Nat.le_trans (recorded.lengths found older) grown
    · rw [List.mem_singleton.mp last]
      exact grown
  · obtain ⟨earlier, found, later, state, same, at_, notBlocked, notFinished, unblocked⟩ := kept
    rcases history_cases same with ⟨rfl, last⟩ | ⟨member, rest, rfl, before⟩
    · -- the wake itself keeps a wake-up
      obtain ⟨rfl, rfl⟩ := Prod.mk.inj last
      rw [RunQueue.state_eq_standing, Option.map_eq_some_iff] at at_
      obtain ⟨old, here, rfl⟩ := at_
      obtain rfl := Option.some.inj applied
      rw [(Cores.wake_touched watched.queue task).standing_only, if_pos rfl, here] at there
      cases there
      exact Standing.wake_pending notBlocked notFinished
    · rcases Call.apply_standing applied there with ⟨fresh, _⟩ | ⟨old, here, moves⟩
      · exact absurd fresh (recorded.not_fresh member at_)
      · refine moves.wakePending (unblocked _ (by simp)) (recorded.woken task old ?_ here)
        exact ⟨earlier, found, rest, state, before, at_, notBlocked, notFinished,
          fun other member => unblocked other (List.mem_append_left _ member)⟩
  · obtain ⟨earlier, found, later, same, at_, undisturbed⟩ := kept
    rcases history_cases same with ⟨rfl, last⟩ | ⟨member, rest, rfl, before⟩
    · obtain ⟨rfl, rfl⟩ := Prod.mk.inj last
      have runnable : ∃ old, watched.queue.standing task = some old
          ∧ (old.state = .running ∨ old.state = .ready) := by
        simp only [RunQueue.state_eq_standing, Option.map_eq_some_iff] at at_
        rcases at_ with ⟨old, here, state⟩ | ⟨old, here, state⟩
        · exact ⟨old, here, Or.inl state⟩
        · exact ⟨old, here, Or.inr state⟩
      obtain ⟨old, here, state⟩ := runnable
      obtain rfl := Option.some.inj applied
      rw [(Cores.interrupt_touched watched.queue task).standing_only, if_pos rfl, here] at there
      cases there
      exact Standing.interrupt_pending state
    · rcases Call.apply_standing applied there with ⟨fresh, _⟩ | ⟨old, here, moves⟩
      · rcases at_ with at_ | at_ <;> exact absurd fresh (recorded.not_fresh member at_)
      · refine moves.interruptPending (undisturbed _ (by simp))
          (recorded.interrupted task old ?_ here)
        exact ⟨earlier, found, rest, before, at_,
          fun other member => undisturbed other (List.mem_append_left _ member)⟩

/-- A longer list of reads and other loops change nothing about the queue and its history. -/
theorem Recorded.rereads (recorded : Recorded watched) (event : Event) (loop : TaskId → Loop)
    : Recorded { watched with reads := watched.reads ++ [watched.readNow event], loop } where
  counted := recorded.counted
  read read member := by
    rcases List.mem_append.mp member with older | last
    · exact recorded.read read older
    · rw [List.mem_singleton.mp last]
      refine ⟨Nat.le_refl _, ?_⟩
      simp only [readNow, List.take_length]
      exact recorded.counted event
  lengths := recorded.lengths
  woken := recorded.woken
  interrupted := recorded.interrupted

----------
-- What waiting keeps
----------

/-- What `wait_until` has done of its current turn: the read came before the look, and so did
whatever the task last waited with.
-/
def LoopKept (watched : Watched) (task : TaskId) : Loop → Prop
  | .outside => True
  | .read read => read ∈ watched.reads
  | .looked read moment | .waited read moment =>
    read ∈ watched.reads
    ∧ read.moment ≤ moment
    ∧ moment ≤ watched.history.length
    ∧ ∀ passed ∈ watched.passed task, passed.moment ≤ moment

structure Kept (watched : Watched) : Prop extends Recorded watched where
  passed : ∀ task, ∀ read ∈ watched.passed task, read ∈ watched.reads
  waiting
    : ∀ task event,
        watched.queue.state task = some (.waiting event)
        → ∃ read ∈ watched.passed task,
            read.event = event ∧ ¬ watched.NotifiedSince event read.moment
  loops : ∀ task, watched.LoopKept task (watched.loop task)

theorem start_kept (name : String) (count : Nat) : Kept (start name count) where
  counted _ := rfl
  read _ member := by cases member
  lengths _ member := by cases member
  woken _ _ kept := by
    obtain ⟨earlier, _, _, _, same, _⟩ := kept
    cases earlier <;> cases same
  interrupted _ _ kept := by
    obtain ⟨earlier, _, _, same, _⟩ := kept
    cases earlier <;> cases same
  passed _ _ member := by cases member
  waiting task event waits := by
    simp only [start, RunQueue.new, RunQueue.state, RunQueue.entry] at waits
    rcases task with _ | task <;> simp at waits
  loops _ := trivial

/-- A call that isn't a notification of the event notifies nothing of it. -/
theorem notifiedSince_record {moment : Nat} (taken : watched.record call = some after)
    (other : call ≠ .op (.notify event)) (since : after.NotifiedSince event moment)
    : watched.NotifiedSince event moment := by
  obtain ⟨queue, _, rfl⟩ := Option.map_eq_some_iff.mp taken
  obtain ⟨found, member, same⟩ := since
  refine ⟨found, ?_, same⟩
  rw [List.drop_append, List.mem_append] at member
  rcases member with older | last
  · exact older
  · have last := List.mem_singleton.mp (List.mem_of_mem_drop last)
    subst last
    exact absurd same other

/-- Whoever waits after a call waited before it and has missed nothing, or made the call. -/
theorem Kept.waiting_record (kept : Kept watched) (taken : watched.record call = some after)
    (waits : after.queue.state task = some (.waiting event))
    : (∃ read ∈ watched.passed task,
        read.event = event ∧ ¬ after.NotifiedSince event read.moment)
      ∨ ∃ core seen,
          call = .op (.waitCurrent core event seen)
          ∧ watched.queue.currentTask core = some task
          ∧ watched.queue.generation event = seen
          ∧ (watched.queue.standing task).any (fun standing => !standing.interruptPending) = true := by
  have silent {moment : Nat} (other : call ≠ .op (.notify event)) :=
    @notifiedSince_record _ _ _ _ moment taken other
  obtain ⟨queue, applied, rfl⟩ := Option.map_eq_some_iff.mp taken
  rw [RunQueue.state_eq_standing, Option.map_eq_some_iff] at waits
  obtain ⟨new, there, state⟩ := waits
  rcases Call.apply_standing applied there with ⟨_, rfl | rfl⟩ | ⟨old, here, moves⟩
  · cases state
  · cases state
  · obtain ⟨other, before | ⟨core, seen, rfl, running, unmoved, pending⟩⟩ := moves.waiting state
    · obtain ⟨read, found, same, quiet⟩ := kept.waiting task event (by
        rw [RunQueue.state_eq_standing, here, Option.map_some, before])
      exact .inl ⟨read, found, same, fun since => quiet (silent other since)⟩
    · exact .inr ⟨core, seen, rfl, running, unmoved, by simp [here, pending]⟩

theorem record_fields (taken : watched.record call = some after)
    : after.passed = watched.passed ∧ after.reads = watched.reads ∧ after.loop = watched.loop := by
  obtain ⟨queue, _, rfl⟩ := Option.map_eq_some_iff.mp taken
  exact ⟨rfl, rfl, rfl⟩

theorem LoopKept.record (kept : watched.LoopKept task loop)
    (taken : watched.record call = some after)
    : after.LoopKept task loop := by
  obtain ⟨queue, _, rfl⟩ := Option.map_eq_some_iff.mp taken
  cases loop <;> grind [LoopKept]

theorem Kept.called (kept : Kept watched) (plain : call.isWait = false)
    (taken : watched.record call = some after)
    : Kept after := by
  obtain ⟨passed, reads, loop⟩ := record_fields taken
  refine ⟨kept.toRecorded.record taken, ?_, ?_, ?_⟩
  · rw [passed, reads]
    exact kept.passed
  · intro task event waits
    rcases kept.waiting_record taken waits with before | ⟨core, seen, rfl, _⟩
    · rwa [passed]
    · cases plain
  · intro task
    rw [loop]
    exact (kept.loops task).record taken

/-- A `wait_current` that takes effect makes its task wait for the event it read. -/
theorem state_of_takes {core : Nat} (running : watched.queue.currentTask core = some task)
    (taken : watched.record (.op (.waitCurrent core read.event read.seen)) = some after)
    (takes : watched.takes task read = true)
    : after.queue.state task = some (.waiting read.event)
      ∧ watched.queue.generation read.event = read.seen := by
  obtain ⟨queue, applied, rfl⟩ := Option.map_eq_some_iff.mp taken
  simp only [Watched.takes, Bool.and_eq_true, beq_iff_eq] at takes
  obtain ⟨uninterrupted, unmoved⟩ := takes
  refine ⟨?_, unmoved⟩
  rw [RunQueue.state_eq_standing, (Cores.waitCurrent_touched applied).standing,
    Cores.onCurrent_self running]
  cases here : watched.queue.standing task with
  | none => simp [here] at uninterrupted
  | some standing =>
    rw [here, Option.any_some] at uninterrupted
    simp [Standing.wait, uninterrupted, unmoved]

/-- What a task passes leaves its loop in order if it is no later than the loop's look, and the
other tasks' loops alone.
-/
theorem LoopKept.passes {caller : TaskId} (kept : watched.LoopKept task loop)
    (ordered
      : task = caller
        → ∀ earlier moment,
            loop = .looked earlier moment ∨ loop = .waited earlier moment
            → read.moment ≤ moment)
    : { watched with
        passed := update watched.passed caller (some read) }.LoopKept task loop := by
  cases loop <;> grind [LoopKept, update_apply]

/-- `wait_current` keeps what is known of waiting tasks: the caller waits only if the generation
it read hasn't moved.
-/
theorem Kept.waits {core : Nat} (kept : Kept watched)
    (running : watched.queue.currentTask core = some task) (member : read ∈ watched.reads)
    (ordered
      : ∀ earlier moment,
          watched.loop task = .looked earlier moment ∨ watched.loop task = .waited earlier moment
          → read.moment ≤ moment) (taken : watched.waits core task read = some after)
    : Kept after ∧ after.loop = watched.loop := by
  obtain ⟨mid, called, rfl⟩ := Option.map_eq_some_iff.mp taken
  have recorded := kept.toRecorded.record called
  obtain ⟨passed, reads, loop⟩ := record_fields called
  have plain (other : TaskId) (event : Event) (elsewhere : ¬ (other = task
      ∧ watched.takes task read = true))
      (waits : mid.queue.state other = some (.waiting event))
      : ∃ read ∈ watched.passed other,
          read.event = event ∧ ¬ mid.NotifiedSince event read.moment := by
    rcases kept.waiting_record called waits with
      before | ⟨_, _, call, runs, unmoved, uninterrupted⟩
    · exact before
    · simp only [Call.op.injEq, Cores.Op.waitCurrent.injEq] at call
      obtain ⟨rfl, rfl, rfl⟩ := call
      cases runs.symm.trans running
      exact absurd ⟨rfl, by simp [Watched.takes, unmoved, uninterrupted]⟩ elsewhere
  split
  · rename_i takes
    refine ⟨⟨⟨recorded.counted, recorded.read, recorded.lengths, recorded.woken,
      recorded.interrupted⟩, ?_, ?_, ?_⟩, loop⟩
    · intro other found at_
      simp only [update_apply, passed, reads] at at_ ⊢
      split at at_
      · cases at_
        exact member
      · exact kept.passed other found at_
    · intro other event waits
      by_cases caller : other = task
      · subst caller
        obtain ⟨state, unmoved⟩ := state_of_takes running called takes
        obtain rfl : read.event = event := State.waiting.inj
          (Option.some.inj (state.symm.trans waits))
        refine ⟨read, by simp, rfl, fun since => ?_⟩
        exact kept.toRecorded.unnotified member unmoved
          (notifiedSince_record called (by simp) since)
      · obtain ⟨found, at_, rest⟩ := plain other event (fun both => caller both.1) waits
        refine ⟨found, ?_, rest⟩
        simpa only [update_of_ne caller, passed] using at_
    · intro other
      rw [loop]
      refine LoopKept.passes ((kept.loops other).record called) ?_
      rintro rfl
      exact ordered
  · rename_i refused
    refine ⟨⟨recorded, ?_, ?_, ?_⟩, loop⟩
    · rw [passed, reads]
      exact kept.passed
    · intro other event waits
      rw [passed]
      exact plain other event (fun both => refused both.2) waits
    · intro other
      rw [loop]
      exact (kept.loops other).record called

theorem Kept.setLoop (kept : Kept watched) (here : watched.LoopKept task loop)
    : Kept (watched.setLoop task loop) where
  toRecorded := ⟨kept.counted, kept.read, kept.lengths, kept.woken, kept.interrupted⟩
  passed := kept.passed
  waiting := kept.waiting
  loops other := by
    show watched.LoopKept other (update watched.loop task loop other)
    by_cases same : other = task
    · subst same
      rwa [update_self]
    · rw [update_of_ne same]
      exact kept.loops other

theorem LoopKept.rereads (kept : watched.LoopKept task loop) (event : Event)
    : { watched with reads := watched.reads ++ [watched.readNow event] }.LoopKept task loop := by
  cases loop with
  | outside => trivial
  | read read => exact List.mem_append_left _ kept
  | looked read moment | waited read moment => exact ⟨List.mem_append_left _ kept.1, kept.2⟩

theorem Kept.rereads (kept : Kept watched) (event : Event)
    : Kept { watched with reads := watched.reads ++ [watched.readNow event] } where
  toRecorded := kept.toRecorded.rereads event watched.loop
  passed task read member := List.mem_append_left _ (kept.passed task read member)
  waiting := kept.waiting
  loops task := (kept.loops task).rereads event

theorem Kept.step {step : Step} (kept : Kept watched) (taken : watched.step step = some after)
    : Kept after := by
  cases step with
  | call call =>
    simp only [Watched.step, Option.ite_none_left_eq_some] at taken
    exact kept.called (by simpa using taken.1) taken.2
  | read event =>
    cases taken
    exact kept.rereads event
  | wait core index =>
    simp only [Watched.step, Option.bind_eq_some_iff, Option.ite_none_right_eq_some] at taken
    obtain ⟨task, running, read, found, outside, taken⟩ := taken
    refine (kept.waits running (List.mem_of_getElem? found) ?_ taken).1
    rintro earlier moment (same | same) <;> rw [outside] at same <;> cases same
  | loopRead core event =>
    simp only [Watched.step, Option.bind_eq_some_iff] at taken
    obtain ⟨task, running, taken⟩ := taken
    have reading : Kept ({ watched with reads := watched.reads ++ [watched.readNow event] }.setLoop
        task (.read (watched.readNow event))) :=
      (kept.rereads event).setLoop (List.mem_append_right _ (List.mem_singleton_self _))
    split at taken
    · exact Option.some.inj taken ▸ reading
    · exact Option.some.inj taken ▸ reading
    · cases taken
    · cases taken
  | loopLook core ready =>
    simp only [Watched.step, Option.bind_eq_some_iff] at taken
    obtain ⟨task, running, taken⟩ := taken
    split at taken
    · rename_i read looping
      cases taken
      apply kept.setLoop
      have member : read ∈ watched.reads := by
        have loop := kept.loops task
        rwa [looping] at loop
      split
      · trivial
      · exact ⟨member, (kept.read read member).1, Nat.le_refl _,
          fun passed found => (kept.read passed (kept.passed task passed found)).1⟩
    · cases taken
  | loopWait core =>
    simp only [Watched.step, Option.bind_eq_some_iff] at taken
    obtain ⟨task, running, taken⟩ := taken
    split at taken
    · rename_i read moment looping
      obtain ⟨mid, waited, rfl⟩ := Option.map_eq_some_iff.mp taken
      have loop := kept.loops task
      rw [looping] at loop
      have ordered : ∀ earlier later,
          watched.loop task = .looked earlier later ∨ watched.loop task = .waited earlier later
          → read.moment ≤ later := by
        rintro earlier later (same | same) <;> rw [looping] at same
        · obtain ⟨rfl, rfl⟩ := Loop.looked.inj same
          exact loop.2.1
        · cases same
      obtain ⟨keeps, unchanged⟩ := kept.waits running loop.1 ordered waited
      have after := keeps.loops task
      rw [unchanged, looping] at after
      exact keeps.setLoop after
    · cases taken

theorem Kept.noneLost (kept : Kept watched) : NoneLost watched where
  waiting task event waits := by
    obtain ⟨read, found, same, quiet⟩ := kept.waiting task event waits
    exact ⟨read, kept.passed task read found, found, same, quiet⟩
  looping task event waits read moment looping := by
    obtain ⟨passed, found, same, quiet⟩ := kept.waiting task event waits
    have loop := kept.loops task
    rw [looping] at loop
    rintro ⟨notice, member, notified⟩
    refine quiet ⟨notice, ?_, notified⟩
    exact (List.drop_subset_drop_left _ (loop.2.2.2 passed found)) member
  notified core task read after running member since called := by
    have moved : (watched.queue.generation read.event == read.seen) = false := by
      rw [beq_eq_false_iff_ne]
      exact fun unmoved => kept.toRecorded.unnotified member unmoved since
    rw [RunQueue.state_eq_standing, RunQueue.state_eq_standing,
      (Cores.waitCurrent_touched called).standing, Cores.onCurrent_self running, moved]
    cases watched.queue.standing task <;> simp [Standing.wait]
  woken core task after running woken called := by
    rw [RunQueue.state_eq_standing, RunQueue.state_eq_standing,
      (Cores.blockCurrent_touched called).standing, Cores.onCurrent_self running]
    cases here : watched.queue.standing task with
    | none => rfl
    | some standing => simp [Standing.block, kept.woken task standing woken here]
  interrupted core task after running interrupted called := by
    have pending {standing : Standing} (here : watched.queue.standing task = some standing) :=
      kept.interrupted task standing interrupted here
    rw [RunQueue.state_eq_standing, RunQueue.state_eq_standing]
    rcases called with ⟨untilUs, called⟩ | ⟨event, seen, called⟩
    · rw [(Cores.sleepCurrent_touched called).standing, Cores.onCurrent_self running]
      cases here : watched.queue.standing task with
      | none => rfl
      | some standing => simp [Standing.sleep, pending here]
    · rw [(Cores.waitCurrent_touched called).standing, Cores.onCurrent_self running]
      cases here : watched.queue.standing task with
      | none => rfl
      | some standing => simp [Standing.wait, pending here]

/-- In every run of any calls on a run queue of any number of cores, no wake-up is lost. Witness:
the history counts the generations and keeps the wake-ups, step by step.
-/
theorem noneLost_of_run (name : String) (count : Nat) {watched : Watched}
    (run : Reaches step anyEvent (start name count) watched)
    : NoneLost watched :=
  (run.invariant (start_kept name count) (fun _ _ _ kept _ taken => kept.step taken)).noneLost

/-- A task waits in `wait_until`, having looked after it read; the notification of another event
doesn't matter.
-/
theorem noneLost_of_waiting
    : ∃ watched,
        runAll step anyEvent (start "shell" 1)
            [.call (.op (.addIdle "idle0" 0)), .loopRead 0 4, .loopLook 0 false,
              .call (.op (.notify 3)), .loopWait 0]
          = some watched
        ∧ watched.queue.state 0 = some (.waiting 4)
        ∧ NoneLost watched := by
  have executed : runAll step anyEvent (start "shell" 1)
      [.call (.op (.addIdle "idle0" 0)), .loopRead 0 4, .loopLook 0 false,
        .call (.op (.notify 3)), .loopWait 0] = some _ := rfl
  exact ⟨_, executed, rfl, noneLost_of_run "shell" 1 (.runAll .start executed)⟩

end Watched

end RustyPi.Sched
