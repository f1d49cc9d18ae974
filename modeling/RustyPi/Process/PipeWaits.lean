import RustyPi.Process.PipeAnswers

/-! Nobody waits on a pipe for nothing. Every step that makes a condition true has a notification
(or, for a kill, an interrupt) to do, and a task that waits looked at the condition after it read
the event's generation.
-/

namespace RustyPi.Process

open Function RustyPi.Sched RustyPi.Reach

def Phase.request : Phase → Option Request
  | .idle | .notifying _ => none
  | .starting request | .looked request _ | .asked request _ | .unready request _ | .waited request
  | .acting request _ => some request

/-- In a call and not waiting. -/
def Phase.Active : Phase → Prop
  | .idle | .waited _ => False
  | _ => True

namespace Pipes

/-- The step that began at `moment` has its notification to do. -/
def Owes (state : Pipes) (moment : Nat) : Prop :=
  moment ∈ state.drops ∨ ∃ task, state.phase task = .notifying moment

/-- The step that last made the condition of a request true has its notification to do. -/
def Due (state : Pipes) (request : Request) : Prop :=
  ∃ moment, state.madeAt request.pipe request.side = some moment ∧ state.Owes moment

/-- An interrupt is kept for the task's next sleep or wait. -/
def Interrupted (state : Pipes) (task : TaskId) : Prop :=
  ∃ standing, state.queue.standing task = some standing ∧ standing.interruptPending = true

/-- The kill that marked the task, if one did, has its interrupt to do. -/
def KillDue (state : Pipes) (task : TaskId) : Prop :=
  ∀ moment, state.killedAt task = some moment → (moment, task) ∈ state.kills

/-- What a task relies on once it has read the event's generation: nothing became true after it last
looked without a notification it hasn't missed.
-/
def Relies (state : Pipes) (task : TaskId) : Phase → Prop
  | .looked _ seen => seen ≤ state.queue.generation pipeEvent
  | .asked _ seen =>
    seen ≤ state.queue.generation pipeEvent ∧ (state.KillDue task ∨ state.Interrupted task)
  | .unready request seen =>
    seen ≤ state.queue.generation pipeEvent
    ∧ (state.KillDue task ∨ state.Interrupted task)
    ∧ (state.ReadyFor request → seen ≠ state.queue.generation pipeEvent ∨ state.Due request)
  | _ => True

/-- What holds of a task in any place in its calls. -/
structure Attentive (state : Pipes) (task : TaskId) : Prop where
  active : (state.phase task).Active → Cores.Runnable state.queue task
  waited
    : ∀ request,
        state.phase task = .waited request
        → Cores.Runnable state.queue task ∨ state.queue.state task = some (.waiting pipeEvent)
  waits
    : state.queue.state task = some (.waiting pipeEvent)
      → (∃ request,
          state.phase task = .waited request ∧ (state.ReadyFor request → state.Due request))
        ∧ state.KillDue task
  known : ∀ request ∈ (state.phase task).request, request.pipe < state.pipes.length
  relies : state.Relies task (state.phase task)

----------
-- Calls on the run queue
----------

/-- What a call on the run queue leaves a task that it neither marks nor removes. -/
structure Calm (before after : RunQueue) (task : TaskId) : Prop where
  runnable : Cores.Runnable before task → Cores.Runnable after task
  waiting
    : before.state task = some (.waiting pipeEvent)
      → Cores.Runnable after task ∨ after.state task = some (.waiting pipeEvent)
  waits
    : after.state task = some (.waiting pipeEvent)
      → before.state task = some (.waiting pipeEvent)
        ∧ after.generation pipeEvent = before.generation pipeEvent
  grown : before.generation pipeEvent ≤ after.generation pipeEvent
  interrupted
    : (∃ standing, before.standing task = some standing ∧ standing.interruptPending = true)
      → ∃ standing, after.standing task = some standing ∧ standing.interruptPending = true

theorem Calm.refl (queue : RunQueue) (task : TaskId) : Calm queue queue task :=
  ⟨fun runnable => runnable, Or.inr, fun waits => ⟨waits, rfl⟩, Nat.le_refl _, fun kept => kept⟩

variable {task : TaskId} {pipe : Pipe} {request : Request} {queue : RunQueue}

theorem state_eq_some {state : State}
    : queue.state task = some state
      ↔ ∃ standing, queue.standing task = some standing ∧ standing.state = state := by
  rw [RunQueue.state_eq_standing, Option.map_eq_some_iff]

theorem runnable_iff
    : Cores.Runnable queue task
      ↔ ∃ standing,
          queue.standing task = some standing
          ∧ (standing.state = .running ∨ standing.state = .ready) := by
  simp only [Cores.Runnable, state_eq_some]
  constructor
  · rintro (⟨standing, found, state⟩ | ⟨standing, found, state⟩)
    · exact ⟨standing, found, Or.inl state⟩
    · exact ⟨standing, found, Or.inr state⟩
  · rintro ⟨standing, found, state | state⟩
    · exact .inl ⟨standing, found, state⟩
    · exact .inr ⟨standing, found, state⟩

/-- Whoever waits for the pipe event after a call did before, unless the call is its own wait. -/
theorem waits_of_call {before after : RunQueue} {call : Call}
    (applied : call.apply before = some after)
    (notOwn
      : ∀ core seen,
          call = .op (.waitCurrent core pipeEvent seen) → before.currentTask core ≠ some task)
    (waits : after.state task = some (.waiting pipeEvent))
    : before.state task = some (.waiting pipeEvent)
      ∧ after.generation pipeEvent = before.generation pipeEvent := by
  obtain ⟨new, there, waits⟩ := state_eq_some.mp waits
  rcases Call.apply_standing applied there with ⟨_, rfl | rfl⟩ | ⟨old, found, moves⟩
  · cases waits
  · cases waits
  · obtain ⟨notNotified, before | ⟨core, seen, own, current, _⟩⟩ := moves.waiting waits
    · refine ⟨state_eq_some.mpr ⟨old, found, before⟩, ?_⟩
      rw [Call.apply_generation applied, if_neg notNotified]
    · exact absurd current (notOwn core seen own)

theorem calm_of_call {before after : RunQueue} {call : Call}
    (applied : call.apply before = some after) (spares : call.Spares before task)
    : Calm before after task where
  runnable runnable := by
    obtain ⟨old, found, state⟩ := runnable_iff.mp runnable
    obtain ⟨new, there, moves⟩ := Call.apply_standing_of applied spares found
    exact runnable_iff.mpr ⟨new, there, moves.runnable spares state⟩
  waiting waiting := by
    obtain ⟨old, found, state⟩ := state_eq_some.mp waiting
    obtain ⟨new, there, moves⟩ := Call.apply_standing_of applied spares found
    rcases moves.stays spares state with waits | runnable
    · exact .inr (state_eq_some.mpr ⟨new, there, waits⟩)
    · exact .inl (runnable_iff.mpr ⟨new, there, runnable⟩)
  waits waits := by
    refine waits_of_call applied ?_ waits
    rintro core seen rfl
    exact spares core rfl
  grown := by
    rw [Call.apply_generation applied]
    split
    · exact Nat.le_succ _
    · exact Nat.le_refl _
  interrupted kept := by
    obtain ⟨old, found, pending⟩ := kept
    obtain ⟨new, there, moves⟩ := Call.apply_standing_of applied spares found
    refine ⟨new, there, moves.interruptPending ?_ pending⟩
    rintro ⟨core, current, ⟨untilUs, rfl⟩ | ⟨event, seen, rfl⟩⟩
    · exact spares core rfl current
    · exact spares core rfl current

theorem calm_notify (queue : RunQueue) (event : Sched.Event) (task : TaskId)
    : Calm queue (queue.notify event).1 task := by
  have applied : (Call.op (.notify event)).apply queue = some (queue.notify event).1 := rfl
  exact calm_of_call applied (fun _ marks => nomatch marks)

theorem calm_interrupt (queue : RunQueue) (id task : TaskId)
    : Calm queue (queue.interrupt id).1 task := by
  have applied : (Call.op (.interrupt id)).apply queue = some (queue.interrupt id).1 := rfl
  exact calm_of_call applied (fun _ marks => nomatch marks)

----------
-- Tasks that a step doesn't move on
----------

section Frame

variable {state after : Pipes} {task : TaskId}

/-- A task whose place in its call stays the same goes on relying on what it did, when a condition
that becomes true has its notification to come.
-/
theorem Attentive.frame (attentive : Attentive state task)
    (phase : after.phase task = state.phase task) (calm : Calm state.queue after.queue task)
    (killWaiting
      : after.queue.state task = some (.waiting pipeEvent)
        → state.KillDue task
        → after.KillDue task)
    (killActive
      : Cores.Runnable state.queue task
        → state.KillDue task
        → after.KillDue task ∨ after.Interrupted task)
    (length : state.pipes.length ≤ after.pipes.length)
    (ready
      : ∀ request,
          request.pipe < state.pipes.length
          → after.queue.generation pipeEvent = state.queue.generation pipeEvent
          → (state.ReadyFor request → state.Due request)
          → after.ReadyFor request
          → after.Due request)
    : Attentive after task := by
  have killed (active : (state.phase task).Active)
      (due : state.KillDue task ∨ state.Interrupted task)
      : after.KillDue task ∨ after.Interrupted task := by
    rcases due with due | interrupted
    · exact killActive (attentive.active active) due
    · exact .inr (calm.interrupted interrupted)
  have relies := attentive.relies
  constructor
  case relies =>
    rw [phase]
    cases at_ : state.phase task <;>
      grind [Attentive, Calm, Relies, Phase.Active, Phase.request]
  all_goals grind [Attentive, Calm, Phase.request]

/-- With the same pipes, what was due stays due as long as its notification does. -/
theorem due_of_same (pipes : after.pipes = state.pipes) (made : after.madeAt = state.madeAt)
    (owes : ∀ moment, state.Owes moment → after.Owes moment)
    (due : state.ReadyFor request → state.Due request) (ready : after.ReadyFor request)
    : after.Due request := by
  rw [ReadyFor, pipes] at ready
  obtain ⟨moment, at_, owed⟩ := due ready
  exact ⟨moment, made ▸ at_, owes moment owed⟩

/-- A change to a pipe that makes a condition true has its own notification to do. -/
theorem due_of_change {number : Nat} {pipe changed : Pipe}
    (there : state.pipes[number]? = some pipe)
    (pipes : after.pipes = (state.setPipe number pipe changed).pipes)
    (made : after.madeAt = (state.setPipe number pipe changed).madeAt)
    (owes : ∀ moment, state.Owes moment → after.Owes moment)
    (owed : ∀ side, pipe.ready side = false → changed.ready side = true → after.Owes state.clock)
    (due : state.ReadyFor request → state.Due request) (ready : after.ReadyFor request)
    : after.Due request := by
  obtain ⟨found, lookup, ready⟩ := ready
  rw [pipes] at lookup
  rcases pipe_set lookup with ⟨rfl, rfl⟩ | ⟨differ, old⟩
  · cases before : pipe.ready request.side with
    | false =>
      refine ⟨state.clock, ?_, owed request.side before ready⟩
      simp [made, setPipe, before, ready]
    | true =>
      obtain ⟨moment, at_, owing⟩ := due ⟨pipe, there, before⟩
      refine ⟨moment, ?_, owes moment owing⟩
      simp [made, setPipe, before, at_]
  · obtain ⟨moment, at_, owing⟩ := due ⟨found, old, ready⟩
    refine ⟨moment, ?_, owes moment owing⟩
    simp [made, setPipe, update_of_ne differ, at_]

variable {phase : Phase}

/-- A task that moves on from anything but its notification takes none away. -/
theorem owes_update {actor : TaskId} (moved : after.phase = update state.phase actor phase)
    (drops : ∀ moment ∈ state.drops, moment ∈ after.drops)
    (other : ∀ moment, state.phase actor ≠ .notifying moment) (moment : Nat)
    (owes : state.Owes moment)
    : after.Owes moment := by
  rcases owes with dropped | ⟨task, notifying⟩
  · exact .inl (drops moment dropped)
  · refine Or.inr ⟨task, ?_⟩
    rwa [moved, update_of_ne]
    rintro rfl
    exact other moment notifying

/-- The task that acts is running, so it isn't waiting. -/
theorem Attentive.of_running (running : after.queue.state task = some .running)
    (known : ∀ request ∈ (after.phase task).request, request.pipe < after.pipes.length)
    (relies : after.Relies task (after.phase task))
    : Attentive after task where
  active _ := Or.inl running
  waited _ _ := Or.inl (Or.inl running)
  waits waits := by
    rw [running] at waits
    cases waits
  known := known
  relies := relies

/-- A step of `actor` that touches neither pipes nor the run queue. -/
theorem attentive_moved {core : Nat} {actor : TaskId} (attentive : Attentive state task)
    (acts : state.acting core = some actor) (idle : ∀ moment, state.phase actor ≠ .notifying moment)
    (known : ∀ request ∈ phase.request, request.pipe < state.pipes.length)
    (relies : (state.setPhase actor phase).Relies actor phase)
    : Attentive (state.setPhase actor phase) task := by
  by_cases same : task = actor
  · subst same
    refine Attentive.of_running (acting_eq_some.mp acts).2 ?_ ?_
    all_goals simp only [setPhase, update_self]
    · exact known
    · exact relies
  · refine attentive.frame (update_of_ne same ..) (.refl ..) (fun _ kill => kill)
      (fun _ kill => Or.inl kill) (Nat.le_refl _) (fun request _ _ => ?_)
    exact due_of_same rfl rfl (owes_update rfl (fun _ listed => listed) idle)

end Frame

----------
-- Every step
----------

theorem ready_of_duplicate {one side : End} (ready : (pipe.duplicate one).ready side = true)
    : pipe.ready side = true := by
  cases side with
  | read =>
    rw [ready_read] at ready ⊢
    cases one with
    | read => exact ready
    | write => exact ready.imp_right (fun none => absurd none (Nat.succ_ne_zero _))
  | write =>
    rw [ready_write] at ready ⊢
    cases one with
    | read => exact ready.imp_right (fun none => absurd none (Nat.succ_ne_zero _))
    | write => exact ready

/-- A call that moves no bytes leaves the pipe as it was. -/
theorem act_unchanged {after : Pipe} {answer : Answer} (acted : request.act pipe = (after, answer))
    (count : answer.count = 0)
    : after = pipe := by
  cases request with
  | read number room =>
    obtain ⟨bytes, rfl, front, _, readers, writers⟩ := Request.act_read acted
    rw [List.length_eq_zero_iff.mp count, List.nil_append] at front
    cases after
    cases pipe
    simp_all
  | write number bytes =>
    rcases Request.act_write acted with ⟨_, rfl, _⟩ | ⟨_, moved, rfl, _, rfl⟩
    · rfl
    · obtain rfl : moved = 0 := count
      simp

section Step

variable {state : Pipes} {task : TaskId}

section Attentive

variable (attentive : Attentive state task)
include attentive

theorem Attentive.pair
    : Attentive { state with
        pipes := state.pipes ++ [.fresh]
        ends := state.ends ++ [⟨state.pipes.length, .read⟩, ⟨state.pipes.length, .write⟩] } task := by
  refine attentive.frame rfl (.refl ..) (fun _ kill => kill) (fun _ kill => Or.inl kill) (by simp)
    (fun request known _ due ready => due ?_)
  obtain ⟨pipe, lookup, ready⟩ := ready
  exact ⟨pipe, List.getElem?_append_left known ▸ lookup, ready⟩

omit attentive in
/-- A notification: nobody waits any more, and whoever is about to will see it. -/
theorem generation_moved (queue : RunQueue)
    : (queue.notify pipeEvent).1.generation pipeEvent ≠ queue.generation pipeEvent := by
  rw [Cores.notify_generation, if_pos rfl]
  exact Nat.succ_ne_self _

theorem Attentive.kill (id : TaskId)
    : Attentive { state with
        clock := state.clock + 1
        kills := (state.clock, id) :: state.kills
        killedAt := update state.killedAt id
          ((state.killedAt id).or (some state.clock)) } task := by
  have due (kill : state.KillDue task) (moment : Nat)
      (marked : update state.killedAt id ((state.killedAt id).or (some state.clock)) task
        = some moment)
      : (moment, task) ∈ (state.clock, id) :: state.kills := by
    cases earlier : state.killedAt id <;> grind [KillDue, update_apply]
  exact attentive.frame rfl (.refl ..) (fun _ kill => due kill) (fun _ kill => Or.inl (due kill))
    (Nat.le_refl _) (fun _ _ _ => due_of_same rfl rfl (fun _ owes => owes))

/-- The interrupt of a kill readies its task, or is kept for it. -/
theorem Attentive.interrupt (moment : Nat) (id : TaskId)
    : Attentive { state with
        queue := (state.queue.interrupt id).1
        kills := state.kills.erase (moment, id) } task := by
  have calm := calm_interrupt state.queue id task
  have others (differ : task ≠ id) (kill : state.KillDue task) (found : Nat)
      (marked : state.killedAt task = some found)
      : (found, task) ∈ state.kills.erase (moment, id) := by
    refine (List.mem_erase_of_ne ?_).mpr (kill found marked)
    exact fun same => differ (congrArg Prod.snd same)
  have standing := (Cores.interrupt_touched state.queue id).standing_only task
  refine attentive.frame rfl calm (fun waits => others ?_) (fun runnable kill => ?_)
    (Nat.le_refl _) (fun _ _ _ => due_of_same rfl rfl (fun _ owes => owes))
  · have before := (calm.waits waits).1
    grind [state_eq_some, Standing.interrupt]
  · grind [runnable_iff, Interrupted, KillDue, Standing.interrupt_pending]

theorem Attentive.elsewhere {call : Call}
    (elsewhere : state.Elsewhere call) (applied : call.apply state.queue = some queue)
    : Attentive { state with queue } task := by
  by_cases idle : state.phase task = .idle
  · -- outside pipes nobody waits for the pipe event
    have unwaiting : queue.state task ≠ some (.waiting pipeEvent) := by
      intro waits
      have before := (waits_of_call applied ?_ waits).1
      · obtain ⟨⟨request, waited, _⟩, _⟩ := attentive.waits before
        rw [idle] at waited
        cases waited
      · rintro core seen rfl
        exact absurd rfl elsewhere.1
    refine ⟨?_, ?_, fun waits => absurd waits unwaiting, ?_, ?_⟩
    all_goals simp [idle, Phase.Active, Phase.request, Relies]
  · have here : Cores.Runnable state.queue task
        ∨ state.queue.state task = some (.waiting pipeEvent) := by
      cases phase : state.phase task with
      | idle => exact absurd phase idle
      | waited request => exact attentive.waited request phase
      | starting | looked | asked | unready | acting | notifying =>
        exact .inl (attentive.active (by simp [phase, Phase.Active]))
    have spares : call.Spares state.queue task := by
      cases call with
      | op step =>
        intro core marks current
        cases step with
        | waitCurrent marked =>
          obtain rfl : marked = core := Option.some.inj marks
          exact idle (elsewhere.2 task current)
        | sleepCurrent marked | blockCurrent marked | finishCurrent marked =>
          obtain rfl : marked = core := Option.some.inj marks
          exact idle (elsewhere task current)
        | add | addIdle | startCore | wake | interrupt | notify | tick | switch | finishSwitch =>
          cases marks
      | pickNext => trivial
      | remove id =>
        have finished : state.queue.state id = some .finished := elsewhere
        rintro rfl
        rw [Cores.Runnable, finished] at here
        simp at here
    exact attentive.frame rfl (calm_of_call applied spares) (fun _ kill => kill)
      (fun _ kill => Or.inl kill) (Nat.le_refl _)
      (fun _ _ _ => due_of_same rfl rfl (fun _ owes => owes))

/-- `wait_current` makes the task wait only if it has missed nothing. -/
theorem Attentive.wait {core : Nat} {seen : Generation}
    (acts : state.acting core = some task) (phase : state.phase task = .unready request seen)
    (waited : state.queue.waitCurrent core pipeEvent seen = some queue)
    : Attentive { state.setPhase task (.waited request) with queue } task := by
  obtain ⟨current, running⟩ := acting_eq_some.mp acts
  obtain ⟨standing, found, running⟩ := state_eq_some.mp running
  have relies := attentive.relies
  rw [phase] at relies
  obtain ⟨_, due, made⟩ := relies
  have known := attentive.known request (by simp [phase, Phase.request])
  have there : queue.standing task
      = some (standing.wait pipeEvent (state.queue.generation pipeEvent == seen)) := by
    rw [(Cores.waitCurrent_touched waited).standing, found, Option.map_some,
      Cores.onCurrent_self current]
  have owes : ∀ moment, state.Owes moment
      → Owes { state.setPhase task (.waited request) with queue } moment :=
    owes_update rfl (fun _ listed => listed) (by simp [phase])
  constructor <;> simp only [setPhase, update_self]
  case relies => trivial
  case waits =>
    intro waits
    have missed : standing.interruptPending = false
        ∧ state.queue.generation pipeEvent = seen := by
      grind [state_eq_some, Standing.wait]
    refine ⟨⟨request, rfl, fun ready => ?_⟩, due.resolve_right (by grind [Interrupted])⟩
    obtain ⟨moment, at_, owing⟩ := (made ready).resolve_left (by grind)
    exact ⟨moment, at_, owes moment owing⟩
  all_goals grind [state_eq_some, runnable_iff, Standing.wait, Phase.Active, Phase.request]

end Attentive

theorem attentive_step {after : Pipes} {event : Event} (attentive : ∀ task, Attentive state task)
    (taken : state.step event = some after) (task : TaskId)
    : Attentive after task := by
  have ours := attentive task
  have moves {core : Nat} {actor : TaskId} {phase : Phase} (acts : state.acting core = some actor)
      (idle : ∀ moment, state.phase actor ≠ .notifying moment)
      (same : phase.request = (state.phase actor).request)
      (relies : (state.setPhase actor phase).Relies actor phase)
      : Attentive (state.setPhase actor phase) task :=
    attentive_moved ours acts idle (same ▸ (attentive actor).known) relies
  cases steps_of_step taken with
  | pair => exact ours.pair
  | duplicate found there =>
    refine ours.frame rfl (.refl ..) (fun _ kill => kill) (fun _ kill => Or.inl kill)
      (by simp [setPipe]) (fun request _ _ => ?_)
    refine due_of_change there rfl rfl (fun _ owes => owes) (fun side before ready => ?_)
    rw [ready_of_duplicate ready] at before
    cases before
  | drop found there =>
    refine ours.frame rfl (.refl ..) (fun _ kill => kill) (fun _ kill => Or.inl kill)
      (by simp [setPipe]) (fun request _ _ => ?_)
    refine due_of_change there rfl rfl (fun moment owes => ?_)
      (fun _ _ _ => Or.inl List.mem_cons_self)
    exact owes.imp_left (List.mem_cons_of_mem _)
  | notifyDrop owed =>
    refine ours.frame rfl (calm_notify ..) (fun _ kill => kill) (fun _ kill => Or.inl kill)
      (Nat.le_refl _) (fun request _ same => ?_)
    exact absurd same (generation_moved _)
  | kill id => exact ours.kill id
  | interrupt owed => exact ours.interrupt _ _
  | other elsewhere applied => exact ours.elsewhere elsewhere applied
  | call acts phase known =>
    exact attentive_moved ours acts (by simp [phase]) (by simpa [Phase.request] using known) trivial
  | look acts phase =>
    exact moves acts (by simp [phase]) (by simp [phase, Phase.request]) (Nat.le_refl _)
  | told acts phase | ready acts phase | resume acts phase =>
    exact moves acts (by simp [phase]) (by simp [phase, Phase.request]) trivial
  | @asked core request actor seen acts phase alive =>
    refine moves acts (by simp [phase]) (by simp [phase, Phase.request]) ⟨?_, Or.inl ?_⟩
    · have relies := (attentive actor).relies
      rwa [phase] at relies
    · exact fun moment marked => by simp [setPhase, alive] at marked
  | @unready core request actor seen pipe acts phase there unready =>
    have relies := (attentive actor).relies
    rw [phase] at relies
    refine moves acts (by simp [phase]) (by simp [phase, Phase.request]) ⟨relies.1, relies.2, ?_⟩
    rintro ⟨found, lookup, ready⟩
    cases there.symm.trans lookup
    rw [unready] at ready
    cases ready
  | @wait core request actor seen queue acts phase waited =>
    by_cases same : task = actor
    · subst same
      exact ours.wait acts phase waited
    · have applied : (Call.op (.waitCurrent core pipeEvent seen)).apply state.queue = some queue :=
        waited
      have calm : Calm state.queue queue task := by
        refine calm_of_call applied (fun marked marks => ?_)
        cases marks
        rw [(acting_eq_some.mp acts).1]
        exact fun current => same (Option.some.inj current).symm
      refine ours.frame (update_of_ne same ..) calm (fun _ kill => kill)
        (fun _ kill => Or.inl kill) (Nat.le_refl _) (fun request _ _ => ?_)
      exact due_of_same rfl rfl
        (owes_update rfl (fun _ listed => listed) (by simp [phase]))
  | @act core request told actor found changed answer acts phase there acted =>
    by_cases same : task = actor
    · subst same
      refine Attentive.of_running (acting_eq_some.mp acts).2 ?_ ?_
      all_goals
        simp only [record, setPhase, update_self]
        split <;> simp [Phase.request, Relies]
    · refine ours.frame (update_of_ne same ..) (.refl ..) (fun _ kill => kill)
        (fun _ kill => Or.inl kill) (Nat.le_of_eq List.length_set.symm) (fun request _ _ => ?_)
      refine due_of_change there rfl rfl
        (owes_update rfl (fun _ listed => listed) (by simp [phase])) ?_
      intro side before ready
      have moved : answer.count ≠ 0 := by
        intro count
        rw [act_unchanged acted count, before] at ready
        cases ready
      exact .inr ⟨actor, by simp [record, setPhase, moved]⟩
  | @notify core actor moment acts phase =>
    by_cases same : task = actor
    · subst same
      have running : (state.queue.notify pipeEvent).1.state task = some .running := by
        obtain ⟨standing, found, running⟩ := state_eq_some.mp (acting_eq_some.mp acts).2
        refine state_eq_some.mpr ⟨_, by
          rw [(Cores.notify_touched ..).standing]
          exact congrArg _ found, ?_⟩
        simp [Standing.notify, running]
      exact Attentive.of_running running (by simp [setPhase, Phase.request])
        (by simp [setPhase, Relies])
    · refine ours.frame (update_of_ne same ..) (calm_notify ..) (fun _ kill => kill)
        (fun _ kill => Or.inl kill) (Nat.le_refl _) (fun request _ moved => ?_)
      exact absurd moved (generation_moved _)

theorem attentive_new (name : String) (cores : Nat) (task : TaskId)
    : Attentive (new name cores) task := by
  have unwaiting : (new name cores).queue.state task ≠ some (.waiting pipeEvent) := by
    cases task with
    | zero => exact fun waits => nomatch waits
    | succ task => exact fun waits => nomatch waits
  refine ⟨?_, ?_, fun waits => absurd waits unwaiting, ?_, ?_⟩
  all_goals simp [new, Phase.Active, Phase.request, Relies]

end Step

----------
-- Nothing is lost
----------

/-- Bytes are neither lost, repeated nor reordered, pipes hold no more than they can, the counts
are those of the ends, and whoever waits on a pipe that is ready for it, or was killed, is about to
be told by the step that made it so.
-/
structure Lossless (state : Pipes) : Prop where
  ordered
    : ∀ (number : Nat) (pipe : Pipe),
        state.pipes[number]? = some pipe
        → state.added number = state.drained number ++ pipe.bytes
  bounded
    : ∀ (number : Nat) (pipe : Pipe),
        state.pipes[number]? = some pipe → pipe.bytes.length ≤ pipeCapacity
  counted
    : ∀ (number : Nat) (pipe : Pipe),
        state.pipes[number]? = some pipe
        → pipe.readers = state.ends.count ⟨number, .read⟩
          ∧ pipe.writers = state.ends.count ⟨number, .write⟩
  promised
    : ∀ task,
        state.queue.state task = some (.waiting pipeEvent)
        → (∃ request,
            state.phase task = .waited request ∧ (state.ReadyFor request → state.Due request))
          ∧ state.KillDue task

/-- In every run of any number of readers and writers, nothing is lost. Witness: what is in the
pipes and what each task relies on, both by induction on the run.
-/
theorem lossless_of_run {name : String} {cores : Nat} {state : Pipes}
    (run : Reaches step anyEvent (new name cores) state)
    : Lossless state := by
  have kept : Kept state :=
    run.invariant (kept_new name cores) (fun _ _ _ kept _ taken => kept.step taken)
  have attentive : ∀ task, Attentive state task := by
    refine @Reaches.invariant _ _ _ _ _ _ (fun state => ∀ task, Attentive state task) run
      (attentive_new name cores) ?_
    exact fun _ _ _ attentive _ taken => attentive_step attentive taken
  exact ⟨kept.ordered, kept.bounded, kept.counted, fun task => (attentive task).waits⟩

/-- A reader waits on an empty pipe; a write has added bytes and not notified yet. -/
def addedUnnotified : List Event :=
  [.pair, .other (.op (.add "reader")), yield] ++ upToActing 0 (.read 0 4) ++ [.wait 0, yield]
    ++ upToActing 0 (.write 0 [7]) ++ [.act 0]

theorem lossless_of_addedUnnotified
    : ∃ state,
        Reaches step anyEvent (new "main" 1) state
        ∧ state.queue.state 1 = some (.waiting pipeEvent)
        ∧ state.pipes.map Pipe.bytes = [[7]]
        ∧ Lossless state := by
  have executed : (runAll step anyEvent (new "main" 1) addedUnnotified).any (fun state =>
      state.queue.state 1 == some (.waiting pipeEvent)
        && state.pipes.map Pipe.bytes == [[7]]) = true := by
    decide +kernel
  obtain ⟨state, run, found⟩ := Reaches.of_check executed
  rw [Bool.and_eq_true, beq_iff_eq, beq_iff_eq] at found
  exact ⟨state, run, found.1, found.2, lossless_of_run run⟩

end Pipes

end RustyPi.Process
