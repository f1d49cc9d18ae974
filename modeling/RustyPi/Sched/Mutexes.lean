import Mathlib.Data.List.Nodup
import RustyPi.Sched.Seats

/-! Sleeping mutexes: the bookkeeping of `rustypi-core/src/lock.rs`, and `Mutex::lock` of
`src/synchronization.rs` as the critical sections it goes through. The hand-over of a mutex and
the wake-up of its new owner are separate steps, and the new owner may not have blocked yet. So are a
task's going to sleep and its giving up the core: if another core runs the task in between, the
mutexes are no longer exclusive.
-/

namespace RustyPi.Sched

open Function RustyPi.Reach

----------
-- Who holds a mutex
----------

inductive Acquire
  | acquired
  | queued
  deriving DecidableEq, Repr

inductive LockError
  | alreadyHeld
  | notOwner
  deriving DecidableEq, Repr

/-- The task that holds a mutex, and the ones waiting for it, longest first. -/
structure LockState where
  owner : Option TaskId
  waiters : List TaskId
  deriving DecidableEq, Repr

namespace LockState

def new : LockState := { owner := none, waiters := [] }

def lock (state : LockState) (task : TaskId) : Except LockError (LockState × Acquire) :=
  match state.owner with
  | none => .ok ({ state with owner := some task }, .acquired)
  | some owner =>
    if owner = task then .error .alreadyHeld
    else .ok ({ state with waiters := state.waiters ++ [task] }, .queued)

/-- Hands the mutex to its longest waiter, which is returned. -/
def unlock (state : LockState) (task : TaskId)
    : Except LockError (LockState × Option TaskId) :=
  if state.owner ≠ some task then .error .notOwner
  else
    .ok ({ owner := state.waiters.head?, waiters := state.waiters.tail }, state.waiters.head?)

theorem lock_cases {state after : LockState} {task : TaskId} {acquire : Acquire}
    (taken : state.lock task = .ok (after, acquire))
    : (state.owner = none ∧ acquire = .acquired ∧ after = { state with owner := some task })
      ∨ (state.owner ≠ none
        ∧ state.owner ≠ some task
        ∧ acquire = .queued
        ∧ after = { state with waiters := state.waiters ++ [task] }) := by
  unfold lock at taken
  grind

theorem unlock_cases {state after : LockState} {task : TaskId} {next : Option TaskId}
    (taken : state.unlock task = .ok (after, next))
    : state.owner = some task
      ∧ next = state.waiters.head?
      ∧ after = { owner := next, waiters := state.waiters.tail } := by
  unfold unlock at taken
  grind

end LockState

----------
-- Tasks that lock
----------

/-- Where a task is in `Mutex::lock`: in none of its own code (and perhaps in closures), queued
and about to block, in `block`, or about to wake the task it handed a mutex to. Or it is outside, has
marked itself asleep, waiting or finished, and is about to yield.
-/
inductive Phase
  | free
  | yielding
  | queued (mutex : Nat)
  | blocking (mutex : Nat)
  | waking (next : TaskId)
  deriving DecidableEq, Repr

/-- In `lock` with the mutex not entered yet. -/
def Phase.Awaits (phase : Phase) (mutex : Nat) : Prop :=
  phase = .queued mutex ∨ phase = .blocking mutex

/-- Not in the code of `lock`. -/
def Phase.Out (phase : Phase) : Prop := phase = .free ∨ phase = .yielding

theorem Phase.Awaits.unique {phase : Phase} {first second : Nat} (left : phase.Awaits first)
    (right : phase.Awaits second)
    : first = second := by
  rcases left with rfl | rfl <;> rcases right with same | same <;> cases same <;> rfl

/-- The scheduler, the mutexes by number, and per task its place in `lock` and the mutexes whose
closures it is in, innermost first. `queued` and `handed` record, per mutex, the tasks that ever
queued for it and the ones it was handed to.
-/
structure Mutexes where
  cores : Cores
  locks : Nat → LockState
  phase : TaskId → Phase
  inside : TaskId → List Nat
  queued : Nat → List TaskId
  handed : Nat → List TaskId

namespace Mutexes

/-- The boot code runs on a core, and so many others are to start. -/
def new (name : String) (others : Nat) : Mutexes :=
  {
    cores := Cores.init name (others + 1)
    locks := fun _ => .new
    phase := fun _ => .free
    inside := fun _ => []
    queued := fun _ => []
    handed := fun _ => []
  }

/-- The task whose code `core` is running. Idle tasks only wait for interrupts. -/
def acting (state : Mutexes) (core : Nat) : Option TaskId :=
  (state.cores.queue.currentTask core).filter (fun task => !state.cores.queue.isIdle task)

/-- Scheduler operations that interrupt handlers, switches and other tasks do. -/
def isSystem : Cores.Op → Bool
  | .add _ | .startCore _ _ | .interrupt _ | .notify _ | .tick _ _ | .switch _ _
  | .finishSwitch _ => true
  | _ => false

inductive Event
  /-- The first critical section of `lock`. -/
  | lock (core mutex : Nat)
  /-- `block`, up to the switch to another task. -/
  | block (core : Nat)
  /-- `block` returns and the closure starts. -/
  | enter (core : Nat)
  /-- The closure ends, and the mutex is unlocked. -/
  | unlock (core : Nat)
  | wake (core : Nat)
  /-- The task marks itself asleep, waiting or finished. -/
  | rest (core : Nat) (op : Cores.Op)
  /-- The yield that follows. -/
  | yield (core : Nat)
  | system (op : Cores.Op)
  deriving DecidableEq, Repr

@[simps] def setPhase (state : Mutexes) (task : TaskId) (phase : Phase) : Mutexes :=
  { state with phase := update state.phase task phase }

@[simps] def setLock (state : Mutexes) (mutex : Nat) (lock : LockState) : Mutexes :=
  { state with locks := update state.locks mutex lock }

@[simps] def setInside (state : Mutexes) (task : TaskId) (inside : List Nat) : Mutexes :=
  { state with inside := update state.inside task inside }

/-- A step by a core; `none` where the source would panic or the task is elsewhere. -/
def step (state : Mutexes) : Event → Option Mutexes
  | .lock core mutex =>
    (state.acting core).bind (fun task =>
      match state.phase task, (state.locks mutex).lock task with
      | .free, .ok (lock, .acquired) =>
        some ((state.setLock mutex lock).setInside task (mutex :: state.inside task))
      | .free, .ok (lock, .queued) =>
        some { (state.setLock mutex lock).setPhase task (.queued mutex) with
          queued := update state.queued mutex (state.queued mutex ++ [task]) }
      | _, _ => none)
  | .block core =>
    (state.acting core).bind (fun task =>
      match state.phase task with
      | .queued mutex =>
        (state.cores.park core).map (fun cores =>
          { state.setPhase task (.blocking mutex) with cores })
      | _ => none)
  | .enter core =>
    (state.acting core).bind (fun task =>
      match state.phase task with
      | .blocking mutex =>
        some ((state.setPhase task .free).setInside task (mutex :: state.inside task))
      | _ => none)
  | .unlock core =>
    (state.acting core).bind (fun task =>
      match state.phase task, state.inside task with
      | .free, mutex :: rest =>
        match (state.locks mutex).unlock task with
        | .ok (lock, some next) =>
          some { ((state.setLock mutex lock).setInside task rest).setPhase task
              (.waking next) with
            handed := update state.handed mutex (state.handed mutex ++ [next]) }
        | .ok (lock, none) => some ((state.setLock mutex lock).setInside task rest)
        | .error _ => none
      | _, _ => none)
  | .wake core =>
    (state.acting core).bind (fun task =>
      match state.phase task with
      | .waking next =>
        some { state.setPhase task .free with
          cores := { state.cores with queue := (state.cores.queue.wake next).1 } }
      | _ => none)
  | .rest core op =>
    (state.acting core).bind (fun task =>
      if state.phase task = .free ∧ op.marks = some core ∧ op ≠ .blockCurrent core then
        (Cores.queueStep state.cores.queue op).map (fun queue =>
          { state.setPhase task .yielding with cores := { state.cores with queue } })
      else none)
  | .yield core =>
    (state.acting core).bind (fun task =>
      if state.phase task = .yielding then
        (state.cores.switch core true).map (fun switched =>
          { state.setPhase task .free with cores := switched.cores })
      else none)
  | .system op =>
    if isSystem op = true then
      (state.cores.step op).map (fun cores => { state with cores })
    else none

/-- A core searches for another task only while the other cores' tasks are not pickable. -/
def Unready (state : Mutexes) : Event → Prop
  | .block core => state.cores.ParkUnready core
  | .yield core => state.cores.NoneReadied (.switch core true)
  | .system op => state.cores.NoneReadied op
  | .lock .. | .enter _ | .unlock _ | .wake _ | .rest .. => True

instance (state : Mutexes) : (event : Event) → Decidable (state.Unready event)
  | .block core => inferInstanceAs (Decidable (state.cores.ParkUnready core))
  | .yield core => inferInstanceAs (Decidable (state.cores.NoneReadied (.switch core true)))
  | .system op => inferInstanceAs (Decidable (state.cores.NoneReadied op))
  | .lock .. | .enter _ | .unlock _ | .wake _ | .rest .. => .isTrue trivial

variable {state : Mutexes} {task next : TaskId} {op : Cores.Op} {cores : Cores}

theorem acting_eq_some {core : Nat}
    : state.acting core = some task
      ↔ state.cores.queue.currentTask core = some task
        ∧ state.cores.queue.isIdle task = false := by
  simp [acting, Option.filter_eq_some_iff]

----------
-- The invariant
----------

def owner (state : Mutexes) (mutex : Nat) : Option TaskId := (state.locks mutex).owner

def waiters (state : Mutexes) (mutex : Nat) : List TaskId := (state.locks mutex).waiters

/-- What the mutexes and the scheduler have to do with a task. -/
@[ext] structure Place where
  phase : Phase
  inside : List Nat
  owns : Nat → Prop
  waits : Nat → Prop
  woken : Prop
  blocked : Prop
  kept : Prop

@[simps] def place (state : Mutexes) (task : TaskId) : Place :=
  {
    phase := state.phase task
    inside := state.inside task
    owns := fun mutex => (state.locks mutex).owner = some task
    waits := fun mutex => task ∈ (state.locks mutex).waiters
    woken := ∃ waker, state.phase waker = .waking task
    blocked := state.cores.queue.state task = some .blocked
    kept := Cores.WakeKept state.cores.queue task
  }

namespace Place

/-- How a task's place in `lock` fits the mutexes and the scheduler: it is blocked in `block` as
long as the mutex is another's or the wake-up is still to come, and a wake-up is kept for it when
that came before it blocked.
-/
structure Fits (place : Place) : Prop where
  blocked
    : place.blocked
      ↔ ∃ mutex, place.phase = .blocking mutex ∧ (¬ place.owns mutex ∨ place.woken)
  kept : place.kept ↔ ∃ mutex, place.phase = .queued mutex ∧ place.owns mutex ∧ ¬ place.woken
  woken : place.woken → ∃ mutex, place.phase.Awaits mutex ∧ place.owns mutex
  waits : ∀ mutex, place.waits mutex ↔ place.phase.Awaits mutex ∧ ¬ place.owns mutex
  owns : ∀ mutex, place.owns mutex → mutex ∈ place.inside ∨ place.phase.Awaits mutex
  inside : ∀ mutex ∈ place.inside, place.owns mutex ∧ ¬ place.phase.Awaits mutex
  nested : place.inside.Nodup

variable {place : Place} {mutex : Nat}

variable (fits : place.Fits)
include fits

theorem Fits.acquire (free : place.phase = .free) (unowned : ¬ place.owns mutex)
    : Fits { place with
        inside := mutex :: place.inside
        owns := fun found => found = mutex ∨ place.owns found } := by
  constructor <;> grind [Fits, Phase.Awaits]

theorem Fits.queue (free : place.phase = .free) (unowned : ¬ place.owns mutex)
    : Fits { place with
        phase := .queued mutex
        waits := fun found => found = mutex ∨ place.waits found } := by
  constructor <;> grind [Fits, Phase.Awaits]

/-- A wake-up that is kept keeps the task from blocking. -/
theorem Fits.block (queued : place.phase = .queued mutex)
    : Fits { place with
        phase := .blocking mutex
        blocked := ¬ place.kept
        kept := False } := by
  constructor <;> grind [Fits, Phase.Awaits]

/-- `block` returns to a task only when it owns the mutex and its wake-up is past. -/
theorem Fits.returned (blocking : place.phase = .blocking mutex) (unblocked : ¬ place.blocked)
    : place.owns mutex ∧ ¬ place.woken := by
  rw [fits.blocked, blocking] at unblocked
  simpa [not_or] using unblocked

theorem Fits.enter (blocking : place.phase = .blocking mutex) (unblocked : ¬ place.blocked)
    : Fits { place with phase := .free, inside := mutex :: place.inside } := by
  obtain ⟨mine, unwoken⟩ := fits.returned blocking unblocked
  constructor <;> grind [Fits, Phase.Awaits]

/-- The task unlocks, and perhaps has somebody to wake. -/
theorem Fits.leave {rest : List Nat} {phase : Phase}
    (free : place.phase = .free) (inside : place.inside = mutex :: rest)
    (out : phase = .free ∨ ∃ next, phase = .waking next)
    : Fits { place with
        phase
        inside := rest
        owns := fun found => found ≠ mutex ∧ place.owns found } := by
  constructor <;> grind [Fits, Phase.Awaits]

/-- The task is handed the mutex it waits for, with its wake-up to come. -/
theorem Fits.receive (waits : place.waits mutex)
    : Fits { place with
        owns := fun found => found = mutex ∨ place.owns found
        waits := fun found => found ≠ mutex ∧ place.waits found
        woken := True } := by
  constructor <;> grind [Fits, Phase.Awaits]

/-- Outside `lock`, it makes no difference whether the task yields. -/
theorem Fits.out {phase : Phase} (out : place.phase.Out) (stays : phase.Out)
    : Fits { place with phase } := by
  constructor <;> grind [Fits, Phase.Awaits, Phase.Out]

theorem Fits.wake {next : TaskId} (waking : place.phase = .waking next)
    : Fits { place with phase := .free } := by
  constructor <;> grind [Fits, Phase.Awaits]

/-- The wake-up: a blocked owner is ready again, and one that hasn't blocked yet won't. -/
theorem Fits.rouse (woken : place.woken)
    : Fits { place with
        woken := False
        blocked := False
        kept := place.kept ∨ ¬ place.blocked } := by
  constructor <;> grind [Fits, Phase.Awaits]

end Place

/-- Who waits for a mutex, and in which order it is handed over. -/
structure Fair (lock : LockState) (queued handed : List TaskId) : Prop where
  once : lock.waiters.Nodup
  held : lock.owner = none → lock.waiters = []
  ordered : queued = handed ++ lock.waiters

structure Sound (state : Mutexes) : Prop where
  seated : Cores.Seated (fun task => state.phase task = .yielding) state.cores
  fits : ∀ task, (state.place task).Fits
  alive : ∀ task, ¬ (state.phase task).Out → Cores.Alive state.cores.queue task
  waker
    : ∀ first second task,
        state.phase first = .waking task → state.phase second = .waking task → first = second
  fair : ∀ mutex, Fair (state.locks mutex) (state.queued mutex) (state.handed mutex)

/-- System operations keep the cores seated and disturb nobody. -/
theorem seated_system {marked : TaskId → Prop} {after : Cores} (seated : Cores.Seated marked cores)
    (unready : cores.NoneReadied op) (system : isSystem op = true) (taken : cores.step op = some after)
    : Cores.Seated marked after ∧ Cores.Undisturbed none cores.queue after.queue := by
  have unmarked : op.marks = none := by cases op <;> first | rfl | cases system
  rcases Cores.step_cases taken with ⟨core, preempt, switched, rfl, chosen, rfl⟩ | ⟨core, rfl, rfl⟩
    | ⟨queue, moved, rfl⟩
  · exact ⟨(seated.switch unready chosen).mono (fun _ both => both.1),
      seated.switch_undisturbed chosen⟩
  · exact ⟨⟨seated.placed, seated.running, seated.idles, seated.idle⟩, .refl _⟩
  · constructor
    · refine (seated.op moved ?_ (by simp [unmarked])).mono ?_
      · rintro name core rfl
        cases system
      · rintro task (marked | marks)
        · exact marked
        · exact absurd (by simp [Cores.Op.Spares, unmarked]) marks
    · refine Cores.queueStep_undisturbed moved ⟨?_, ?_⟩ none (by simp [unmarked]) ?_
      · rintro core rfl
        cases system
      · rintro id rfl
        cases system
      · rintro core rfl
        cases system

section Preserved

variable {state after : Mutexes} {core : Nat}

theorem Sound.alive_of_kept (sound : Sound state) (kept : Cores.WakeKept state.cores.queue task)
    : Cores.Alive state.cores.queue task := by
  obtain ⟨mutex, phase, _⟩ := (sound.fits task).kept.mp kept
  rw [place_phase] at phase
  exact sound.alive task (by simp [Phase.Out, phase])

/-- Scheduling that blocks and wakes nobody changes nothing for a task that doesn't finish. Meanwhile
tasks outside `lock` may start or stop to yield.
-/
theorem Sound.undisturbed {gone : Option TaskId} {phases : TaskId → Phase} (sound : Sound state)
    (seated : Cores.Seated (fun task => phases task = .yielding) cores)
    (calm : Cores.Undisturbed gone state.cores.queue cores.queue)
    (stays
      : ∀ task, phases task = state.phase task ∨ (state.phase task).Out ∧ (phases task).Out)
    (leaves : ∀ id ∈ gone, (phases id).Out)
    : Sound { state with cores, phase := phases } := by
  have waking (waker task : TaskId) : phases waker = .waking task ↔ state.phase waker = .waking task := by
    rcases stays waker with same | ⟨before | before, after | after⟩
    · rw [same]
    all_goals simp [before, after]
  refine { sound with seated, fits := fun task => ?_, alive := fun task busy => ?_, waker := ?_ }
  · have kept : Cores.WakeKept cores.queue task ↔ Cores.WakeKept state.cores.queue task :=
      ⟨calm.unkept task, fun kept => calm.kept task (sound.alive_of_kept kept) kept⟩
    have same : place { state with cores, phase := phases } task
        = { state.place task with phase := phases task } := by
      simp only [place, calm.blocked, kept, waking]
    rw [same]
    rcases stays task with same | ⟨before, after⟩
    · rw [same]
      exact sound.fits task
    · exact (sound.fits task).out before after
  · have other : some task ≠ gone := fun same => busy (leaves task same.symm)
    rcases stays task with same | ⟨_, after⟩
    · exact calm.alive task other (sound.alive task (same ▸ busy))
    · exact absurd after busy
  · simp only [waking]
    exact sound.waker

theorem Sound.system (sound : Sound state) (unready : state.cores.NoneReadied op)
    (taken : state.step (.system op) = some after)
    : Sound after := by
  simp only [step, Option.ite_none_right_eq_some, Option.map_eq_some_iff] at taken
  obtain ⟨system, cores, moved, rfl⟩ := taken
  obtain ⟨seated, calm⟩ := seated_system sound.seated unready system moved
  exact sound.undisturbed seated calm (fun _ => Or.inl rfl) (by simp)

variable {task : TaskId} {mutex : Nat} {phase : Phase} {place : Place}

section Sound

variable (sound : Sound state)
include sound

/-- The task a core is running is there and not blocked, unless it is about to yield. -/
theorem Sound.acting_running (steady : state.phase task ≠ .yielding)
    (runs : state.cores.queue.currentTask core = some task)
    : state.cores.queue.state task = some .running :=
  sound.seated.running core task steady runs

theorem Sound.unblocked (steady : state.phase task ≠ .yielding)
    (runs : state.cores.queue.currentTask core = some task)
    : ¬ (state.place task).blocked := by
  simp [sound.acting_running steady runs]

theorem Sound.acting_alive (steady : state.phase task ≠ .yielding) (acts : state.acting core = some task)
    : Cores.Alive state.cores.queue task := by
  have running := sound.acting_running steady (acting_eq_some.mp acts).1
  obtain ⟨standing, found, state⟩ := Option.map_eq_some_iff.mp (RunQueue.state_eq_standing .. ▸ running)
  exact ⟨standing, found, by simp [state]⟩

omit sound in
/-- A task outside `lock` changes between free and yielding. -/
theorem stays_setPhase (out : (state.phase task).Out) (stays : phase.Out) (other : TaskId)
    : (state.setPhase task phase).phase other = state.phase other
      ∨ (state.phase other).Out ∧ ((state.setPhase task phase).phase other).Out := by
  rw [setPhase_phase, update_apply]
  split
  · rename_i same
    rw [same]
    exact .inr ⟨out, stays⟩
  · exact .inl rfl

theorem Sound.rest (taken : state.step (.rest core op) = some after) : Sound after := by
  simp only [step, Option.bind_eq_some_iff, Option.ite_none_right_eq_some] at taken
  obtain ⟨task, acts, ⟨free, marks, notBlock⟩, taken⟩ := taken
  obtain ⟨queue, marked, rfl⟩ := Option.map_eq_some_iff.mp taken
  have plain : op.Plain := by
    constructor
    · rintro other rfl
      cases marks
      exact notBlock rfl
    · rintro id rfl
      cases marks
  obtain ⟨runs, busy⟩ := acting_eq_some.mp acts
  have calm : Cores.Undisturbed (some task) state.cores.queue queue := by
    refine Cores.queueStep_undisturbed marked plain (some task) ?_ ?_
    · intro other found same current
      cases marks.symm.trans same
      cases runs.symm.trans current
      exact sound.acting_running (by simp [free]) runs
    · rintro other rfl
      rw [← runs, Option.some.inj marks]
  refine sound.undisturbed ?_ calm (stays_setPhase (Or.inl free) (Or.inr rfl)) ?_
  · refine (sound.seated.mark marked marks runs busy).mono ?_
    rintro found (yielding | rfl)
    · rw [setPhase_phase, update_apply, yielding, ite_self]
    · rw [setPhase_phase, update_self]
  · rintro id same
    rw [← Option.some.inj same, setPhase_phase, update_self]
    exact .inr rfl

theorem Sound.yield (unready : state.cores.NoneReadied (.switch core true))
    (taken : state.step (.yield core) = some after)
    : Sound after := by
  simp only [step, Option.bind_eq_some_iff, Option.ite_none_right_eq_some] at taken
  obtain ⟨task, acts, yielding, taken⟩ := taken
  obtain ⟨switched, chosen, rfl⟩ := Option.map_eq_some_iff.mp taken
  obtain ⟨runs, _⟩ := acting_eq_some.mp acts
  obtain rfl : switched.current = task :=
    Option.some.inj ((Cores.switch_fields chosen).1.symm.trans runs)
  refine sound.undisturbed ?_ (sound.seated.switch_undisturbed chosen)
    (stays_setPhase (Or.inr yielding) (Or.inl rfl)) (by simp)
  refine (sound.seated.switch unready chosen).mono ?_
  rintro found ⟨marked, other⟩
  rw [setPhase_phase, update_of_ne other]
  exact marked

/-- Who is about to be woken, once a task is elsewhere. -/
theorem Sound.woken_iff (task : TaskId) (phase : Phase) (next : TaskId)
    : (∃ waker, (if waker = task then phase else state.phase waker) = .waking next)
      ↔ phase = .waking next
        ∨ (∃ waker, state.phase waker = .waking next) ∧ state.phase task ≠ .waking next := by
  constructor
  · rintro ⟨waker, wakes⟩
    split at wakes
    · exact .inl wakes
    · rename_i elsewhere
      exact .inr ⟨⟨waker, wakes⟩, fun mine => elsewhere (sound.waker waker task next wakes mine)⟩
  · rintro (wakes | ⟨⟨waker, wakes⟩, other⟩)
    · exact ⟨task, by rwa [if_pos rfl]⟩
    · refine ⟨waker, ?_⟩
      rwa [if_neg]
      rintro rfl
      exact other wakes

theorem Sound.fits_update (task : TaskId) (fits : place.Fits) (here : after.place task = place)
    (others : ∀ other, other ≠ task → after.place other = state.place other) (other : TaskId)
    : (after.place other).Fits := by
  by_cases same : other = task
  · rw [same, here]
    exact fits
  · rw [others other same]
    exact sound.fits other

/-- The task a core is running moves on in `lock`, and wakes nobody or somebody new. -/
theorem Sound.moved (acts : state.acting core = some task) (steady : state.phase task ≠ .yielding)
    (changed : after.phase = update state.phase task phase)
    (waking : ∀ next, phase = .waking next → ¬ (state.place next).woken)
    (seated : Cores.Seated (fun task => state.phase task = .yielding) after.cores)
    (lives : ∀ id, Cores.Alive state.cores.queue id → Cores.Alive after.cores.queue id)
    (fits : ∀ other, (after.place other).Fits)
    (fair : ∀ mutex, Fair (after.locks mutex) (after.queued mutex) (after.handed mutex))
    : Sound after := by
  have alive := sound.acting_alive steady acts
  refine ⟨seated.mono (fun found yielding => ?_), fits, fun other busy => ?_,
    fun first second next left right => ?_, fair⟩
  · rw [changed, update_of_ne]
    · exact yielding
    · rintro rfl
      exact steady yielding
  · rw [changed, update_apply] at busy
    split at busy
    · subst other
      exact lives task alive
    · exact lives other (sound.alive other busy)
  · rw [changed, update_apply] at left right
    split at left <;> split at right
    · simp_all
    · exact absurd ⟨second, right⟩ (waking next left)
    · exact absurd ⟨first, left⟩ (waking next right)
    · exact sound.waker first second next left right

theorem Sound.fair_update (mutex : Nat)
    (here : Fair (after.locks mutex) (after.queued mutex) (after.handed mutex))
    (others
      : ∀ found,
          found ≠ mutex
          → after.locks found = state.locks found
            ∧ after.queued found = state.queued found
            ∧ after.handed found = state.handed found) (found : Nat)
    : Fair (after.locks found) (after.queued found) (after.handed found) := by
  by_cases same : found = mutex
  · rwa [same]
  · obtain ⟨locks, queued, handed⟩ := others found same
    rw [locks, queued, handed]
    exact sound.fair found

omit sound in
theorem place_eq_iff {first second : Place}
    : first = second
      ↔ first.phase = second.phase
        ∧ first.inside = second.inside
        ∧ (∀ mutex, first.owns mutex ↔ second.owns mutex)
        ∧ (∀ mutex, first.waits mutex ↔ second.waits mutex)
        ∧ (first.woken ↔ second.woken)
        ∧ (first.blocked ↔ second.blocked)
        ∧ (first.kept ↔ second.kept) := by
  simp [Place.ext_iff, funext_iff]

/-- Acquiring a free mutex: it was nobody's, so nobody else waits for it. -/
theorem Sound.acquire (free : state.phase task = .free) (unowned : (state.locks mutex).owner = none)
    : Sound ((state.setLock mutex { state.locks mutex with owner := some task }).setInside task
        (mutex :: state.inside task)) := by
  have unheld : ¬ (state.place task).owns mutex := by simp [unowned]
  refine { sound with
    fits := sound.fits_update task ((sound.fits task).acquire free unheld) ?_ (fun other same => ?_)
    fair := sound.fair_update mutex ?_ (fun found other => by simp [other]) }
  · simp [place_eq_iff, update_apply]
    grind
  · simp [place_eq_iff, update_apply, same]
    grind
  · obtain ⟨once, held, ordered⟩ := sound.fair mutex
    exact ⟨by simpa using once, by simp, by simpa using ordered⟩

theorem Sound.queue (acts : state.acting core = some task)
    (free : state.phase task = .free) (owned : (state.locks mutex).owner ≠ none)
    (notMine : (state.locks mutex).owner ≠ some task)
    : Sound { (state.setLock mutex { state.locks mutex with
            waiters := (state.locks mutex).waiters ++ [task] }).setPhase task (.queued mutex) with
          queued := update state.queued mutex (state.queued mutex ++ [task]) } := by
  have fits := (sound.fits task).queue free notMine
  refine sound.moved acts (by simp [free]) rfl (by simp) sound.seated (fun _ alive => alive)
    (sound.fits_update task fits ?_ (fun other same => ?_))
    (sound.fair_update mutex ?_ (fun found other => by simp [other]))
  · simp [place_eq_iff, sound.woken_iff, free, update_apply]
    grind
  · simp [place_eq_iff, sound.woken_iff, free, update_apply, same]
    grind
  · obtain ⟨once, held, ordered⟩ := sound.fair mutex
    have absent : task ∉ (state.locks mutex).waiters := by
      intro waits
      simpa [Phase.Awaits, free] using ((sound.fits task).waits mutex).mp waits
    refine ⟨?_, by simp [owned], by simp [ordered]⟩
    simpa using List.nodup_append_comm.mp (List.nodup_cons.mpr ⟨absent, once⟩)

/-- Blocking: the task stays runnable if the mutex was handed over and the wake-up came. -/
theorem Sound.block (acts : state.acting core = some task)
    (queued : state.phase task = .queued mutex) (unready : state.cores.ParkUnready core)
    (parked : state.cores.park core = some cores)
    : Sound { state.setPhase task (.blocking mutex) with cores } := by
  obtain ⟨runs, busy⟩ := acting_eq_some.mp acts
  have steady : state.phase task ≠ .yielding := by simp [queued]
  obtain ⟨blocked, kept, unkept, alive⟩ := sound.seated.block_effect steady runs busy parked
  refine sound.moved acts steady rfl (by simp) (sound.seated.park runs busy unready parked) alive
    (sound.fits_update task ((sound.fits task).block queued) ?_ (fun other same => ?_)) sound.fair
  · simp [place_eq_iff, sound.woken_iff, queued, update_apply, blocked]
    exact fun kept => (unkept task kept).1 rfl
  · simp [place_eq_iff, sound.woken_iff, queued, update_apply, same, blocked]
    exact ⟨fun kept => (unkept other kept).2,
      fun found => kept other same (sound.alive_of_kept found) found⟩

/-- Entering: a task that `block` returned to owns its mutex, and its wake-up is past. -/
theorem Sound.enter (acts : state.acting core = some task)
    (blocking : state.phase task = .blocking mutex)
    : Sound ((state.setPhase task .free).setInside task (mutex :: state.inside task)) := by
  have steady : state.phase task ≠ .yielding := by simp [blocking]
  have fits := (sound.fits task).enter blocking (sound.unblocked steady (acting_eq_some.mp acts).1)
  refine sound.moved acts steady rfl (by simp) sound.seated (fun _ alive => alive)
    (sound.fits_update task fits ?_ (fun other same => ?_)) sound.fair
  · simp [place_eq_iff, sound.woken_iff, blocking, update_apply]
  · simp [place_eq_iff, sound.woken_iff, blocking, update_apply, same]

theorem Sound.release {rest : List Nat} (free : state.phase task = .free)
    (inside : state.inside task = mutex :: rest) (mine : (state.locks mutex).owner = some task)
    (empty : (state.locks mutex).waiters = [])
    : Sound ((state.setLock mutex .new).setInside task rest) := by
  have fits := (sound.fits task).leave free inside (Or.inl free)
  refine { sound with
    fits := sound.fits_update task fits ?_ (fun other same => ?_)
    fair := sound.fair_update mutex ?_ (fun found other => by simp [other]) }
  · simp [place_eq_iff, update_apply, LockState.new]
    grind
  · simp [place_eq_iff, update_apply, same, LockState.new]
    grind
  · have ordered := (sound.fair mutex).ordered
    rw [empty] at ordered
    exact ⟨by simp [LockState.new], by simp [LockState.new], by simpa [LockState.new] using ordered⟩

/-- Unlocking with a waiter: it owns the mutex now, with its wake-up to come. -/
theorem Sound.handOver {rest : List Nat} {waiters : List TaskId}
    (acts : state.acting core = some task) (free : state.phase task = .free)
    (inside : state.inside task = mutex :: rest) (mine : (state.locks mutex).owner = some task)
    (head : (state.locks mutex).waiters = next :: waiters)
    : Sound { ((state.setLock mutex { owner := some next, waiters }).setInside task rest).setPhase
          task (.waking next) with
        handed := update state.handed mutex (state.handed mutex ++ [next]) } := by
  obtain ⟨once, held, ordered⟩ := sound.fair mutex
  rw [head] at once ordered
  have first : (state.place next).waits mutex := by simp [head]
  obtain ⟨awaits, notMine⟩ := ((sound.fits next).waits mutex).mp first
  have differs : next ≠ task := by
    rintro rfl
    exact notMine mine
  -- the new owner had no wake-up coming: that would have made it the owner of what it awaits
  have unwoken : ¬ (state.place next).woken := by
    intro woken
    obtain ⟨found, same, owns⟩ := (sound.fits next).woken woken
    obtain rfl := same.unique awaits
    exact notMine owns
  refine sound.moved acts (by simp [free]) rfl ?_ sound.seated (fun _ alive => alive) (fun other => ?_)
    (sound.fair_update mutex ?_ (fun found other => by simp [other]))
  · rintro _ ⟨⟩
    exact unwoken
  · by_cases left : other = task
    · subst left
      convert (sound.fits other).leave free inside (Or.inr ⟨next, rfl⟩) using 1
      simp [place_eq_iff, sound.woken_iff, update_apply]
      grind
    by_cases received : other = next
    · subst received
      convert (sound.fits other).receive first using 1
      simp [place_eq_iff, update_apply, left]
      grind
    · convert sound.fits other using 1
      simp [place_eq_iff, sound.woken_iff, update_apply, left, free]
      grind
  · exact ⟨by simpa using (List.nodup_cons.mp once).2, by simp, by simp [ordered]⟩

/-- The wake-up: a blocked owner is ready again, and one that hasn't blocked yet won't. -/
theorem Sound.wake (acts : state.acting core = some task) (waking : state.phase task = .waking next)
    : Sound { state.setPhase task .free with
        cores := { state.cores with queue := (state.cores.queue.wake next).1 } } := by
  have woken : (state.place next).woken := ⟨task, waking⟩
  obtain ⟨mutex, awaits, mine⟩ := (sound.fits next).woken woken
  have alive : Cores.Alive state.cores.queue next := by
    rw [place_phase] at awaits
    exact sound.alive next (by grind [Phase.Awaits, Phase.Out])
  have differs : next ≠ task := by
    rintro rfl
    simp [Phase.Awaits, waking] at awaits
  obtain ⟨blocked, kept, lives⟩ := Cores.wake_effect state.cores.queue alive
  have seated : Cores.Seated (fun task => state.phase task = .yielding)
      { state.cores with queue := (state.cores.queue.wake next).1 } := by
    have stepped : Cores.queueStep state.cores.queue (.wake next)
        = some (state.cores.queue.wake next).1 := rfl
    refine (sound.seated.op stepped (by simp) ?_).mono ?_
    · rintro _ _ ⟨⟩
    · rintro found (yielding | marks)
      · exact yielding
      · exact absurd (by rintro _ ⟨⟩) marks
  refine sound.moved acts (by simp [waking]) rfl (by simp) seated lives (fun other => ?_) sound.fair
  by_cases woke : other = task
  · subst woke
    convert (sound.fits other).wake waking using 1
    simp [place_eq_iff, sound.woken_iff, update_apply, waking, blocked,
      kept, differs.symm]
    grind
  by_cases received : other = next
  · subst received
    convert (sound.fits other).rouse woken using 1
    simp [place_eq_iff, sound.woken_iff, update_apply, waking, blocked, kept, woke]
  · convert sound.fits other using 1
    simp [place_eq_iff, sound.woken_iff, update_apply, waking, blocked, kept, woke,
      received]
    grind

theorem Sound.step {event : Event} (unready : state.Unready event)
    (taken : state.step event = some after)
    : Sound after := by
  cases event with
  | lock core mutex =>
    obtain ⟨task, acts, taken⟩ := Option.bind_eq_some_iff.mp taken
    split at taken
    case h_1 lock free locked =>
      rcases LockState.lock_cases locked with ⟨unowned, _, rfl⟩ | ⟨_, _, other, _⟩
      · cases taken
        exact sound.acquire free unowned
      · cases other
    case h_2 lock free locked =>
      rcases LockState.lock_cases locked with ⟨_, other, _⟩ | ⟨owned, notMine, _, rfl⟩
      · cases other
      · cases taken
        exact sound.queue acts free owned notMine
    case h_3 => cases taken
  | block core =>
    obtain ⟨task, acts, taken⟩ := Option.bind_eq_some_iff.mp taken
    split at taken
    case h_1 mutex queued =>
      obtain ⟨cores, parked, rfl⟩ := Option.map_eq_some_iff.mp taken
      exact sound.block acts queued unready parked
    case h_2 => cases taken
  | enter core =>
    obtain ⟨task, acts, taken⟩ := Option.bind_eq_some_iff.mp taken
    split at taken
    case h_1 mutex blocking =>
      cases taken
      exact sound.enter acts blocking
    case h_2 => cases taken
  | unlock core =>
    obtain ⟨task, acts, taken⟩ := Option.bind_eq_some_iff.mp taken
    split at taken
    case h_1 mutex rest free inside =>
      split at taken
      case h_1 lock next unlocked =>
        obtain ⟨mine, head, rfl⟩ := LockState.unlock_cases unlocked
        obtain ⟨waiters, shape⟩ := List.head?_eq_some_iff.mp head.symm
        rw [shape] at taken
        cases taken
        exact sound.handOver acts free inside mine shape
      case h_2 lock unlocked =>
        obtain ⟨mine, head, rfl⟩ := LockState.unlock_cases unlocked
        have empty := List.head?_eq_none_iff.mp head.symm
        rw [empty] at taken
        cases taken
        exact sound.release free inside mine empty
      case h_3 => cases taken
    case h_2 => cases taken
  | wake core =>
    obtain ⟨task, acts, taken⟩ := Option.bind_eq_some_iff.mp taken
    split at taken
    case h_1 next waking =>
      cases taken
      exact sound.wake acts waking
    case h_2 => cases taken
  | rest core op => exact sound.rest taken
  | yield core => exact sound.yield unready taken
  | system op => exact sound.system unready taken

end Sound

theorem Sound.new (name : String) (others : Nat) : Sound (Mutexes.new name others) := by
  have calm {task : TaskId} {standing : Standing}
      (found : (Mutexes.new name others).cores.queue.standing task = some standing)
      : standing.state ≠ .blocked ∧ standing.wakePending = false := by
    rcases Cores.init_standing found with rfl | rfl <;> exact ⟨nofun, rfl⟩
  refine ⟨Cores.init_seated, fun task => ?_, fun _ busy => absurd (Or.inl rfl) busy,
    by simp [Mutexes.new], fun _ => ⟨List.nodup_nil, fun _ => rfl, rfl⟩⟩
  have unblocked : ¬ ((Mutexes.new name others).place task).blocked := by
    rw [place_blocked, RunQueue.state_eq_standing, Option.map_eq_some_iff]
    exact fun ⟨standing, found, blocked⟩ => (calm found).1 blocked
  have unkept : ¬ ((Mutexes.new name others).place task).kept :=
    fun ⟨standing, found, kept⟩ => Bool.noConfusion (kept.symm.trans (calm found).2)
  constructor <;> simp_all [Mutexes.new, LockState.new, Phase.Awaits]

end Preserved

----------
-- Exclusion, order and wake-ups
----------

/-- At most one task is in a mutex's closure, `block` returns only to the owner, mutexes are
handed over in the order tasks queued, and a blocked task waits in exactly one queue or is about
to be woken as the owner.
-/
structure Orderly (state : Mutexes) : Prop where
  exclusive
    : ∀ mutex first second,
        mutex ∈ state.inside first → mutex ∈ state.inside second → first = second
  returned
    : ∀ core task mutex,
        state.cores.queue.currentTask core = some task
        → state.phase task = .blocking mutex
        → state.owner mutex = some task
  ordered
    : ∀ mutex,
        state.queued mutex = state.handed mutex ++ state.waiters mutex
        ∧ (state.owner mutex = none → state.waiters mutex = [])
  unstranded
    : ∀ task,
        state.cores.queue.state task = some .blocked
        → ∃ mutex,
            state.phase task = .blocking mutex
            ∧ (((state.waiters mutex).count task = 1
                ∧ (∀ other, task ∈ state.waiters other → other = mutex))
              ∨ (state.owner mutex = some task
                ∧ (∀ other, task ∉ state.waiters other)
                ∧ ∃ waker,
                    state.phase waker = .waking task
                    ∧ Cores.Alive state.cores.queue waker
                    ∧ state.cores.queue.state waker ≠ some .blocked))

theorem Sound.orderly (sound : Sound state) : Orderly state where
  exclusive mutex first second left right := by
    have mine := ((sound.fits first).inside mutex left).1
    exact (Option.some.inj (((sound.fits second).inside mutex right).1.symm.trans mine)).symm
  returned core task mutex runs blocking :=
    ((sound.fits task).returned blocking (sound.unblocked (by simp [blocking]) runs)).1
  ordered mutex := ⟨(sound.fair mutex).ordered, (sound.fair mutex).held⟩
  unstranded task blocked := by
    have fits := sound.fits task
    obtain ⟨mutex, blocking, unready⟩ := fits.blocked.mp blocked
    refine ⟨mutex, blocking, ?_⟩
    by_cases mine : state.owner mutex = some task
    · obtain ⟨waker, waking⟩ := unready.resolve_left (not_not.mpr mine)
      refine Or.inr ⟨mine, ?_, waker, waking, sound.alive waker (by simp [Phase.Out, waking]), ?_⟩
      · intro other waits
        obtain ⟨awaits, notMine⟩ := (fits.waits other).mp waits
        obtain rfl := awaits.unique (Or.inr blocking)
        exact notMine mine
      · intro blocked
        obtain ⟨other, phase, _⟩ := (sound.fits waker).blocked.mp blocked
        cases waking.symm.trans phase
    · refine Or.inl ⟨?_, ?_⟩
      · exact List.count_eq_one_of_mem (sound.fair mutex).once
          ((fits.waits mutex).mpr ⟨Or.inr blocking, mine⟩)
      · intro other waits
        exact ((fits.waits other).mp waits).1.unique (Or.inr blocking)

theorem sound_of_reaches {name : String} {others : Nat} {state : Mutexes}
    (run : Reaches step Unready (Mutexes.new name others) state)
    : Sound state :=
  run.invariant (.new name others) (fun _ _ _ sound unready taken => sound.step unready taken)

/-- A task takes a mutex and sleeps; the next one queues for it and blocks. -/
def contention : List Event :=
  [.system (.add "worker"), .lock 0 7, .rest 0 (.sleepCurrent 0 10), .yield 0, .lock 0 7, .block 0]

/-- In every such run `lock` panics just for tasks inside the mutex already, and `unlock` for none. -/
theorem panics_of_run {name : String} {others : Nat} {state : Mutexes}
    (run : Reaches step Unready (Mutexes.new name others) state) (mutex : Nat) {task : TaskId}
    (out : ∀ mutex, ¬ (state.phase task).Awaits mutex)
    : ((∃ error, (state.locks mutex).lock task = .error error) ↔ mutex ∈ state.inside task)
      ∧ (mutex ∈ state.inside task → ∃ result, (state.locks mutex).unlock task = .ok result) := by
  have sound := sound_of_reaches run
  have owns : state.owner mutex = some task ↔ mutex ∈ state.inside task :=
    ⟨fun owned => ((sound.fits task).owns mutex owned).resolve_right (out mutex),
      fun inside => ((sound.fits task).inside mutex inside).1⟩
  rw [← owns]
  constructor
  · unfold LockState.lock owner
    cases (state.locks mutex).owner with
    | none => simp
    | some other => by_cases same : other = task <;> simp [same]
  · intro owned
    exact ⟨_, if_neg (not_not.mpr owned)⟩

/-- Witness: a task that is inside a mutex for which another one is blocked. -/
theorem panics_of_contention
    : ∃ state,
        Reaches step Unready (Mutexes.new "main" 0) state
        ∧ state.inside 0 = [7]
        ∧ ∃ result, (state.locks 7).unlock 0 = .ok result := by
  have executed : (runAll step Unready (Mutexes.new "main" 0) contention).any (fun state =>
      state.inside 0 == [7] && state.phase 0 == .free) = true := by
    decide +kernel
  obtain ⟨state, run, found⟩ := Reaches.of_check executed
  rw [Bool.and_eq_true, beq_iff_eq, beq_iff_eq] at found
  obtain ⟨inside, free⟩ := found
  exact ⟨state, run, inside, (panics_of_run run 7 (by simp [Phase.Awaits, free])).2 (by simp [inside])⟩

end Mutexes

end RustyPi.Sched
