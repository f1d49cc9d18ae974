import RustyPi.Lib.Reach
import RustyPi.Sched.Notifications

/-! Who gets a line of input, as in `src/process/mod.rs` and `src/process/handles.rs`. A program that
waits on a child passes its input on, so `send_line` follows `waiting_for` through the table of
programs, which it holds the lock of. Ids are given out in order and only the program that started
a child gets its handle, so the ids passed grow and the loop ends.

A call that fails leaves the table as it was. Left out of a program are its memory, its streams,
its current directory and what is in what it has open.
-/

namespace RustyPi.Process.Inputs

open Function RustyPi.Sched RustyPi.Reach

def maxHandles : Nat := 16

/-- The first handle given out; below it are `INPUT` and `OUTPUT`. -/
def firstHandle : Nat := 2

/-- Most bytes of unread input a program can have waiting. -/
def maxInput : Nat := 4096

inductive Open
  | file
  | dir
  | child (id : TaskId)
  | pipe
  | screen
  | newFile
  deriving DecidableEq, Repr

/-- A program's open handles. Handle `firstHandle + n` is slot `n`. -/
abbrev Handles := List (Option Open)

namespace Handles

/-- With one more handle, unless there are too many. -/
def insert (handles : Handles) (opened : Open) : Handles :=
  match handles.findIdx? Option.isNone with
  | some slot => handles.set slot (some opened)
  | none => if handles.length < maxHandles then handles ++ [some opened] else handles

def hasRoom (handles : Handles) : Bool := 0 < maxHandles - handles.countP Option.isSome

def take (handles : Handles) (handle : Nat) : Option (Handles × Open) :=
  if handle < firstHandle then none
  else handles[handle - firstHandle]?.join.map (fun opened =>
    (handles.set (handle - firstHandle) none, opened))

end Handles

/-- What the kernel keeps about a running program. -/
structure Running where
  name : String
  killed : Bool := false
  input : List UInt8 := []
  readingInput : Bool := false
  handles : Handles := []
  waitingFor : Option TaskId := none
  deriving DecidableEq, Repr

/-- Where a program is in a call of several critical sections: in `spawn` with a child that has no
handle yet, in the loop of `wait`, or in `exit` and out of the table.
-/
inductive Phase
  | idle
  | spawned (child : TaskId)
  | waiting (child : TaskId)
  | exiting
  deriving DecidableEq, Repr

/-- The run queue, the running programs, and whose `exit` is set. -/
structure Programs where
  queue : RunQueue
  processes : TaskId → Option Running
  ended : TaskId → Bool
  phase : TaskId → Phase

inductive InputError
  | notAProgram
  | full
  deriving DecidableEq, Repr

structure Delivered where
  task : TaskId
  name : String
  reading : Bool
  deriving DecidableEq, Repr

namespace Programs

/-- No program yet, on any run queue. -/
def new (queue : RunQueue) : Programs :=
  { queue, processes := fun _ => none, ended := fun _ => false, phase := fun _ => .idle }

def put (state : Programs) (task : TaskId) (phase : Phase) (running : Option Running) : Programs :=
  { state with
    processes := update state.processes task running
    phase := update state.phase task phase }

/-- The loop of `send_line`, if it ends within so many rounds. -/
def follow (state : Programs) : (rounds : Nat) → (target : TaskId) → Option TaskId
  | 0, _ => none
  | rounds + 1, target =>
    match (state.processes target).bind Running.waitingFor with
    | some child => if (state.processes child).isSome then state.follow rounds child else some target
    | none => some target

/-- The locked part of `send_line`. The notification after it is a call on the run queue. -/
def sendLine (state : Programs) (rounds : Nat) (id : TaskId) (line : List UInt8)
    : Option (Except InputError Delivered × Programs) :=
  (state.follow rounds id).map (fun target =>
    match state.processes target with
    | none => (.error .notAProgram, state)
    | some running =>
      if maxInput < running.input.length + line.length + 1 then (.error .full, state)
      else
        (.ok { task := target, name := running.name, reading := running.readingInput },
          state.put target (state.phase target)
            (some { running with input := running.input ++ line ++ [0x0A] })))

def calling (state : Programs) (task : TaskId) : Option Running :=
  if state.phase task = .idle then state.processes task else none

/-- The locked part of `spawn_with`. -/
def register (state : Programs) (name : String) : Programs :=
  let (queue, id) := state.queue.add name
  { state with queue, processes := update state.processes id (some { name }) }

inductive Event
  /-- A call of anything else on the run queue. -/
  | other (call : Call)
  /-- `spawn` by the shell. -/
  | spawn (name : String)
  | spawnChild (task : TaskId) (name : String)
  /-- The end of `spawn`, where the child gets its handle. -/
  | keepChild (task : TaskId)
  | openHandle (task : TaskId) (opened : Open)
  | close (task : TaskId) (handle : Nat)
  | wait (task : TaskId) (handle : Nat)
  | waited (task : TaskId)
  | setReading (task : TaskId) (reading : Bool)
  | drain (task : TaskId) (count : Nat)
  | sendLine (rounds : Nat) (id : TaskId) (line : List UInt8)
  | kill (id : TaskId)
  | exit (task : TaskId)
  /-- The end of `exit`, where its status is set. -/
  | exited (task : TaskId)

/-- One critical section; `none` where there is no such program or it can't. -/
def step (state : Programs) : Event → Option Programs
  | .other call => (call.apply state.queue).map (fun queue => { state with queue })
  | .spawn name => some (state.register name)
  | .spawnChild task name =>
    (state.calling task).bind (fun running =>
      if running.handles.hasRoom then
        some ((state.put task (.spawned state.queue.tasks.length) (some running)).register name)
      else none)
  | .keepChild task =>
    match state.phase task, state.processes task with
    | .spawned child, some running =>
      some (state.put task .idle
        (some { running with handles := running.handles.insert (.child child) }))
    | _, _ => none
  | .openHandle task opened =>
    (state.calling task).bind (fun running =>
      match opened with
      | .child _ => none
      | opened =>
        some (state.put task .idle (some { running with handles := running.handles.insert opened })))
  | .close task handle =>
    (state.calling task).bind (fun running =>
      (running.handles.take handle).map (fun (handles, _) =>
        state.put task .idle (some { running with handles })))
  | .wait task handle =>
    (state.calling task).bind (fun running =>
      match running.handles.take handle with
      | some (handles, .child child) =>
        some (state.put task (.waiting child)
          (some { running with handles, waitingFor := some child }))
      | _ => none)
  | .waited task =>
    match state.phase task, state.processes task with
    | .waiting child, some running =>
      if state.ended child ∨ running.killed then
        some (state.put task .idle (some { running with waitingFor := none }))
      else none
    | _, _ => none
  | .setReading task reading =>
    (state.calling task).map (fun running =>
      state.put task .idle (some { running with readingInput := reading }))
  | .drain task count =>
    (state.calling task).map (fun running =>
      state.put task .idle (some { running with input := running.input.drop count }))
  | .sendLine rounds id line => (state.sendLine rounds id line).map Prod.snd
  | .kill id =>
    (state.processes id).map (fun running =>
      state.put id (state.phase id) (some { running with killed := true }))
  | .exit task => (state.calling task).map (fun _ => state.put task .exiting none)
  | .exited task =>
    if state.phase task = .exiting then
      some { state with ended := update state.ended task true }
    else none

end Programs

theorem Handles.mem_insert {handles : Handles} {opened held : Open}
    (member : some held ∈ handles.insert opened)
    : some held ∈ handles ∨ held = opened := by
  unfold Handles.insert at member
  split at member
  · exact (List.mem_or_eq_of_mem_set member).imp_right Option.some.inj
  · split at member
    · exact (List.mem_append.mp member).imp_right (fun new =>
        Option.some.inj (List.mem_singleton.mp new))
    · exact .inl member

theorem Handles.take_spec {handles after : Handles} {handle : Nat} {opened : Open}
    (taken : handles.take handle = some (after, opened))
    : some opened ∈ handles ∧ ∀ held, some held ∈ after → some held ∈ handles := by
  unfold Handles.take at taken
  rw [Option.ite_none_left_eq_some] at taken
  obtain ⟨found, there, same⟩ := Option.map_eq_some_iff.mp taken.2
  cases same
  refine ⟨List.mem_of_getElem? (Option.join_eq_some_iff.mp there), fun held member => ?_⟩
  exact (List.mem_or_eq_of_mem_set member).resolve_right nofun

namespace Programs

/-- A program holds a child's handle, waits on it, or has just started it. -/
inductive Watches (state : Programs) (task child : TaskId) : Prop
  | held {running : Running} (found : state.processes task = some running)
    (holds : some (.child child) ∈ running.handles)
  | waits {running : Running} (found : state.processes task = some running)
    (waits : running.waitingFor = some child)
  | started (spawned : state.phase task = .spawned child)

/-- What a step does to the programs: nothing, another one is registered, one is changed and learns
of no child, one goes, or one starts a child.
-/
inductive Change (state : Programs) : Programs → Prop
  | kept {after} (processes : after.processes = state.processes)
    (phase : after.phase = state.phase)
    (grown : state.queue.tasks.length ≤ after.queue.tasks.length)
    : Change state after
  | registered (name : String) : Change state (state.register name)
  | changed {task phase running new}
    (found : state.processes task = some running)
    (holds : ∀ child, some (.child child) ∈ new.handles → state.Watches task child)
    (waits : ∀ child, new.waitingFor = some child → state.Watches task child)
    (spawned : ∀ child, phase = .spawned child → state.Watches task child)
    : Change state (state.put task phase (some new))
  | removed (task : TaskId) : Change state (state.put task .exiting none)
  | started {task running} (name : String)
    (found : state.processes task = some running)
    : Change state
        ((state.put task (.spawned state.queue.tasks.length) (some running)).register name)

variable {state after : Programs} {task id : Nat} {running : Running} {event : Event}

theorem calling_eq_some (calls : state.calling task = some running)
    : state.phase task = .idle ∧ state.processes task = some running :=
  Option.ite_none_right_eq_some.mp calls

theorem change_of_step (taken : state.step event = some after) : Change state after := by
  cases event with
  | other call =>
    obtain ⟨queue, applied, rfl⟩ := Option.map_eq_some_iff.mp taken
    exact .kept rfl rfl (Call.apply_length applied)
  | spawn name =>
    cases taken
    exact .registered name
  | spawnChild task name =>
    obtain ⟨running, calls, started⟩ := Option.bind_eq_some_iff.mp taken
    rw [Option.ite_none_right_eq_some] at started
    cases started.2
    exact .started name (calling_eq_some calls).2
  | keepChild task =>
    simp only [step] at taken
    split at taken
    · rename_i spawned found
      cases taken
      refine .changed found (fun child holds => ?_) (fun _ waits => .waits found waits) nofun
      rcases Handles.mem_insert holds with old | new
      · exact .held found old
      · cases new
        exact .started spawned
    · cases taken
  | openHandle task opened =>
    obtain ⟨running, calls, changed⟩ := Option.bind_eq_some_iff.mp taken
    obtain ⟨-, found⟩ := calling_eq_some calls
    split at changed
    · cases changed
    · rename_i notChild
      cases changed
      refine .changed found (fun child holds => ?_) (fun _ waits => .waits found waits) nofun
      exact .held found ((Handles.mem_insert holds).resolve_right (fun same =>
        notChild child same.symm))
  | close task handle =>
    obtain ⟨running, calls, changed⟩ := Option.bind_eq_some_iff.mp taken
    obtain ⟨⟨handles, opened⟩, closed, rfl⟩ := Option.map_eq_some_iff.mp changed
    obtain ⟨-, found⟩ := calling_eq_some calls
    exact .changed found (fun child holds => .held found ((Handles.take_spec closed).2 _ holds))
      (fun _ waits => .waits found waits) nofun
  | wait task handle =>
    obtain ⟨running, calls, changed⟩ := Option.bind_eq_some_iff.mp taken
    obtain ⟨-, found⟩ := calling_eq_some calls
    split at changed
    · rename_i handles child handed
      cases changed
      obtain ⟨there, rest⟩ := Handles.take_spec handed
      refine .changed found (fun child holds => .held found (rest _ holds)) ?_ nofun
      rintro _ ⟨⟩
      exact .held found there
    · cases changed
  | waited task =>
    simp only [step] at taken
    split at taken
    · rename_i found
      rw [Option.ite_none_right_eq_some] at taken
      cases taken.2
      exact .changed found (fun _ holds => .held found holds) nofun nofun
    · cases taken
  | setReading task _ | drain task _ =>
    obtain ⟨running, calls, rfl⟩ := Option.map_eq_some_iff.mp taken
    obtain ⟨-, found⟩ := calling_eq_some calls
    exact .changed found (fun _ holds => .held found holds) (fun _ waits => .waits found waits) nofun
  | sendLine rounds id line =>
    obtain ⟨⟨answer, sent⟩, given, rfl⟩ := Option.map_eq_some_iff.mp taken
    obtain ⟨target, _, answered⟩ := Option.map_eq_some_iff.mp given
    have unchanged : Change state state := .kept rfl rfl (Nat.le_refl _)
    split at answered
    · cases answered
      exact unchanged
    · rename_i running found
      split at answered
      · cases answered
        exact unchanged
      · cases answered
        exact .changed found (fun _ holds => .held found holds)
          (fun _ waits => .waits found waits) (fun _ => .started)
  | kill id =>
    obtain ⟨running, found, rfl⟩ := Option.map_eq_some_iff.mp taken
    exact .changed found (fun _ holds => .held found holds) (fun _ waits => .waits found waits)
      (fun _ => .started)
  | exit task =>
    obtain ⟨running, calls, rfl⟩ := Option.map_eq_some_iff.mp taken
    exact .removed task
  | exited task =>
    rw [step, Option.ite_none_right_eq_some] at taken
    cases taken.2
    exact .kept rfl rfl (Nat.le_refl _)

/-- Programs have ids that were given out, and know children with larger ids only. -/
structure Ordered (state : Programs) : Prop where
  known : ∀ (task : Nat) running, state.processes task = some running →
    task < state.queue.tasks.length
  watches : ∀ task child : Nat, state.Watches task child → task < child

theorem Watches.of_same {child : Nat} (processes : after.processes id = state.processes id)
    (phase : after.phase id = state.phase id) (watched : after.Watches id child)
    : state.Watches id child := by
  cases watched with
  | held found holds => exact .held (processes ▸ found) holds
  | waits found waits => exact .waits (processes ▸ found) waits
  | started spawned => exact .started (phase ▸ spawned)

theorem Watches.of_put {phase : Phase} {new : Option Running} {child : Nat}
    (watched : (state.put task phase new).Watches task child)
    : (∃ running ∈ new,
        some (.child child) ∈ running.handles ∨ running.waitingFor = some child)
      ∨ phase = .spawned child := by
  have same : (state.put task phase new).processes task = new := update_self ..
  cases watched with
  | held found holds => exact .inl ⟨_, same.symm.trans found, .inl holds⟩
  | waits found waits => exact .inl ⟨_, same.symm.trans found, .inr waits⟩
  | started spawned => exact .inr ((update_self ..).symm.trans spawned)

theorem Ordered.put {phase : Phase} {new : Option Running} (ordered : state.Ordered)
    (known : new.isSome → task < state.queue.tasks.length)
    (larger : ∀ child : Nat, (state.put task phase new).Watches task child → task < child)
    : (state.put task phase new).Ordered := by
  refine ⟨fun id running found => ?_, fun id child watched => ?_⟩
  · by_cases same : id = task
    · subst same
      rw [show (state.put id phase new).processes id = new from update_self ..] at found
      exact known (Option.isSome_of_eq_some found)
    · exact ordered.known id running ((update_of_ne same ..).symm.trans found)
  · by_cases same : id = task
    · subst same
      exact larger child watched
    · exact ordered.watches id child
        (watched.of_same (update_of_ne same ..) (update_of_ne same ..))

theorem Ordered.register (ordered : state.Ordered) (name : String)
    : (state.register name).Ordered := by
  have more : (state.register name).queue.tasks.length = state.queue.tasks.length + 1 := by
    simp [Programs.register, RunQueue.add]
  have other {id : Nat} (differs : id ≠ state.queue.tasks.length)
      : (state.register name).processes id = state.processes id :=
    update_of_ne differs ..
  have fresh : (state.register name).processes state.queue.tasks.length = some { name } :=
    update_self ..
  refine ⟨fun id running found => ?_, fun id child watched => ?_⟩
  · by_cases same : id = state.queue.tasks.length
    · omega
    · have given := ordered.known id running ((other same).symm.trans found)
      omega
  · by_cases same : id = state.queue.tasks.length
    · subst same
      cases watched with
      | held found holds =>
        cases fresh.symm.trans found
        cases holds
      | waits found waits =>
        cases fresh.symm.trans found
        cases waits
      | started spawned => exact ordered.watches _ child (.started spawned)
    · exact ordered.watches id child (watched.of_same (other same) rfl)

theorem Ordered.change (ordered : state.Ordered) (change : Change state after) : after.Ordered := by
  cases change with
  | kept processes phase grown =>
    refine ⟨fun id running found => ?_, fun id child watched => ?_⟩
    · exact Nat.lt_of_lt_of_le (ordered.known id running (processes ▸ found)) grown
    · exact ordered.watches id child (watched.of_same (congrFun processes id) (congrFun phase id))
  | registered name => exact ordered.register name
  | @changed task _ running _ found holds waits spawned =>
    refine ordered.put (fun _ => ordered.known task running found) (fun child watched => ?_)
    apply ordered.watches task child
    rcases watched.of_put with ⟨_, ⟨⟩, held | waited⟩ | new
    · exact holds child held
    · exact waits child waited
    · exact spawned child new
  | removed task =>
    refine ordered.put nofun (fun child watched => ?_)
    obtain ⟨_, ⟨⟩, _⟩ | spawned := watched.of_put
    cases spawned
  | @started task running name found =>
    refine Ordered.register (ordered.put (fun _ => ordered.known task running found) ?_) name
    intro child watched
    rcases watched.of_put with ⟨_, ⟨⟩, held | waited⟩ | spawned
    · exact ordered.watches task child (.held found held)
    · exact ordered.watches task child (.waits found waited)
    · cases spawned
      exact ordered.known task running found

theorem new_ordered (queue : RunQueue) : (new queue).Ordered where
  known := nofun
  watches := by
    rintro task child (⟨⟨⟩, _⟩ | ⟨⟨⟩, _⟩ | ⟨spawned⟩)
    cases spawned

/-- The loop ends, at a program if it begins at one. By induction on the ids not passed yet. -/
theorem Ordered.follow_ends (ordered : state.Ordered) {left : Nat}
    (few : state.queue.tasks.length - id ≤ left)
    : ∃ target, (∀ rounds, left < rounds → state.follow rounds id = some target)
      ∧ ((state.processes id).isSome → (state.processes target).isSome) := by
  induction left generalizing id with
  | zero =>
    have gone : state.processes id = none := by
      by_contra runs
      obtain ⟨running, found⟩ := Option.ne_none_iff_exists'.mp runs
      have given := ordered.known id running found
      omega
    refine ⟨id, fun rounds more => ?_, fun runs => runs⟩
    obtain ⟨rounds, rfl⟩ := Nat.exists_eq_add_of_lt more
    simp only [follow, gone, Option.bind_none]
  | succ left ih =>
    by_cases passes : ∃ child, (state.processes id).bind Running.waitingFor = some child
        ∧ (state.processes child).isSome
    · obtain ⟨child, waits, there⟩ := passes
      obtain ⟨running, found, waited⟩ := Option.bind_eq_some_iff.mp waits
      have larger := ordered.watches id child (.waits found waited)
      obtain ⟨target, ends, runs⟩ := @ih child (by omega)
      refine ⟨target, fun rounds more => ?_, fun _ => runs there⟩
      obtain ⟨rounds, rfl⟩ := Nat.exists_eq_add_of_lt more
      simp only [follow, waits, if_pos there]
      exact ends _ (by omega)
    · refine ⟨id, fun rounds more => ?_, fun runs => runs⟩
      obtain ⟨rounds, rfl⟩ := Nat.exists_eq_add_of_lt more
      simp only [follow]
      split
      · rename_i child waits
        rw [if_neg (fun there => passes ⟨child, waits, there⟩)]
      · rfl

/-- Whatever programs do, each waits on one with a larger id only, so the loop of `send_line` ends
however many rounds it may take, at a running program if it begins at one.
-/
theorem sendLine_ends (queue : RunQueue) (reached : Programs) (id : Nat)
    (run : Reaches step anyEvent (new queue) reached)
    : (∀ (task child : Nat) running, reached.processes task = some running →
        running.waitingFor = some child → task < child)
      ∧ ∃ target,
          (∀ rounds, reached.queue.tasks.length < rounds + id → 0 < rounds →
            reached.follow rounds id = some target)
          ∧ ((reached.processes id).isSome → (reached.processes target).isSome) := by
  have ordered : reached.Ordered :=
    run.invariant (new_ordered queue) (fun _ _ _ ordered _ taken =>
      ordered.change (change_of_step taken))
  refine ⟨fun task child running found waits => ?_, ?_⟩
  · exact ordered.watches task child (.waits found waits)
  · obtain ⟨target, ends, runs⟩ := ordered.follow_ends (Nat.le_refl (reached.queue.tasks.length - id))
    exact ⟨target, fun rounds more some => ends rounds (by omega), runs⟩

/-- A program waits on a child that waits on one of its own, which gets the line. -/
theorem sendLine_ends_grandchild
    : ∃ reached target, Reaches step anyEvent (new (RunQueue.new "main" 1)) reached
      ∧ reached.follow 3 1 = some 3
      ∧ (∀ rounds, reached.queue.tasks.length < rounds + 1 → 0 < rounds →
          reached.follow rounds 1 = some target)
      ∧ (reached.processes target).isSome := by
  have executed : (runAll step anyEvent (new (RunQueue.new "main" 1))
      [.spawn "sh", .spawnChild 1 "a", .keepChild 1, .wait 1 2, .spawnChild 2 "b", .keepChild 2,
        .wait 2 2]).any
      (fun state => state.follow 3 1 = some 3 ∧ (state.processes 1).isSome) = true := by
    decide +kernel
  obtain ⟨reached, run, checked⟩ := Reaches.of_check executed
  obtain ⟨passed, running⟩ := of_decide_eq_true checked
  obtain ⟨-, target, ends, runs⟩ := sendLine_ends (RunQueue.new "main" 1) reached 1 run
  exact ⟨reached, target, run, passed, ends, runs running⟩

end Programs

end RustyPi.Process.Inputs
