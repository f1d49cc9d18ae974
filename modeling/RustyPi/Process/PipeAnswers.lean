import RustyPi.Process.PipeContents

/-! Whether the answers of reads and writes are true. A call that has found the pipe ready acts on
it in a later step, and another call on the same side may have used up the bytes or the room in
between.
-/

namespace RustyPi.Process.Pipes

open Function RustyPi.Sched RustyPi.Reach

/-- The answer of a call that wasn't told to stop is true of the pipe it acted on: a read gives
nothing only at the end of the input, and a write adds something or has no readers.
-/
def TrueOf (found : Pipe) : Request → Answer → Prop
  | .read _ _, .read bytes => bytes = [] → found.bytes = [] ∧ found.writers = 0
  | .write _ _, .wrote count => 0 < count
  | .write _ _, .failed .brokenPipe => found.readers = 0
  | _, _ => False

def Truthful (outcome : Outcome) : Prop :=
  outcome.told = false
  → outcome.request.nonEmpty = true
  → TrueOf outcome.found outcome.request outcome.answer

/-- A call that found this side of the pipe ready and hasn't acted on it yet. -/
def rival (state : Pipes) (request : Request) (task : TaskId) : Bool :=
  match state.phase task with
  | .acting other false =>
    other.nonEmpty && other.pipe == request.pipe && other.side == request.side
  | _ => false

/-- There is more in the pipe than a read has room for, or more room than a write has bytes for,
or the other side is gone.
-/
def leavesReady (found : Pipe) : Request → Bool
  | .read _ room => decide (room < found.bytes.length) || found.writers == 0
  | .write _ bytes =>
    decide (found.bytes.length + bytes.length < pipeCapacity) || found.readers == 0

/-- A call acts only while it leaves something or no other task has found the same side ready. -/
def Unrivalled (state : Pipes) : Event → Prop
  | .act core =>
    ∀ task ∈ state.acting core,
      match state.phase task with
      | .acting request _ =>
        ∀ found ∈ state.pipes[request.pipe]?,
          leavesReady found request = true
          ∨ ∀ other < state.queue.tasks.length,
              other ≠ task → state.rival request other = false
      | _ => True
  | _ => True

instance (state : Pipes) (event : Event) : Decidable (state.Unrivalled event) := by
  unfold Unrivalled
  split
  · refine @Option.decidableForallMem _ _ (fun task => ?_) _
    split <;> infer_instance
  · infer_instance

variable {pipe : Pipe} {request : Request} {answer : Answer} {task : TaskId}

theorem ready_read : pipe.ready .read = true ↔ pipe.bytes ≠ [] ∨ pipe.writers = 0 := by
  simp [Pipe.ready, List.isEmpty_eq_false_iff]

theorem ready_write
    : pipe.ready .write = true ↔ pipe.bytes.length < pipeCapacity ∨ pipe.readers = 0 := by
  simp [Pipe.ready]

/-- One end more of a kind that exists makes no condition false. -/
theorem ready_duplicate {one side : End} (readers : one = .read → pipe.readers ≠ 0)
    (writers : one = .write → pipe.writers ≠ 0) (ready : pipe.ready side = true)
    : (pipe.duplicate one).ready side = true := by
  cases side with
  | read =>
    rw [ready_read] at ready ⊢
    cases one with
    | read => exact ready
    | write => exact .inl (ready.resolve_right (writers rfl))
  | write =>
    rw [ready_write] at ready ⊢
    cases one with
    | read => exact .inl (ready.resolve_right (readers rfl))
    | write => exact ready

theorem ready_drop {one side : End} (ready : pipe.ready side = true)
    : (pipe.drop one).ready side = true := by
  cases side with
  | read =>
    rw [ready_read] at ready ⊢
    cases one with
    | read => exact ready
    | write => exact ready.imp_right (fun none => by simp [Pipe.drop, none])
  | write =>
    rw [ready_write] at ready ⊢
    cases one with
    | read => exact ready.imp_right (fun none => by simp [Pipe.drop, none])
    | write => exact ready

/-- A call keeps the other side ready, and its own if it leaves something. -/
theorem ready_act {after : Pipe} {side : End} (acted : request.act pipe = (after, answer))
    (ready : pipe.ready side = true)
    (leaves : side = request.side → leavesReady pipe request = true)
    : after.ready side = true := by
  obtain ⟨readers, writers⟩ := Request.act_counts acted
  cases request with
  | read number room =>
    obtain ⟨bytes, _, front, count, _⟩ := Request.act_read acted
    have total : pipe.bytes.length = bytes.length + after.bytes.length := by
      rw [front, List.length_append]
    cases side with
    | read =>
      have left := leaves rfl
      simp only [leavesReady, Bool.or_eq_true, decide_eq_true_eq, beq_iff_eq] at left
      rw [ready_read, writers]
      refine left.imp_left (fun more empty => ?_)
      rw [empty, List.length_nil] at total
      omega
    | write =>
      rw [ready_write] at ready ⊢
      rw [readers]
      exact ready.imp_left (fun room => by omega)
  | write number bytes =>
    rcases Request.act_write acted with ⟨_, rfl, _⟩ | ⟨some, count, _, fits, rfl⟩
    · exact ready
    · cases side with
      | read =>
        rw [ready_read] at ready ⊢
        exact ready.imp_left (fun some => by simp [some])
      | write =>
        have left := leaves rfl
        simp only [leavesReady, Bool.or_eq_true, decide_eq_true_eq, beq_iff_eq] at left
        rw [ready_write]
        refine left.imp_left (fun room => ?_)
        rw [List.length_append, List.length_take]
        omega

/-- What a call answers on a pipe whose condition holds. -/
theorem trueOf_of_ready {after : Pipe} (acted : request.act pipe = (after, answer))
    (some : request.nonEmpty = true) (ready : pipe.ready request.side = true)
    : TrueOf pipe request answer := by
  cases request with
  | read number room =>
    obtain ⟨bytes, rfl, _, count, _⟩ := Request.act_read acted
    rintro rfl
    have room : room ≠ 0 := by simpa [Request.nonEmpty] using some
    rw [List.length_nil] at count
    have empty : pipe.bytes = [] := List.length_eq_zero_iff.mp (by omega)
    exact ⟨empty, (ready_read.mp ready).resolve_left (not_not.mpr empty)⟩
  | write number bytes =>
    rcases Request.act_write acted with ⟨broken, _, rfl⟩ | ⟨readers, count, rfl, fits, _⟩
    · exact broken
    · have length : 0 < bytes.length := by
        simpa [Request.nonEmpty, List.isEmpty_eq_false_iff, List.length_pos_iff] using some
      have room := (ready_write.mp ready).resolve_right readers
      show 0 < count
      omega

theorem step_length {state after : Pipes} {event : Event} (taken : state.step event = some after)
    : state.queue.tasks.length ≤ after.queue.tasks.length := by
  cases steps_of_step taken with
  | notifyDrop | notify => exact Nat.le_of_eq (Cores.notify_unmoved _ _).length.symm
  | interrupt => exact Nat.le_of_eq (Cores.interrupt_touched _ _).length.symm
  | wait _ _ waited => exact Nat.le_of_eq (Cores.waitCurrent_touched waited).length.symm
  | other _ applied => exact Call.apply_length applied
  | pair | duplicate | drop | call | look | told | asked | ready | unready | resume | act | kill =>
    exact Nat.le_refl _

theorem acting_known {state : Pipes} {core : Nat} (acts : state.acting core = some task)
    : task < state.queue.tasks.length := by
  have running := (acting_eq_some.mp acts).2
  by_contra beyond
  rw [RunQueue.state, RunQueue.entry, List.getElem?_eq_none (Nat.le_of_not_lt beyond)] at running
  cases running

/-- The pipe of a request exists and is ready for it. -/
def ReadyFor (state : Pipes) (request : Request) : Prop :=
  ∃ pipe, state.pipes[request.pipe]? = some pipe ∧ pipe.ready request.side = true

/-- Calls that found the pipe ready still find it so, and no answer was untrue. -/
structure Answerable (state : Pipes) : Prop where
  kept : Kept state
  known : ∀ task, state.phase task ≠ .idle → task < state.queue.tasks.length
  willing
    : ∀ task request,
        state.phase task = .acting request false
        → request.nonEmpty = true
        → state.ReadyFor request
  truthful : ∀ outcome ∈ state.outcomes, Truthful outcome

section Answerable

variable {state after : Pipes} {event : Event}

/-- A step that answers nothing and moves at most one task on, to a phase in which it may rely on
its pipe.
-/
theorem Answerable.move {phase : Phase} (answerable : Answerable state)
    (taken : state.step event = some after) (known : task < state.queue.tasks.length)
    (moved : after.phase = update state.phase task phase)
    (pipes : after.pipes = state.pipes) (outcomes : after.outcomes = state.outcomes)
    (rely : ∀ request, phase = .acting request false → state.ReadyFor request)
    : Answerable after := by
  refine ⟨answerable.kept.step taken, fun other busy => ?_, fun other request acting some => ?_, ?_⟩
  · refine Nat.lt_of_lt_of_le ?_ (step_length taken)
    rw [moved, update_apply] at busy
    split at busy
    · subst other
      exact known
    · exact answerable.known other busy
  · rw [ReadyFor, pipes]
    rw [moved, update_apply] at acting
    split at acting
    · exact rely request acting
    · exact answerable.willing other request acting some
  · rw [outcomes]
    exact answerable.truthful

/-- A step of no task's call that leaves ready pipes ready. -/
theorem Answerable.stay (answerable : Answerable state) (taken : state.step event = some after)
    (phase : after.phase = state.phase) (outcomes : after.outcomes = state.outcomes)
    (ready : ∀ request, state.ReadyFor request → after.ReadyFor request)
    : Answerable after := by
  refine ⟨answerable.kept.step taken, fun task busy => ?_, fun task request acting some => ?_, ?_⟩
  · rw [phase] at busy
    exact Nat.lt_of_lt_of_le (answerable.known task busy) (step_length taken)
  · rw [phase] at acting
    exact ready request (answerable.willing task request acting some)
  · rw [outcomes]
    exact answerable.truthful

theorem readyFor_set {number : Nat} {changed : Pipe}
    (there : state.pipes[number]? = some pipe)
    (pipes : after.pipes = state.pipes.set number changed)
    (stays
      : request.pipe = number
        → pipe.ready request.side = true
        → changed.ready request.side = true)
    (ready : state.ReadyFor request)
    : after.ReadyFor request := by
  obtain ⟨found, lookup, ready⟩ := ready
  rw [ReadyFor, pipes]
  by_cases same : request.pipe = number
  · rw [same] at lookup ⊢
    cases there.symm.trans lookup
    exact ⟨changed, List.getElem?_set_self (List.getElem?_eq_some_iff.mp there).1, stays same ready⟩
  · exact ⟨found, by rwa [List.getElem?_set_ne (Ne.symm same)], ready⟩

/-- Acting: the answer is true, and the other calls still find the pipe ready. -/
theorem Answerable.act {core : Nat} {told : Bool} {found changed : Pipe}
    (answerable : Answerable state) (allowed : state.Unrivalled (.act core))
    (acts : state.acting core = some task) (phase : state.phase task = .acting request told)
    (there : state.pipes[request.pipe]? = some found)
    (acted : request.act found = (changed, answer))
    : Answerable (((state.setPipe request.pipe found changed).setPhase task
        (if answer.count = 0 then .idle else .notifying state.clock)).record
          { request, told, found, answer }) := by
  have guard := allowed task acts
  rw [phase] at guard
  have guard := guard found there
  refine ⟨answerable.kept.act there acted, fun other busy => ?_, fun other rival acting some => ?_,
    fun outcome listed => ?_⟩
  · simp only [record, setPhase, update_apply] at busy
    split at busy
    · subst other
      exact acting_known acts
    · exact answerable.known other busy
  · simp only [record, setPhase, update_apply] at acting
    split at acting
    · split at acting <;> cases acting
    · rename_i differ
      refine readyFor_set there rfl (fun same ready => ?_)
        (answerable.willing other rival acting some)
      refine ready_act acted ready (fun side => guard.resolve_right (fun unrivalled => ?_))
      have busy : state.phase other ≠ .idle := by
        rw [show state.phase other = .acting rival false from acting]
        simp
      have rivals := unrivalled other (answerable.known other busy) differ
      rw [Pipes.rival, show state.phase other = .acting rival false from acting] at rivals
      simp [some, same, side] at rivals
  · simp only [record, List.mem_append, List.mem_singleton] at listed
    rcases listed with old | rfl
    · exact answerable.truthful outcome old
    · intro untold some
      obtain rfl : told = false := untold
      obtain ⟨pipe, lookup, ready⟩ := answerable.willing task request phase some
      cases there.symm.trans lookup
      exact trueOf_of_ready acted some ready

theorem Answerable.step (answerable : Answerable state) (allowed : state.Unrivalled event)
    (taken : state.step event = some after)
    : Answerable after := by
  cases steps_of_step taken with
  | pair =>
    refine answerable.stay taken rfl rfl (fun request ready => ?_)
    obtain ⟨pipe, lookup, ready⟩ := ready
    exact ⟨pipe, List.getElem?_append_left (List.getElem?_eq_some_iff.mp lookup).1 ▸ lookup, ready⟩
  | duplicate found there =>
    have counted := answerable.kept.counted _ _ there
    have some := List.count_pos_iff.mpr (List.mem_of_getElem? found)
    refine answerable.stay taken rfl rfl (fun request => readyFor_set there rfl ?_)
    refine fun _ => ready_duplicate (fun read => ?_) (fun write => ?_)
    · rw [counted.1, ← read]
      exact Nat.ne_of_gt some
    · rw [counted.2, ← write]
      exact Nat.ne_of_gt some
  | drop found there =>
    refine answerable.stay taken rfl rfl (fun request => readyFor_set there rfl ?_)
    exact fun _ => ready_drop
  | act acts phase there acted => exact answerable.act allowed acts phase there acted
  | ready acts phase there ready =>
    refine answerable.move taken (acting_known acts) rfl rfl rfl ?_
    rintro request ⟨⟩
    exact ⟨_, there, ready⟩
  | call acts | look acts | told acts | asked acts | unready acts | wait acts | resume acts
  | notify acts => exact answerable.move taken (acting_known acts) rfl rfl rfl (by simp)
  | notifyDrop | kill | interrupt | other =>
    exact answerable.stay taken rfl rfl (fun _ ready => ready)

theorem answerable_new (name : String) (cores : Nat) : Answerable (new name cores) where
  kept := kept_new name cores
  known _ busy := absurd rfl busy
  willing _ _ acting := nomatch acting
  truthful _ listed := nomatch listed

end Answerable

/-- In every run in which no call uses up what another has already found, every answer is true of
the pipe it was given on. Witness: the invariant, by induction on the run.
-/
theorem truthful_of_unrivalled {name : String} {cores : Nat} {state : Pipes}
    (run : Reaches step Unrivalled (new name cores) state)
    : ∀ outcome ∈ state.outcomes, Truthful outcome := by
  have answerable : Answerable state :=
    run.invariant (answerable_new name cores)
      (fun _ _ _ answerable allowed taken => answerable.step allowed taken)
  exact answerable.truthful

/-- A call by the task on `core`, up to where it may act. -/
def upToActing (core : Nat) (request : Request) : List Event :=
  [.call core request, .look core, .ask core, .check core]

def yield : Event := .other (.pickNext 0 true [])

/-- A pipe with one byte in it, and two tasks besides the one that made it. -/
def oneByte : List Event :=
  [.pair, .other (.op (.add "first")), .other (.op (.add "second"))]
    ++ upToActing 0 (.write 0 [7]) ++ [.act 0, .notify 0]

theorem truthful_of_oneByte
    : ∃ state outcome,
        Reaches step Unrivalled (new "main" 1) state
        ∧ outcome ∈ state.outcomes
        ∧ outcome.answer = .read [7]
        ∧ Truthful outcome := by
  have executed : (runAll step Unrivalled (new "main" 1)
      (oneByte ++ yield :: upToActing 0 (.read 0 4) ++ [.act 0])).any (fun state =>
        state.outcomes.any (fun outcome => outcome.answer == .read [7])) = true := by
    decide +kernel
  obtain ⟨state, run, found⟩ := Reaches.of_check executed
  obtain ⟨outcome, listed, answer⟩ := List.any_eq_true.mp found
  exact ⟨state, outcome, run, listed, beq_iff_eq.mp answer, truthful_of_unrivalled run outcome listed⟩

/-- Two tasks find a byte to read; the second to act answers 0, though the pipe has a writer. Two
tasks find room to write; the first fills the pipe and the second writes nothing, though the pipe
has a reader.
-/
theorem untruthful_answers
    : (∃ state outcome,
        Reaches step anyEvent (new "main" 1) state
        ∧ outcome ∈ state.outcomes
        ∧ outcome.told = false
        ∧ outcome.request = .read 0 4
        ∧ outcome.answer = .read []
        ∧ outcome.found.writers = 1)
      ∧ ∃ state outcome,
          Reaches step anyEvent (new "main" 1) state
          ∧ outcome ∈ state.outcomes
          ∧ outcome.told = false
          ∧ outcome.request = .write 0 [7]
          ∧ outcome.answer = .wrote 0
          ∧ outcome.found.readers = 1 := by
  constructor
  · have executed : (runAll step anyEvent (new "main" 1)
        (oneByte ++ yield :: upToActing 0 (.read 0 4) ++ yield :: upToActing 0 (.read 0 4)
          ++ [.act 0, .notify 0, yield, yield, .act 0])).any (fun state =>
            state.outcomes.any (fun outcome => !outcome.told && outcome.request == .read 0 4
              && outcome.answer == .read [] && outcome.found.writers == 1)) = true := by
      decide +kernel
    obtain ⟨state, run, found⟩ := Reaches.of_check executed
    obtain ⟨outcome, listed, shape⟩ := List.any_eq_true.mp found
    simp only [Bool.and_eq_true, Bool.not_eq_true', beq_iff_eq] at shape
    obtain ⟨⟨⟨untold, request⟩, answer⟩, writers⟩ := shape
    exact ⟨state, outcome, run, listed, untold, request, answer, writers⟩
  · have executed : (runAll step anyEvent (new "main" 1)
        (oneByte ++ yield :: upToActing 0 (.write 0 [7]) ++ yield ::
          upToActing 0 (.write 0 (List.replicate pipeCapacity 0))
          ++ [.act 0, .notify 0, yield, yield, .act 0])).any (fun state =>
            state.outcomes.any (fun outcome => !outcome.told && outcome.request == .write 0 [7]
              && outcome.answer == .wrote 0 && outcome.found.readers == 1)) = true := by
      decide +kernel
    obtain ⟨state, run, found⟩ := Reaches.of_check executed
    obtain ⟨outcome, listed, shape⟩ := List.any_eq_true.mp found
    simp only [Bool.and_eq_true, Bool.not_eq_true', beq_iff_eq] at shape
    obtain ⟨⟨⟨untold, request⟩, answer⟩, readers⟩ := shape
    exact ⟨state, outcome, run, listed, untold, request, answer, readers⟩

end RustyPi.Process.Pipes
