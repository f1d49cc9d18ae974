import Mathlib.Data.List.Perm.Basic
import RustyPi.Process.Pipe

/-! What is in a pipe: bytes come out in the order they went in, and the counts are the ends that
exist. A read or write acts on the pipe after it looked, so its answer can be untrue of the pipe
it finds then.
-/

namespace RustyPi.Process.Pipes

open RustyPi.Sched RustyPi.Reach

/-- What was added to each pipe is what was drained from it and what it holds, and the counts are
those of the ends.
-/
structure Kept (state : Pipes) : Prop where
  ordered
    : ∀ (number : Nat) (pipe : Pipe),
        state.pipes[number]? = some pipe
        → state.added number = state.drained number ++ pipe.bytes
  bounded
    : ∀ (number : Nat) (pipe : Pipe),
        state.pipes[number]? = some pipe → pipe.bytes.length ≤ pipeCapacity
  counted
    : ∀ (number : Nat) (pipe : Pipe),
        state.pipes[number]? = some pipe
        → pipe.readers = state.ends.count ⟨number, .read⟩
          ∧ pipe.writers = state.ends.count ⟨number, .write⟩
  unused
    : ∀ number,
        state.pipes.length ≤ number
        → state.added number = []
          ∧ state.drained number = []
          ∧ ∀ side, state.ends.count ⟨number, side⟩ = 0

/-- Only making a pipe, duplicating or dropping an end and acting change pipes, ends and what is
recorded of them.
-/
structure SameContents (before after : Pipes) : Prop where
  pipes : after.pipes = before.pipes
  ends : after.ends = before.ends
  outcomes : after.outcomes = before.outcomes

theorem Kept.of_same {before after : Pipes} (kept : Kept before) (same : SameContents before after)
    : Kept after := by
  obtain ⟨ordered, bounded, counted, unused⟩ := kept
  obtain ⟨pipes, ends, outcomes⟩ := same
  constructor
  · simpa only [added, drained, pipes, outcomes] using ordered
  · simpa only [pipes] using bounded
  · simpa only [pipes, ends] using counted
  · simpa only [added, drained, pipes, ends, outcomes] using unused

variable {after pipe : Pipe} {one : PipeEnd} {state : Pipes}

theorem pipe_set {pipes : List Pipe} {number other : Nat}
    (found : (pipes.set number after)[other]? = some pipe)
    : (other = number ∧ pipe = after) ∨ (other ≠ number ∧ pipes[other]? = some pipe) := by
  by_cases same : other = number
  · subst same
    obtain ⟨inside, rfl⟩ := List.getElem?_eq_some_iff.mp found
    exact .inl ⟨rfl, by simp⟩
  · rw [List.getElem?_set_ne (Ne.symm same)] at found
    exact .inr ⟨same, found⟩

theorem count_eraseIdx {ends : List PipeEnd} {index : Nat} (found : ends[index]? = some one)
    (other : PipeEnd)
    : ends.count other = (ends.eraseIdx index).count other + if one = other then 1 else 0 := by
  obtain ⟨inside, rfl⟩ := List.getElem?_eq_some_iff.mp found
  rw [← (List.getElem_cons_eraseIdx_perm inside).count_eq, List.count_cons]
  simp only [beq_iff_eq]

section Kept

variable (kept : Kept state)
include kept

theorem Kept.pair
    : Kept { state with
        pipes := state.pipes ++ [.fresh]
        ends := state.ends ++ [⟨state.pipes.length, .read⟩, ⟨state.pipes.length, .write⟩] } := by
  have lookup {number : Nat} {pipe : Pipe}
      (found : (state.pipes ++ [Pipe.fresh])[number]? = some pipe)
      : state.pipes[number]? = some pipe ∨ (number = state.pipes.length ∧ pipe = .fresh) := by
    rcases Nat.lt_or_ge number state.pipes.length with inside | beyond
    · rw [List.getElem?_append_left inside] at found
      exact .inl found
    · rw [List.getElem?_append_right beyond, List.getElem?_singleton] at found
      split at found
      · exact .inr ⟨by omega, (Option.some.inj found).symm⟩
      · cases found
  have counts (number : Nat) (side : End)
      : (state.ends ++ [(⟨state.pipes.length, .read⟩ : PipeEnd), ⟨state.pipes.length, .write⟩]).count
          ⟨number, side⟩
        = state.ends.count ⟨number, side⟩ + if number = state.pipes.length then 1 else 0 := by
    rw [List.count_append]
    by_cases same : number = state.pipes.length
    · subst same
      cases side <;> simp
    · simp [same, Ne.symm same]
  obtain ⟨added, drained, ends⟩ := kept.unused state.pipes.length (Nat.le_refl _)
  refine ⟨fun number pipe found => ?_, fun number pipe found => ?_, fun number pipe found => ?_,
    fun number beyond => ?_⟩
  · rcases lookup found with old | ⟨rfl, rfl⟩
    · exact kept.ordered number pipe old
    · have order : state.added state.pipes.length = state.drained state.pipes.length ++ [] := by
        rw [added, drained, List.append_nil]
      exact order
  · rcases lookup found with old | ⟨rfl, rfl⟩
    · exact kept.bounded number pipe old
    · exact Nat.zero_le _
  · rw [counts, counts]
    rcases lookup found with old | ⟨rfl, rfl⟩
    · have inside : number ≠ state.pipes.length :=
        Nat.ne_of_lt (List.getElem?_eq_some_iff.mp old).1
      rw [if_neg inside]
      exact kept.counted number pipe old
    · rw [ends, ends]
      simp [Pipe.fresh]
  · rw [List.length_append, List.length_singleton] at beyond
    obtain ⟨added, drained, ends⟩ := kept.unused number (by omega)
    refine ⟨added, drained, fun side => ?_⟩
    rw [counts, ends, if_neg (by omega)]

theorem Kept.change {result : Pipes} {number : Nat}
    (inside : number < state.pipes.length) (pipes : result.pipes = state.pipes.set number after)
    (ordered : result.added number = result.drained number ++ after.bytes)
    (bounded : after.bytes.length ≤ pipeCapacity)
    (readers : after.readers = result.ends.count ⟨number, .read⟩)
    (writers : after.writers = result.ends.count ⟨number, .write⟩)
    (others
      : ∀ other,
          other ≠ number
          → result.added other = state.added other
            ∧ result.drained other = state.drained other
            ∧ ∀ side, result.ends.count ⟨other, side⟩ = state.ends.count ⟨other, side⟩)
    : Kept result := by
  refine ⟨fun other pipe found => ?_, fun other pipe found => ?_, fun other pipe found => ?_,
    fun other beyond => ?_⟩
  · rw [pipes] at found
    rcases pipe_set found with ⟨rfl, rfl⟩ | ⟨differ, old⟩
    · exact ordered
    · obtain ⟨added, drained, _⟩ := others other differ
      rw [added, drained]
      exact kept.ordered other pipe old
  · rw [pipes] at found
    rcases pipe_set found with ⟨rfl, rfl⟩ | ⟨_, old⟩
    · exact bounded
    · exact kept.bounded other pipe old
  · rw [pipes] at found
    rcases pipe_set found with ⟨rfl, rfl⟩ | ⟨differ, old⟩
    · exact ⟨readers, writers⟩
    · obtain ⟨_, _, ends⟩ := others other differ
      rw [ends, ends]
      exact kept.counted other pipe old
  · rw [pipes, List.length_set] at beyond
    obtain ⟨added, drained, ends⟩ := others other (by omega)
    rw [added, drained]
    simpa only [ends] using kept.unused other beyond

theorem Kept.duplicate (there : state.pipes[one.pipe]? = some pipe)
    : Kept { state.setPipe one.pipe pipe (pipe.duplicate one.side) with
        ends := state.ends ++ [one] } := by
  obtain ⟨number, side⟩ := one
  obtain ⟨readers, writers⟩ := kept.counted number pipe there
  have bytes : (pipe.duplicate side).bytes = pipe.bytes := by cases side <;> rfl
  refine kept.change (List.getElem?_eq_some_iff.mp there).1 rfl ?_ ?_ ?_ ?_
    (fun other differ => ⟨rfl, rfl, fun found => ?_⟩)
  · exact (kept.ordered number pipe there).trans (congrArg _ bytes.symm)
  · exact bytes ▸ kept.bounded number pipe there
  · cases side <;> simp [Pipe.duplicate, readers]
  · cases side <;> simp [Pipe.duplicate, writers]
  · rw [List.count_append, List.count_singleton]
    simp [Ne.symm differ]

theorem Kept.drop {index : Nat} (found : state.ends[index]? = some one)
    (there : state.pipes[one.pipe]? = some pipe)
    : Kept { state.setPipe one.pipe pipe (pipe.drop one.side) with
        ends := state.ends.eraseIdx index
        drops := state.clock :: state.drops } := by
  obtain ⟨number, side⟩ := one
  obtain ⟨readers, writers⟩ := kept.counted number pipe there
  have counts := count_eraseIdx found
  have bytes : (pipe.drop side).bytes = pipe.bytes := by cases side <;> rfl
  refine kept.change (List.getElem?_eq_some_iff.mp there).1 rfl ?_ ?_ ?_ ?_
    (fun other differ => ⟨rfl, rfl, fun found => ?_⟩)
  · exact (kept.ordered number pipe there).trans (congrArg _ bytes.symm)
  · exact bytes ▸ kept.bounded number pipe there
  · rw [counts] at readers
    cases side <;> simp_all [Pipe.drop]
  · rw [counts] at writers
    cases side <;> simp_all [Pipe.drop]
  · rw [counts]
    simp [Ne.symm differ]

/-- Acting moves bytes between a pipe and the caller, and records them. -/
theorem Kept.act {request : Request} {told : Bool} {found : Pipe} {answer : Answer} {task : TaskId}
    {phase : Phase} (there : state.pipes[request.pipe]? = some found)
    (acted : request.act found = (after, answer))
    : Kept (((state.setPipe request.pipe found after).setPhase task phase).record
        { request, told, found, answer }) := by
  obtain ⟨readers, writers⟩ := Request.act_counts acted
  obtain ⟨readEnds, writeEnds⟩ := kept.counted request.pipe found there
  have inside : request.pipe < state.pipes.length := (List.getElem?_eq_some_iff.mp there).1
  have order := kept.ordered request.pipe found there
  have bound := kept.bounded request.pipe found there
  refine kept.change inside rfl ?_ ?_ (readers.trans readEnds) (writers.trans writeEnds)
    (fun other differ => ⟨?_, ?_, fun _ => rfl⟩)
  · rw [record_added, record_drained]
    cases request with
    | read number room =>
      obtain ⟨bytes, rfl, front, _⟩ := Request.act_read acted
      simp only [Outcome.accepted, Outcome.returned, Request.pipe, if_pos, List.append_nil,
        List.append_assoc]
      rw [← front]
      exact order
    | write number bytes =>
      rcases Request.act_write acted with ⟨_, rfl, rfl⟩ | ⟨_, count, rfl, _, rfl⟩
      · simp only [Outcome.accepted, Outcome.returned, List.append_nil]
        exact order
      · simp only [Outcome.accepted, Outcome.returned, Request.pipe, if_pos, List.append_nil]
        rw [← List.append_assoc]
        exact congrArg (· ++ bytes.take count) order
  · cases request with
    | read number room =>
      obtain ⟨bytes, _, front, _⟩ := Request.act_read acted
      rw [front, List.length_append] at bound
      omega
    | write number bytes =>
      rcases Request.act_write acted with ⟨_, rfl, _⟩ | ⟨_, count, _, fits, rfl⟩
      · exact bound
      · rw [List.length_append, List.length_take]
        omega
  · rw [record_added, Outcome.accepted_elsewhere _ differ, List.append_nil]
    rfl
  · rw [record_drained, Outcome.returned_elsewhere _ differ, List.append_nil]
    rfl

theorem Kept.step {after : Pipes} {event : Event} (taken : state.step event = some after)
    : Kept after := by
  cases steps_of_step taken with
  | pair => exact kept.pair
  | duplicate found there => exact kept.duplicate there
  | drop found there => exact kept.drop found there
  | act acts phase there acted => exact kept.act there acted
  | notifyDrop | call | look | told | asked | ready | unready | wait | resume | notify | kill
  | interrupt | other => exact kept.of_same ⟨rfl, rfl, rfl⟩

end Kept

theorem kept_new (name : String) (cores : Nat) : Kept (new name cores) where
  ordered _ _ found := nomatch found
  bounded _ _ found := nomatch found
  counted _ _ found := nomatch found
  unused _ _ := ⟨rfl, rfl, fun _ => rfl⟩

end RustyPi.Process.Pipes
