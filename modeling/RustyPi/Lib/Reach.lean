import Mathlib.Data.List.Basic

/-! Runs of a partial step function, and the invariant rule for runs under a guard.
A guard restricts which events a run may take in which state; the trivial guard admits
every run.
-/

namespace RustyPi.Reach

variable {State Event : Type}

/-- The states that runs from `start` reach when every event taken meets `guard` in the
state it is taken in.
-/
inductive Reaches (step : State → Event → Option State) (guard : State → Event → Prop)
    (start : State)
    : State → Prop
  | start : Reaches step guard start start
  | next {before after event} (earlier : Reaches step guard start before)
    (allowed : guard before event) (taken : step before event = some after)
    : Reaches step guard start after

/-- The guard that admits every event in every state. -/
def anyEvent (_ : State) (_ : Event) : Prop := True

instance (state : State) (event : Event) : Decidable (anyEvent state event) :=
  .isTrue trivial

variable {step : State → Event → Option State} {guard : State → Event → Prop} {start : State}

/-- A property of the starting state that every allowed step preserves holds in every
state reached. Witness: induction on the run.
-/
theorem Reaches.invariant {reached : State} {I : State → Prop}
    (run : Reaches step guard start reached) (initial : I start)
    (preserved
      : ∀ before event after,
          I before → guard before event → step before event = some after → I after)
    : I reached := by
  induction run with
  | start => exact initial
  | next _ allowed taken ih => exact preserved _ _ _ ih allowed taken

/-- Executes a list of events, failing as soon as one is not enabled or not allowed. -/
def runAll (step : State → Event → Option State) (guard : State → Event → Prop)
    [∀ state event, Decidable (guard state event)]
    : State → List Event → Option State
  | state, [] => some state
  | state, event :: rest =>
    if guard state event then
      (step state event).bind (fun next => runAll step guard next rest)
    else none

theorem Reaches.runAll [∀ state event, Decidable (guard state event)] {before after : State}
    {events : List Event} (earlier : Reaches step guard start before)
    (executed : runAll step guard before events = some after)
    : Reaches step guard start after := by
  induction events generalizing before with
  | nil =>
    cases executed
    exact earlier
  | cons event rest ih =>
    simp only [Reach.runAll, Option.ite_none_right_eq_some, Option.bind_eq_some_iff]
      at executed
    obtain ⟨allowed, middle, taken, executed⟩ := executed
    exact ih (earlier.next allowed taken) executed

/-- A list of events that executes and ends in a state meeting `check` reaches one. -/
theorem Reaches.of_check [∀ state event, Decidable (guard state event)] {events : List Event}
    {check : State → Bool} (executed : (Reach.runAll step guard start events).any check = true)
    : ∃ reached, Reaches step guard start reached ∧ check reached = true := by
  cases ran : Reach.runAll step guard start events with
  | none => simp [ran] at executed
  | some reached =>
    rw [ran, Option.any_some] at executed
    exact ⟨reached, Reaches.runAll .start ran, executed⟩

end RustyPi.Reach
