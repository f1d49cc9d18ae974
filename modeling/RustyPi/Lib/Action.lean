import Mathlib.Init

/-! Computations on a state that can stop early. What they changed before stopping stays
changed, so a specification says what holds after a result and what holds after a stop.
-/

namespace RustyPi

variable {σ ε α β : Type}

/-- A computation on a state `σ` that gives an `α` or stops with an `ε`. -/
abbrev Action (σ ε : Type) := ExceptT ε (StateM σ)

namespace Action

/-- What running an action from a state gives, and the state it leaves. -/
def outcome (action : Action σ ε α) (state : σ) : Except ε α × σ := action.run.run state

/-- A result that is already there, or an early stop. -/
def ofExcept (result : Except ε α) : Action σ ε α :=
  match result with
  | .ok a => pure a
  | .error e => throw e

/-- Run from `state`, the action gives a result that satisfies `done` or stops as `stopped`
allows.
-/
def Ends (action : Action σ ε α) (state : σ) (done : α → σ → Prop) (stopped : ε → σ → Prop)
    : Prop :=
  match action.outcome state with
  | (.ok a, after) => done a after
  | (.error e, after) => stopped e after

section Rules

variable {done : α → σ → Prop} {stopped : ε → σ → Prop} {state : σ}

theorem outcome_bind (action : Action σ ε β) (next : β → Action σ ε α) (state : σ)
    : (action >>= next).outcome state
      = match action.outcome state with
        | (.ok b, after) => (next b).outcome after
        | (.error e, after) => (.error e, after) := by
  show (match action.run.run state with
    | (result, after) => (ExceptT.bindCont next result).run after) = _
  unfold outcome
  rcases action.run.run state with ⟨result, after⟩
  cases result <;> rfl

theorem outcome_get (state : σ) : (get : Action σ ε σ).outcome state = (.ok state, state) := rfl

theorem outcome_set (state new : σ)
    : (set new : Action σ ε PUnit).outcome state = (.ok PUnit.unit, new) := rfl

@[simp] theorem ends_pure (a : α) : (pure a : Action σ ε α).Ends state done stopped ↔ done a state :=
  Iff.rfl

@[simp] theorem ends_bind (action : Action σ ε β) (next : β → Action σ ε α)
    : (action >>= next).Ends state done stopped
      ↔ action.Ends state (fun b after => (next b).Ends after done stopped) stopped := by
  unfold Ends
  rw [outcome_bind]
  rcases action.outcome state with ⟨result, after⟩
  cases result <;> rfl

@[simp] theorem ends_map (f : β → α) (action : Action σ ε β)
    : (f <$> action).Ends state done stopped
      ↔ action.Ends state (fun b after => done (f b) after) stopped := by
  rw [← bind_pure_comp]
  exact ends_bind ..

@[simp] theorem ends_get {done : σ → σ → Prop}
    : (get : Action σ ε σ).Ends state done stopped ↔ done state state :=
  Iff.rfl

@[simp] theorem ends_set {done : Unit → σ → Prop} (new : σ)
    : (set new : Action σ ε Unit).Ends state done stopped ↔ done () new :=
  Iff.rfl

@[simp] theorem ends_modify {done : Unit → σ → Prop} (change : σ → σ)
    : (modify change : Action σ ε Unit).Ends state done stopped ↔ done () (change state) :=
  Iff.rfl

theorem outcome_tryCatch (action : Action σ ε α) (handler : ε → Action σ ε α) (state : σ)
    : (tryCatch action handler).outcome state
      = match action.outcome state with
        | (.ok a, after) => (.ok a, after)
        | (.error e, after) => (handler e).outcome after := by
  show (match action.run.run state with
    | (result, after) => (match result with
      | .ok a => pure (.ok a)
      | .error e => handler e : StateM σ (Except ε α)).run after) = _
  unfold outcome
  rcases action.run.run state with ⟨result, after⟩
  cases result <;> rfl

@[simp] theorem ends_tryCatch (action : Action σ ε α) (handler : ε → Action σ ε α)
    : (tryCatch action handler).Ends state done stopped
      ↔ action.Ends state done (fun e after => (handler e).Ends after done stopped) := by
  unfold Ends
  rw [outcome_tryCatch]
  rcases action.outcome state with ⟨result, after⟩
  cases result <;> rfl

variable {action : Action σ ε α} {stopped' : ε → σ → Prop}

theorem Ends.mono {done' : α → σ → Prop} (ends : action.Ends state done stopped)
    (onDone : ∀ a after, done a after → done' a after)
    (onStop : ∀ e after, stopped e after → stopped' e after)
    : action.Ends state done' stopped' := by
  unfold Ends at ends ⊢
  generalize action.outcome state = end_ at ends ⊢
  rcases end_ with ⟨result, after⟩
  cases result with
  | ok a => exact onDone a after ends
  | error e => exact onStop e after ends

theorem Ends.bind {action : Action σ ε β} {next : β → Action σ ε α} {middle : β → σ → Prop}
    (ends : action.Ends state middle stopped')
    (onDone : ∀ b after, middle b after → (next b).Ends after done stopped)
    (onStop : ∀ e after, stopped' e after → stopped e after)
    : (action >>= next).Ends state done stopped :=
  (ends_bind action next).mpr (ends.mono onDone onStop)

theorem Ends.trivial (action : Action σ ε α) (state : σ)
    : action.Ends state (fun _ _ => True) (fun _ _ => True) := by
  unfold Ends
  split <;> exact True.intro

/-- What holds after a result and after a stop holds of the state left. -/
theorem Ends.leaves {left : σ → Prop} (ends : action.Ends state (fun _ => left) (fun _ => left))
    : left (action.outcome state).2 := by
  unfold Ends at ends
  generalize action.outcome state = end_ at ends ⊢
  rcases end_ with ⟨result, after⟩
  cases result <;> exact ends

theorem Ends.and {done' : α → σ → Prop} (first : action.Ends state done stopped)
    (second : action.Ends state done' stopped')
    : action.Ends state (fun a after => done a after ∧ done' a after)
        (fun e after => stopped e after ∧ stopped' e after) := by
  unfold Ends at first second ⊢
  generalize action.outcome state = end_ at first second ⊢
  rcases end_ with ⟨result, after⟩
  cases result with
  | ok a => exact ⟨first, second⟩
  | error e => exact ⟨first, second⟩

end Rules

/-- However the action ends, the state it leaves is related to the one it began in. -/
def Leads (relates : σ → σ → Prop) (action : Action σ ε α) (state : σ) : Prop :=
  action.Ends state (fun _ => relates state) (fun _ => relates state)

namespace Leads

variable {relates : σ → σ → Prop} {state : σ}

variable {action : Action σ ε α}

theorem mono {weaker : σ → σ → Prop} (leads : action.Leads relates state)
    (weaken : ∀ after, relates state after → weaker state after)
    : action.Leads weaker state :=
  Ends.mono leads (fun _ => weaken) (fun _ => weaken)

theorem get_bind {next : σ → Action σ ε α} (leads : (next state).Leads relates state)
    : ((get : Action σ ε σ) >>= next).Leads relates state :=
  (ends_bind ..).mpr leads

variable [Trans relates relates relates]

theorem after {middle : σ} (related : relates state middle) (leads : action.Leads relates middle)
    : action.Ends middle (fun _ => relates state) (fun _ => relates state) :=
  Ends.mono leads (fun _ _ => Trans.trans related) (fun _ _ => Trans.trans related)

theorem bind {action : Action σ ε β} {next : β → Action σ ε α}
    (first : action.Leads relates state)
    (second : ∀ b after, relates state after → (next b).Leads relates after)
    : (action >>= next).Leads relates state :=
  Ends.bind first
    (fun b middle related => (second b middle related).after related)
    (fun _ _ related => related)

/-- As `bind`, with what else is known of the first action. -/
theorem bind_with {action : Action σ ε β} {next : β → Action σ ε α} {done : β → σ → Prop}
    {stopped : ε → σ → Prop} (first : action.Leads relates state)
    (ends : action.Ends state done stopped)
    (second : ∀ b after, relates state after → done b after → (next b).Leads relates after)
    : (action >>= next).Leads relates state :=
  Ends.bind (Ends.and first ends)
    (fun b middle known => (second b middle known.1 known.2).after known.1)
    (fun _ _ known => known.1)

theorem tryCatch {handler : ε → Action σ ε α} (first : action.Leads relates state)
    (second : ∀ e after, relates state after → (handler e).Leads relates after)
    : (MonadExcept.tryCatch action handler).Leads relates state :=
  (ends_tryCatch ..).mpr (Ends.mono first (fun _ _ related => related)
    (fun e middle related => (second e middle related).after related))

end Leads

end Action

end RustyPi
