import Mathlib.Data.List.Nodup
import Mathlib.Data.List.Perm.Subperm

/-! Linked lists in a table: each cell names the next one or is the last. A complete chain is
decided by where it starts and never passes a cell twice.
-/

namespace RustyPi

variable {α : Type}

/-- The cells of a complete chain: each is followed by the next, and the last by none. -/
def Complete (step : α → Option α) : List α → Prop
  | [] => False
  | [cell] => step cell = none
  | cell :: next :: rest => step cell = some next ∧ Complete step (next :: rest)

namespace Complete

variable {step : α → Option α} {cells : List α}

theorem ne_nil (complete : Complete step cells) : cells ≠ [] := by
  rintro rfl
  exact complete

/-- A chain is decided by where it starts. By induction on the first one. -/
theorem unique {first second : List α} (left : Complete step first)
    (right : Complete step second) (same : first.head? = second.head?)
    : first = second := by
  induction first generalizing second with
  | nil => exact left.elim
  | cons cell rest ih =>
    cases second with
    | nil => exact right.elim
    | cons other more =>
      obtain rfl : cell = other := Option.some.inj same
      cases rest with
      | nil =>
        cases more with
        | nil => rfl
        | cons next _ =>
          have ends : step cell = none := left
          exact absurd (ends.symm.trans right.1) (by simp)
      | cons next rest =>
        cases more with
        | nil =>
          have ends : step cell = none := right
          exact absurd (ends.symm.trans left.1) (by simp)
        | cons next' more =>
          have equal : next = next' := Option.some.inj (left.1.symm.trans right.1)
          rw [ih left.2 right.2 (by simp [equal])]

theorem suffix {before after : List α} (complete : Complete step (before ++ after))
    (nonempty : after ≠ [])
    : Complete step after := by
  induction before with
  | nil => exact complete
  | cons cell rest ih =>
    apply ih
    cases joined : rest ++ after with
    | nil => exact absurd (List.append_eq_nil_iff.mp joined).2 nonempty
    | cons next more =>
      rw [List.cons_append, joined] at complete
      exact complete.2

/-- A chain passes no cell twice: from both places it would go on in the same way, and so be
as long.
-/
theorem nodup (complete : Complete step cells) : cells.Nodup := by
  induction cells with
  | nil => exact List.nodup_nil
  | cons cell rest ih =>
    cases rest with
    | nil => exact List.nodup_singleton cell
    | cons next rest =>
      refine List.nodup_cons.mpr ⟨?_, ih complete.2⟩
      intro again
      obtain ⟨before, after, split⟩ := List.append_of_mem again
      have later : Complete step (cell :: after) := by
        have whole := complete.2
        rw [split] at whole
        exact whole.suffix (by simp)
      have equal := complete.unique later rfl
      have lengths := congrArg List.length equal
      have longer := congrArg List.length split
      simp only [List.length_cons, List.length_append] at lengths longer
      omega

/-- From a cell of a chain it goes on in the chain, or ends. By induction on the cells. -/
theorem next_mem (complete : Complete step cells) {cell : α} (member : cell ∈ cells)
    : step cell = none ∨ ∃ next ∈ cells, step cell = some next := by
  induction cells with
  | nil => cases member
  | cons first rest ih =>
    cases rest with
    | nil =>
      obtain rfl := List.mem_singleton.mp member
      exact .inl complete
    | cons second rest =>
      rcases List.mem_cons.mp member with rfl | later
      · exact .inr ⟨second, by simp, complete.1⟩
      · rcases ih complete.2 later with ends | ⟨next, there, goes⟩
        · exact .inl ends
        · exact .inr ⟨next, List.mem_cons_of_mem _ there, goes⟩

end Complete

end RustyPi
