import Mathlib.Logic.Function.Basic

/-! Stores written one cell at a time. -/

namespace RustyPi.Journal

open Function

variable {κ β : Type} [DecidableEq κ]

/-- The store after some writes, oldest first. -/
def replay (store : κ → β) (writes : List (κ × β)) : κ → β :=
  writes.foldl (fun store write => update store write.1 write.2) store

theorem replay_append (store : κ → β) (first second : List (κ × β))
    : replay store (first ++ second) = replay (replay store first) second :=
  List.foldl_append

/-- A cell that no write is to keeps its value. By induction on the writes. -/
theorem replay_of_not_mem {store : κ → β} {writes : List (κ × β)} {cell : κ}
    (untouched : ∀ write ∈ writes, write.1 ≠ cell)
    : replay store writes cell = store cell := by
  induction writes generalizing store with
  | nil => rfl
  | cons write rest ih =>
    have later : replay (update store write.1 write.2) rest cell
        = update store write.1 write.2 cell :=
      ih (fun other member => untouched other (.tail _ member))
    have here := untouched write List.mem_cons_self
    exact later.trans (update_of_ne (Ne.symm here) ..)

/-- A cell that is written has what one of the writes to it puts there. By induction on the writes. -/
theorem replay_of_mem {store : κ → β} {writes : List (κ × β)} {cell : κ}
    (member : cell ∈ writes.map Prod.fst)
    : ∃ write ∈ writes, write.1 = cell ∧ replay store writes cell = write.2 := by
  induction writes generalizing store with
  | nil => cases member
  | cons write rest ih =>
    by_cases later : cell ∈ rest.map Prod.fst
    · obtain ⟨last, there, same, result⟩ := ih later
      exact ⟨last, .tail _ there, same, result⟩
    · have here : write.1 = cell := ((List.mem_cons.mp member).resolve_right later).symm
      have untouched : ∀ other ∈ rest, other.1 ≠ cell :=
        fun other there same => later (same ▸ List.mem_map_of_mem there)
      refine ⟨write, List.mem_cons_self, here, (replay_of_not_mem untouched).trans ?_⟩
      exact here ▸ update_self ..

end RustyPi.Journal
