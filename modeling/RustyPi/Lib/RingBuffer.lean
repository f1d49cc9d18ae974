import Mathlib.Data.List.Basic
import Mathlib.Logic.Function.Basic

/-! A ring of slots with the next one to write and the next one to read: what it holds in between,
and when the two positions meet.
-/

namespace RustyPi.RingBuffer

variable {α : Type} {size tail count : Nat}

/-- The position so many slots further on. -/
def ahead (size tail count : Nat) : Nat := (tail + count) % size

/-- What is in `count` slots from `tail` on. -/
def contents (size : Nat) (slots : Nat → α) (tail count : Nat) : List α :=
  (List.range count).map (fun offset => slots (ahead size tail offset))

theorem ahead_lt (tail count : Nat) (inside : tail < size)
    : ahead size tail count < size :=
  Nat.mod_lt _ (Nat.zero_lt_of_lt inside)

theorem ahead_zero (inside : tail < size)
    : ahead size tail 0 = tail :=
  Nat.mod_eq_of_lt inside

theorem ahead_ahead (tail count more : Nat)
    : ahead size (ahead size tail count) more = ahead size tail (count + more) := by
  rw [ahead, ahead, ahead, Nat.mod_add_mod, Nat.add_assoc]

theorem ahead_inj {other : Nat} (inside : tail < size) (fits : count < size) (otherFits : other < size)
    : ahead size tail count = ahead size tail other ↔ count = other := by
  constructor
  · intro same
    have once {steps : Nat} (fits : steps < size)
        : ahead size tail steps = tail + steps ∨ ahead size tail steps + size = tail + steps := by
      rw [ahead]
      rcases Nat.lt_or_ge (tail + steps) size with below | past
      · exact .inl (Nat.mod_eq_of_lt below)
      · rw [Nat.mod_eq_sub_mod past, Nat.mod_eq_of_lt (by omega)]
        omega
    have := once fits
    have := once otherFits
    have := ahead_lt tail count inside
    omega
  · rintro rfl
    rfl

theorem ahead_eq_self (inside : tail < size) (fits : count < size)
    : ahead size tail count = tail ↔ count = 0 := by
  have same := ahead_inj inside fits (Nat.zero_lt_of_lt inside)
  rwa [ahead_zero inside] at same

/-- One more would make them meet exactly if all but one are in use. -/
theorem ahead_succ_eq_self (inside : tail < size) (fits : count < size)
    : ahead size tail (count + 1) = tail ↔ count + 1 = size := by
  rcases Nat.lt_or_eq_of_le (show count + 1 ≤ size from fits) with below | full
  · rw [ahead_eq_self inside below]
    omega
  · rw [full, ahead, Nat.add_mod_right, Nat.mod_eq_of_lt inside]
    exact ⟨fun _ => rfl, fun _ => rfl⟩

@[simp]
theorem contents_zero (slots : Nat → α)
    : contents size slots tail 0 = [] :=
  rfl

theorem contents_succ (slots : Nat → α)
    : contents size slots tail (count + 1)
      = contents size slots tail count ++ [slots (ahead size tail count)] := by
  rw [contents, List.range_succ, List.map_append]
  rfl

theorem contents_eq_cons (slots : Nat → α) (inside : tail < size)
    : contents size slots tail (count + 1)
      = slots tail :: contents size slots (ahead size tail 1) count := by
  rw [contents, List.range_succ_eq_map, List.map_cons, List.map_map, ahead_zero inside, contents]
  congr 1
  refine List.map_congr_left (fun offset _ => ?_)
  rw [ahead_ahead, Nat.add_comm 1 offset]
  rfl

theorem contents_update (slots : Nat → α) (value : α) (inside : tail < size) (fits : count < size)
    : contents size (Function.update slots (ahead size tail count) value) tail count
      = contents size slots tail count := by
  refine List.map_congr_left (fun offset member => ?_)
  have earlier := List.mem_range.mp member
  refine Function.update_of_ne ?_ _ _
  rw [ne_eq, ahead_inj inside (Nat.lt_trans earlier fits) fits]
  exact Nat.ne_of_lt earlier

end RustyPi.RingBuffer
