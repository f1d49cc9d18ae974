import Mathlib.Algebra.Group.Nat.Defs
import RustyPi.Lib.Bytes

/-! Operations that can panic: taking elements and ranges of a list, copying into a range, and
arithmetic in a type of so many bits. A computation with them ends with a value, or with the first
panic.
-/

namespace RustyPi

inductive Panic
  | index
  | range
  | copy
  | overflow
  deriving DecidableEq, Repr

abbrev Checked (α : Type) : Type := Except Panic α

namespace Checked

variable {α β : Type} {list : List α}

def index (list : List α) (at_ : Nat) : Checked α :=
  match list[at_]? with
  | some found => .ok found
  | none => .error .index

def slice (list : List α) (start stop : Nat) : Checked (List α) :=
  if start ≤ stop ∧ stop ≤ list.length then .ok ((list.take stop).drop start) else .error .range

/-- `copy_from_slice` into a range. -/
def copy (list : List α) (start stop : Nat) (new : List α) : Checked (List α) := do
  let range ← slice list start stop
  if range.length = new.length then .ok (Bytes.splice list start new) else .error .copy

/-- A result in a type of so many bits. -/
def fits (width value : Nat) : Checked Nat :=
  if value < 2 ^ width then .ok value else .error .overflow

/-- A function on each element, in order. -/
def each (next : α → Checked β) : List α → Checked (List β)
  | [] => .ok []
  | first :: rest => do
      let first ← next first
      let rest ← each next rest
      return first :: rest

@[simp] theorem ok_bind (value : α) (next : α → Checked β) : (Except.ok value >>= next) = next value :=
  rfl

@[simp] theorem pure_ok (value : α) : (pure value : Checked α) = .ok value := rfl

theorem index_of_lt {at_ : Nat} (inside : at_ < list.length) (other : α)
    : index list at_ = .ok (list[at_]?.getD other) := by
  rw [index, List.getElem?_eq_getElem inside, Option.getD_some]

theorem slice_of_le {start stop : Nat} (ordered : start ≤ stop) (inside : stop ≤ list.length)
    : slice list start stop = .ok ((list.take stop).drop start) :=
  if_pos ⟨ordered, inside⟩

theorem copy_of_le {new : List α} {start stop : Nat} (sized : start + new.length = stop)
    (inside : stop ≤ list.length)
    : copy list start stop new = .ok (Bytes.splice list start new) := by
  have long : ((list.take stop).drop start).length = new.length := by
    rw [List.length_drop, List.length_take]
    omega
  rw [copy, slice_of_le (by omega) inside, ok_bind, if_pos long]

theorem fits_of_lt {width value : Nat} (small : value < 2 ^ width) : fits width value = .ok value :=
  if_pos small

theorem each_eq {next : α → Checked β} {result : α → β}
    (ok : ∀ element ∈ list, next element = .ok (result element))
    : each next list = .ok (list.map result) := by
  induction list with
  | nil => rfl
  | cons first rest ih =>
    rw [each, ok first List.mem_cons_self, ok_bind,
      ih (fun element member => ok element (List.mem_cons_of_mem _ member)), ok_bind]
    rfl

end Checked

end RustyPi
