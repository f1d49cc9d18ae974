import Mathlib.Data.Nat.Basic

/-! One's complement sums: a sum in some base whose carries are added at the other end until there are
none.
-/

namespace RustyPi.OnesComplement

/-- Adds the carries to the rest, so many times at most. -/
def fold (base : Nat) : Nat → Nat → Nat
  | 0, sum => sum
  | times + 1, sum => if sum / base = 0 then sum else fold base times (sum % base + sum / base)

/-- Adds the carries to the rest until there are none. -/
def endAround (base sum : Nat) : Nat := fold base sum sum

/-- Adding carries makes a sum smaller. -/
theorem carried_lt {base sum : Nat} (large : 1 < base) (carries : sum / base ≠ 0)
    : sum % base + sum / base < sum := by
  have whole := Nat.div_add_mod sum base
  have grows : 2 * (sum / base) ≤ base * (sum / base) := Nat.mul_le_mul_right _ large
  omega

end RustyPi.OnesComplement
