import Mathlib.Algebra.Group.Nat.Defs

/-!
# Concord.Lib.Checked

Checked addition of bounded machine integers.  An unsigned integer is a
`Nat` that stays at or below its type's maximum; `checkedAdd max a b` is the
sum when it fits and `none` when the machine would report an overflow.
-/

namespace Checked

/-- Largest value of a 32-bit unsigned integer. -/
def u32Max : Nat := 2 ^ 32 - 1

/-- Largest value of a 64-bit unsigned integer. -/
def u64Max : Nat := 2 ^ 64 - 1

/-- Largest `usize` of a 64-bit target. -/
def usizeMax : Nat := u64Max

/-- The sum of two integers if it does not exceed `max`. -/
def checkedAdd (max a b : Nat) : Option Nat :=
  if a + b ≤ max then some (a + b) else none

@[simp] theorem checkedAdd_eq_some_iff {max a b c : Nat} :
    checkedAdd max a b = some c ↔ a + b ≤ max ∧ a + b = c := by
  unfold checkedAdd
  split <;> grind

@[simp] theorem checkedAdd_eq_none_iff {max a b : Nat} :
    checkedAdd max a b = none ↔ max < a + b := by
  unfold checkedAdd
  split <;> grind

end Checked
