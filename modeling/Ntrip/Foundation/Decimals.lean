import Mathlib.Data.Rat.Floor
import Mathlib.Tactic.Linarith

namespace Ntrip
namespace Decimals

/-!
# Rounding to a number of decimal places

The nearest natural number to a rational that is not negative, a tie going to
the even one.  What is used of it is that it is at most one half away and
stays between whole bounds.
-/

/-- The nearest natural number, of two equally near ones the even one. -/
def nearestEven (value : ℚ) : ℕ :=
  if value - ⌊value⌋₊ < 1 / 2 ∨ (value - ⌊value⌋₊ = 1 / 2 ∧ ⌊value⌋₊ % 2 = 0) then ⌊value⌋₊
  else ⌊value⌋₊ + 1

variable {value : ℚ}

theorem abs_nearestEven_sub_le (nonneg : 0 ≤ value) :
    |(nearestEven value : ℚ) - value| ≤ 1 / 2 := by
  have lower : (⌊value⌋₊ : ℚ) ≤ value := Nat.floor_le nonneg
  have upper : value < ⌊value⌋₊ + 1 := Nat.lt_floor_add_one value
  rw [nearestEven, abs_le]
  split
  · rename_i near
    have close : value - ⌊value⌋₊ ≤ 1 / 2 := near.elim le_of_lt fun tie => le_of_eq tie.1
    constructor
    · linarith
    · linarith
  · rename_i far
    have close : 1 / 2 ≤ value - ⌊value⌋₊ := le_of_not_gt fun near => far (Or.inl near)
    push_cast
    constructor
    · linarith
    · linarith

theorem le_nearestEven {bound : ℕ} (below : (bound : ℚ) ≤ value) : bound ≤ nearestEven value := by
  have floor : bound ≤ ⌊value⌋₊ := Nat.le_floor below
  rw [nearestEven]
  split
  · exact floor
  · exact Nat.le_succ_of_le floor

theorem nearestEven_le {bound : ℕ} (nonneg : 0 ≤ value) (above : value ≤ bound) :
    nearestEven value ≤ bound := by
  have lower : (⌊value⌋₊ : ℚ) ≤ value := Nat.floor_le nonneg
  rw [nearestEven]
  split
  · exact_mod_cast lower.trans above
  · rename_i far
    have close : 1 / 2 ≤ value - ⌊value⌋₊ := le_of_not_gt fun near => far (Or.inl near)
    have below : (⌊value⌋₊ : ℚ) < bound := by linarith
    exact_mod_cast below

end Decimals
end Ntrip
