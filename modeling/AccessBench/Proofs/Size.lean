import AccessBench.Size
import Mathlib.Algebra.Order.Ring.Nat
import Mathlib.Order.Bounds.Defs

/-!
Units that cover an extent: a unit is one of them exactly when it begins inside the extent.
-/

namespace AccessBench

variable {size unit : Nat}

theorem lt_unitsToCover_iff {i : Nat} (hunit : 0 < unit) :
    i < unitsToCover size unit ↔ i * unit < size := by
  have hmul : (i + 1) * unit = i * unit + unit := Nat.succ_mul i unit
  rw [unitsToCover, ← Nat.succ_le_iff, Nat.le_div_iff_mul_le hunit, Nat.succ_eq_add_one, hmul]
  omega

theorem unitsToCover_le (hunit : 0 < unit) : unitsToCover size unit ≤ size := by
  by_contra h
  -- otherwise the unit with the number of bytes would begin inside the extent
  have hlt : size * unit < size := (lt_unitsToCover_iff hunit).mp (Nat.lt_of_not_le h)
  have hle : size ≤ size * unit := Nat.le_mul_of_pos_right size hunit
  omega

theorem isLeast_unitsToCover (hunit : 0 < unit) :
    IsLeast {n | size ≤ n * unit} (unitsToCover size unit) := by
  constructor
  · by_contra h
    have hlt := (lt_unitsToCover_iff hunit).mpr (Nat.lt_of_not_le h)
    exact Nat.lt_irrefl _ hlt
  · intro n hn
    by_contra h
    have hlt : n * unit < size := (lt_unitsToCover_iff hunit).mp (Nat.lt_of_not_le h)
    exact Nat.not_le_of_lt hlt hn

theorem toNat_pos_of_ne_zero {n : UInt64} (h : n ≠ 0) : 0 < n.toNat := by
  rw [Nat.pos_iff_ne_zero]
  intro hzero
  exact h (UInt64.toNat_inj.mp hzero)

theorem unitCount_of_ne_zero {size unit : UInt64} (h : unit ≠ 0) :
    unitCount size unit = .ok (unitsToCover size.toNat unit.toNat) := by
  rw [unitCount, if_neg h]

theorem unitCount_eq_ok_iff {size unit : UInt64} {n : Nat} :
    unitCount size unit = .ok n ↔ unit ≠ 0 ∧ n = unitsToCover size.toNat unit.toNat := by
  by_cases h : unit = 0
  · simp [unitCount, h]
  · rw [unitCount_of_ne_zero h]
    simp [h, eq_comm]

end AccessBench
