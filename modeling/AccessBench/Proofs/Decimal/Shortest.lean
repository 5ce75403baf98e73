import AccessBench.Decimal.Shortest
import AccessBench.Proofs.Decimal.Digits
import Mathlib.Tactic.SplitIfs

/-!
The shortest digits of a number other than zero are not zero, on whichever grid they are found.
-/

namespace AccessBench.Decimal

theorem lt_pow_digitCount (n : Nat) : n < 10 ^ digitCount n :=
  (Nat.length_toDigits_le_iff (by decide) Nat.length_toDigits_pos).mp le_rfl

theorem pow_digitCount_le {n : Nat} (h : 0 < n) : 10 ^ (digitCount n - 1) ≤ n := by
  by_cases hone : digitCount n - 1 = 0
  · rw [hone]
    exact h
  · rw [← Nat.not_lt, ← Nat.length_toDigits_le_iff (by decide) (Nat.pos_of_ne_zero hone)]
    have hdef : digitCount n = (Nat.toDigits 10 n).length := rfl
    omega

/-- The fraction is not below `10 ^ exponent`. -/
def AtLeast (exponent : Int) (num den : Nat) : Prop :=
  den * 10 ^ exponent.toNat ≤ num * 10 ^ (-exponent).toNat

theorem atLeast_decimalExponent {num den : Nat} (hnum : 0 < num) (hden : 0 < den) :
    AtLeast (decimalExponent num den) num den := by
  unfold AtLeast decimalExponent
  split
  · next hle =>
    have hquotient : 0 < num / den := Nat.div_pos hle hden
    have hpow := pow_digitCount_le hquotient
    have hcount : 0 < digitCount (num / den) := Nat.length_toDigits_pos
    have hup : ((digitCount (num / den) : Int) - 1).toNat = digitCount (num / den) - 1 := by omega
    have hdown : (-((digitCount (num / den) : Int) - 1)).toNat = 0 := by omega
    rw [hup, hdown, Nat.pow_zero, Nat.mul_one]
    calc den * 10 ^ (digitCount (num / den) - 1)
        ≤ den * (num / den) := Nat.mul_le_mul_left den hpow
      _ ≤ num := Nat.mul_div_le num den
  · have hpow := lt_pow_digitCount ((den - 1) / num)
    have hup : (-(digitCount ((den - 1) / num) : Int)).toNat = 0 := by omega
    have hdown : (- -(digitCount ((den - 1) / num) : Int)).toNat = digitCount ((den - 1) / num) := by
      omega
    rw [hup, hdown, Nat.pow_zero, Nat.mul_one]
    have hlt : den - 1 < num * 10 ^ digitCount ((den - 1) / num) :=
      (Nat.div_lt_iff_lt_mul hnum).mp hpow |>.trans_eq (Nat.mul_comm _ _)
    omega

/-- A fraction that is not below a power is not below the next smaller one. -/
theorem AtLeast.pred {exponent : Int} {num den : Nat} (h : AtLeast exponent num den) :
    AtLeast (exponent - 1) num den := by
  unfold AtLeast at h ⊢
  calc den * 10 ^ (exponent - 1).toNat
      ≤ den * 10 ^ exponent.toNat :=
        Nat.mul_le_mul_left den (Nat.pow_le_pow_right (by decide) (by omega))
    _ ≤ num * 10 ^ (-exponent).toNat := h
    _ ≤ num * 10 ^ (-(exponent - 1)).toNat :=
        Nat.mul_le_mul_left num (Nat.pow_le_pow_right (by decide) (by omega))

namespace Interval

variable {i : Interval}

/-- What is found on a grid lies in the interval. -/
theorem holds_of_onGrid? {exponent : Int} {digits : Nat} (h : i.onGrid? exponent = some digits) :
    i.holds (digits * Nat.pow 10 exponent.toNat) (Nat.pow 10 (-exponent).toNat) = true := by
  simp only [onGrid?] at h
  generalize i.mid * Nat.pow 10 (-exponent).toNat / (i.den * Nat.pow 10 exponent.toNat) = below
    at h
  split at h
  · cases h
  · next hbelow _ =>
    obtain rfl := Option.some.inj h
    exact hbelow
  · next _ habove =>
    obtain rfl := Option.some.inj h
    exact habove
  · next hbelow habove =>
    split_ifs at h <;> obtain rfl := Option.some.inj h
    · exact hbelow
    · exact habove
    · exact hbelow
    · exact habove

theorem onGrid?_ne_zero (hlow : 0 < i.low) {exponent : Int} {digits : Nat}
    (h : i.onGrid? exponent = some digits) : digits ≠ 0 := by
  rintro rfl
  have hpos : 0 < i.low * Nat.pow 10 (-exponent).toNat :=
    Nat.mul_pos hlow (Nat.pow_pos (by decide))
  have hzero := holds_of_onGrid? h
  unfold holds at hzero
  split at hzero <;> simp only [Nat.zero_mul, decide_eq_true_eq] at hzero <;> omega

theorem shortestFrom_ne_zero (hlow : 0 < i.low) (hden : 0 < i.den) {exponent : Int}
    (h : AtLeast exponent i.mid i.den) (n : Nat) : (i.shortestFrom exponent n).digits ≠ 0 := by
  induction n generalizing exponent with
  | zero =>
    have hgrid : 0 < i.den * 10 ^ exponent.toNat := Nat.mul_pos hden (Nat.pow_pos (by decide))
    exact Nat.pos_iff_ne_zero.mp (Nat.div_pos h hgrid)
  | succ n ih =>
    rw [shortestFrom]
    split
    · next hgrid => exact onGrid?_ne_zero hlow hgrid
    · exact ih h.pred

end Interval

theorem Dyadic.shortest_ne_zero {x : Dyadic} (h : x.significand ≠ 0) : x.shortest.digits ≠ 0 := by
  have hscale : 0 < if 2 ≤ x.exponent then 1 <<< (x.exponent - 2).toNat else 1 := by
    split <;> simp [Nat.one_shiftLeft]
  have hden : 0 < x.interval.den := by
    simp only [interval]
    split <;> simp [Nat.one_shiftLeft]
  have hlow : 0 < x.interval.low := by
    simp only [interval]
    refine Nat.mul_pos ?_ hscale
    split <;> omega
  have hmid : 0 < x.interval.mid := by
    simp only [interval]
    exact Nat.mul_pos (by omega) hscale
  exact Interval.shortestFrom_ne_zero hlow hden (atLeast_decimalExponent hmid hden) 17

end AccessBench.Decimal
