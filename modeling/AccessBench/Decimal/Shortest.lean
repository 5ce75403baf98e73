import AccessBench.Decimal.Binary64

/-!
The shortest decimal that reads back: the fewest significant digits that lie in the interval of
reals rounding to a given floating-point number, and of those the digits nearest to it.
-/

namespace AccessBench.Decimal

/-- The decimal `digits · 10 ^ exponent`. -/
structure Scientific where
  digits : Nat
  exponent : Int
  deriving DecidableEq, Repr

/-- How many decimal digits `n` has; zero has one. -/
def digitCount (n : Nat) : Nat := (Nat.toDigits 10 n).length

/-- The exponent `e` with `10 ^ e ≤ num / den < 10 ^ (e + 1)`, for a positive fraction. -/
def decimalExponent (num den : Nat) : Int :=
  if den ≤ num then digitCount (num / den) - 1 else -digitCount ((den - 1) / num)

/-- The reals between `low / den` and `high / den` around the number `mid / den`, with the two ends
or without them. -/
structure Interval where
  low : Nat
  mid : Nat
  high : Nat
  den : Nat
  closed : Bool
  deriving Repr

/-- The reals that round to a given number. They reach halfway to its two neighbours, of which the
lower one is nearer where the exponent changes, and hold the ends exactly when the significand is
even. -/
def Dyadic.interval (x : Dyadic) : Interval :=
  let m := x.significand
  let low := if m = hiddenBit ∧ -1074 < x.exponent then 4 * m - 1 else 4 * m - 2
  let scale := if 2 ≤ x.exponent then 1 <<< (x.exponent - 2).toNat else 1
  let den := if 2 ≤ x.exponent then 1 else 1 <<< (2 - x.exponent).toNat
  ⟨low * scale, 4 * m * scale, (4 * m + 2) * scale, den, m % 2 = 0⟩

def Interval.holds (i : Interval) (num den : Nat) : Bool :=
  if i.closed then i.low * den ≤ num * i.den ∧ num * i.den ≤ i.high * den
  else i.low * den < num * i.den ∧ num * i.den < i.high * den

/-- The point of the grid of multiples of `10 ^ exponent` that lies in the interval next to its
middle, if one of the middle's two neighbours does. Of two that are equally near, the even one. -/
def Interval.onGrid? (i : Interval) (exponent : Int) : Option Nat :=
  let up := Nat.pow 10 exponent.toNat
  let down := Nat.pow 10 (-exponent).toNat
  let below := i.mid * down / (i.den * up)
  let hit (d : Nat) := i.holds (d * up) down
  match hit below, hit (below + 1) with
  | false, false => none
  | true, false => some below
  | false, true => some (below + 1)
  | true, true =>
    let twice := 2 * (i.mid * down)
    let middle := (2 * below + 1) * (i.den * up)
    if twice < middle then some below
    else if middle < twice then some (below + 1)
    else if below % 2 = 0 then some below
    else some (below + 1)

/-- Tries grids from the coarse to the fine one. The last is taken for granted: seventeen digits
tell any two numbers apart. -/
def Interval.shortestFrom (i : Interval) (exponent : Int) : Nat → Scientific
  | 0 => ⟨i.mid * Nat.pow 10 (-exponent).toNat / (i.den * Nat.pow 10 exponent.toNat), exponent⟩
  | n + 1 =>
    match i.onGrid? exponent with
    | some digits => ⟨digits, exponent⟩
    | none => i.shortestFrom (exponent - 1) n

def Dyadic.shortest (x : Dyadic) : Scientific :=
  let i := x.interval
  i.shortestFrom (decimalExponent i.mid i.den) 17

end AccessBench.Decimal
