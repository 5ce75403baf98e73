import AccessBench.Decimal.Numeral

/-!
The floating-point value of a written number. The digits are gathered in a word as long as they fit;
then one multiplication or division by a power of ten gives the value. It is rounded in each of
these steps, so that it may differ from the nearest number in its last digit.
-/

namespace AccessBench.Decimal

/-- The digits gathered so far, and the power of ten that they are to be multiplied with. -/
structure Gathered where
  significand : Nat := 0
  exponent : Int := 0
  deriving DecidableEq, Repr

/-- Whether another digit fits the word. -/
def Gathered.fits (g : Gathered) (digit : Nat) : Bool := g.significand * 10 + digit < UInt64.size

def charDigit (c : Char) : Nat := c.toNat - '0'.toNat

/-- Gathers the digits before the point. From the first that does not fit on, each only raises the
power. -/
def Gathered.whole (g : Gathered) : List Char → Gathered
  | [] => g
  | c :: rest =>
    if g.fits (charDigit c) then
      Gathered.whole { g with significand := g.significand * 10 + charDigit c } rest
    else { g with exponent := rest.length + 1 }

/-- Gathers the digits after the point, each lowering the power. From the first that does not fit
on they are dropped. -/
def Gathered.fraction (g : Gathered) : List Char → Gathered
  | [] => g
  | c :: rest =>
    if g.fits (charDigit c) then
      Gathered.fraction ⟨g.significand * 10 + charDigit c, g.exponent - 1⟩ rest
    else g

def largestPower : Nat := 308

def powerOfTen (n : Nat) : Float := Float.ofScientific 1 false n

/-- `x · 10 ^ exponent`. Powers below the smallest are divided out in several steps, `fuel` of them
at most. There is no value beyond the largest number. -/
def scale? (x : Float) (exponent : Int) : Nat → Option Float
  | 0 => some 0
  | fuel + 1 =>
    if exponent.natAbs ≤ largestPower then
      if 0 ≤ exponent then
        let y := x * powerOfTen exponent.natAbs
        if y.isInf then none else some y
      else some (x / powerOfTen exponent.natAbs)
    else if x == 0 then some x
    else if 0 ≤ exponent then none
    else scale? (x / powerOfTen largestPower) (exponent + largestPower) fuel

/-- An exponent held within 32 bits. -/
def clampExponent (e : Int) : Int := max Int32.minValue.toInt (min Int32.maxValue.toInt e)

/-- The value of a number without its sign. An exponent of more than 31 bits gives zero or, unless
all digits are zeros, no value. -/
def Gathered.float? (g : Gathered) (exponent : Option (Bool × List Char)) : Option Float :=
  let scaled (e : Int) := scale? g.significand.toUInt64.toFloat e 4
  match exponent with
  | none => scaled g.exponent
  | some (negative, digits) =>
    let e := Nat.ofDigitChars 10 digits 0
    if e < 0x80000000 then
      scaled (clampExponent (if negative then g.exponent - e else g.exponent + e))
    else if negative ∨ g.significand = 0 then some 0
    else none

/-- The value of a written number, if it is not too large. -/
def Numeral.float? (n : Numeral) : Option Float :=
  let gathered := (Gathered.whole {} n.whole).fraction n.fraction
  (gathered.float? n.exponent).map fun x => if n.negative then -x else x

end AccessBench.Decimal
