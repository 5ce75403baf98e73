/-!
The exact value of a binary floating-point number, as an integer times a power of two. All decimal
texts are computed from it in integer arithmetic.
-/

namespace AccessBench.Decimal

/-- The number `significand · 2 ^ exponent`, with a sign that zero has too. -/
structure Dyadic where
  negative : Bool
  significand : Nat
  exponent : Int
  deriving DecidableEq, Repr

/-- What the 64 bits of a floating-point number stand for. -/
inductive Binary64
  | nan
  | infinite (negative : Bool)
  | finite (value : Dyadic)
  deriving DecidableEq, Repr

/-- The bit above the fraction, which is not stored. -/
def hiddenBit : Nat := 1 <<< 52

namespace Binary64

/-- Decodes sign, exponent field and fraction. The exponent field 0 has no hidden bit, and the
field 2047 holds the infinities and what is not a number. -/
def ofBits (bits : UInt64) : Binary64 :=
  let negative := bits.toNat >>> 63 = 1
  let field : Nat := (bits.toNat >>> 52) % 2048
  let fraction : Nat := bits.toNat % hiddenBit
  if field = 2047 then if fraction = 0 then .infinite negative else .nan
  else if field = 0 then .finite ⟨negative, fraction, -1074⟩
  else .finite ⟨negative, hiddenBit + fraction, (field : Int) - 1075⟩

def ofFloat (x : Float) : Binary64 := ofBits x.toBits

end Binary64

/-- The value without its sign, as a numerator and a positive denominator. -/
def Dyadic.ratio (x : Dyadic) : Nat × Nat :=
  if 0 ≤ x.exponent then (x.significand <<< x.exponent.toNat, 1)
  else (x.significand, 1 <<< (-x.exponent).toNat)

end AccessBench.Decimal
