import AccessBench.Decimal.Numeral
import AccessBench.Decimal.Shortest

/-!
The layout of a number in a document: positional with at least one digit after the point for
moderate sizes, and with an exponent otherwise.
-/

namespace AccessBench.Decimal

/-- Drops trailing zeros of the digits into the exponent, at most `fuel` of them. -/
def Scientific.trim (s : Scientific) : Nat → Scientific
  | 0 => s
  | fuel + 1 =>
    if s.digits ≠ 0 ∧ s.digits % 10 = 0 then
      (Scientific.mk (s.digits / 10) (s.exponent + 1)).trim fuel
    else s

/-- Positional notation of `digits · 10 ^ exponent`, with at least one digit on both sides of the
point. -/
def positional (negative : Bool) (digits : List Char) (exponent : Int) : Numeral :=
  let whole := digits.length + exponent
  if 0 ≤ exponent then ⟨negative, digits ++ List.replicate exponent.toNat '0', ['0'], none⟩
  else if 0 < whole then ⟨negative, digits.take whole.toNat, digits.drop whole.toNat, none⟩
  else ⟨negative, ['0'], List.replicate (-whole).toNat '0' ++ digits, none⟩

/-- Scientific notation of `digits · 10 ^ exponent`: one digit before the point, and a point only
if more follow. -/
def scientific (negative : Bool) (digits : List Char) (exponent : Int) : Numeral :=
  let power := digits.length + exponent - 1
  ⟨negative, digits.take 1, digits.drop 1, some (power < 0, Nat.toDigits 10 power.natAbs)⟩

/-- Numbers from `10 ^ -5` and below `10 ^ 16` are written in positional notation. -/
def isModerate (digits : List Char) (exponent : Int) : Bool :=
  -5 < digits.length + exponent ∧ digits.length + exponent ≤ 16

def Dyadic.numeral (x : Dyadic) : Numeral :=
  if x.significand = 0 then ⟨x.negative, ['0'], ['0'], none⟩
  else
    let s := x.shortest.trim 17
    let digits := Nat.toDigits 10 s.digits
    if isModerate digits s.exponent then positional x.negative digits s.exponent
    else scientific x.negative digits s.exponent

/-- The numeral of a finite number; there is none for the others. -/
def numeral? (x : Float) : Option Numeral :=
  match Binary64.ofFloat x with
  | .finite value => some value.numeral
  | _ => none

end AccessBench.Decimal
