/-!
Written numbers: a sign, the digits before and after the point, and an exponent.
-/

namespace AccessBench.Decimal

/-- A written number. Without digits in the fraction it has no point. -/
structure Numeral where
  negative : Bool := false
  whole : List Char
  fraction : List Char := []
  /-- Whether the exponent is negative, and its digits. -/
  exponent : Option (Bool × List Char) := none
  deriving DecidableEq, Repr

namespace Numeral

def ofNat (n : Nat) : Numeral where
  whole := Nat.toDigits 10 n

/-- The characters of the exponent. A positive one has its sign too. -/
def exponentText : Option (Bool × List Char) → List Char
  | none => []
  | some (negative, digits) => 'e' :: (if negative then '-' else '+') :: digits

def fractionText : List Char → List Char
  | [] => []
  | digits => '.' :: digits

def text (n : Numeral) : List Char :=
  (if n.negative then ['-'] else []) ++ n.whole ++ fractionText n.fraction ++
    exponentText n.exponent

/-- Whether the number has neither fraction nor exponent. -/
def isInteger (n : Numeral) : Bool := n.fraction.isEmpty && n.exponent.isNone

def natural? (limit : Nat) (n : Numeral) : Option Nat :=
  if n.negative || !n.isInteger then none
  else
    let value := Nat.ofDigitChars 10 n.whole 0
    if value < limit then some value else none

end Numeral

end AccessBench.Decimal
