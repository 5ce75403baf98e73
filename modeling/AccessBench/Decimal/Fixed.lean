import AccessBench.Decimal.Binary64

/-!
Decimal texts with a fixed number of places: the exact value rounded to the nearest multiple of the
last place, a tie going to the even one.
-/

namespace AccessBench.Decimal

/-- The integer nearest to `num / den`, of two the even one. -/
def divHalfEven (num den : Nat) : Nat :=
  let quotient := num / den
  let twice := 2 * (num % den)
  if twice < den then quotient
  else if den < twice then quotient + 1
  else if quotient % 2 = 0 then quotient
  else quotient + 1

def paddedDigits (width n : Nat) : List Char :=
  let digits := Nat.toDigits 10 n
  List.replicate (width - digits.length) '0' ++ digits

/-- Writes `n` with its last `places` digits after a point. Without places there is no point. -/
def withPoint (places n : Nat) : String :=
  if places = 0 then String.ofList (Nat.toDigits 10 n)
  else
    let digits := paddedDigits (places + 1) n
    let whole := digits.length - places
    String.ofList (digits.take whole ++ '.' :: digits.drop whole)

/-- The text of a number with `places` digits after the point. The sign of a negative number stays
also where all digits are zeros. -/
def fixed (places : Nat) (x : Float) : String :=
  match Binary64.ofFloat x with
  | .nan => "NaN"
  | .infinite negative => if negative then "-inf" else "inf"
  | .finite value =>
    let ratio := value.ratio
    let text := withPoint places (divHalfEven (ratio.1 * Nat.pow 10 places) ratio.2)
    if value.negative then "-" ++ text else text

end AccessBench.Decimal
