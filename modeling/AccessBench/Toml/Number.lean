import AccessBench.Decimal.Natural
import AccessBench.Toml.Value

/-!
Reading numbers of configuration files. Underscores may stand between digits.
-/

namespace AccessBench.Toml

/-- Digits of a base, with single underscores between them, from the character after a digit on.
The underscores are dropped. -/
def readMoreDigits (isDigit : Char → Bool) : List Char → Option (List Char × List Char)
  | '_' :: c :: rest =>
    if isDigit c then (readMoreDigits isDigit rest).map fun read => (c :: read.1, read.2) else none
  | '_' :: [] => none
  | c :: rest =>
    if isDigit c then (readMoreDigits isDigit rest).map fun read => (c :: read.1, read.2)
    else some ([], c :: rest)
  | [] => some ([], [])

def readDigits (isDigit : Char → Bool) : List Char → Option (List Char × List Char)
  | c :: rest =>
    if isDigit c then (readMoreDigits isDigit rest).map fun read => (c :: read.1, read.2) else none
  | [] => none

/-- A zero alone, or digits that do not start with one. -/
def readWhole : List Char → Option (List Char × List Char)
  | '0' :: rest => some (['0'], rest)
  | cs => readDigits Char.isDigit cs

/-- Whether a minus sign stands at the front, and what follows the sign. -/
def readSign : List Char → Bool × List Char
  | '-' :: cs => (true, cs)
  | '+' :: cs => (false, cs)
  | cs => (false, cs)

def digitsValue (base : Nat) (digits : List Char) : Nat :=
  digits.foldl (fun value c => value * base + (Decimal.digitValue? base c).getD 0) 0

def isDigitOf (base : Nat) (c : Char) : Bool := (Decimal.digitValue? base c).isSome

/-- Integers fit 64 bits with a sign. -/
def integer? (value : Int) : Option Value :=
  if Int64.minValue.toInt ≤ value ∧ value ≤ Int64.maxValue.toInt then some (.integer value) else none

def readBased (base : Nat) (cs : List Char) : Option (Value × List Char) := do
  let (digits, rest) ← readDigits (isDigitOf base) cs
  let value ← integer? (digitsValue base digits)
  return (value, rest)

/-- Whether `digits · 10 ^ exponent` is beyond the largest number, the digits being those before and
after the point. Far exponents are decided by the length alone. -/
def isTooLarge (whole fraction : List Char) (exponent : Int) : Bool :=
  let digits := (whole ++ fraction).dropWhile (· = '0')
  let length : Int := digits.length - fraction.length + exponent
  if digits.isEmpty || length < 300 then false
  else if 320 < length then true
  else
    let power := exponent - fraction.length
    let value := digitsValue 10 digits
    let limit := 1 <<< 1024 - 1 <<< 970
    limit * Nat.pow 10 (-power).toNat ≤ value * Nat.pow 10 power.toNat

def readFraction : List Char → Option (List Char × List Char)
  | '.' :: cs => readDigits Char.isDigit cs
  | cs => some ([], cs)

/-- The value of an exponent, if a mark is there. -/
def readExponent : List Char → Option (Option Int × List Char)
  | c :: cs =>
    if c = 'e' ∨ c = 'E' then do
      let (negative, cs) := readSign cs
      let (digits, rest) ← readDigits Char.isDigit cs
      let value : Int := digitsValue 10 digits
      return (some (if negative then -value else value), rest)
    else some (none, c :: cs)
  | [] => some (none, [])

/-- A number with an optional sign. A fraction or an exponent makes it a float, which must not be
beyond the largest one; below the smallest there is no bound. -/
def readDecimal (cs : List Char) : Option (Value × List Char) := do
  let (negative, cs) := readSign cs
  let (whole, cs) ← readWhole cs
  let (fraction, cs) ← readFraction cs
  let (exponent, cs) ← readExponent cs
  if fraction.isEmpty && exponent.isNone then
    let magnitude : Int := digitsValue 10 whole
    let value ← integer? (if negative then -magnitude else magnitude)
    return (value, cs)
  else if !negative && isTooLarge whole fraction (exponent.getD 0) then none
  else return (.float, cs)

def readNumber (cs : List Char) : Option (Value × List Char) :=
  match cs with
  | '0' :: 'x' :: rest => readBased 16 rest
  | '0' :: 'o' :: rest => readBased 8 rest
  | '0' :: 'b' :: rest => readBased 2 rest
  | cs =>
    match (readSign cs).2 with
    | 'i' :: 'n' :: 'f' :: rest => some (.float, rest)
    | 'n' :: 'a' :: 'n' :: rest => some (.float, rest)
    | _ => readDecimal cs

end AccessBench.Toml
