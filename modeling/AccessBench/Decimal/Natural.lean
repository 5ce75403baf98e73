/-!
Reading a natural number below a limit from its digits, with the reason where a text is none.
-/

namespace AccessBench.Decimal

inductive DigitError
  | empty
  | invalidDigit
  | tooLarge
  deriving DecidableEq, Repr

namespace DigitError

def message : DigitError → String
  | empty => "cannot parse integer from empty string"
  | invalidDigit => "invalid digit found in string"
  | tooLarge => "number too large to fit in target type"

end DigitError

/-- The value of a digit in bases up to 16; letters of either case follow nine. -/
def digitValue? (base : Nat) (c : Char) : Option Nat :=
  let value :=
    if '0' ≤ c ∧ c ≤ '9' then c.toNat - '0'.toNat
    else if 'a' ≤ c ∧ c ≤ 'f' then c.toNat - 'a'.toNat + 10
    else if 'A' ≤ c ∧ c ≤ 'F' then c.toNat - 'A'.toNat + 10
    else 16
  if value < base then some value else none

/-- Reads digits on from the value `acc` of those before them. On one digit that is wrong in both
ways, not being a digit comes first. -/
def readDigits (base limit : Nat) : Nat → List Char → Except DigitError Nat
  | acc, [] => .ok acc
  | acc, c :: rest =>
    match digitValue? base c with
    | none => .error .invalidDigit
    | some d =>
      if acc * base + d < limit then readDigits base limit (acc * base + d) rest
      else .error .tooLarge

/-- Reads a number below `limit`. One plus sign may stand before the digits. -/
def readNatural (base limit : Nat) : List Char → Except DigitError Nat
  | [] => .error .empty
  | ['+'] => .error .invalidDigit
  | '+' :: digits => readDigits base limit 0 digits
  | digits => readDigits base limit 0 digits

def readWord (base : Nat) (text : List Char) : Except DigitError UInt64 :=
  (readNatural base UInt64.size text).map UInt64.ofNat

end AccessBench.Decimal
