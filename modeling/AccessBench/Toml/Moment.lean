/-!
Reading dates and times of configuration files. The functions only tell what follows one; no field
takes a date.
-/

namespace AccessBench.Toml

def readFixed : Nat → Nat → List Char → Option (Nat × List Char)
  | 0, value, cs => some (value, cs)
  | n + 1, value, c :: cs =>
    if c.isDigit then readFixed n (value * 10 + (c.toNat - '0'.toNat)) cs else none
  | _ + 1, _, [] => none

def readTwo (low high : Nat) (cs : List Char) : Option (Nat × List Char) :=
  (readFixed 2 0 cs).filter fun read => low ≤ read.1 && read.1 ≤ high

def skipChar (c : Char) : List Char → Option (List Char)
  | d :: cs => if d = c then some cs else none
  | [] => none

def isLeapYear (year : Nat) : Bool := year % 4 = 0 && (year % 100 ≠ 0 || year % 400 = 0)

def daysInMonth (year month : Nat) : Nat :=
  if month = 2 then if isLeapYear year then 29 else 28
  else if month = 4 ∨ month = 6 ∨ month = 9 ∨ month = 11 then 30
  else 31

def skipDate (cs : List Char) : Option (List Char) := do
  let (year, cs) ← readFixed 4 0 cs
  let cs ← skipChar '-' cs
  let (month, cs) ← readTwo 1 12 cs
  let cs ← skipChar '-' cs
  let (_, cs) ← readTwo 1 (daysInMonth year month) cs
  return cs

def skipFraction : List Char → Option (List Char)
  | '.' :: c :: cs => if c.isDigit then some (cs.dropWhile Char.isDigit) else none
  | '.' :: [] => none
  | cs => some cs

/-- A time of day with seconds, of which there may be one more than usual. -/
def skipTime (cs : List Char) : Option (List Char) := do
  let (_, cs) ← readTwo 0 23 cs
  let cs ← skipChar ':' cs
  let (_, cs) ← readTwo 0 59 cs
  let cs ← skipChar ':' cs
  let (_, cs) ← readTwo 0 60 cs
  skipFraction cs

/-- An offset from universal time, if one is there. -/
def skipOffset : List Char → Option (List Char)
  | c :: cs =>
    if c = 'Z' ∨ c = 'z' then some cs
    else if c = '+' ∨ c = '-' then do
      let (_, cs) ← readTwo 0 23 cs
      let cs ← skipChar ':' cs
      let (_, cs) ← readTwo 0 59 cs
      return cs
    else some (c :: cs)
  | [] => some []

/-- The time of a date after its mark, if both are there. -/
def skipTimeOfDate (cs : List Char) : Option (List Char) :=
  match cs with
  | c :: rest =>
    if c = 'T' ∨ c = 't' ∨ c = ' ' then
      match skipTime rest with
      | some rest => skipOffset rest
      | none => some cs
    else some cs
  | [] => some cs

/-- A date with or without a time, or a time alone. -/
def skipMoment (cs : List Char) : Option (List Char) :=
  match skipDate cs with
  | some rest => skipTimeOfDate rest
  | none => skipTime cs

end AccessBench.Toml
