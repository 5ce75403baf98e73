import AccessBench.Decimal.Natural

/-!
Reading quoted texts of configuration files, on one line and on several, with escapes and without.
-/

namespace AccessBench.Toml

/-- Characters that may stand for themselves: blanks, tabs and all that is no control character. -/
def isPlain (c : Char) : Bool := c = '\t' || (32 ≤ c.toNat && c.toNat ≠ 127)

/-- The character with a number of exactly `n` hexadecimal digits. Halves of pairs stand for
none. -/
def readCode (n : Nat) (cs : List Char) : Option (Char × List Char) := do
  let digits := cs.take n
  let values ← digits.mapM (Decimal.digitValue? 16)
  let value := values.foldl (fun value d => value * 16 + d) 0
  if digits.length = n ∧ value.isValidChar then some (Char.ofNat value, cs.drop n) else none

def shortEscape? (c : Char) : Option Char :=
  if c = '"' ∨ c = '\\' then some c
  else if c = 'b' then some '\x08'
  else if c = 'f' then some '\x0c'
  else if c = 'n' then some '\n'
  else if c = 'r' then some '\r'
  else if c = 't' then some '\t'
  else none

def readEscape : List Char → Option (Char × List Char)
  | 'u' :: cs => readCode 4 cs
  | 'U' :: cs => readCode 8 cs
  | c :: cs => (shortEscape? c).map fun c => (c, cs)
  | [] => none

/-- The line end at the front, if there is one: a line feed, alone or after a carriage return. -/
def skipNewline? : List Char → Option (List Char)
  | '\n' :: cs => some cs
  | '\r' :: '\n' :: cs => some cs
  | _ => none

def isBlank (c : Char) : Bool := c = ' ' || c = '\t'

def skipBlanks (cs : List Char) : List Char := cs.dropWhile isBlank

/-- Drops blanks and line ends, `fuel` of them at most. -/
def skipSpace : Nat → List Char → List Char
  | 0, cs => cs
  | fuel + 1, cs =>
    match skipNewline? (skipBlanks cs) with
    | some rest => skipSpace fuel rest
    | none => skipBlanks cs

/-- The line end after a backslash and blanks, dropped with all the space that follows. -/
def skipJoinedLines? (cs : List Char) : Option (List Char) :=
  (skipNewline? (skipBlanks cs)).map fun rest => skipSpace rest.length rest

/-- A text on one line, up to its closing quote. -/
def readLine (quote : Char) (escapes : Bool) : Nat → List Char → Option (List Char × List Char)
  | 0, _ => none
  | _ + 1, [] => none
  | fuel + 1, c :: cs =>
    if c = quote then some ([], cs)
    else if escapes ∧ c = '\\' then do
      let (c, cs) ← readEscape cs
      let (text, cs) ← readLine quote escapes fuel cs
      return (c :: text, cs)
    else if isPlain c then do
      let (text, cs) ← readLine quote escapes fuel cs
      return (c :: text, cs)
    else none

/-- A text on several lines, up to its three closing quotes. Of three to five quotes in a row the
last three close it. -/
def readLines (quote : Char) (escapes : Bool) : Nat → List Char → Option (List Char × List Char)
  | 0, _ => none
  | _ + 1, [] => none
  | fuel + 1, c :: cs =>
    if c = quote then
      let run := (c :: cs).takeWhile (· = quote)
      let rest := (c :: cs).drop run.length
      if run.length < 3 then do
        let (text, rest) ← readLines quote escapes fuel rest
        return (run ++ text, rest)
      else if run.length < 6 then some (run.drop 3, rest)
      else none
    else
      match skipNewline? (c :: cs) with
      | some rest => do
        let (text, rest) ← readLines quote escapes fuel rest
        return ('\n' :: text, rest)
      | none =>
        if escapes ∧ c = '\\' then
          match skipJoinedLines? cs with
          | some rest => readLines quote escapes fuel rest
          | none => do
            let (c, cs) ← readEscape cs
            let (text, cs) ← readLines quote escapes fuel cs
            return (c :: text, cs)
        else if isPlain c then do
          let (text, cs) ← readLines quote escapes fuel cs
          return (c :: text, cs)
        else none

/-- A text on one line, from its opening quote on. -/
def readOneLine : List Char → Option (String × List Char)
  | '"' :: cs =>
    (readLine '"' true (cs.length + 1) cs).map fun read => (String.ofList read.1, read.2)
  | '\'' :: cs =>
    (readLine '\'' false (cs.length + 1) cs).map fun read => (String.ofList read.1, read.2)
  | _ => none

/-- The inside of a text on several lines. A line end right after the opening is not part of it. -/
def readInside (quote : Char) (escapes : Bool) (cs : List Char) : Option (String × List Char) :=
  let cs := (skipNewline? cs).getD cs
  (readLines quote escapes (cs.length + 1) cs).map fun read => (String.ofList read.1, read.2)

/-- A text in any of the four forms. -/
def readQuoted : List Char → Option (String × List Char)
  | '"' :: '"' :: '"' :: cs => readInside '"' true cs
  | '\'' :: '\'' :: '\'' :: cs => readInside '\'' false cs
  | cs => readOneLine cs

end AccessBench.Toml
