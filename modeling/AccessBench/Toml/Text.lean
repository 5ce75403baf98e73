/-!
Quoted texts of configuration files. Of the four forms, basic and literal, on one line or on
several, the first is taken that shows the text without escapes.
-/

namespace AccessBench.Toml

/-- A control character that must be given by number or letter, on one line and on several. -/
def needsEscapeCode (c : Char) : Bool :=
  (c.toNat < 32 && c ≠ '\t' && c ≠ '\n') || c.toNat = 127

def hasTriple (c : Char) : List Char → Bool
  | a :: b :: d :: rest => (a = c && b = c && d = c) || hasTriple c (b :: d :: rest)
  | _ => false

/-- How a text is quoted: between basic quotes with escapes or between literal ones without, on one
line or on several. -/
inductive Quoting
  | basic
  | literal
  | basicLines
  | literalLines
  deriving DecidableEq, Repr

/-- The first form that needs no escapes, else a basic one. -/
def quotingOf (cs : List Char) : Quoting :=
  let codes := cs.any needsEscapeCode
  let newline := cs.contains '\n'
  if !codes && !cs.contains '\\' && !cs.contains '"' && !newline then .basic
  else if !codes && !cs.contains '\'' && !newline then .literal
  else if !codes && !cs.contains '\\' && !hasTriple '"' cs then .basicLines
  else if !codes && !hasTriple '\'' cs then .literalLines
  else if newline then .basicLines
  else .basic

def upperHexDigits : List Char := "0123456789ABCDEF".toList

def escape? (severalLines : Bool) (c : Char) : Option (List Char) :=
  if c = '\x08' then some ['\\', 'b']
  else if c = '\t' then some ['\\', 't']
  else if c = '\n' then if severalLines then none else some ['\\', 'n']
  else if c = '\x0c' then some ['\\', 'f']
  else if c = '\r' then some ['\\', 'r']
  else if c = '\\' then some ['\\', '\\']
  else if needsEscapeCode c then
    some ['\\', 'u', '0', '0', upperHexDigits.getD (c.toNat / 16) '0',
      upperHexDigits.getD (c.toNat % 16) '0']
  else none

/-- The inside of a basic text. So many quotes may stand in a row; `run` of them have just been
written. -/
def escapeFrom (severalLines : Bool) (run : Nat) : List Char → List Char
  | [] => []
  | c :: rest =>
    if c = '"' then
      if run < (if severalLines then 2 else 0) then '"' :: escapeFrom severalLines (run + 1) rest
      else '\\' :: '"' :: escapeFrom severalLines 0 rest
    else
      match escape? severalLines c with
      | some escaped => escaped ++ escapeFrom severalLines 0 rest
      | none => c :: escapeFrom severalLines 0 rest

/-- Three quotes, and a new line that is not part of the text if the text has one. -/
def openLines (quote : Char) (cs : List Char) : List Char :=
  [quote, quote, quote] ++ if cs.contains '\n' then ['\n'] else []

def quote (cs : List Char) : List Char :=
  match quotingOf cs with
  | .basic => '"' :: (escapeFrom false 0 cs ++ ['"'])
  | .literal => '\'' :: (cs ++ ['\''])
  | .basicLines => openLines '"' cs ++ escapeFrom true 0 cs ++ ['"', '"', '"']
  | .literalLines => openLines '\'' cs ++ cs ++ ['\'', '\'', '\'']

end AccessBench.Toml
