import AccessBench.Toml.Document
import AccessBench.Toml.Moment
import AccessBench.Toml.Number
import AccessBench.Toml.Quoted

/-!
Reading the lines of a configuration file: entries, which give a key its value, and headers.
-/

namespace AccessBench.Toml

def isBareKeyChar (c : Char) : Bool := c.isAlphanum || c = '_' || c = '-'

def readKeyPart (cs : List Char) : Option (String × List Char) :=
  match cs.takeWhile isBareKeyChar with
  | [] => readOneLine cs
  | part => some (String.ofList part, cs.drop part.length)

/-- A key of one or more parts between points, at most so many. Blanks around the parts are
dropped. -/
def readKey : Nat → List Char → Option (List String × List Char)
  | 0, _ => none
  | n + 1, cs => do
    let (part, cs) ← readKeyPart (skipBlanks cs)
    match skipBlanks cs with
    | '.' :: rest =>
      let (parts, rest) ← readKey n rest
      return (part :: parts, rest)
    | rest => return ([part], rest)

/-- Keys have at most so many parts, and values nest at most so deep. -/
def nestingLimit : Nat := 79

/-- The rest of a comment and the line end after it, which the end of the file may stand for. -/
def skipComment : List Char → Option (List Char)
  | [] => some []
  | c :: cs =>
    if isPlain c then skipComment cs else skipNewline? (c :: cs)

/-- Blanks, line ends and comments between the items of an array, `fuel` of them at most. -/
def skipGaps : Nat → List Char → Option (List Char)
  | 0, _ => none
  | fuel + 1, cs =>
    match skipBlanks cs with
    | '#' :: rest => (skipComment rest).bind (skipGaps fuel)
    | rest =>
      match skipNewline? rest with
      | some rest => skipGaps fuel rest
      | none => some rest

/-- The value of a table between braces. -/
def inlineTable? (entries : List (List String × Value)) : Option Value :=
  (entries.foldlM (fun table e => addEntry e.1 e.2 table) emptyTable).map fun table =>
    .table .inline table.entries

mutual

/-- A value, with so many levels of nesting left. -/
def readValue : Nat → Nat → List Char → Option (Value × List Char)
  | 0, _, _ => none
  | fuel + 1, depth, cs =>
    match cs with
    | '[' :: rest =>
      match depth with
      | 0 => none
      | depth + 1 => (readItems fuel depth rest).map fun read => (.array read.1, read.2)
    | '\x7b' :: rest =>
      match depth, skipBlanks rest with
      | 0, _ => none
      | _ + 1, '\x7d' :: rest => some (.table .inline [], rest)
      | depth + 1, rest => do
        let (entries, rest) ← readEntries fuel depth rest
        let table ← inlineTable? entries
        return (table, rest)
    | '"' :: _ => (readQuoted cs).map fun read => (.string read.1, read.2)
    | '\'' :: _ => (readQuoted cs).map fun read => (.string read.1, read.2)
    | 't' :: 'r' :: 'u' :: 'e' :: rest => some (.bool true, rest)
    | 'f' :: 'a' :: 'l' :: 's' :: 'e' :: rest => some (.bool false, rest)
    | _ =>
      match skipMoment cs with
      | some rest => some (.moment, rest)
      | none => readNumber cs

/-- The items of an array up to its closing bracket. A comma may follow the last one. -/
def readItems : Nat → Nat → List Char → Option (List Value × List Char)
  | 0, _, _ => none
  | fuel + 1, depth, cs => do
    match ← skipGaps fuel cs with
    | ']' :: rest => return ([], rest)
    | cs =>
      let (item, cs) ← readValue fuel depth cs
      match ← skipGaps fuel cs with
      | ',' :: rest =>
        let (items, rest) ← readItems fuel depth rest
        return (item :: items, rest)
      | ']' :: rest => return ([item], rest)
      | _ => none

/-- The entries of an inline table up to its closing brace. -/
def readEntries : Nat → Nat → List Char → Option (List (List String × Value) × List Char)
  | 0, _, _ => none
  | fuel + 1, depth, cs => do
    let (key, cs) ← readKey nestingLimit cs
    let cs ← skipChar '=' cs
    let (value, cs) ← readValue fuel depth (skipBlanks cs)
    match skipBlanks cs with
    | ',' :: rest =>
      let (entries, rest) ← readEntries fuel depth rest
      return ((key, value) :: entries, rest)
    | '\x7d' :: rest => return ([(key, value)], rest)
    | _ => none

end

/-- The end of a line after its contents: blanks, then perhaps a comment. -/
def skipLineEnd (cs : List Char) : Option (List Char) :=
  match skipBlanks cs with
  | [] => some []
  | '#' :: rest => skipComment rest
  | rest => skipNewline? rest

def readHeader (cs : List Char) : Option (Line × List Char) :=
  match cs with
  | '[' :: '[' :: cs => do
    let (key, cs) ← readKey nestingLimit cs
    let cs ← skipChar ']' cs
    let cs ← skipChar ']' cs
    let cs ← skipLineEnd cs
    return (.item key, cs)
  | '[' :: cs => do
    let (key, cs) ← readKey nestingLimit cs
    let cs ← skipChar ']' cs
    let cs ← skipLineEnd cs
    return (.header key, cs)
  | _ => none

def readEntry (cs : List Char) : Option (Line × List Char) := do
  let (key, cs) ← readKey nestingLimit cs
  let cs ← skipChar '=' cs
  let (value, cs) ← readValue (2 * cs.length + 2) nestingLimit (skipBlanks cs)
  let cs ← skipLineEnd cs
  return (.entry key value, cs)

/-- The lines of a file, without those that hold nothing. -/
def readFileLines : Nat → List Char → Option (List Line)
  | 0, _ => none
  | fuel + 1, cs =>
    match skipBlanks cs with
    | [] => some []
    | '#' :: rest => (skipComment rest).bind (readFileLines fuel)
    | '[' :: rest => do
      let (line, rest) ← readHeader ('[' :: rest)
      return line :: (← readFileLines fuel rest)
    | rest =>
      match skipNewline? rest with
      | some rest => readFileLines fuel rest
      | none => do
        let (line, rest) ← readEntry rest
        return line :: (← readFileLines fuel rest)

/-- A mark of the encoding at the very front is passed over. -/
def skipMark : List Char → List Char
  | '\uFEFF' :: cs => cs
  | cs => cs

def ofText? (text : String) : Option (List (String × Value)) :=
  let cs := skipMark text.toList
  (readFileLines (cs.length + 1) cs).bind ofLines?

end AccessBench.Toml
