import AccessBench.Json
import AccessBench.Json.Text

/-!
Writing document values, on one line without blanks or indented by two blanks a level.
-/

namespace AccessBench.Json

/-- A string without a text is written as an empty one. -/
def writeText (text : Option String) : List Char := quote (text.getD "").toList

def joinWith (separator : List Char) : List (List Char) → List Char
  | [] => []
  | [part] => part
  | part :: parts => part ++ separator ++ joinWith separator parts

def writeBool (value : Bool) : List Char := (if value then "true" else "false").toList

/-- A new line, indented to a level. -/
def newLine (level : Nat) : List Char := '\n' :: List.replicate (2 * level) ' '

/-- Parts on lines of their own between brackets; without parts, the brackets alone. -/
def block (opening closing : Char) (level : Nat) (parts : List (List Char)) : List Char :=
  if parts.isEmpty then [opening, closing]
  else
    opening :: (newLine (level + 1) ++ joinWith (',' :: newLine (level + 1)) parts ++
      newLine level ++ [closing])

mutual

def compact : Json → List Char
  | .null => "null".toList
  | .bool value => writeBool value
  | .number value => value.text
  | .string text => writeText text
  | .array items => '[' :: (joinWith [','] (compactItems items) ++ [']'])
  | .object members => '{' :: (joinWith [','] (compactMembers members) ++ ['}'])

def compactItems : List Json → List (List Char)
  | [] => []
  | item :: items => compact item :: compactItems items

def compactMembers : List (Option String × Json) → List (List Char)
  | [] => []
  | (name, value) :: members => (writeText name ++ ':' :: compact value) :: compactMembers members

end

mutual

def pretty (level : Nat) : Json → List Char
  | .null => "null".toList
  | .bool value => writeBool value
  | .number value => value.text
  | .string text => writeText text
  | .array items => block '[' ']' level (prettyItems (level + 1) items)
  | .object members => block '{' '}' level (prettyMembers (level + 1) members)

def prettyItems (level : Nat) : List Json → List (List Char)
  | [] => []
  | item :: items => pretty level item :: prettyItems level items

def prettyMembers (level : Nat) : List (Option String × Json) → List (List Char)
  | [] => []
  | (name, value) :: members =>
    (writeText name ++ ':' :: ' ' :: pretty level value) :: prettyMembers level members

end

def toCompactText (value : Json) : String := String.ofList value.compact

def toPrettyText (value : Json) : String := String.ofList (value.pretty 0)

end AccessBench.Json
