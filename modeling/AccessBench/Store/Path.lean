import AccessBench.Failure

/-!
Paths of the file store: texts of names between slashes, and the places that they lead to.
-/

namespace AccessBench

abbrev Path := List String

namespace Path

/-- The longest text that is a path, and the longest name in one, in bytes. -/
def lengthLimit : Nat := 4096

def nameLimit : Nat := 255

/-- The names of a path. Empty names stand for no step. -/
def names (text : String) : List String := (text.splitOn "/").filter (!·.isEmpty)

def isAbsolute (text : String) : Bool := text.toList.head? = some '/'

/-- Whether the path can only lead to a directory, because a slash ends it. -/
def needsDirectory (text : String) : Bool := text.toList.getLast? = some '/'

/-- The place that a name of a directory leads to. One point stays there, and two go back. -/
def step (here : Path) (name : String) : Path :=
  if name = "." then here else if name = ".." then here.dropLast else here ++ [name]

/-- The texts of the directories above a path, the outermost first, and then the path itself. -/
def ancestry (text : String) : List String :=
  let names := (names text).filter (· ≠ ".")
  let root := if isAbsolute text then "/" else ""
  (List.range (names.length - 1)).map (fun n => root ++ "/".intercalate (names.take (n + 1))) ++
    [text]

/-- Why a text is no path, if it is none. -/
def textFailure? (text : String) : Option Failure :=
  if text.toList.contains '\x00' then some (.described "file name contained an unexpected NUL byte")
  else if text.isEmpty then some (.reason Reason.noEntry)
  else if lengthLimit ≤ text.utf8ByteSize then some (.reason Reason.nameTooLong)
  else none

end Path

end AccessBench
