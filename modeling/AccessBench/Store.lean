import AccessBench.Store.Path

/-!
The file store: directories and files under their paths. The contents of a file are kept apart from
its name, so that a file that is open outlives the removal of its name.
-/

namespace AccessBench

/-- What a name leads to. -/
inductive Entry
  | directory
  /-- A file, with the number of its contents. -/
  | file (node : Nat)
  deriving DecidableEq, Repr

structure Store where
  entries : List (Path × Entry) := []
  /-- The contents of all files that there have been. -/
  contents : Array ByteArray := #[]
  workingDirectory : Path := []
  deriving Inhabited

namespace Store

/-- What a path leads to. The root is always there. -/
def entry? (s : Store) (path : Path) : Option Entry :=
  if path.isEmpty then some .directory else s.entries.lookup path

def bytes (s : Store) (node : Nat) : ByteArray := s.contents.getD node ByteArray.empty

def fileAt? (s : Store) (path : Path) : Option ByteArray :=
  match s.entry? path with
  | some (.file node) => some (s.bytes node)
  | _ => none

/-- Why a place is no directory, if it is none. -/
def directoryFailure? (s : Store) (path : Path) : Option Failure :=
  match s.entry? path with
  | some .directory => none
  | some (.file _) => some (.reason Reason.notDirectory)
  | none => some (.reason Reason.noEntry)

/-- Follows names from a place. Each name is looked up in a directory, so only the last place may be
none. -/
def walk (s : Store) (here : Path) : List String → Except Failure Path
  | [] => .ok here
  | name :: names =>
    match s.directoryFailure? here with
    | some failure => .error failure
    | none =>
      if Path.nameLimit < name.utf8ByteSize then .error (.reason Reason.nameTooLong)
      else s.walk (Path.step here name) names

/-- Where some of the names of a text lead to. -/
def follow (s : Store) (text : String) (names : List String) : Except Failure Path :=
  match Path.textFailure? text with
  | some failure => .error failure
  | none => s.walk (if Path.isAbsolute text then [] else s.workingDirectory) names

/-- The path that a text leads to, whether or not something is there. -/
def resolve (s : Store) (text : String) : Except Failure Path := s.follow text (Path.names text)

def find (s : Store) (text : String) : Except Failure (Path × Entry) :=
  match s.resolve text with
  | .error failure => .error failure
  | .ok path =>
    match s.entry? path with
    | none => .error (.reason Reason.noEntry)
    | some .directory => .ok (path, .directory)
    | some (.file node) =>
      if Path.needsDirectory text then .error (.reason Reason.notDirectory)
      else .ok (path, .file node)

def exists? (s : Store) (text : String) : Bool := (s.find text).isOk

/-- The size that is told of a directory. -/
def directorySize : Nat := 4096

/-- The size that is told of what a name leads to. -/
def entrySize (s : Store) : Entry → Nat
  | .directory => directorySize
  | .file node => (s.bytes node).size

/-- The size that is told of what a text leads to. -/
def sizeOf? (s : Store) (text : String) : Except Failure Nat :=
  (s.find text).map fun found => s.entrySize found.2

/-- Opens what is there, directories for reading only. -/
def openExisting (s : Store) (text : String) (writable : Bool) : Except Failure Entry :=
  match s.find text with
  | .error failure => .error failure
  | .ok (_, .directory) =>
    if writable then .error (.reason Reason.isDirectory) else .ok .directory
  | .ok (_, .file node) => .ok (.file node)

def setBytes (s : Store) (node : Nat) (f : ByteArray → ByteArray) : Store :=
  { s with contents := s.contents.modify node f }

/-- The path of a file that may be made. A text that a slash ends would be one of a directory, so it
is refused as soon as there is a directory to look it up in. -/
def creationPath (s : Store) (text : String) : Except Failure Path :=
  if Path.needsDirectory text then
    match s.follow text (Path.names text).dropLast with
    | .error failure => .error failure
    | .ok above => .error ((s.directoryFailure? above).getD (.reason Reason.isDirectory))
  else s.resolve text

def create (s : Store) (text : String) : Except Failure (Nat × Store) :=
  match s.creationPath text with
  | .error failure => .error failure
  | .ok path =>
    match s.entry? path with
    | some .directory => .error (.reason Reason.isDirectory)
    | some (.file node) => .ok (node, s.setBytes node fun _ => ByteArray.empty)
    | none =>
      let node := s.contents.size
      .ok (node, { s with
        entries := s.entries ++ [(path, .file node)]
        contents := s.contents.push ByteArray.empty })

def remove (s : Store) (text : String) : Except Failure Store :=
  match s.find text with
  | .error failure => .error failure
  | .ok (_, .directory) => .error (.reason Reason.isDirectory)
  | .ok (path, .file _) => .ok { s with entries := s.entries.filter (·.1 ≠ path) }

def makeDirectory (s : Store) (text : String) : Except Failure Store :=
  match s.resolve text with
  | .error failure => .error failure
  | .ok path =>
    match s.entry? path with
    | some _ => .error (.reason Reason.alreadyExists)
    | none => .ok { s with entries := s.entries ++ [(path, .directory)] }

def isDirectory (s : Store) (text : String) : Bool :=
  match s.find text with
  | .ok (_, .directory) => true
  | _ => false

/-- Makes directories one after the other, except those that are there. The ones before the first
that cannot be made stay. -/
def ensureDirectories (s : Store) : List String → Except Failure Unit × Store
  | [] => (.ok (), s)
  | text :: rest =>
    match s.makeDirectory text with
    | .ok s => s.ensureDirectories rest
    | .error failure =>
      if s.isDirectory text then s.ensureDirectories rest else (.error failure, s)

/-- Makes a directory and those above it, except those that are there. No text asks for none. -/
def makeDirectories (s : Store) (text : String) : Except Failure Unit × Store :=
  if text.isEmpty then (.ok (), s)
  else
    match Path.textFailure? text with
    | some failure => (.error failure, s)
    | none => s.ensureDirectories (Path.ancestry text)

end Store

end AccessBench
