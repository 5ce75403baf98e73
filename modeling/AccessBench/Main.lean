import AccessBench.Program

/-!
The command. The files that its arguments name are copied into the store of a machine, the program
runs on that machine, and what it has changed in the store is carried back to the disk.
-/

namespace AccessBench.Command

/-- The platform of the machine: its readings move on by one step from one to the next, and it has
room for everything below a limit. -/
def steadyPlatform : Platform where
  clock := fun reading => Duration.ofMicros (UInt64.ofNat reading)
  faults := fun reading => UInt64.ofNat reading
  space := .limited (32 * gib)

def diskPath (path : Path) : String := "/" ++ "/".intercalate path

/-- Copies a directory or file of the disk, if it is there, into the store. -/
def copyIn (s : Store) (text : String) : IO Store := do
  match ← (do (← IO.FS.realPath text).metadata : IO _).toBaseIO with
  | .error _ => return s
  | .ok found =>
    match found.type with
    | .dir => return (s.makeDirectory text).toOption.getD s
    | .file =>
      match ← (IO.FS.readBinFile text).toBaseIO with
      | .ok bytes => return (s.put text bytes).toOption.getD s
      | .error _ => return s
    | _ => return s

/-- Copies what a path leads to and the directories above it. -/
def copyPath (s : Store) (text : String) : IO Store := (Path.ancestry text).foldlM copyIn s

/-- The store with the files that an invocation names. -/
def openStore (i : Invocation) : IO Store := do
  let here := (← IO.currentDir).toString
  let s ← copyPath {} here
  let s := { s with workingDirectory := Path.names here }
  let s ← i.config.toList.foldlM copyPath s
  match i.load s with
  | .ok c => copyPath s c.file.path
  | .error _ => return s

/-- Carries new contents and removals to the disk. -/
def carryBack (before after : Store) : IO Unit := do
  for (path, _) in after.entries do
    if let some bytes := after.fileAt? path then
      unless before.fileAt? path == some bytes do
        IO.FS.writeBinFile (diskPath path) bytes
  for (path, _) in before.entries do
    if (after.entry? path).isNone then
      IO.FS.removeFile (diskPath path)

def execute (arguments : List String) : IO UInt32 := do
  let s ←
    match CommandLine.read arguments with
    | .ok i => openStore i
    | .error _ => pure {}
  let exit := Program.exec steadyPlatform arguments s
  carryBack s exit.store
  IO.print exit.output
  exit.diagnostics.forM fun line => IO.eprintln line
  return UInt32.ofNat exit.code

end AccessBench.Command

def main (arguments : List String) : IO UInt32 := AccessBench.Command.execute arguments
