import AccessBench.CommandLine

/-!
Reading the command line. Arguments are taken from left to right, and the first mistake, or the
first request for help or the version, ends the reading. A value in an argument of its own is
looked at only when what follows shows that it is complete; a mistake in what follows is then
found first when that is no argument at all.
-/

namespace AccessBench.CommandLine

/-- What an argument names. -/
inductive Named
  | setting (s : Setting)
  | flag (f : Flag)
  | help (long : Bool)
  | version
  deriving DecidableEq, Repr

def longName? (name : String) : Option Named :=
  match name with
  | "suite" => some (.setting .suites)
  | "format" => some (.setting .format)
  | "config" => some (.setting .config)
  | "iterations" => some (.setting .iterations)
  | "seed" => some (.setting .seed)
  | "reuse-fixture" => some (.flag .reuseFixture)
  | "keep-fixture" => some (.flag .keepFixture)
  | "debug" => some (.flag .debug)
  | "help" => some (.help true)
  | "version" => some .version
  | _ => none

def shortName? (c : Char) : Option Named :=
  if c = 'n' then some (.setting .iterations)
  else if c = 'h' then some (.help false)
  else if c = 'V' then some .version
  else none

structure Progress where
  invocation : Invocation := {}
  given : List Named := []
  /-- A setting whose value has not been looked at, with the value if that has been read. -/
  pending : Option (Setting × Option String) := none
  /-- Only file names follow. -/
  namesOnly : Bool := false
  hasPath : Bool := false

namespace Progress

def give (n : Named) (p : Progress) : Except UsageStop Progress :=
  if p.given.contains n then .error .argumentConflict else .ok { p with given := n :: p.given }

def assign (s : Setting) (value : String) (p : Progress) : Except UsageStop Progress := do
  let p ← p.give (.setting s)
  let invocation ← s.assign value p.invocation
  return { p with invocation := invocation }

/-- Looks at the value that is pending. -/
def settle (p : Progress) : Except UsageStop Progress :=
  match p.pending with
  | none => .ok p
  | some (_, none) => .error .invalidValue
  | some (s, some value) => { p with pending := none }.assign s value

def takeNamed (attached : Option String) (p : Progress) : Named → Except UsageStop Progress
  | .setting s => do
    let p ← p.settle
    match attached with
    | some value => p.assign s value
    | none => return { p with pending := some (s, none) }
  | named =>
    if attached.isSome then .error .tooManyValues
    else do
      let p ← p.settle
      match named with
      | .help long => throw (.displayHelp long)
      | .version => throw .displayVersion
      | .flag f => do
        let p ← p.give (.flag f)
        return { p with invocation := f.set p.invocation }
      | .setting _ => return p

/-- Takes a name after two dashes, perhaps with a value after an equals sign. -/
def takeLong (text : List Char) (p : Progress) : Except UsageStop Progress :=
  let name := text.takeWhile (· ≠ '=')
  let attached :=
    match text.drop name.length with
    | [] => none
    | _ :: value => some (String.ofList value)
  match longName? (String.ofList name) with
  | some named => p.takeNamed attached named
  | none => .error .unknownArgument

/-- The value that follows a letter directly, with or without an equals sign. -/
def shortValue? : List Char → Option String
  | [] => none
  | '=' :: value => some (String.ofList value)
  | value => some (String.ofList value)

/-- Takes a letter after one dash, perhaps with a value. A flag ends the reading, so that further
letters do not matter. -/
def takeShort (c : Char) (rest : List Char) (p : Progress) : Except UsageStop Progress :=
  match shortName? c with
  | some (.setting s) => p.takeNamed (shortValue? rest) (.setting s)
  | some named => p.takeNamed none named
  | none => .error .unknownArgument

def takePath (value : String) (p : Progress) : Except UsageStop Progress :=
  if p.hasPath then .error .unknownArgument
  else do
    let p ← p.settle
    return { p with pending := some (.path, some value), hasPath := true }

/-- Takes an argument that names nothing: the value of the setting before it, or the file name. -/
def takeValue (value : String) (p : Progress) : Except UsageStop Progress :=
  match p.pending with
  | some (s, none) => .ok { p with pending := some (s, some value) }
  | _ => p.takePath value

def take (p : Progress) (argument : String) : Except UsageStop Progress :=
  if p.namesOnly then p.takePath argument
  else
    match argument.toList with
    | ['-', '-'] => .ok { p with namesOnly := true }
    | '-' :: '-' :: text => p.takeLong text
    | '-' :: c :: rest => p.takeShort c rest
    | _ => p.takeValue argument

end Progress

def read (arguments : List String) : Except UsageStop Invocation := do
  let p ← arguments.foldlM Progress.take {}
  let p ← p.settle
  return p.invocation

end AccessBench.CommandLine
