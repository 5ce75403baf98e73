import AccessBench.Toml.Value

/-!
Building the table that the lines of a configuration file stand for. A table has one header at most,
and a table that was begun one way cannot be continued another way.
-/

namespace AccessBench.Toml

inductive Line
  | entry (key : List String) (value : Value)
  | header (key : List String)
  /-- A header in double brackets, which begins another one of several tables. -/
  | item (key : List String)

structure Table where
  form : TableForm
  entries : List (String × Value)

def emptyTable : Table := ⟨.header, []⟩

def put (key : String) (value : Value) : List (String × Value) → List (String × Value)
  | [] => [(key, value)]
  | e :: entries => if e.1 = key then (key, value) :: entries else e :: put key value entries

def alterLast {α : Type} (f : α → Option α) : List α → Option (List α)
  | [] => none
  | [a] => (f a).map ([·])
  | a :: b :: rest => (alterLast f (b :: rest)).map (a :: ·)

/-- Changes the table that a path leads to; tables that are missing on the way are made. The path of
a dotted key does not lead through tables with a header, no path leads through other values, and of
several tables that share a header it leads through the last one. -/
def alterAt (dotted : Bool) (change : Table → Option Table) : List String → Table → Option Table
  | [], table => change table
  | key :: path, table =>
    match table.entries.lookup key with
    | none => do
      let child ← alterAt dotted change path ⟨if dotted then .dotted else .implied, []⟩
      return { table with entries := put key (.table child.form child.entries) table.entries }
    | some (.table form entries) =>
      if form = .inline || (dotted && form = .header) then none
      else do
        let child ← alterAt dotted change path ⟨form, entries⟩
        return { table with entries := put key (.table child.form child.entries) table.entries }
    | some (.tables items) => do
      let items ← alterLast
        (fun entries => (alterAt dotted change path ⟨.header, entries⟩).map (·.entries)) items
      return { table with entries := put key (.tables items) table.entries }
    | some _ => none

/-- Adds an entry under the last part of a key to the table that the parts before it lead to. A key
of one part cannot continue a table of dotted keys, nor a dotted key another one. -/
def addEntry (key : List String) (value : Value) (table : Table) : Option Table :=
  match key.getLast? with
  | none => none
  | some name =>
    let path := key.dropLast
    alterAt true (fun table =>
      if decide (table.form = .dotted) = path.isEmpty then none
      else if (table.entries.lookup name).isSome then none
      else some { table with entries := put name value table.entries }) path table

/-- Begins a table. It may already be there by being on the way to another one. -/
def beginTable (key : List String) (table : Table) : Option Table :=
  match key.getLast? with
  | none => none
  | some name =>
    alterAt false (fun table =>
      match table.entries.lookup name with
      | none => some { table with entries := put name (.table .header []) table.entries }
      | some (.table .implied entries) =>
        some { table with entries := put name (.table .header entries) table.entries }
      | some _ => none) key.dropLast table

/-- Begins another one of several tables. -/
def beginItem (key : List String) (table : Table) : Option Table :=
  match key.getLast? with
  | none => none
  | some name =>
    alterAt false (fun table =>
      match table.entries.lookup name with
      | none => some { table with entries := put name (.tables [[]]) table.entries }
      | some (.tables items) =>
        some { table with entries := put name (.tables (items ++ [[]])) table.entries }
      | some _ => none) key.dropLast table

/-- Adds the lines one after the other. Entries go to the table of the latest header. -/
def addLines (current : List String) (table : Table) : List Line → Option Table
  | [] => some table
  | .entry key value :: lines => do
    let table ← alterAt false (addEntry key value) current table
    addLines current table lines
  | .header key :: lines => do
    let table ← beginTable key table
    addLines key table lines
  | .item key :: lines => do
    let table ← beginItem key table
    addLines key table lines

/-- The entries of the table that the lines stand for. -/
def ofLines? (lines : List Line) : Option (List (String × Value)) :=
  (addLines [] emptyTable lines).map (·.entries)

end AccessBench.Toml
