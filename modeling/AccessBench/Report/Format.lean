/-!
The formats that a report can be written in.
-/

namespace AccessBench

inductive Format
  | text
  | json
  | csv
  deriving DecidableEq, Repr, Inhabited

namespace Format

def ofKey? (key : String) : Option Format :=
  if key = "text" then some text
  else if key = "json" then some json
  else if key = "csv" then some csv
  else none

def key : Format → String
  | text => "text"
  | json => "json"
  | csv => "csv"

end Format

end AccessBench
