/-!
Values of configuration files.
-/

namespace AccessBench.Toml

/-- How a table came to be, which decides how it may be extended. -/
inductive TableForm
  /-- Between braces; it is closed. -/
  | inline
  /-- By a header of its own. -/
  | header
  /-- By being on the way to a table with a header. -/
  | implied
  /-- By being on the way to a dotted key. -/
  | dotted
  deriving DecidableEq, Repr

/-- A value. Of numbers with a fraction and of dates only the kind is kept, as no field takes
them. -/
inductive Value
  | string (text : String)
  | integer (value : Int)
  | float
  | bool (value : Bool)
  | moment
  | array (items : List Value)
  | table (form : TableForm) (entries : List (String × Value))
  /-- Tables that share a header, the latest one last. -/
  | tables (items : List (List (String × Value)))
  deriving Inhabited

end AccessBench.Toml
