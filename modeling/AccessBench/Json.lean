import AccessBench.Decimal.Numeral

/-!
Document values as trees. Numbers are kept as they are written, and members of an object in their
order, repeated ones too.
-/

namespace AccessBench

/-- A document value. A string may be written with an escape that stands for no character; it then
has no text. -/
inductive Json
  | null
  | bool (value : Bool)
  | number (value : Decimal.Numeral)
  | string (text : Option String)
  | array (items : List Json)
  | object (members : List (Option String × Json))
  deriving Inhabited

namespace Json

def text (s : String) : Json := .string (some s)

def nat (n : Nat) : Json := .number (Decimal.Numeral.ofNat n)

def ofMembers (members : List (String × Json)) : Json :=
  .object (members.map fun m => (some m.1, m.2))

def text? : Json → Option String
  | .string text => text
  | _ => none

def bool? : Json → Option Bool
  | .bool value => some value
  | _ => none

def word? : Json → Option UInt64
  | .number n => (n.natural? UInt64.size).map UInt64.ofNat
  | _ => none

def list? {α : Type} (decode : Json → Option α) : Json → Option (List α)
  | .array items => items.mapM decode
  | _ => none

end Json

end AccessBench
