/-!
Visit orders: sequences of unit numbers that are produced one by one and know how many are left. An
order over a huge region is never stored.
-/

namespace AccessBench

/-- What is left of a sequence of unit numbers. -/
inductive VisitOrder
  /-- So many numbers from `first` on, in steps of `step`. -/
  | ascending (first step count : Nat)
  /-- The numbers below `count`, the largest first. -/
  | descending (count : Nat)
  | listed (indices : List Nat)
  deriving Repr

namespace VisitOrder

def remaining : VisitOrder → Nat
  | ascending _ _ count => count
  | descending count => count
  | listed indices => indices.length

def next? : VisitOrder → Option (Nat × VisitOrder)
  | ascending _ _ 0 => none
  | ascending first step (count + 1) => some (first, ascending (first + step) step count)
  | descending 0 => none
  | descending (count + 1) => some (count, descending count)
  | listed [] => none
  | listed (i :: indices) => some (i, listed indices)

/-- At most the first `n` numbers, and what is left after them. -/
def take (n : Nat) (order : VisitOrder) : List Nat × VisitOrder :=
  match n with
  | 0 => ([], order)
  | n + 1 =>
    match order.next? with
    | none => ([], order)
    | some (i, rest) => ((i :: (rest.take n).1), (rest.take n).2)

/-- All numbers that are left. -/
def toList (order : VisitOrder) : List Nat := (order.take order.remaining).1

end VisitOrder

/-- How many multiples of `step` are below `units`. -/
def countByStep (units step : Nat) : Nat := if units = 0 then 0 else (units - 1) / step + 1

end AccessBench
