import AccessBench.Random.Draw

/-!
Shuffled sequences of the numbers below a count. The shuffle is a function of the numbers drawn: for
the positions from the last one down to the second, the element there is exchanged with the one at
the position drawn. The draws come from a seed.
-/

namespace AccessBench

/-- Exchanges, for `i` from the number of draws down to 1, the elements at `i` and at the position
drawn for it. The draw for the highest position stands first. -/
def applyDraws (a : Array Nat) : List Nat → Array Nat
  | [] => a
  | j :: draws => applyDraws (a.swapIfInBounds (draws.length + 1) j) draws

/-- The draws for the positions from `i` down to 1, each at most its position. -/
def drawsFrom (stream : Random.Keystream) : Nat → List Nat
  | 0 => []
  | i + 1 =>
    let (j, stream) := Random.draw (i + 2) stream
    j :: drawsFrom stream i

/-- Draws for the positions from `i` down to 1 and exchanges as it goes. -/
def shuffleFrom (a : Array Nat) (stream : Random.Keystream) : Nat → Array Nat
  | 0 => a
  | i + 1 =>
    let (j, stream) := Random.draw (i + 2) stream
    shuffleFrom (a.swapIfInBounds (i + 1) j) stream i

theorem length_drawsFrom (stream : Random.Keystream) (i : Nat) :
    (drawsFrom stream i).length = i := by
  induction i generalizing stream with
  | zero => rfl
  | succ i ih => simp [drawsFrom, ih]

/-- Exchanging while drawing is the same as drawing first. -/
theorem shuffleFrom_eq_applyDraws (a : Array Nat) (stream : Random.Keystream) (i : Nat) :
    shuffleFrom a stream i = applyDraws a (drawsFrom stream i) := by
  induction i generalizing a stream with
  | zero => rfl
  | succ i ih => simp [shuffleFrom, drawsFrom, applyDraws, length_drawsFrom, ih]

/-- The numbers below `units` in an order that the seed determines. -/
def permutation (units : Nat) (seed : UInt64) : Array Nat :=
  shuffleFrom (Array.range units) (Random.Keystream.ofSeed seed) (units - 1)

end AccessBench
