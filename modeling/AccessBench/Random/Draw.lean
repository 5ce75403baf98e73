import AccessBench.Random.Keystream

/-!
Uniform numbers below a bound. A word is multiplied by the bound and the high half of the product is
the number; words whose low half lies beyond the last whole multiple are drawn again, so that no
number is favoured.
-/

namespace AccessBench.Random

/-- The largest low half that is accepted: the bound shifted to the top of the word, less one. -/
def acceptedZone (bound : Nat) : Nat := bound <<< (63 - bound.log2) - 1

def accepts (bound : Nat) (word : UInt64) : Bool :=
  word.toNat * bound % UInt64.size ≤ acceptedZone bound

/-- The number below the bound that an accepted word stands for. -/
def numberOf (bound : Nat) (word : UInt64) : Nat := word.toNat * bound / UInt64.size

/-- Draws words until one is accepted, so many at most. -/
def drawWithin? (bound : Nat) : Nat → Keystream → Option (Nat × Keystream)
  | 0, _ => none
  | attempts + 1, stream =>
    let (word, stream) := stream.nextLong
    if accepts bound word then some (numberOf bound word, stream)
    else drawWithin? bound attempts stream

def drawAttempts : Nat := 1000

/-- A number below `bound`. Words are to be drawn until one is accepted. Each is refused with a
chance below one half, and it is taken for granted that a thousand of them are never all refused:
the number would be zero then. -/
def draw (bound : Nat) (stream : Keystream) : Nat × Keystream :=
  (drawWithin? bound drawAttempts stream).getD (0, stream)

theorem numberOf_lt {bound : Nat} (h : 0 < bound) (word : UInt64) : numberOf bound word < bound := by
  apply Nat.div_lt_of_lt_mul
  exact Nat.mul_lt_mul_of_pos_right (UInt64.toNat_lt _) h

theorem drawWithin?_lt {bound attempts : Nat} {stream : Keystream} {drawn : Nat × Keystream}
    (h : 0 < bound) (hdrawn : drawWithin? bound attempts stream = some drawn) :
    drawn.1 < bound := by
  induction attempts generalizing stream with
  | zero => cases hdrawn
  | succ n ih =>
    simp only [drawWithin?] at hdrawn
    split at hdrawn
    · cases hdrawn
      exact numberOf_lt h _
    · exact ih hdrawn

theorem draw_lt (bound : Nat) (stream : Keystream) (h : 0 < bound) :
    (draw bound stream).1 < bound := by
  rw [draw]
  cases hdrawn : drawWithin? bound drawAttempts stream with
  | none => exact h
  | some drawn => exact drawWithin?_lt h hdrawn

end AccessBench.Random
