import AccessBench.Random.Draw

/-!
Draws that take as many words as they need. A draw within a number of words is such a draw, whenever
it ends within them.
-/

namespace AccessBench.Random

/-- Words are drawn until one is accepted, which gives the number and what is left of the stream. -/
inductive Draws (bound : Nat) : Keystream → Nat → Keystream → Prop
  | accepted {stream : Keystream} : accepts bound stream.nextLong.1 = true →
      Draws bound stream (numberOf bound stream.nextLong.1) stream.nextLong.2
  | refused {stream rest : Keystream} {number : Nat} : accepts bound stream.nextLong.1 = false →
      Draws bound stream.nextLong.2 number rest → Draws bound stream number rest

variable {bound attempts : Nat} {stream : Keystream}

theorem draws_of_drawWithin? {drawn : Nat × Keystream}
    (h : drawWithin? bound attempts stream = some drawn) : Draws bound stream drawn.1 drawn.2 := by
  induction attempts generalizing stream with
  | zero => cases h
  | succ n ih =>
    simp only [drawWithin?] at h
    split at h
    · next haccepted =>
      cases h
      exact .accepted haccepted
    · next hrefused => exact .refused (by simpa using hrefused) (ih h)

namespace Draws

variable {number number' : Nat} {rest rest' : Keystream}

theorem unique (h : Draws bound stream number rest) (h' : Draws bound stream number' rest') :
    number = number' ∧ rest = rest' := by
  induction h with
  | accepted haccepted =>
    cases h' with
    | accepted _ => exact ⟨rfl, rfl⟩
    | refused hrefused _ => cases haccepted.symm.trans hrefused
  | refused hrefused _ ih =>
    cases h' with
    | accepted haccepted => cases haccepted.symm.trans hrefused
    | refused _ hlater => exact ih hlater

end Draws

end AccessBench.Random
