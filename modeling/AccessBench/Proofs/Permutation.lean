import AccessBench.Permutation
import Mathlib.Data.List.Basic

/-!
Permutations are rearrangements of the numbers below their count, whatever the seed draws.
-/

namespace AccessBench

theorem swapIfInBounds_perm (a : Array Nat) (i j : Nat) : (a.swapIfInBounds i j).Perm a := by
  rw [Array.swapIfInBounds_def]
  split
  · split
    · exact Array.swap_perm _ _
    · exact Array.Perm.refl a
  · exact Array.Perm.refl a

theorem shuffleFrom_perm (a : Array Nat) (stream : Random.Keystream) (i : Nat) :
    (shuffleFrom a stream i).Perm a := by
  induction i generalizing a stream with
  | zero => exact Array.Perm.refl a
  | succ i ih =>
    rw [shuffleFrom]
    -- only where the numbers drawn go matters, not how they are drawn
    generalize Random.draw (i + 2) stream = drawn
    obtain ⟨j, stream⟩ := drawn
    exact (ih (a.swapIfInBounds (i + 1) j) stream).trans (swapIfInBounds_perm a (i + 1) j)

theorem permutation_perm (units : Nat) (seed : UInt64) :
    (permutation units seed).toList.Perm (List.range units) := by
  have h := shuffleFrom_perm (Array.range units) (Random.Keystream.ofSeed seed) (units - 1)
  rw [Array.perm_iff_toList_perm, Array.toList_range] at h
  exact h

theorem mem_permutation_iff {units i : Nat} (seed : UInt64) :
    i ∈ permutation units seed ↔ i < units := by
  rw [← Array.mem_toList_iff, (permutation_perm units seed).mem_iff, List.mem_range]

end AccessBench
