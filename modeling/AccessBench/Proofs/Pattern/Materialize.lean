import AccessBench.Scenario

/-!
Patterns that are made from their kinds. What a section keeps from one scenario to the next does not
decide whether a pattern can be made: that depends on the room for its own permutation alone.
-/

namespace AccessBench

theorem size_shuffleFrom (a : Array Nat) (stream : Random.Keystream) (i : Nat) :
    (shuffleFrom a stream i).size = a.size := by
  induction i generalizing a stream with
  | zero => rfl
  | succ i ih => rw [shuffleFrom, ih, Array.size_swapIfInBounds]

theorem size_permutation (units : Nat) (seed : UInt64) : (permutation units seed).size = units := by
  rw [permutation, size_shuffleFrom, Array.size_range]

/-- A permutation that is kept is one that there was room for. -/
def PermutationCache.Sound (canIndex : Nat → Bool) (cache : PermutationCache) : Prop :=
  ∀ indices, cache = some indices → canIndex indices.size = true

theorem PermutationCache.sound_none (canIndex : Nat → Bool) : Sound canIndex none := by
  intro indices h
  cases h

/-- Why no pattern can be made for so many units, if none can. -/
def PatternKind.refusal? (canIndex : Nat → Bool) (units : Nat) : PatternKind → Option BenchError
  | random => if canIndex units then none else some (.indexBuffer units)
  | _ => none

/-- Why a scenario cannot be begun, if it cannot. -/
def Scenario.refusal? (canIndex : Nat → Bool) (s : Scenario) : Option BenchError :=
  s.kind.refusal? canIndex (unitsToCover s.size.toNat s.unit.toNat)

theorem Scenario.units_of_unit_ne_zero {s : Scenario} (h : s.unit ≠ 0) :
    s.units = .ok (unitsToCover s.size.toNat s.unit.toNat) := by
  rw [units, unitCount, if_neg h]

namespace PatternKind

variable {canIndex : Nat → Bool} {units : Nat} {cache : PermutationCache} {kind : PatternKind}

/-- A random pattern takes the permutation that is kept, if that has its length, and otherwise a new
one that replaces it, if there is room. -/
theorem materialize_random_cases (canIndex : Nat → Bool) (units : Nat) (seed : UInt64)
    (cache : PermutationCache) :
    (∃ indices, cache = some indices ∧ indices.size = units ∧
        random.materialize canIndex units seed cache = (.ok (.random indices), cache)) ∨
      (∀ indices, cache = some indices → indices.size ≠ units) ∧
        random.materialize canIndex units seed cache =
          if canIndex units = true then
            (.ok (.random (permutation units seed)), some (permutation units seed))
          else (.error (.indexBuffer units), cache) := by
  rw [materialize]
  cases hfound : cache.filter (·.size = units) with
  | some indices =>
    obtain ⟨hkept, hsize⟩ := Option.filter_eq_some_iff.mp hfound
    exact .inl ⟨indices, hkept, of_decide_eq_true hsize, rfl⟩
  | none =>
    refine .inr ⟨?_, ?_⟩
    · intro indices hkept hsize
      exact Option.filter_eq_none_iff.mp hfound indices hkept (decide_eq_true hsize)
    · by_cases hroom : canIndex units = true
      · simp only [tryPermutation, if_pos hroom]
      · simp only [tryPermutation, if_neg hroom]

theorem materialize_of_refusal {e : BenchError} (seed : UInt64) (hcache : cache.Sound canIndex)
    (h : kind.refusal? canIndex units = some e) :
    kind.materialize canIndex units seed cache = (.error e, cache) := by
  cases kind with
  | random =>
    rw [refusal?] at h
    split at h
    · cases h
    · rename_i hroom
      obtain rfl : BenchError.indexBuffer units = e := by simpa using h
      obtain ⟨indices, hkept, rfl, -⟩ | ⟨-, hmade⟩ :=
        materialize_random_cases canIndex units seed cache
      · -- a kept permutation of this length is one that there was room for
        exact absurd (hcache indices hkept) hroom
      · rw [hmade, if_neg hroom]
  | sequential | stride | reverse | hotCache => cases h

theorem materialize_of_no_refusal (seed : UInt64) (hcache : cache.Sound canIndex)
    (h : kind.refusal? canIndex units = none) :
    ∃ pattern kept, kind.materialize canIndex units seed cache = (.ok pattern, kept) ∧
      kept.Sound canIndex := by
  cases kind with
  | sequential => exact ⟨.sequential, cache, rfl, hcache⟩
  | stride s => exact ⟨.stride s, cache, rfl, hcache⟩
  | reverse => exact ⟨.reverse, cache, rfl, hcache⟩
  | hotCache => exact ⟨.hotCache, cache, rfl, hcache⟩
  | random =>
    rw [refusal?] at h
    split at h
    · rename_i hroom
      obtain ⟨indices, -, -, hmade⟩ | ⟨-, hmade⟩ :=
        materialize_random_cases canIndex units seed cache
      · exact ⟨.random indices, cache, hmade, hcache⟩
      · rw [if_pos hroom] at hmade
        refine ⟨_, _, hmade, ?_⟩
        intro indices hindices
        obtain rfl : permutation units seed = indices := by simpa using hindices
        rw [size_permutation]
        exact hroom
    · cases h

end PatternKind

end AccessBench
