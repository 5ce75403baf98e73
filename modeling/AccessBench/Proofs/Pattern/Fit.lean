import AccessBench.Proofs.Pattern.Materialize
import AccessBench.Proofs.Pattern.Order
import AccessBench.Proofs.Permutation
import AccessBench.Proofs.Size

/-!
Patterns that fit a region: their check succeeds and they stay among its units. Every pattern that
is made for a number of units fits that number, whatever has been kept before.
-/

namespace AccessBench

theorem Stride.pos (s : Stride) : 0 < s.units.toNat := toNat_pos_of_ne_zero s.ne_zero

/-- The pattern can traverse a region of so many units without leaving it. -/
structure AccessPattern.Fits (units : Nat) (pattern : AccessPattern) : Prop where
  check : pattern.check units = .ok ()
  inside : ∀ i ∈ (pattern.order units).toList, i < units

namespace AccessPattern

theorem fits_sequential (units : Nat) : Fits units .sequential where
  check := rfl
  inside := by
    intro i hi
    rw [toList_order_sequential] at hi
    exact List.mem_range.mp hi

theorem fits_hotCache (units : Nat) : Fits units .hotCache :=
  ⟨rfl, (fits_sequential units).inside⟩

theorem fits_reverse (units : Nat) : Fits units .reverse where
  check := rfl
  inside := by
    intro i hi
    rw [order, VisitOrder.toList_descending, List.mem_reverse] at hi
    exact List.mem_range.mp hi

theorem fits_stride (units : Nat) (s : Stride) : Fits units (.stride s) where
  check := rfl
  inside := by
    intro i hi
    rw [toList_order_stride] at hi
    obtain ⟨k, hk, rfl⟩ := List.mem_map.mp hi
    exact (lt_countByStep_iff s.pos).mp (List.mem_range.mp hk)

theorem fits_random {indices : Array Nat} (h : ∀ i ∈ indices, i < indices.size) :
    Fits indices.size (.random indices) where
  check := if_pos rfl
  inside := by
    intro i hi
    rw [order, VisitOrder.toList_listed, Array.mem_toList_iff] at hi
    exact h i hi

end AccessPattern

namespace PermutationCache

/-- A permutation that is kept has only numbers below its length. -/
def Bounded (cache : PermutationCache) : Prop :=
  ∀ indices, cache = some indices → ∀ i ∈ indices, i < indices.size

theorem bounded_permutation (units : Nat) (seed : UInt64) :
    Bounded (some (permutation units seed)) := by
  intro indices hindices i hi
  obtain rfl : permutation units seed = indices := by simpa using hindices
  rw [size_permutation]
  exact (mem_permutation_iff seed).mp hi

/-- What a section keeps after so many of its scenarios. -/
def leftBy (canIndex : Nat → Bool) (seed : UInt64) (earlier : List Scenario) : PermutationCache :=
  earlier.foldl (fun cache s =>
    (s.kind.materialize canIndex (unitsToCover s.size.toNat s.unit.toNat) seed cache).2) none

end PermutationCache

namespace PatternKind

variable {canIndex : Nat → Bool} {units : Nat} {seed : UInt64} {cache : PermutationCache}

theorem materialize_bounded (hcache : cache.Bounded) (kind : PatternKind) :
    (kind.materialize canIndex units seed cache).2.Bounded := by
  cases kind with
  | sequential | stride | reverse | hotCache => exact hcache
  | random =>
    obtain ⟨indices, -, -, hmade⟩ | ⟨-, hmade⟩ :=
      materialize_random_cases canIndex units seed cache
    · rw [hmade]
      exact hcache
    · rw [hmade]
      split
      · exact PermutationCache.bounded_permutation units seed
      · exact hcache

/-- The units of a pattern that is made are those that it is made for, be its permutation a new one
or one that was kept. -/
theorem fits_of_materialize {kind : PatternKind} {pattern : AccessPattern}
    {kept : PermutationCache} (hcache : cache.Bounded)
    (h : kind.materialize canIndex units seed cache = (.ok pattern, kept)) :
    pattern.Fits units := by
  cases kind with
  | sequential =>
    cases h
    exact AccessPattern.fits_sequential units
  | stride s =>
    cases h
    exact AccessPattern.fits_stride units s
  | reverse =>
    cases h
    exact AccessPattern.fits_reverse units
  | hotCache =>
    cases h
    exact AccessPattern.fits_hotCache units
  | random =>
    obtain ⟨indices, hkept, rfl, hmade⟩ | ⟨-, hmade⟩ :=
      materialize_random_cases canIndex units seed cache
    · cases hmade.symm.trans h
      exact AccessPattern.fits_random (hcache indices hkept)
    · rw [hmade] at h
      split at h
      · cases h
        have hfits := AccessPattern.fits_random
          (PermutationCache.bounded_permutation units seed _ rfl)
        rw [size_permutation] at hfits
        exact hfits
      · cases h

end PatternKind

theorem PermutationCache.bounded_leftBy (canIndex : Nat → Bool) (seed : UInt64)
    (earlier : List Scenario) : (leftBy canIndex seed earlier).Bounded := by
  suffices h : ∀ cache : PermutationCache, cache.Bounded →
      (earlier.foldl (fun cache s => (s.kind.materialize canIndex
        (unitsToCover s.size.toNat s.unit.toNat) seed cache).2) cache).Bounded by
    refine h none ?_
    intro indices hindices
    cases hindices
  induction earlier with
  | nil => exact fun cache hcache => hcache
  | cons s rest ih =>
    intro cache hcache
    exact ih _ (s.kind.materialize_bounded hcache)

end AccessBench
