import AccessBench.Proofs.Machine.Bounds

/-!
What the check of a pattern is worth. It compares lengths only, so it confines a pattern to a region
exactly when the pattern names no unit beyond its own length. Patterns that make their own order
never do; an array of indices from elsewhere may.
-/

namespace AccessBench

namespace AccessPattern

/-- No unit that a random pattern names is beyond its own length. The other patterns name none. -/
def NamesOwnUnits : AccessPattern → Prop
  | random indices => ∀ i ∈ indices, i < indices.size
  | _ => True

variable {units : Nat} {pattern : AccessPattern}

theorem inside_iff_namesOwnUnits (hcheck : pattern.check units = .ok ()) :
    (∀ i ∈ (pattern.order units).toList, i < units) ↔ pattern.NamesOwnUnits := by
  cases pattern with
  | sequential => exact iff_of_true (fits_sequential units).inside trivial
  | stride s => exact iff_of_true (fits_stride units s).inside trivial
  | reverse => exact iff_of_true (fits_reverse units).inside trivial
  | hotCache => exact iff_of_true (fits_hotCache units).inside trivial
  | random indices =>
    have hsize : indices.size = units := by
      by_contra h
      rw [check, if_neg h] at hcheck
      cases hcheck
    subst hsize
    rw [order, VisitOrder.toList_listed]
    simp only [Array.mem_toList_iff, NamesOwnUnits]

end AccessPattern

theorem Region.refuses_iff_of_units {r : Region} {units i : Nat} {access : Access} {s : Store}
    (hunits : r.units = .ok units) : r.Refuses i access s ↔ units ≤ i := by
  rw [units_eq] at hunits
  obtain ⟨hunit, rfl⟩ := unitCount_eq_ok_iff.mp hunits
  rw [refuses_iff, ← Nat.not_lt, ← lt_unitsToCover_iff (toNat_pos_of_ne_zero hunit), Nat.not_lt]

/-- Trials over memory and over a file never end for want of a fit, if the pattern passes the check
of the scenario's units and names no others. -/
theorem Machine.isFit_of_namesOwnUnits {platform : Platform} {s : Scenario} {units : Nat}
    {pattern : AccessPattern} (hunits : s.units = .ok units) (hcheck : pattern.check units = .ok ())
    (hown : pattern.NamesOwnUnits) {m : Machine} {stop : Stop}
    (hstop : (((memoryRig platform).trial s pattern).perform m).1 = .error stop ∨
      ∃ path cache, (((fileRig platform path cache).trial s pattern).perform m).1 = .error stop) :
    stop.IsFit := by
  obtain ⟨hunit, rfl⟩ := unitCount_eq_ok_iff.mp hunits
  have hpos : 0 < s.unit.toNat := toNat_pos_of_ne_zero hunit
  have hfits : pattern.Fits (unitsToCover s.size.toNat s.unit.toNat) :=
    ⟨hcheck, (AccessPattern.inside_iff_namesOwnUnits hcheck).mpr hown⟩
  obtain hmemory | ⟨path, cache, hfile⟩ := hstop
  · exact (confines_memoryRig platform hunit).isFit_of_trial hpos hfits hmemory
  · exact (confines_fileRig platform path cache hunit).isFit_of_trial hpos hfits hfile

namespace AccessPattern

/-- A pattern that passes the check stays among the units, and so is refused no touch by a region of
so many units, exactly when it names no unit beyond its own length. Then no trial that is begun with
it leaves its region. -/
theorem check_confines {pattern : AccessPattern} {units : Nat}
    (hcheck : pattern.check units = .ok ()) :
    ((∀ i ∈ (pattern.order units).toList, i < units) ↔ pattern.NamesOwnUnits) ∧
      (∀ r : Region, r.units = .ok units →
        ((∀ i ∈ (pattern.order units).toList, ∀ access s, ¬ r.Refuses i access s) ↔
          pattern.NamesOwnUnits)) ∧
      (pattern.NamesOwnUnits → ∀ platform s, s.units = .ok units → ∀ m stop,
        ((((Machine.memoryRig platform).trial s pattern).perform m).1 = .error stop ∨
          ∃ path cache,
            (((Machine.fileRig platform path cache).trial s pattern).perform m).1 = .error stop) →
        stop.IsFit) := by
  have hinside := inside_iff_namesOwnUnits hcheck
  refine ⟨hinside, ?_, ?_⟩
  · intro r hunits
    rw [← hinside]
    constructor
    · intro hnever i hi
      have h := hnever i hi .read {}
      rw [Region.refuses_iff_of_units hunits] at h
      exact Nat.lt_of_not_le h
    · intro hlt i hi access s hrefused
      rw [Region.refuses_iff_of_units hunits] at hrefused
      exact Nat.not_lt_of_le hrefused (hlt i hi)
  · intro hown platform s hunits m stop hstop
    exact Machine.isFit_of_namesOwnUnits hunits hcheck hown hstop

/-- No permutation, but no unit beyond its length. -/
theorem check_confines_repeated :
    (random #[2, 0, 2]).check 3 = .ok () ∧ (random #[2, 0, 2]).NamesOwnUnits ∧
      ∀ i ∈ ((random #[2, 0, 2]).order 3).toList, i < 3 := by
  have hcheck : (random #[2, 0, 2]).check 3 = .ok () := rfl
  have hown : (random #[2, 0, 2]).NamesOwnUnits := by
    change ∀ i ∈ #[2, 0, 2], i < 3
    decide
  exact ⟨hcheck, hown, (check_confines hcheck).1.mpr hown⟩

/-- Two indices pass the check for two units, and one of them is beyond these units. -/
theorem check_passes_stray :
    (random #[2, 0]).check 2 = .ok () ∧ 2 ∈ ((random #[2, 0]).order 2).toList ∧
      ¬ (∀ i ∈ ((random #[2, 0]).order 2).toList, i < 2) ∧
      ∃ r : Region, r.units = .ok 2 ∧ r.Refuses 2 .read {} := by
  refine ⟨rfl, by decide, by decide, .memory { size := 8192, unit := 4096 }, rfl, ?_⟩
  rw [Region.refuses_iff]
  decide

end AccessPattern

end AccessBench
