import AccessBench.Proofs.Machine.Confinement

/-!
The bounds of a touch. A region has as many units as begin inside it, and refuses the others without
a trace. Where a unit begins is held at the largest word, which is never inside: so a unit that is
further away than words can tell is refused like any other.
-/

namespace AccessBench

theorem unitOffset_lt_iff {i : Nat} {size unit : UInt64} :
    unitOffset i unit < size.toNat ↔ i * unit.toNat < size.toNat := by
  have hsize : size.toNat < UInt64.size := size.toNat_lt
  rw [unitOffset]
  omega

theorem MemoryRegion.touch_outside {r : MemoryRegion} {i : Nat} (access : Access)
    (h : r.size.toNat ≤ i * r.unit.toNat) :
    r.touch i access = (.error (outOfRange (unitOffset i r.unit)), r) := by
  have hoffset : ¬ unitOffset i r.unit < r.size.toNat := by
    rw [unitOffset_lt_iff]
    exact Nat.not_lt_of_le h
  simp only [touch, if_neg hoffset]

theorem FileRegion.touch_outside {r : FileRegion} {i : Nat} (access : Access) (s : Store)
    (h : r.size.toNat ≤ i * r.unit.toNat) :
    r.touch i access s = (.error (outOfRange (unitOffset i r.unit)), r, s) := by
  have hoffset : ¬ unitOffset i r.unit < r.size.toNat := by
    rw [unitOffset_lt_iff]
    exact Nat.not_lt_of_le h
  rw [touch, if_neg hoffset]

namespace Region

/-- The region has so many bytes, in units of so many. -/
structure Spans (size unit : UInt64) (r : Region) : Prop where
  size : r.size = size
  unit : r.unit = unit

variable {size unit : UInt64} {r : Region} {i : Nat} {access : Access} {s : Store}

theorem spans_of_map {space : AddressSpace} {m : MemoryRegion}
    (h : MemoryRegion.map space size unit = .ok m) : (memory m).Spans size unit := by
  obtain ⟨e, hmap, -⟩ | hmap := MemoryRegion.map_cases space size unit
  · cases hmap.symm.trans h
  · cases hmap.symm.trans h
    exact ⟨rfl, rfl⟩

theorem spans_of_openAt {space : AddressSpace} {f : FileRegion} {path : String} {writable : Bool}
    (h : FileRegion.openAt space s path size unit writable = .ok f) :
    (file f).Spans size unit := by
  obtain ⟨e, hopen, -⟩ | ⟨reason, hopen⟩ | ⟨opened, -, hopen⟩ :=
    FileRegion.openAt_cases space s path size unit writable
  · cases hopen.symm.trans h
  · cases hopen.symm.trans h
  · cases hopen.symm.trans h
    exact ⟨rfl, rfl⟩

/-- The unit is refused for being outside the region. -/
def Refuses (r : Region) (i : Nat) (access : Access) (s : Store) : Prop :=
  ∃ offset, (r.touch i access s).1 = .error (outOfRange offset)

theorem Spans.units (h : r.Spans size unit) (hunit : unit ≠ 0) :
    r.units = .ok (unitsToCover size.toNat unit.toNat) := by
  rw [units_eq, h.size, h.unit, unitCount_of_ne_zero hunit]

theorem touch_outside (h : r.size.toNat ≤ i * r.unit.toNat) :
    r.touch i access s = (.error (outOfRange (unitOffset i r.unit)), r, s) := by
  cases r with
  | memory m => rw [touch, MemoryRegion.touch_outside access h]; rfl
  | file f => rw [touch, FileRegion.touch_outside access s h]; rfl

theorem touch_inside (h : i * r.unit.toNat < r.size.toNat) :
    ¬ r.Refuses i access s ∧ (r.touch i access s).2.1.Spans r.size r.unit := by
  cases r with
  | memory m =>
    obtain ⟨hok, hsize, hunit⟩ := MemoryRegion.touch_of_lt access h
    refine ⟨?_, hsize, hunit⟩
    rintro ⟨offset, hrefused⟩
    have hcontra := hok.symm.trans hrefused
    cases hcontra
  | file f =>
    obtain ⟨hsize, hunit, hfails⟩ := FileRegion.touch_of_lt access s h
    refine ⟨?_, hsize, hunit⟩
    rintro ⟨offset, hrefused⟩
    exact hfails _ hrefused (.outside offset)

theorem refuses_iff : r.Refuses i access s ↔ r.size.toNat ≤ i * r.unit.toNat := by
  constructor
  · intro hrefused
    by_contra h
    exact (touch_inside (Nat.lt_of_not_le h)).1 hrefused
  · intro h
    exact ⟨_, congrArg Prod.fst (touch_outside h)⟩

/-- Whatever its touches have done to it, a region keeps its size and unit. -/
theorem Spans.touch (h : r.Spans size unit) (i : Nat) (access : Access) (s : Store) :
    (r.touch i access s).2.1.Spans size unit := by
  obtain ⟨rfl, rfl⟩ := h
  by_cases hinside : i * r.unit.toNat < r.size.toNat
  · exact (touch_inside hinside).2
  · rw [touch_outside (Nat.le_of_not_lt hinside)]
    exact ⟨rfl, rfl⟩

/-- A region spans what it was acquired for, and still does after any touch. It has the least number
of units that cover it, and refuses exactly those units that do not begin inside it, at their place
or at the largest word where their place is further. It is then as it was before, with all that is
stored. -/
theorem refuses_outside (hunit : unit ≠ 0) :
    (∀ space m, MemoryRegion.map space size unit = .ok m → (memory m).Spans size unit) ∧
      (∀ space store path writable f,
        FileRegion.openAt space store path size unit writable = .ok f →
          (file f).Spans size unit) ∧
      ∀ r : Region, r.Spans size unit →
        (∀ i access s, (r.touch i access s).2.1.Spans size unit) ∧
          ∃ n, r.units = .ok n ∧ IsLeast {n | size.toNat ≤ n * unit.toNat} n ∧
            ∀ i access s, (¬ r.Refuses i access s ↔ i < n) ∧
              (i < n ↔ i * unit.toNat < size.toNat) ∧
              (r.Refuses i access s → r.touch i access s =
                (.error (.io "touch" (min (i * unit.toNat) (2 ^ 64 - 1))
                  (.described "unit outside region")), r, s)) := by
  have hpos : 0 < unit.toNat := toNat_pos_of_ne_zero hunit
  refine ⟨fun _ _ => spans_of_map, fun _ _ _ _ _ => spans_of_openAt, ?_⟩
  intro r h
  refine ⟨h.touch, _, h.units hunit, isLeast_unitsToCover hpos, ?_⟩
  intro i access s
  have hbegins : i < unitsToCover size.toNat unit.toNat ↔ i * unit.toNat < size.toNat :=
    lt_unitsToCover_iff hpos
  have hrefuses : r.Refuses i access s ↔ size.toNat ≤ i * unit.toNat := by
    rw [refuses_iff, h.size, h.unit]
  refine ⟨?_, hbegins, ?_⟩
  · rw [hrefuses, hbegins, Nat.not_le]
  · intro hrefused
    rw [hrefuses, ← h.size, ← h.unit] at hrefused
    rw [touch_outside hrefused, h.unit]
    rfl

/-- The place of the unit is 2⁶⁴, which is zero to a word. -/
theorem refuses_outside_wrapping :
    ∃ m, MemoryRegion.map (.limited 4096) 10 4 = .ok m ∧ (4 : UInt64) ≠ 0 ∧
      ¬ (memory m).Refuses 2 .write {} ∧
      (memory m).touch 0x4000000000000000 .write {} =
        (.error (.io "touch" 0xFFFFFFFFFFFFFFFF (.described "unit outside region")),
          memory m, {}) := by
  have hmap : MemoryRegion.map (.limited 4096) 10 4 = .ok { size := 10, unit := 4 } := rfl
  have hunit : (4 : UInt64) ≠ 0 := by decide
  obtain ⟨hmapped, -, hbounds⟩ := @refuses_outside 10 4 hunit
  obtain ⟨-, n, -, -, htouch⟩ := hbounds _ (hmapped _ _ hmap)
  obtain ⟨hnear, hbegins, -⟩ := htouch 2 .write {}
  obtain ⟨hfar, hbeyond, hleft⟩ := htouch 0x4000000000000000 .write {}
  refine ⟨_, hmap, hunit, hnear.mpr (hbegins.mpr (by decide)), hleft ?_⟩
  by_contra hinside
  exact absurd (hbeyond.mp (hfar.mp hinside)) (by decide)

end Region

end AccessBench
