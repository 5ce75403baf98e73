import AccessBench.Proofs.Pattern.Fit
import Mathlib.Algebra.Order.BigOperators.Group.List
import Mathlib.Data.List.Nodup
import Mathlib.Data.List.Perm.Subperm

/-!
The blocks of an extent: the bytes of each of its units. They share no byte and make up the whole
extent, and a pattern that visits every unit once moves all of them, in whatever order.
-/

namespace AccessBench

/-- The number of bytes in a unit of an extent. Only the last one may have fewer than the others. -/
def blockLength (size unit index : Nat) : Nat := min (size - index * unit) unit

section

variable {size unit : Nat}

theorem blockLength_lt_disjoint {i j byte : Nat} (hij : i < j)
    (hi : byte < i * unit + blockLength size unit i) : byte < j * unit := by
  have hnext : (i + 1) * unit ≤ j * unit := Nat.mul_le_mul_right unit hij
  have hmul : (i + 1) * unit = i * unit + unit := Nat.succ_mul i unit
  unfold blockLength at hi
  omega

theorem blockLength_outside {i : Nat} (h : size ≤ i * unit) : blockLength size unit i = 0 := by
  rw [blockLength, Nat.sub_eq_zero_of_le h, Nat.zero_min]

theorem block_le_size {i : Nat} (h : i * unit < size) :
    i * unit + blockLength size unit i ≤ size := by
  rw [blockLength]
  omega

theorem eq_of_in_blocks {i j byte : Nat} (hi : i * unit ≤ byte)
    (hi' : byte < i * unit + blockLength size unit i) (hj : j * unit ≤ byte)
    (hj' : byte < j * unit + blockLength size unit j) : i = j := by
  apply Nat.le_antisymm
  · by_contra h
    exact Nat.not_lt_of_le hi (blockLength_lt_disjoint (Nat.lt_of_not_le h) hj')
  · by_contra h
    exact Nat.not_lt_of_le hj (blockLength_lt_disjoint (Nat.lt_of_not_le h) hi')

theorem exists_block {byte : Nat} (hunit : 0 < unit) (hbyte : byte < size) :
    ∃ i < unitsToCover size unit, i * unit ≤ byte ∧ byte < i * unit + blockLength size unit i := by
  have hdiv : unit * (byte / unit) + byte % unit = byte := Nat.div_add_mod byte unit
  have hmod : byte % unit < unit := Nat.mod_lt byte hunit
  rw [Nat.mul_comm] at hdiv
  refine ⟨byte / unit, (lt_unitsToCover_iff hunit).mpr (by omega), by omega, ?_⟩
  unfold blockLength
  omega

theorem sum_blockLength_range (n : Nat) :
    ((List.range n).map (blockLength size unit)).sum = min size (n * unit) := by
  induction n with
  | zero => simp
  | succ n ih =>
    have hmul : (n + 1) * unit = n * unit + unit := Nat.succ_mul n unit
    rw [List.range_succ, List.map_append, List.sum_append, ih, List.map_singleton,
      List.sum_singleton, blockLength]
    omega

/-- Visited once each and in any order, the units make up the whole extent. -/
theorem sum_blockLength_perm {indices : List Nat} (hunit : 0 < unit)
    (h : indices.Perm (List.range (unitsToCover size unit))) :
    (indices.map (blockLength size unit)).sum = size := by
  have hend : ¬ unitsToCover size unit * unit < size := by
    rw [← lt_unitsToCover_iff hunit]
    exact Nat.lt_irrefl _
  rw [(h.map (blockLength size unit)).sum_eq, sum_blockLength_range]
  omega

theorem sum_blockLength_le {indices : List Nat} (hunit : 0 < unit) (hnodup : indices.Nodup)
    (hinside : ∀ i ∈ indices, i < unitsToCover size unit) :
    (indices.map (blockLength size unit)).sum ≤ size := by
  have hsubset : indices ⊆ List.range (unitsToCover size unit) :=
    fun i hi => List.mem_range.mpr (hinside i hi)
  obtain ⟨kept, hperm, hsublist⟩ := List.subperm_of_subset hnodup hsubset
  calc (indices.map (blockLength size unit)).sum
      = (kept.map (blockLength size unit)).sum :=
        ((hperm.map (blockLength size unit)).sum_eq).symm
    _ ≤ ((List.range (unitsToCover size unit)).map (blockLength size unit)).sum :=
        (hsublist.map (blockLength size unit)).sum_le_sum fun _ _ => Nat.zero_le _
    _ = size := sum_blockLength_perm hunit (List.Perm.refl _)

end

theorem countByStep_eq_unitsToCover {units step : Nat} (hstep : 0 < step) :
    countByStep units step = unitsToCover units step := by
  apply Nat.le_antisymm
  · by_contra h
    have hlt := (AccessPattern.lt_countByStep_iff hstep).mp (Nat.lt_of_not_le h)
    rw [Nat.mul_comm, ← lt_unitsToCover_iff hstep] at hlt
    exact Nat.lt_irrefl _ hlt
  · by_contra h
    have hlt := (lt_unitsToCover_iff hstep).mp (Nat.lt_of_not_le h)
    rw [Nat.mul_comm, ← AccessPattern.lt_countByStep_iff hstep] at hlt
    exact Nat.lt_irrefl _ hlt

namespace AccessPattern

/-- A random pattern is a rearrangement of so many units. The other patterns make their own order
and have nothing to agree with. -/
def Rearranges (units : Nat) : AccessPattern → Prop
  | random indices => indices.toList.Perm (List.range units)
  | _ => True

variable {units : Nat} {pattern : AccessPattern}

theorem fits_of_rearranges (h : pattern.Rearranges units) : pattern.Fits units := by
  cases pattern with
  | sequential => exact fits_sequential units
  | stride s => exact fits_stride units s
  | reverse => exact fits_reverse units
  | hotCache => exact fits_hotCache units
  | random indices =>
    have hperm : indices.toList.Perm (List.range units) := h
    have hsize : indices.size = units := by simpa using hperm.length_eq
    rw [← hsize]
    apply fits_random
    intro i hi
    rw [hsize, ← List.mem_range, ← hperm.mem_iff]
    exact Array.mem_toList_iff.mpr hi

/-- All patterns but a stride visit every unit once. -/
theorem order_perm (h : pattern.Rearranges units) (hwhole : ∀ stride, pattern ≠ .stride stride) :
    (pattern.order units).toList.Perm (List.range units) := by
  cases pattern with
  | stride s => exact absurd rfl (hwhole s)
  | sequential | hotCache => exact List.Perm.of_eq (toList_order_sequential units)
  | reverse =>
    rw [order, VisitOrder.toList_descending]
    exact List.reverse_perm _
  | random indices =>
    rw [order, VisitOrder.toList_listed]
    exact h

theorem nodup_order (h : pattern.Rearranges units) : (pattern.order units).toList.Nodup := by
  by_cases hwhole : ∀ stride, pattern ≠ .stride stride
  · exact (order_perm h hwhole).nodup_iff.mpr List.nodup_range
  · obtain ⟨s, hs⟩ := not_forall.mp hwhole
    obtain rfl := not_not.mp hs
    rw [toList_order_stride]
    exact List.Nodup.map (fun a b hab => Nat.eq_of_mul_eq_mul_left s.pos hab) List.nodup_range

end AccessPattern

end AccessBench
