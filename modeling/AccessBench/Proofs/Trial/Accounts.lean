import AccessBench.Proofs.Region.Transfer
import AccessBench.Proofs.Trial.Protocol

/-!
The account of a trial whose visits move whole blocks: which bytes they move, and what the counter
and the number of visits come to.
-/

namespace AccessBench

/-- The visits of some units, each with the bytes that it moves. -/
def Scenario.visits (s : Scenario) (indices : List Nat) : List (Nat × UInt64) :=
  indices.map fun i => (i, s.moved i)

theorem toNat_total_foldl_record {s : Scenario} {indices : List Nat} {c : TransferCounter}
    (h : c.total.toNat +
      (indices.map (blockLength s.size.toNat s.unit.toNat)).sum < UInt64.size) :
    (indices.foldl (fun c i => c.record (s.moved i)) c).total.toNat =
      c.total.toNat + (indices.map (blockLength s.size.toNat s.unit.toNat)).sum := by
  induction indices generalizing c with
  | nil => rfl
  | cons i rest ih =>
    rw [List.map_cons, List.sum_cons] at h ⊢
    have hrecord : (c.record (s.moved i)).total.toNat =
        c.total.toNat + blockLength s.size.toNat s.unit.toNat i := by
      have hroom : c.total.toNat + (s.moved i).toNat ≤ UInt64.size - 1 := by
        rw [s.toNat_moved]
        omega
      rw [TransferCounter.record, saturatingAdd, Nat.min_eq_left hroom, s.toNat_moved]
      exact UInt64.toNat_ofNat_of_lt' (by omega)
    rw [List.foldl_cons, ih (by omega), hrecord]
    omega

namespace Readings

/-- The readings tell of visits that move whole blocks, and of a counter that has added them up. -/
structure Tallies (s : Scenario) (pattern : AccessPattern) (r : Readings) : Prop where
  warm : r.warm = if pattern = .hotCache then
    s.visits (List.range (unitsToCover s.size.toNat s.unit.toNat)) else []
  timed : r.timed =
    s.visits (pattern.order (unitsToCover s.size.toNat s.unit.toNat)).toList
  before : r.before = 0
  after : r.after.toNat = ((pattern.order (unitsToCover s.size.toNat s.unit.toNat)).toList.map
    (blockLength s.size.toNat s.unit.toNat)).sum

/-- The account of a trial over an extent of bytes, with the ranges that its timed visits move.
These share no byte and stay inside. All patterns but a stride move the whole extent; a stride moves
the blocks that it meets. -/
structure Accounts (s : Scenario) (pattern : AccessPattern) (r : Readings)
    (ranges : List ByteRange) : Prop where
  counted : r.timed.map (fun visit => visit.2.toNat) = ranges.map (·.length)
  disjoint : ranges.Pairwise fun a b => ∀ byte, a.Holds byte → ¬ b.Holds byte
  inside : ∀ range ∈ ranges, ∀ byte, range.Holds byte → byte < s.size.toNat
  rising : (delta r.before r.after).clamped = false
  whole : (∀ stride, pattern ≠ .stride stride) →
    (∀ byte < s.size.toNat, ∃ range ∈ ranges, range.Holds byte) ∧ r.trial.auxCount = s.size ∧
      r.trial.visited.toNat = unitsToCover s.size.toNat s.unit.toNat
  strided : ∀ stride, pattern = .stride stride →
    r.trial.visited.toNat =
        unitsToCover (unitsToCover s.size.toNat s.unit.toNat) stride.units.toNat ∧
      r.trial.auxCount.toNat = ((List.range r.trial.visited.toNat).map fun j =>
        min s.unit.toNat (s.size.toNat - j * stride.units.toNat * s.unit.toNat)).sum

namespace Tallies

variable {s : Scenario} {pattern : AccessPattern} {r : Readings}

theorem cover (h : r.Tallies s pattern) :
    r.Cover pattern (unitsToCover s.size.toNat s.unit.toNat) := by
  constructor
  · intro hhot
    rw [h.warm, if_pos hhot]
    simp [Scenario.visits, Function.comp_def]
  · rw [h.timed]
    simp [Scenario.visits, Function.comp_def]

theorem auxCount (h : r.Tallies s pattern) : r.trial.auxCount = r.after := by
  have hle : (0 : UInt64) ≤ r.after := UInt64.le_iff_toNat_le.mpr (Nat.zero_le _)
  simp [trial, h.before, delta, hle]

theorem visited (h : r.Tallies s pattern)
    (hfits : pattern.Fits (unitsToCover s.size.toNat s.unit.toNat)) (hunit : 0 < s.unit.toNat) :
    r.trial.visited.toNat =
      (pattern.order (unitsToCover s.size.toNat s.unit.toNat)).toList.length := by
  have hlength : r.timed.length =
      (pattern.order (unitsToCover s.size.toNat s.unit.toNat)).toList.length := by
    rw [h.timed, Scenario.visits, List.length_map]
  have horder := AccessPattern.length_order_le hfits.check
  have hunits : unitsToCover s.size.toNat s.unit.toNat ≤ s.size.toNat := unitsToCover_le hunit
  have hsize := s.size.toNat_lt
  rw [← hlength] at horder ⊢
  exact UInt64.toNat_ofNat_of_lt' (by rw [UInt64.size]; omega)

theorem disjoint_blocks {indices : List Nat} (hnodup : indices.Nodup) :
    (indices.map s.block).Pairwise fun a b => ∀ byte, a.Holds byte → ¬ b.Holds byte := by
  rw [List.pairwise_map]
  refine hnodup.imp ?_
  intro i j hne byte hbyte hother
  exact hne (eq_of_in_blocks hbyte.1 hbyte.2 hother.1 hother.2)

theorem accounts (h : r.Tallies s pattern) (hunit : 0 < s.unit.toNat)
    (hpattern : pattern.Rearranges (unitsToCover s.size.toNat s.unit.toNat)) :
    r.Accounts s pattern
      ((pattern.order (unitsToCover s.size.toNat s.unit.toNat)).toList.map s.block) := by
  have hfits := AccessPattern.fits_of_rearranges hpattern
  have hvisited := h.visited hfits hunit
  refine ⟨?_, disjoint_blocks (AccessPattern.nodup_order hpattern), ?_, ?_, ?_, ?_⟩
  · rw [h.timed, Scenario.visits, List.map_map, List.map_map]
    exact List.map_congr_left fun i _ => s.toNat_moved i
  · intro range hrange byte hbyte
    obtain ⟨i, hi, rfl⟩ := List.mem_map.mp hrange
    have hbegin := (lt_unitsToCover_iff hunit).mp (hfits.inside i hi)
    exact Nat.lt_of_lt_of_le hbyte.2 (block_le_size hbegin)
  · have hle : (0 : UInt64) ≤ r.after := UInt64.le_iff_toNat_le.mpr (Nat.zero_le _)
    simp [h.before, delta, hle]
  · intro hwhole
    have hperm := AccessPattern.order_perm hpattern hwhole
    refine ⟨?_, ?_, ?_⟩
    · intro byte hbyte
      obtain ⟨i, hi, hholds⟩ := exists_block hunit hbyte
      exact ⟨s.block i, List.mem_map_of_mem (hperm.mem_iff.mpr (List.mem_range.mpr hi)), hholds⟩
    · rw [h.auxCount, ← UInt64.toNat_inj, h.after, sum_blockLength_perm hunit hperm]
    · rw [hvisited, hperm.length_eq, List.length_range]
  · intro stride hstride
    subst hstride
    have hcount : countByStep (unitsToCover s.size.toNat s.unit.toNat) stride.units.toNat =
        unitsToCover (unitsToCover s.size.toNat s.unit.toNat) stride.units.toNat :=
      countByStep_eq_unitsToCover stride.pos
    rw [AccessPattern.toList_order_stride, List.length_map, List.length_range] at hvisited
    refine ⟨hvisited.trans hcount, ?_⟩
    rw [h.auxCount, h.after, hvisited, AccessPattern.toList_order_stride, List.map_map]
    congr 1
    apply List.map_congr_left
    intro j _
    rw [Function.comp_apply, blockLength, Nat.min_comm, Nat.mul_comm stride.units.toNat j]

end Tallies

end Readings

end AccessBench
