import AccessBench.Proofs.Region.Blocks
import Mathlib.Data.List.Sort
import Mathlib.Data.Rat.Floor

/-!
What a pattern visits, request by request. A visit order is asked for one number after the other; at
any point it tells exactly how many are left, and once it has ended it stays so.
-/

namespace AccessBench

namespace VisitOrder

/-- The answer to a request for the next number. -/
def answer? (order : VisitOrder) : Option Nat := order.next?.map Prod.fst

/-- What is left after a request. An order that has ended stays as it is. -/
def rest (order : VisitOrder) : VisitOrder := (order.next?.map Prod.snd).getD order

theorem answer?_eq (order : VisitOrder) : order.answer? = order.toList[0]? := by
  rw [answer?]
  cases hnext : order.next? with
  | none =>
    rw [toList_of_next?_eq_none hnext]
    rfl
  | some next =>
    rw [toList_of_next? hnext]
    rfl

theorem toList_rest (order : VisitOrder) : order.rest.toList = order.toList.tail := by
  rw [rest]
  cases hnext : order.next? with
  | none =>
    have hended : order.toList = [] := toList_of_next?_eq_none hnext
    rw [hended]
    exact hended
  | some next =>
    rw [toList_of_next? hnext]
    rfl

theorem toList_iterate_rest (order : VisitOrder) (j : Nat) :
    (rest^[j] order).toList = order.toList.drop j := by
  induction j with
  | zero => rfl
  | succ j ih => rw [Function.iterate_succ_apply', toList_rest, ih, List.tail_drop]

theorem answer?_iterate_rest (order : VisitOrder) (j : Nat) :
    (rest^[j] order).answer? = order.toList[j]? := by
  rw [answer?_eq, toList_iterate_rest, List.getElem?_drop, Nat.add_zero]

theorem remaining_iterate_rest (order : VisitOrder) (j : Nat) :
    (rest^[j] order).remaining = order.remaining - j := by
  rw [← length_toList, toList_iterate_rest, List.length_drop, length_toList]

end VisitOrder

/-- The multiples of a step, one by one, are those that a filter finds among all numbers. -/
theorem map_mul_range_countByStep {units step : Nat} (hstep : 0 < step) :
    ((List.range (countByStep units step)).map fun k => step * k) =
      (List.range units).filter (step ∣ ·) := by
  have hmultiples : ((List.range (countByStep units step)).map fun k => step * k).Pairwise
      (· < ·) := by
    rw [List.pairwise_map]
    exact List.pairwise_lt_range.imp fun hlt => Nat.mul_lt_mul_of_pos_left hlt hstep
  have hfound : ((List.range units).filter (step ∣ ·)).Pairwise (· < ·) :=
    List.pairwise_lt_range.filter _
  -- both increase, so it is enough that they have the same numbers
  refine List.Perm.eq_of_pairwise (fun a b _ _ hab hba => absurd hba (Nat.lt_asymm hab))
    hmultiples hfound ?_
  rw [List.perm_ext_iff_of_nodup (hmultiples.imp Nat.ne_of_lt) (hfound.imp Nat.ne_of_lt)]
  intro i
  rw [List.mem_map, List.mem_filter, List.mem_range, decide_eq_true_iff]
  constructor
  · rintro ⟨k, hk, rfl⟩
    rw [List.mem_range, AccessPattern.lt_countByStep_iff hstep] at hk
    exact ⟨hk, k, rfl⟩
  · rintro ⟨hi, k, rfl⟩
    rw [← AccessPattern.lt_countByStep_iff hstep] at hi
    exact ⟨k, List.mem_range.mpr hi, rfl⟩

namespace AccessPattern

/-- The units that a pattern visits, the first one first. -/
def visits (units : Nat) : AccessPattern → List Nat
  | sequential | hotCache => List.range units
  | stride s => (List.range units).filter (s.units.toNat ∣ ·)
  | reverse => (List.range units).reverse
  | random indices => indices.toList

theorem toList_order (units : Nat) (pattern : AccessPattern) :
    (pattern.order units).toList = pattern.visits units := by
  cases pattern with
  | sequential | hotCache => exact toList_order_sequential units
  | stride s => rw [toList_order_stride, map_mul_range_countByStep s.pos, visits]
  | reverse => exact VisitOrder.toList_descending units
  | random indices => exact VisitOrder.toList_listed indices.toList

theorem remaining_order (units : Nat) (pattern : AccessPattern) :
    (pattern.order units).remaining = pattern.visitCount units := by
  cases pattern with
  | sequential | hotCache | reverse => rfl
  | stride s => exact countByStep_eq_unitsToCover s.pos
  | random indices => rfl

theorem visitCount_stride (units : Nat) (s : Stride) :
    visitCount units (.stride s) = ⌈(units / s.units.toNat : ℚ)⌉₊ := by
  have hpos : (0 : ℚ) < s.units.toNat := by exact_mod_cast s.pos
  apply eq_of_forall_ge_iff
  intro n
  have hcount : visitCount units (.stride s) = unitsToCover units s.units.toNat := rfl
  have hcover : unitsToCover units s.units.toNat ≤ n ↔ units ≤ n * s.units.toNat := by
    rw [← Nat.not_lt, lt_unitsToCover_iff s.pos, Nat.not_lt]
  rw [hcount, hcover, Nat.ceil_le, div_le_iff₀ hpos]
  exact_mod_cast Iff.rfl

/-- A pattern visits its units in the order of its kind, as many as it announces. Asked one request
after the other, its order answers with exactly these visits and then with nothing, however often it
is asked further, and at each point it tells exactly how many are left. -/
theorem order_answers_visits (pattern : AccessPattern) (units : Nat) :
    (pattern.visits units).length = pattern.visitCount units ∧
      (∀ s, pattern = .stride s → pattern.visitCount units = ⌈(units / s.units.toNat : ℚ)⌉₊) ∧
      ∀ j, (VisitOrder.rest^[j] (pattern.order units)).answer? = (pattern.visits units)[j]? ∧
        (VisitOrder.rest^[j] (pattern.order units)).remaining = pattern.visitCount units - j ∧
        ((VisitOrder.rest^[j] (pattern.order units)).answer? = none ↔
          pattern.visitCount units ≤ j) := by
  have hlength : (pattern.visits units).length = pattern.visitCount units := by
    rw [← toList_order, VisitOrder.length_toList, remaining_order]
  refine ⟨hlength, ?_, ?_⟩
  · rintro s rfl
    exact visitCount_stride units s
  · intro j
    have hanswer := VisitOrder.answer?_iterate_rest (pattern.order units) j
    rw [toList_order] at hanswer
    refine ⟨hanswer, ?_, ?_⟩
    · rw [VisitOrder.remaining_iterate_rest, remaining_order]
    · rw [hanswer, List.getElem?_eq_none_iff, hlength]

end AccessPattern

end AccessBench
