import AccessBench.Pattern

/-!
What visit orders produce, as lists.
-/

namespace AccessBench

namespace VisitOrder

/-- Every number but the last leaves an order that is shorter by one. -/
theorem remaining_of_next? {order rest : VisitOrder} {i : Nat} (h : order.next? = some (i, rest)) :
    order.remaining = rest.remaining + 1 := by
  fun_cases next? order <;> cases h <;> rfl

theorem remaining_of_next?_eq_none {order : VisitOrder} (h : order.next? = none) :
    order.remaining = 0 := by
  fun_cases next? order <;> first | rfl | cases h

theorem toList_of_next?_eq_none {order : VisitOrder} (h : order.next? = none) :
    order.toList = [] := by
  rw [toList, remaining_of_next?_eq_none h, take]

theorem toList_of_next? {order rest : VisitOrder} {i : Nat} (h : order.next? = some (i, rest)) :
    order.toList = i :: rest.toList := by
  simp [toList, remaining_of_next? h, take, h]

theorem toList_ascending (first step count : Nat) :
    (ascending first step count).toList = (List.range count).map fun k => first + step * k := by
  induction count generalizing first with
  | zero => rfl
  | succ count ih =>
    have hnext : (ascending first step (count + 1)).next? =
        some (first, ascending (first + step) step count) := rfl
    rw [toList_of_next? hnext, ih, List.range_succ_eq_map, List.map_cons, List.map_map]
    congr 1
    apply List.map_congr_left
    intro k _
    simp only [Function.comp_apply, Nat.succ_eq_add_one, Nat.mul_add, Nat.mul_one]
    omega

theorem toList_descending (count : Nat) :
    (descending count).toList = (List.range count).reverse := by
  induction count with
  | zero => rfl
  | succ count ih =>
    have hnext : (descending (count + 1)).next? = some (count, descending count) := rfl
    rw [toList_of_next? hnext, ih, List.range_succ, List.reverse_append, List.reverse_singleton,
      List.singleton_append]

theorem toList_listed (indices : List Nat) : (listed indices).toList = indices := by
  induction indices with
  | nil => rfl
  | cons i indices ih =>
    have hnext : (listed (i :: indices)).next? = some (i, listed indices) := rfl
    rw [toList_of_next? hnext, ih]

theorem length_toList (order : VisitOrder) : order.toList.length = order.remaining := by
  generalize hn : order.remaining = n
  induction n generalizing order with
  | zero => simp [toList, hn, take]
  | succ n ih =>
    cases hnext : order.next? with
    | none => simp [remaining_of_next?_eq_none hnext] at hn
    | some next =>
      have hrest := remaining_of_next? hnext
      rw [toList_of_next? hnext, List.length_cons, ih next.2 (by omega)]

end VisitOrder

namespace AccessPattern

/-- The units of a warm pass, in increasing order. -/
theorem toList_order_sequential (units : Nat) :
    (order units .sequential).toList = List.range units := by
  simp [order, VisitOrder.toList_ascending]

theorem toList_order_stride (units : Nat) (s : Stride) :
    (order units (.stride s)).toList =
      (List.range (countByStep units s.units.toNat)).map fun k => s.units.toNat * k := by
  simp [order, VisitOrder.toList_ascending]

theorem lt_countByStep_iff {units step k : Nat} (hstep : 0 < step) :
    k < countByStep units step ↔ step * k < units := by
  unfold countByStep
  split
  · omega
  · rw [Nat.lt_succ_iff, Nat.le_div_iff_mul_le hstep, Nat.mul_comm]
    omega

theorem countByStep_le {units step : Nat} : countByStep units step ≤ units := by
  unfold countByStep
  split
  · omega
  · have h := Nat.div_le_self (units - 1) step
    omega

/-- The check fails only on a permutation of another length. -/
theorem check_error {units : Nat} {pattern : AccessPattern} {e : BenchError}
    (h : pattern.check units = .error e) : ∃ size, e = .patternMismatch units size := by
  cases pattern with
  | sequential | stride | reverse | hotCache => cases h
  | random indices =>
    by_cases hsize : indices.size = units
    · simp [check, hsize] at h
    · have he : BenchError.patternMismatch units indices.size = e := by simpa [check, hsize] using h
      exact ⟨indices.size, he.symm⟩

/-- A pattern that passes its check makes no more visits than there are units. -/
theorem length_order_le {units : Nat} {pattern : AccessPattern} (h : pattern.check units = .ok ()) :
    (pattern.order units).toList.length ≤ units := by
  rw [VisitOrder.length_toList]
  cases pattern with
  | sequential | reverse | hotCache => exact Nat.le_refl _
  | stride s => exact countByStep_le
  | random indices =>
    by_cases hsize : indices.size = units
    · simp [order, VisitOrder.remaining, hsize]
    · simp [check, hsize] at h

end AccessPattern

end AccessBench
