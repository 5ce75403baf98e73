import AccessBench.Config.Validation

/-!
What is known of configurations that can be measured.
-/

namespace AccessBench

theorem toNat_eq_zero_iff {n : UInt64} : n.toNat = 0 ↔ n = 0 := by
  rw [← UInt64.toNat_inj, UInt64.toNat_zero]

theorem one_le_iff_ne_zero {n : UInt64} : 1 ≤ n ↔ n ≠ 0 := by
  rw [UInt64.le_iff_toNat_le, Ne, ← toNat_eq_zero_iff]
  exact Nat.one_le_iff_ne_zero

theorem isPowerOfTwo_iff {n : UInt64} : isPowerOfTwo n = true ↔ n.toNat.isPowerOfTwo := by
  have hand := toNat_eq_zero_iff (n := n &&& (n - 1))
  rw [← Nat.ne_zero_and_sub_one_eq_zero_iff_isPowerOfTwo]
  by_cases h : n = 0
  · simp [isPowerOfTwo, h]
  · have hpred : (n - 1).toNat = n.toNat - 1 :=
      UInt64.toNat_sub_of_le n 1 (one_le_iff_ne_zero.mpr h)
    have hne : n.toNat ≠ 0 := mt toNat_eq_zero_iff.mp h
    rw [UInt64.toNat_and, hpred] at hand
    simp [isPowerOfTwo, h, ← hand, hne]

namespace Config

variable {c : Config}

theorem validate_eq_ok_iff_faults : c.validate = .ok () ↔ ∀ fault ∈ c.faults, fault.1 = false := by
  rw [validate]
  cases hfault : c.faults.find? (·.1) with
  | some fault =>
    refine iff_of_false nofun ?_
    intro hnone
    have htrue : fault.1 = true := by simpa using List.find?_some hfault
    have hfalse := hnone fault (List.mem_of_find?_eq_some hfault)
    rw [htrue] at hfalse
    cases hfalse
  | none =>
    refine iff_of_true rfl ?_
    intro fault hmem
    simpa using List.find?_eq_none.mp hfault fault hmem

/-- The rules, one by one. -/
theorem validate_eq_ok_iff : c.validate = .ok () ↔
    c.iterations ≠ 0 ∧ c.memory.pageSize.toNat.isPowerOfTwo ∧ 0 ∉ c.memory.strides ∧
      c.file.blockSize ≠ 0 ∧ 0 ∉ c.file.blockSizes ∧ 0 ∉ c.file.strides := by
  rw [validate_eq_ok_iff_faults]
  simp [faults, isPowerOfTwo_iff]

theorem iterations_ne_zero (h : c.validate = .ok ()) : c.iterations ≠ 0 :=
  (validate_eq_ok_iff.mp h).1

theorem pageSize_ne_zero (h : c.validate = .ok ()) : c.memory.pageSize ≠ 0 := by
  obtain ⟨-, hpage, -⟩ := validate_eq_ok_iff.mp h
  intro hzero
  rw [hzero] at hpage
  exact Nat.not_isPowerOfTwo_zero hpage

theorem blockSize_ne_zero (h : c.validate = .ok ()) : c.file.blockSize ≠ 0 := by
  obtain ⟨-, -, -, hblock, -⟩ := validate_eq_ok_iff.mp h
  exact hblock

end Config

end AccessBench
