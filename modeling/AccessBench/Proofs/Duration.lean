import AccessBench.Duration
import Mathlib.Algebra.BigOperators.Group.List.Basic
import Mathlib.Algebra.Order.Ring.Nat

/-!
Spans of time as numbers of nanoseconds. A span is given by its nanoseconds, and so sums with a
carry are exact: there is a sum as soon as some span has as many nanoseconds as all the parts
together. A part of a span is an exact division of its nanoseconds.
-/

namespace AccessBench

theorem nanosPerSecond_pos : 0 < nanosPerSecond := by decide

namespace Duration

variable {a b d : Duration}

theorem toNanos_div_second (d : Duration) : d.toNanos / nanosPerSecond = d.seconds.toNat := by
  rw [toNanos, Nat.mul_comm, Nat.mul_add_div nanosPerSecond_pos, Nat.div_eq_of_lt d.nanos_lt,
    Nat.add_zero]

theorem toNanos_mod_second (d : Duration) : d.toNanos % nanosPerSecond = d.nanos := by
  rw [toNanos, Nat.mul_comm, Nat.mul_add_mod, Nat.mod_eq_of_lt d.nanos_lt]

theorem toNanos_inj : a.toNanos = b.toNanos ↔ a = b := by
  constructor
  · intro h
    ext
    · rw [← toNanos_div_second a, ← toNanos_div_second b, h]
    · rw [← toNanos_mod_second a, ← toNanos_mod_second b, h]
  · rintro rfl
    rfl

theorem toNanos_lt (d : Duration) : d.toNanos < UInt64.size * nanosPerSecond := by
  rw [← Nat.div_lt_iff_lt_mul nanosPerSecond_pos, toNanos_div_second]
  exact d.seconds.toNat_lt

/-- Carrying over makes the span of so many nanoseconds, as long as there is one. -/
theorem carry?_eq_some_iff {seconds nanos : Nat} :
    carry? seconds nanos = some d ↔ d.toNanos = seconds * nanosPerSecond + nanos := by
  have hdiv : (seconds * nanosPerSecond + nanos) / nanosPerSecond =
      seconds + nanos / nanosPerSecond := by
    rw [Nat.mul_comm, Nat.mul_add_div nanosPerSecond_pos]
  have hmod : (seconds * nanosPerSecond + nanos) % nanosPerSecond = nanos % nanosPerSecond := by
    rw [Nat.mul_comm, Nat.mul_add_mod]
  rw [carry?]
  constructor
  · intro h
    split at h
    · next hlt =>
      obtain rfl := Option.some_inj.mp h
      rw [toNanos]
      dsimp only
      rw [UInt64.toNat_ofNat_of_lt' hlt, ← hdiv, ← hmod, Nat.mul_comm, Nat.div_add_mod]
    · cases h
  · intro h
    have hseconds : d.seconds.toNat = seconds + nanos / nanosPerSecond := by
      rw [← toNanos_div_second, h, hdiv]
    have hnanos : d.nanos = nanos % nanosPerSecond := by
      rw [← toNanos_mod_second, h, hmod]
    rw [← hseconds, if_pos d.seconds.toNat_lt]
    exact congrArg some (Duration.ext UInt64.ofNat_toNat hnanos.symm)

theorem exists_toNanos {n : Nat} (h : n < UInt64.size * nanosPerSecond) :
    ∃ d : Duration, d.toNanos = n := by
  have hseconds : n / nanosPerSecond < UInt64.size :=
    (Nat.div_lt_iff_lt_mul nanosPerSecond_pos).mpr h
  refine ⟨⟨UInt64.ofNat (n / nanosPerSecond), n % nanosPerSecond,
    Nat.mod_lt _ nanosPerSecond_pos⟩, ?_⟩
  rw [toNanos]
  dsimp only
  rw [UInt64.toNat_ofNat_of_lt' hseconds, Nat.mul_comm, Nat.div_add_mod]

theorem add?_eq_some_iff : a.add? b = some d ↔ d.toNanos = a.toNanos + b.toNanos := by
  have hsum : (a.seconds.toNat + b.seconds.toNat) * nanosPerSecond + (a.nanos + b.nanos) =
      a.toNanos + b.toNanos := by
    rw [toNanos, toNanos, Nat.add_mul]
    omega
  rw [ add?, carry?_eq_some_iff, hsum]

theorem foldlM_add?_eq_some_iff {ds : List Duration} :
    ds.foldlM add? a = some d ↔ d.toNanos = a.toNanos + (ds.map toNanos).sum := by
  induction ds generalizing a with
  | nil =>
    rw [List.foldlM_nil, List.map_nil, List.sum_nil, Nat.add_zero, toNanos_inj, eq_comm]
    exact Option.some_inj
  | cons next rest ih =>
    rw [List.foldlM_cons, List.map_cons, List.sum_cons, ← Nat.add_assoc]
    constructor
    · intro h
      obtain ⟨first, hfirst, hrest⟩ := Option.bind_eq_some_iff.mp h
      rw [ih.mp hrest, add?_eq_some_iff.mp hfirst]
    · intro h
      -- the sum so far is no longer than the whole, so it is a span as well
      have hlt := d.toNanos_lt
      obtain ⟨first, hfirst⟩ := exists_toNanos (n := a.toNanos + next.toNanos) (by omega)
      refine Option.bind_eq_some_iff.mpr ⟨first, add?_eq_some_iff.mpr hfirst, ih.mpr ?_⟩
      rw [h, hfirst]

theorem sum?_eq_some_iff {ds : List Duration} :
    sum? ds = some d ↔ d.toNanos = (ds.map toNanos).sum := by
  have hzero : zero.toNanos = 0 := rfl
  rw [sum?, foldlM_add?_eq_some_iff, hzero, Nat.zero_add]

theorem sum?_perm {ds es : List Duration} (h : ds.Perm es) : sum? ds = sum? es := by
  ext d
  rw [sum?_eq_some_iff, sum?_eq_some_iff, (h.map toNanos).sum_eq]

/-- One span is taken from another without loss, if it is not the longer one. -/
theorem toNanos_sub? (a b : Duration) :
    match a.sub? b with
    | some d => b.toNanos ≤ a.toNanos ∧ d.toNanos = a.toNanos - b.toNanos
    | none => a.toNanos < b.toNanos := by
  have ha := a.nanos_lt
  have hb := b.nanos_lt
  rw [sub?]
  by_cases hnanos : b.nanos ≤ a.nanos
  · rw [if_pos hnanos]
    by_cases hseconds : b.seconds ≤ a.seconds
    · have hle : b.seconds.toNat ≤ a.seconds.toNat := hseconds
      have hmul := Nat.mul_le_mul_right nanosPerSecond hle
      rw [if_pos hseconds]
      simp only [toNanos, UInt64.toNat_sub_of_le _ _ hseconds, Nat.sub_mul]
      omega
    · have hlt : a.seconds.toNat + 1 ≤ b.seconds.toNat := Nat.lt_of_not_le hseconds
      have hmul := Nat.mul_le_mul_right nanosPerSecond hlt
      rw [Nat.add_mul, Nat.one_mul] at hmul
      rw [if_neg hseconds]
      simp only [toNanos]
      omega
  · rw [if_neg hnanos]
    by_cases hseconds : b.seconds < a.seconds
    · have hlt : b.seconds.toNat + 1 ≤ a.seconds.toNat := hseconds
      have hmul := Nat.mul_le_mul_right nanosPerSecond hlt
      rw [Nat.add_mul, Nat.one_mul] at hmul
      rw [if_pos hseconds]
      have hborrow : (a.seconds.toNat - 1 - b.seconds.toNat) * nanosPerSecond +
          (nanosPerSecond + a.nanos - b.nanos) = a.toNanos - b.toNanos := by
        simp only [toNanos, Nat.sub_mul, Nat.one_mul]
        omega
      obtain ⟨d, hd⟩ := exists_toNanos (n := a.toNanos - b.toNanos)
        (Nat.lt_of_le_of_lt (Nat.sub_le _ _) a.toNanos_lt)
      rw [carry?_eq_some_iff.mpr (hd.trans hborrow.symm)]
      refine ⟨?_, hd⟩
      simp only [toNanos]
      omega
    · have hle : a.seconds.toNat ≤ b.seconds.toNat := Nat.le_of_not_lt hseconds
      have hmul := Nat.mul_le_mul_right nanosPerSecond hle
      rw [if_neg hseconds]
      simp only [toNanos]
      omega

/-- What is left of the seconds is divided with the nanoseconds, so only the end is rounded. -/
theorem toNanos_div (d : Duration) {n : Nat} (hn : 0 < n) :
    (d.div n).toNanos = d.toNanos / n := by
  have hseconds : d.seconds.toNat / n < UInt64.size :=
    Nat.lt_of_le_of_lt (Nat.div_le_self _ _) d.seconds.toNat_lt
  have hsplit : d.toNanos =
      n * (d.seconds.toNat / n * nanosPerSecond) +
        (d.seconds.toNat % n * nanosPerSecond + d.nanos) := by
    calc d.toNanos
        = (n * (d.seconds.toNat / n) + d.seconds.toNat % n) * nanosPerSecond + d.nanos := by
          rw [Nat.div_add_mod, toNanos]
      _ = _ := by rw [Nat.add_mul, Nat.mul_assoc, Nat.add_assoc]
  rw [hsplit, Nat.mul_add_div hn, toNanos]
  dsimp only [div]
  rw [UInt64.toNat_ofNat_of_lt' hseconds]

end Duration

/-- A time is the difference of two readings of the clock, none where the clock went backwards. -/
theorem toNanos_elapsed (start stop : Duration) :
    (elapsed start stop).duration.toNanos = stop.toNanos - start.toNanos := by
  have hsub := Duration.toNanos_sub? stop start
  rw [elapsed]
  cases hspan : stop.sub? start with
  | some d =>
    rw [hspan] at hsub
    exact hsub.2
  | none =>
    rw [hspan] at hsub
    exact (Nat.sub_eq_zero_of_le hsub.le).symm

theorem clamped_elapsed (start stop : Duration) :
    (elapsed start stop).clamped = true ↔ stop.toNanos < start.toNanos := by
  have hsub := Duration.toNanos_sub? stop start
  rw [elapsed]
  cases hspan : stop.sub? start with
  | some d =>
    rw [hspan] at hsub
    exact iff_of_false Bool.false_ne_true (Nat.not_lt_of_le hsub.1)
  | none =>
    rw [hspan] at hsub
    exact iff_of_true rfl hsub

end AccessBench
