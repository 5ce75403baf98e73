import AccessBench.Proofs.Decimal.Notation
import AccessBench.Proofs.Size

/-!
Labels of byte counts. A label is written in the largest unit that divides the count, and its number
and its unit give the count back, so that different counts have different labels.
-/

namespace AccessBench

/-- The bytes of the unit that a label ends with. -/
def unitBytes? : List Char → Option Nat
  | ['B'] => some 1
  | ['K', 'B'] => some 1024
  | ['M', 'B'] => some (1024 ^ 2)
  | ['G', 'B'] => some (1024 ^ 3)
  | _ => none

/-- The byte count that a label denotes: its number times the bytes of its unit. -/
def labelBytes? (label : String) : Option Nat :=
  let digits := label.toList.takeWhile Char.isDigit
  if digits = [] then none
  else
    (unitBytes? (label.toList.dropWhile Char.isDigit)).map (Nat.ofDigitChars 10 digits 0 * ·)

/-- No unit begins with a digit. -/
theorem exists_cons_of_unitBytes? {suffix : List Char} {unit : Nat}
    (h : unitBytes? suffix = some unit) : ∃ c cs, suffix = c :: cs ∧ c.isDigit = false := by
  unfold unitBytes? at h
  split at h
  · exact ⟨_, _, rfl, rfl⟩
  · exact ⟨_, _, rfl, rfl⟩
  · exact ⟨_, _, rfl, rfl⟩
  · exact ⟨_, _, rfl, rfl⟩
  · cases h

theorem labelBytes?_append {suffix : String} {unit : Nat} (n : Nat)
    (h : unitBytes? suffix.toList = some unit) :
    labelBytes? (toString n ++ suffix) = some (n * unit) := by
  obtain ⟨c, cs, hsuffix, hc⟩ := exists_cons_of_unitBytes? h
  have hdigits := Decimal.isDigit_of_mem_toDigits n
  have htext : (toString n ++ suffix).toList = Nat.toDigits 10 n ++ c :: cs := by
    rw [String.toList_append, Nat.toString_eq_ofList_toDigits, String.toList_ofList, hsuffix]
  have hfront : (toString n ++ suffix).toList.takeWhile Char.isDigit = Nat.toDigits 10 n := by
    rw [htext, List.takeWhile_append_of_pos hdigits, List.takeWhile_cons_of_neg (by simp [hc]),
      List.append_nil]
  have hback : (toString n ++ suffix).toList.dropWhile Char.isDigit = suffix.toList := by
    rw [htext, List.dropWhile_append_of_pos hdigits, List.dropWhile_cons_of_neg (by simp [hc]),
      hsuffix]
  obtain ⟨d, ds, hne, -⟩ := Decimal.exists_toDigits_eq_cons n
  rw [labelBytes?, hfront, hback, h, if_neg (by simp [hne]), Nat.ofDigitChars_ten_toDigits]
  rfl

section LabelUnit

variable {bytes : Nat} {units : List (Nat × String)}

/-- The unit that a label is written in: the first that divides the count and is not above it, or
else bytes. -/
def labelUnit (bytes : Nat) : List (Nat × String) → Nat × String
  | [] => (1, "B")
  | u :: rest => if u.1 ≤ bytes ∧ u.1 ∣ bytes then u else labelUnit bytes rest

theorem labelIn_eq (bytes : Nat) (units : List (Nat × String)) :
    labelIn bytes units =
      toString (bytes / (labelUnit bytes units).1) ++ (labelUnit bytes units).2 := by
  induction units with
  | nil => rw [labelIn, labelUnit, Nat.div_one]
  | cons u units ih =>
    obtain ⟨unit, suffix⟩ := u
    have hfits : unit ≤ bytes ∧ bytes % unit = 0 ↔ unit ≤ bytes ∧ unit ∣ bytes := by
      rw [Nat.dvd_iff_mod_eq_zero]
    rw [labelIn, labelUnit, if_congr hfits rfl rfl, ih]
    split <;> rfl

theorem labelUnit_mem (bytes : Nat) (units : List (Nat × String)) :
    labelUnit bytes units ∈ units ++ [(1, "B")] := by
  induction units with
  | nil => exact .head _
  | cons u units ih =>
    rw [labelUnit]
    split
    · exact .head _
    · exact .tail _ ih

theorem labelUnit_dvd (bytes : Nat) (units : List (Nat × String)) :
    (labelUnit bytes units).1 ∣ bytes := by
  induction units with
  | nil => exact Nat.one_dvd bytes
  | cons u units ih =>
    rw [labelUnit]
    split
    · next hfits => exact hfits.2
    · exact ih

/-- Of units in falling order, the first that fits is the largest one that does. -/
theorem le_labelUnit {u : Nat × String}
    (hfalling : (units ++ [(1, "B")]).Pairwise fun (u v : Nat × String) => v.1 ≤ u.1)
    (hu : u ∈ units ++ [(1, "B")]) (hle : u.1 ≤ bytes) (hdvd : u.1 ∣ bytes) :
    u.1 ≤ (labelUnit bytes units).1 := by
  induction units with
  | nil =>
    obtain rfl := List.mem_singleton.mp hu
    exact Nat.le_refl 1
  | cons v units ih =>
    rw [List.cons_append, List.pairwise_cons] at hfalling
    rw [labelUnit]
    split
    · obtain rfl | hlater := List.mem_cons.mp hu
      · exact Nat.le_refl _
      · exact hfalling.1 u hlater
    · next hmisses =>
      obtain rfl | hlater := List.mem_cons.mp hu
      · exact absurd ⟨hle, hdvd⟩ hmisses
      · exact ih hfalling.2 hlater

end LabelUnit

theorem labelBytes?_labelIn (bytes : Nat) {units : List (Nat × String)}
    (h : ∀ u ∈ units ++ [(1, "B")], unitBytes? u.2.toList = some u.1) :
    labelBytes? (labelIn bytes units) = some bytes := by
  rw [labelIn_eq, labelBytes?_append _ (h _ (labelUnit_mem bytes units)),
    Nat.div_mul_cancel (labelUnit_dvd bytes units)]

/-- The units of labels are those that a label can end with. -/
theorem unitBytes?_of_mem {u : Nat × String} (h : u ∈ labelUnits ++ [(1, "B")]) :
    unitBytes? u.2.toList = some u.1 := by
  have hall : ∀ u ∈ labelUnits ++ [(1, "B")], unitBytes? u.2.toList = some u.1 := by decide
  exact hall u h

theorem exists_mem_of_unitBytes? {suffix : List Char} {unit : Nat}
    (h : unitBytes? suffix = some unit) : ∃ u ∈ labelUnits ++ [(1, "B")], u.1 = unit := by
  unfold unitBytes? at h
  split at h
  · exact ⟨(1, "B"), by decide, Option.some.inj h⟩
  · exact ⟨(kib, "KB"), by decide, Option.some.inj h⟩
  · exact ⟨(mib, "MB"), by decide, Option.some.inj h⟩
  · exact ⟨(gib, "GB"), by decide, Option.some.inj h⟩
  · cases h

/-- Only no bytes at all are fewer than a unit that divides them. -/
theorem isGreatest_labelUnit {bytes : Nat} (h : 0 < bytes) :
    IsGreatest {unit | (∃ suffix, unitBytes? suffix = some unit) ∧ unit ≤ bytes ∧ unit ∣ bytes}
      (labelUnit bytes labelUnits).1 := by
  have hmem := labelUnit_mem bytes labelUnits
  have hdvd := labelUnit_dvd bytes labelUnits
  constructor
  · exact ⟨⟨_, unitBytes?_of_mem hmem⟩, Nat.le_of_dvd h hdvd, hdvd⟩
  · rintro unit ⟨⟨suffix, hsuffix⟩, hle, hunit⟩
    obtain ⟨u, hu, rfl⟩ := exists_mem_of_unitBytes? hsuffix
    exact le_labelUnit (by decide) hu hle hunit

theorem labelBytes?_byteLabel (bytes : UInt64) :
    labelBytes? (byteLabel bytes) = some bytes.toNat :=
  labelBytes?_labelIn bytes.toNat fun _ => unitBytes?_of_mem

theorem byteLabel_inj {a b : UInt64} : byteLabel a = byteLabel b ↔ a = b := by
  refine ⟨?_, congrArg byteLabel⟩
  intro h
  have hbytes := congrArg labelBytes? h
  rw [labelBytes?_byteLabel, labelBytes?_byteLabel, Option.some_inj] at hbytes
  exact UInt64.toNat_inj.mp hbytes

/-- A label is a number without zeros in front and a unit, and together they are exactly the count.
The unit is the largest that divides the count and is not above it, and bytes for no bytes at all. No
two counts have one label. -/
theorem byteLabel_exact :
    (∀ bytes : UInt64, ∃ digits suffix unit,
      (byteLabel bytes).toList = digits ++ suffix ∧
        (digits = ['0'] ∨ Decimal.Leading digits) ∧ unitBytes? suffix = some unit ∧
        Nat.ofDigitChars 10 digits 0 * unit = bytes.toNat ∧
        (bytes = 0 → suffix = ['B']) ∧
        (bytes ≠ 0 → IsGreatest
          {u | (∃ s, unitBytes? s = some u) ∧ u ≤ bytes.toNat ∧ u ∣ bytes.toNat} unit)) ∧
      Function.Injective byteLabel := by
  refine ⟨?_, fun _ _ => byteLabel_inj.mp⟩
  intro bytes
  let u := labelUnit bytes.toNat labelUnits
  refine ⟨Nat.toDigits 10 (bytes.toNat / u.1), u.2.toList, u.1, ?_, ?_, ?_, ?_, ?_, ?_⟩
  · rw [byteLabel, labelIn_eq, String.toList_append, Nat.toString_eq_ofList_toDigits,
      String.toList_ofList]
  · exact (Decimal.Numeral.wellFormed_ofNat _).whole
  · exact unitBytes?_of_mem (labelUnit_mem _ _)
  · rw [Nat.ofDigitChars_ten_toDigits, Nat.div_mul_cancel (labelUnit_dvd _ _)]
  · rintro rfl
    decide
  · intro h
    exact isGreatest_labelUnit (toNat_pos_of_ne_zero h)

/-- Three gigabytes and a half are told in megabytes at least, and no bytes in bytes. -/
theorem byteLabel_exact_half :
    (3758096384 : UInt64) ≠ 0 ∧
      (∃ digits suffix unit, (byteLabel 3758096384).toList = digits ++ suffix ∧
        unitBytes? suffix = some unit ∧ 1024 ^ 2 ≤ unit ∧
        Nat.ofDigitChars 10 digits 0 * unit = 3758096384) ∧
      ∃ digits, (byteLabel 0).toList = digits ++ ['B'] ∧ Nat.ofDigitChars 10 digits 0 = 0 := by
  have hne : (3758096384 : UInt64) ≠ 0 := by decide
  obtain ⟨digits, suffix, unit, htext, -, hunit, hcount, -, hgreatest⟩ :=
    byteLabel_exact.1 3758096384
  have hmega : 1024 ^ 2 ≤ unit := (hgreatest hne).2 ⟨⟨['M', 'B'], rfl⟩, by decide, by decide⟩
  obtain ⟨none, _, one, hnone, -, hone, hzero, hbytes, -⟩ := byteLabel_exact.1 0
  obtain rfl := hbytes rfl
  obtain rfl : 1 = one := Option.some.inj hone
  exact ⟨hne, ⟨digits, suffix, unit, htext, hunit, hmega, hcount⟩, none, hnone,
    (Nat.mul_one _).symm.trans hzero⟩

end AccessBench
