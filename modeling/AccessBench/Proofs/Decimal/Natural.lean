import AccessBench.Decimal.Natural
import Mathlib.Data.List.Forall2
import Mathlib.Data.Nat.Digits.Defs

/-!
Numbers written in a base. What digits denote is told from their values, and reading them gives the
number that they denote when it is below the limit, however many zeros are in front.
-/

namespace AccessBench.Decimal

/-- The character is the digit of the value. The digits after nine are letters of either case. -/
def IsDigit (base : Nat) (c : Char) (value : Nat) : Prop :=
  value < base ∧ (c = value.digitChar ∨ c = value.digitChar.toUpper)

/-- The text is at least one digit, and the digits denote the number, the last one its units. -/
def Denotes (base : Nat) (text : List Char) (n : Nat) : Prop :=
  text ≠ [] ∧ ∃ values, List.Forall₂ (IsDigit base) text values ∧
    n = Nat.ofDigits base values.reverse

/-- The text denotes the number, perhaps behind one plus sign. -/
inductive DenotesSigned (base : Nat) : List Char → Nat → Prop
  | plain {text : List Char} {n : Nat} (h : Denotes base text n) : DenotesSigned base text n
  | plus {digits : List Char} {n : Nat} (h : Denotes base digits n) :
      DenotesSigned base ('+' :: digits) n

variable {base limit acc d n : Nat} {c : Char} {text digits : List Char} {values : List Nat}

theorem digitValue?_eq_some_iff_of_le (hle : base ≤ 16) :
    digitValue? base c = some d ↔ d < base ∧ digitValue? 16 c = some d := by
  unfold digitValue?
  dsimp only
  generalize (if '0' ≤ c ∧ c ≤ '9' then c.toNat - '0'.toNat
    else if 'a' ≤ c ∧ c ≤ 'f' then c.toNat - 'a'.toNat + 10
    else if 'A' ≤ c ∧ c ≤ 'F' then c.toNat - 'A'.toNat + 10
    else 16) = value
  by_cases hvalue : value < base
  · rw [if_pos hvalue, if_pos (hvalue.trans_le hle), Option.some_inj]
    omega
  · rw [if_neg hvalue]
    split
    · rw [Option.some_inj]
      refine iff_of_false nofun ?_
      omega
    · simp

theorem toNat_digitChar_letter {k : Nat} (h : k < 6) :
    (k + 10).digitChar.toNat = 'a'.toNat + k ∧
      (k + 10).digitChar.toUpper.toNat = 'A'.toNat + k := by
  have hall : ∀ k < 6, (k + 10).digitChar.toNat = 'a'.toNat + k ∧
      (k + 10).digitChar.toUpper.toNat = 'A'.toNat + k := by decide
  exact hall k h

theorem eq_digitChar_of_digitValue? (h : digitValue? 16 c = some d) :
    c = d.digitChar ∨ c = d.digitChar.toUpper := by
  have hcode : ∀ b : Char, c.toNat = b.toNat ↔ c = b := fun b => Char.toNat_inj
  unfold digitValue? at h
  dsimp only at h
  split_ifs at h with hnine _ hlower _ hupper _ habsurd <;> obtain rfl := Option.some.inj h
  · have hrange : '0'.toNat ≤ c.toNat ∧ c.toNat ≤ '9'.toNat := hnine
    have hzero : '0'.toNat = 48 := rfl
    have hlast : '9'.toNat = 57 := rfl
    have hdigit := Nat.toNat_digitChar_of_lt_ten (n := c.toNat - '0'.toNat) (by omega)
    exact .inl ((hcode _).mp (by omega))
  · have hrange : 'a'.toNat ≤ c.toNat ∧ c.toNat ≤ 'f'.toNat := hlower
    have hlast : 'f'.toNat = 'a'.toNat + 5 := rfl
    have hdigit := (toNat_digitChar_letter (k := c.toNat - 'a'.toNat) (by omega)).1
    exact .inl ((hcode _).mp (by omega))
  · have hrange : 'A'.toNat ≤ c.toNat ∧ c.toNat ≤ 'F'.toNat := hupper
    have hlast : 'F'.toNat = 'A'.toNat + 5 := rfl
    have hdigit := (toNat_digitChar_letter (k := c.toNat - 'A'.toNat) (by omega)).2
    exact .inr ((hcode _).mp (by omega))
  · exact absurd habsurd (Nat.lt_irrefl 16)

theorem digitValue?_digitChar (h : d < 16) :
    digitValue? 16 d.digitChar = some d ∧ digitValue? 16 d.digitChar.toUpper = some d := by
  have hall : ∀ d < 16, digitValue? 16 d.digitChar = some d ∧
      digitValue? 16 d.digitChar.toUpper = some d := by decide
  exact hall d h

theorem digitValue?_eq_some_iff (hle : base ≤ 16) :
    digitValue? base c = some d ↔ IsDigit base c d := by
  rw [digitValue?_eq_some_iff_of_le hle, IsDigit, and_congr_right_iff]
  intro hd
  refine ⟨eq_digitChar_of_digitValue?, ?_⟩
  obtain ⟨hlower, hupper⟩ := digitValue?_digitChar (hd.trans_le hle)
  rintro (rfl | rfl)
  · exact hlower
  · exact hupper

namespace IsDigit

theorem ne {other : Char} (hle : base ≤ 16) (h : IsDigit base c d)
    (hother : digitValue? 16 other = none) : c ≠ other := by
  rintro rfl
  have hvalue := (digitValue?_eq_some_iff le_rfl).mpr ⟨h.1.trans_le hle, h.2⟩
  rw [hother] at hvalue
  cases hvalue

theorem toUpper (hle : base ≤ 16) (h : IsDigit base c d) : IsDigit base c.toUpper d := by
  have hall : ∀ d < 16, d.digitChar.toUpper.toUpper = d.digitChar.toUpper := by decide
  obtain ⟨hd, rfl | rfl⟩ := h
  · exact ⟨hd, .inr rfl⟩
  · exact ⟨hd, .inr (hall d (hd.trans_le hle))⟩

end IsDigit

namespace Denotes

theorem single (h : IsDigit base c d) : Denotes base [c] d :=
  ⟨nofun, [d], .cons h .nil, Nat.ofDigits_singleton.symm⟩

theorem concat (h : Denotes base text n) (hc : IsDigit base c d) :
    Denotes base (text ++ [c]) (base * n + d) := by
  obtain ⟨-, values, hvalues, rfl⟩ := h
  refine ⟨by simp, values ++ [d], List.rel_append hvalues (.cons hc .nil), ?_⟩
  rw [List.reverse_append, List.reverse_singleton, List.singleton_append, Nat.ofDigits_cons]
  exact Nat.add_comm _ d

theorem zero (h : Denotes base text n) (hbase : 0 < base) : Denotes base ('0' :: text) n := by
  obtain ⟨-, values, hvalues, rfl⟩ := h
  refine ⟨nofun, 0 :: values, .cons ⟨hbase, .inl rfl⟩ hvalues, ?_⟩
  rw [List.reverse_cons, Nat.ofDigits_append_zero]

/-- Zeros in front do not matter. -/
theorem zeros (h : Denotes base text n) (hbase : 0 < base) (k : Nat) :
    Denotes base (List.replicate k '0' ++ text) n := by
  induction k with
  | zero => exact h
  | succ k ih =>
    rw [List.replicate_succ, List.cons_append]
    exact ih.zero hbase

theorem toUpper (hle : base ≤ 16) (h : Denotes base text n) :
    Denotes base (text.map Char.toUpper) n := by
  obtain ⟨hne, values, hvalues, rfl⟩ := h
  refine ⟨by simpa using hne, values, ?_, rfl⟩
  rw [List.forall₂_map_left_iff]
  exact hvalues.imp fun _ _ => IsDigit.toUpper hle

theorem toDigits (hone : 1 < base) (n : Nat) : Denotes base (Nat.toDigits base n) n := by
  induction n using Nat.strongRecOn with
  | ind n ih =>
    by_cases hsmall : n < base
    · rw [Nat.toDigits_of_lt_base hsmall]
      exact single ⟨hsmall, .inl rfl⟩
    · have hle : base ≤ n := Nat.le_of_not_lt hsmall
      have hfewer : n / base < n := Nat.div_lt_self (by omega) hone
      have hlast : n % base < base := Nat.mod_lt n (by omega)
      have hconcat := (ih (n / base) hfewer).concat ⟨hlast, .inl rfl⟩
      rwa [← Nat.toDigits_of_base_le hone hle, Nat.div_add_mod] at hconcat

end Denotes

theorem ofDigits_reverse (base : Nat) (values : List Nat) :
    Nat.ofDigits base values.reverse = values.foldl (fun n d => n * base + d) 0 := by
  rw [Nat.ofDigits_eq_foldr, List.foldr_reverse]
  refine List.foldl_ext _ _ 0 ?_
  intro n d _
  rw [Nat.cast_id, Nat.mul_comm, Nat.add_comm]

theorem le_foldl_digits (hbase : 0 < base) (values : List Nat) (acc : Nat) :
    acc ≤ values.foldl (fun n d => n * base + d) acc := by
  induction values generalizing acc with
  | nil => exact Nat.le_refl acc
  | cons d values ih =>
    calc acc ≤ acc * base := Nat.le_mul_of_pos_right acc hbase
      _ ≤ acc * base + d := Nat.le_add_right _ d
      _ ≤ values.foldl (fun n d => n * base + d) (acc * base + d) := ih _

/-- The value only grows from digit to digit, so that some digit is refused exactly when the whole
is not below the limit. -/
theorem readDigits_of_forall₂ (hbase : 0 < base) (hle : base ≤ 16)
    (h : List.Forall₂ (IsDigit base) text values) (hacc : acc < limit) :
    readDigits base limit acc text =
      if values.foldl (fun n d => n * base + d) acc < limit then
        .ok (values.foldl (fun n d => n * base + d) acc)
      else .error .tooLarge := by
  induction h generalizing acc with
  | nil => rw [readDigits, List.foldl_nil, if_pos hacc]
  | @cons c d text values hc _ ih =>
    rw [readDigits, (digitValue?_eq_some_iff hle).mpr hc]
    dsimp only
    by_cases hlt : acc * base + d < limit
    · rw [if_pos hlt, ih hlt, List.foldl_cons]
    · -- what follows the digit that is refused would only add to the value
      have hgrows := le_foldl_digits hbase values (acc * base + d)
      rw [if_neg hlt, List.foldl_cons, if_neg (by omega)]

theorem readDigits_of_denotes (hbase : 0 < base) (hle : base ≤ 16) (hlimit : 0 < limit)
    (h : Denotes base text n) :
    readDigits base limit 0 text = if n < limit then .ok n else .error .tooLarge := by
  obtain ⟨-, values, hvalues, rfl⟩ := h
  rw [readDigits_of_forall₂ hbase hle hvalues hlimit, ofDigits_reverse]

theorem exists_forall₂_of_readDigits (hle : base ≤ 16)
    (h : readDigits base limit acc text = .ok n) :
    ∃ values, List.Forall₂ (IsDigit base) text values := by
  induction text generalizing acc with
  | nil => exact ⟨[], .nil⟩
  | cons c text ih =>
    rw [readDigits] at h
    cases hc : digitValue? base c with
    | none =>
      rw [hc] at h
      cases h
    | some d =>
      rw [hc] at h
      dsimp only at h
      split at h
      · obtain ⟨values, hvalues⟩ := ih h
        exact ⟨d :: values, .cons ((digitValue?_eq_some_iff hle).mp hc) hvalues⟩
      · cases h

theorem exists_denotes_of_readDigits (hle : base ≤ 16) (hne : text ≠ [])
    (h : readDigits base limit acc text = .ok n) : ∃ m, Denotes base text m := by
  obtain ⟨values, hvalues⟩ := exists_forall₂_of_readDigits hle h
  exact ⟨_, hne, values, hvalues, rfl⟩

theorem exists_denotesSigned_of_readNatural (hle : base ≤ 16)
    (h : readNatural base limit text = .ok n) : ∃ m, DenotesSigned base text m := by
  unfold readNatural at h
  split at h
  · cases h
  · cases h
  · next digits hne =>
    obtain ⟨m, hm⟩ := exists_denotes_of_readDigits hle (by simpa using hne) h
    exact ⟨m, .plus hm⟩
  · next hne _ _ =>
    obtain ⟨m, hm⟩ := exists_denotes_of_readDigits hle hne h
    exact ⟨m, .plain hm⟩

theorem readNatural_cons (h : c ≠ '+') (base limit : Nat) (rest : List Char) :
    readNatural base limit (c :: rest) = readDigits base limit 0 (c :: rest) := by
  rw [readNatural.eq_def]
  split
  · next htext => cases htext
  · next htext => exact absurd (List.cons_eq_cons.mp htext).1 h
  · next htext => exact absurd (List.cons_eq_cons.mp htext).1 h
  · rfl

theorem readNatural_plus (h : digits ≠ []) (base limit : Nat) :
    readNatural base limit ('+' :: digits) = readDigits base limit 0 digits := by
  cases digits with
  | nil => exact absurd rfl h
  | cons c rest => rfl

/-- The sign is no digit, so that digits without it are not taken for digits behind it. -/
theorem readNatural_of_denotesSigned (hbase : 0 < base) (hle : base ≤ 16) (hlimit : 0 < limit)
    (h : DenotesSigned base text n) :
    readNatural base limit text = if n < limit then .ok n else .error .tooLarge := by
  cases h with
  | plain h =>
    rw [← readDigits_of_denotes hbase hle hlimit h]
    obtain ⟨hne, values, hvalues, -⟩ := h
    cases hvalues with
    | nil => exact absurd rfl hne
    | @cons c d rest _ hc _ =>
      have hsign : c ≠ '+' := hc.ne hle (by decide)
      exact readNatural_cons hsign base limit rest
  | plus h => rw [readNatural_plus h.1, readDigits_of_denotes hbase hle hlimit h]

theorem readWord_of_denotesSigned (hbase : 0 < base) (hle : base ≤ 16)
    (h : DenotesSigned base text n) :
    readWord base text = if n < 2 ^ 64 then .ok (UInt64.ofNat n) else .error .tooLarge := by
  have hsize : UInt64.size = 2 ^ 64 := rfl
  rw [readWord, readNatural_of_denotesSigned hbase hle (by decide) h, hsize]
  split <;> rfl

theorem exists_denotesSigned_of_readWord {w : UInt64} (hle : base ≤ 16)
    (h : readWord base text = .ok w) : ∃ n, DenotesSigned base text n := by
  rw [readWord] at h
  cases hread : readNatural base UInt64.size text with
  | error e =>
    rw [hread] at h
    cases h
  | ok n => exact exists_denotesSigned_of_readNatural hle hread

end AccessBench.Decimal
