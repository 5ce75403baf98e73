import AccessBench.Json
import AccessBench.Json.Number
import AccessBench.Proofs.Decimal.Notation
import Mathlib.Data.List.TakeDrop

/-!
Well-formed numbers are read back from their text, in front of anything that does not go on with a
number.
-/

namespace AccessBench.Json

open Decimal (AllDigits Leading Numeral)

/-- Whether a number that has been begun before the text ends there. -/
def EndsNumber (rest : List Char) : Prop :=
  ∀ c ∈ rest.head?, c.isDigit = false ∧ c ≠ '.' ∧ c ≠ 'e' ∧ c ≠ 'E'

theorem endsNumber_nil : EndsNumber [] := by simp [EndsNumber]

variable {digits rest : List Char}

theorem spanDigits_append (hdigits : AllDigits digits)
    (hrest : ∀ c ∈ rest.head?, c.isDigit = false) : spanDigits (digits ++ rest) = (digits, rest) := by
  have hend : rest.takeWhile Char.isDigit = [] ∧ rest.dropWhile Char.isDigit = rest := by
    cases rest with
    | nil => exact ⟨rfl, rfl⟩
    | cons c cs => simp [hrest c rfl]
  rw [spanDigits, List.span_eq_takeWhile_dropWhile, List.takeWhile_append_of_pos hdigits,
    List.dropWhile_append_of_pos hdigits, hend.1, hend.2, List.append_nil]

theorem readWhole_append {whole : List Char} (h : whole = ['0'] ∨ Leading whole)
    (hrest : ∀ c ∈ rest.head?, c.isDigit = false) :
    readWhole (whole ++ rest) = some (whole, rest) := by
  obtain rfl | hleading := h
  · have hspan : spanDigits (['0'] ++ rest) = (['0'], rest) := spanDigits_append (.zeros 1) hrest
    rw [readWhole, hspan]
    rfl
  · have hspan := spanDigits_append hleading.digits hrest
    obtain ⟨c, cs, rfl, hc⟩ := hleading.first
    rw [readWhole, hspan]
    split
    · next heq => simp at heq
    · next heq => simp [hc] at heq
    · rfl

theorem readFraction_append {fraction : List Char} (h : AllDigits fraction)
    (hrest : ∀ c ∈ rest.head?, c.isDigit = false ∧ c ≠ '.') :
    readFraction (Numeral.fractionText fraction ++ rest) = some (fraction, rest) := by
  cases fraction with
  | nil =>
    cases rest with
    | nil => rfl
    | cons c cs => simp [Numeral.fractionText, readFraction, (hrest c rfl).2]
  | cons d ds =>
    have hspan := spanDigits_append h fun c hc => (hrest c hc).1
    rw [List.cons_append] at hspan
    simp [Numeral.fractionText, readFraction, hspan]

theorem readExponent_append {exponent : Option (Bool × List Char)}
    (h : ∀ e ∈ exponent, e.2 ≠ [] ∧ AllDigits e.2) (hrest : EndsNumber rest) :
    readExponent (Numeral.exponentText exponent ++ rest) = some (exponent, rest) := by
  cases exponent with
  | none =>
    cases rest with
    | nil => rfl
    | cons c cs => simp [Numeral.exponentText, readExponent, (hrest c rfl).2.2]
  | some e =>
    obtain ⟨negative, ds⟩ := e
    obtain ⟨hne, hdigits⟩ := h _ rfl
    have hspan := spanDigits_append hdigits fun c hc => (hrest c hc).1
    have hsign : readSign ((if negative then '-' else '+') :: ds ++ rest) = (negative, ds ++ rest) := by
      cases negative <;> rfl
    rw [Numeral.exponentText, List.cons_append, readExponent, if_pos (.inl rfl), hsign]
    dsimp only
    rw [hspan]
    split
    · next heq => exact absurd (Prod.mk.inj heq).1 hne
    · next heq =>
      obtain ⟨rfl, rfl⟩ := Prod.mk.inj heq
      rfl

theorem head_exponentText_append (exponent : Option (Bool × List Char)) (hrest : EndsNumber rest) :
    ∀ c ∈ (Numeral.exponentText exponent ++ rest).head?, c.isDigit = false ∧ c ≠ '.' := by
  intro c hc
  cases exponent with
  | none => exact ⟨(hrest c hc).1, (hrest c hc).2.1⟩
  | some e =>
    obtain rfl := Option.some.inj hc
    decide

theorem head_fractionText_append (fraction : List Char)
    (hrest : ∀ c ∈ rest.head?, c.isDigit = false ∧ c ≠ '.') :
    ∀ c ∈ (Numeral.fractionText fraction ++ rest).head?, c.isDigit = false := by
  intro c hc
  cases fraction with
  | nil => exact (hrest c hc).1
  | cons d ds =>
    obtain rfl := Option.some.inj hc
    decide

theorem readUnsigned_append {n : Numeral} (h : n.WellFormed) (hrest : EndsNumber rest) :
    readUnsigned n.negative
      (n.whole ++ (Numeral.fractionText n.fraction ++ (Numeral.exponentText n.exponent ++ rest))) =
      some (n, rest) := by
  have hexponent := head_exponentText_append n.exponent hrest
  have hfraction := head_fractionText_append n.fraction hexponent
  simp [readUnsigned, readWhole_append h.whole hfraction, readFraction_append h.fraction hexponent,
    readExponent_append h.exponent hrest]

/-- A number is read from its text up to where it ends. -/
theorem readNumber_text_append {n : Numeral} (h : n.WellFormed) (hrest : EndsNumber rest) :
    readNumber (n.text ++ rest) = some (n, rest) := by
  have hread := readUnsigned_append h hrest
  cases hsign : n.negative with
  | true =>
    rw [hsign] at hread
    simpa [Numeral.text, hsign, readNumber] using hread
  | false =>
    rw [hsign] at hread
    obtain ⟨c, cs, hwhole, hdigit⟩ := h.exists_whole_eq_cons
    have hminus : c ≠ '-' := Decimal.ne_of_apply hdigit rfl
    simp only [Numeral.text, hsign, hwhole] at hread ⊢
    simpa [readNumber, hminus] using hread

theorem word?_nat {n : Nat} (h : n < UInt64.size) : word? (.nat n) = some (UInt64.ofNat n) := by
  have hvalue : Nat.ofDigitChars 10 (Nat.toDigits 10 n) 0 = n := Nat.ofDigitChars_ten_toDigits
  simp [word?, nat, Numeral.ofNat, Numeral.natural?, Numeral.isInteger, hvalue, h]

theorem word?_toNat (n : UInt64) : word? (.nat n.toNat) = some n := by
  rw [word?_nat n.toNat_lt, UInt64.ofNat_toNat]

end AccessBench.Json
