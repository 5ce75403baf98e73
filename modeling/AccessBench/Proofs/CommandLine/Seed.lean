import AccessBench.CommandLine
import AccessBench.Proofs.Decimal.Natural

/-!
The texts of seeds. A seed is accepted exactly when its text denotes a word, in base ten or behind a
mark in base sixteen.
-/

namespace AccessBench

open Decimal

/-- The text denotes the number as a seed: digits of base ten, or of base sixteen behind `0x` or
`0X`, with at most one plus sign directly before the digits. -/
inductive DenotesSeed : List Char → Nat → Prop
  | decimal {text : List Char} {n : Nat} (h : DenotesSigned 10 text n) : DenotesSeed text n
  | lower {text : List Char} {n : Nat} (h : DenotesSigned 16 text n) :
      DenotesSeed ('0' :: 'x' :: text) n
  | upper {text : List Char} {n : Nat} (h : DenotesSigned 16 text n) :
      DenotesSeed ('0' :: 'X' :: text) n

variable {text : List Char} {n : Nat} {seed : UInt64}

/-- A mark is no digit, so that what stands behind one is not read in base ten. -/
theorem not_denotesSigned_marked {mark : Char} (hmark : digitValue? 16 mark = none) :
    ¬ DenotesSigned 10 ('0' :: mark :: text) n := by
  rintro ⟨-, values, hvalues, -⟩
  obtain ⟨_, _, -, hrest, -⟩ := List.forall₂_cons_left_iff.mp hvalues
  obtain ⟨_, _, hsecond, -, -⟩ := List.forall₂_cons_left_iff.mp hrest
  exact hsecond.ne (by decide) hmark rfl

theorem readSeed_of_decimal (h : DenotesSigned 10 text n) : readSeed text = readWord 10 text := by
  rw [readSeed.eq_def]
  split
  · exact absurd h (not_denotesSigned_marked (by decide))
  · exact absurd h (not_denotesSigned_marked (by decide))
  · rfl

theorem readSeed_of_denotes (h : DenotesSeed text n) :
    readSeed text = if n < 2 ^ 64 then .ok (UInt64.ofNat n) else .error .tooLarge := by
  cases h with
  | decimal h =>
    rw [readSeed_of_decimal h]
    exact readWord_of_denotesSigned (by decide) (by decide) h
  | lower h | upper h => exact readWord_of_denotesSigned (by decide) (by decide) h

theorem exists_denotes_of_readSeed (h : readSeed text = .ok seed) : ∃ n, DenotesSeed text n := by
  unfold readSeed at h
  split at h
  · obtain ⟨n, hn⟩ := exists_denotesSigned_of_readWord (by decide) h
    exact ⟨n, .lower hn⟩
  · obtain ⟨n, hn⟩ := exists_denotesSigned_of_readWord (by decide) h
    exact ⟨n, .upper hn⟩
  · obtain ⟨n, hn⟩ := exists_denotesSigned_of_readWord (by decide) h
    exact ⟨n, .decimal hn⟩

theorem readSeed_eq_ok_iff : readSeed text = .ok seed ↔ DenotesSeed text seed.toNat := by
  constructor
  · intro h
    obtain ⟨n, hn⟩ := exists_denotes_of_readSeed h
    have hread := readSeed_of_denotes hn
    rw [h] at hread
    split at hread
    · next hlt =>
      obtain rfl := Except.ok.inj hread
      rwa [UInt64.toNat_ofNat_of_lt' hlt]
    · cases hread
  · intro h
    rw [readSeed_of_denotes h, if_pos seed.toNat_lt, UInt64.ofNat_toNat]

theorem parseSeed_eq_ok_iff {text : String} :
    parseSeed text = .ok seed ↔ DenotesSeed text.toList seed.toNat := by
  rw [← readSeed_eq_ok_iff, parseSeed]
  cases readSeed text.toList with
  | error e => exact iff_of_false nofun nofun
  | ok found =>
    dsimp only
    rw [Except.ok.injEq, Except.ok.injEq]

theorem parseSeed_of_le {text : String} (h : DenotesSeed text.toList n) (hlarge : 2 ^ 64 ≤ n) :
    parseSeed text = .error ("invalid seed '" ++ text ++ "': " ++ DigitError.tooLarge.message) := by
  rw [parseSeed, readSeed_of_denotes h, if_neg (Nat.not_lt_of_le hlarge)]

theorem denotesSeed_toString (zeros : Nat) (seed : UInt64) :
    DenotesSeed (String.ofList (List.replicate zeros '0') ++ toString seed).toList seed.toNat := by
  have htext : toString seed = toString seed.toNat := rfl
  rw [htext, String.toList_append, String.toList_ofList, Nat.toString_eq_ofList_toDigits,
    String.toList_ofList]
  exact .decimal (.plain ((Denotes.toDigits (by decide) _).zeros (by decide) zeros))

theorem denotesSeed_marked {mark : String} (hmark : mark ∈ ["0x", "0X"])
    (h : DenotesSigned 16 text n) : DenotesSeed (mark ++ String.ofList text).toList n := by
  rw [String.toList_append, String.toList_ofList]
  simp only [List.mem_cons, List.not_mem_nil, or_false] at hmark
  obtain rfl | rfl := hmark
  · exact .lower h
  · exact .upper h

/-- A seed is accepted exactly when its text denotes it, and a text that denotes no word is refused
for that. So every word is read back from its digits in base ten, and from its digits in base
sixteen behind either mark and in either case, with any number of zeros in front. -/
theorem parseSeed_accepts :
    (∀ text seed, parseSeed text = .ok seed ↔ DenotesSeed text.toList seed.toNat) ∧
    (∀ text n, DenotesSeed text.toList n → 2 ^ 64 ≤ n →
      parseSeed text =
        .error ("invalid seed '" ++ text ++ "': " ++ DigitError.tooLarge.message)) ∧
    (∀ zeros seed,
      parseSeed (String.ofList (List.replicate zeros '0') ++ toString seed) = .ok seed) ∧
    ∀ mark ∈ ["0x", "0X"], ∀ (zeros : Nat) (seed : UInt64),
      let digits := List.replicate zeros '0' ++ Nat.toDigits 16 seed.toNat
      parseSeed (mark ++ String.ofList digits) = .ok seed ∧
        parseSeed (mark ++ String.ofList (digits.map Char.toUpper)) = .ok seed := by
  refine ⟨fun _ _ => parseSeed_eq_ok_iff, fun _ _ => parseSeed_of_le, ?_, ?_⟩
  · intro zeros seed
    exact parseSeed_eq_ok_iff.mpr (denotesSeed_toString zeros seed)
  · intro mark hmark zeros seed digits
    have hdigits : Denotes 16 digits seed.toNat :=
      (Denotes.toDigits (by decide) seed.toNat).zeros (by decide) zeros
    have hupper := hdigits.toUpper (by decide)
    exact ⟨parseSeed_eq_ok_iff.mpr (denotesSeed_marked hmark (.plain hdigits)),
      parseSeed_eq_ok_iff.mpr (denotesSeed_marked hmark (.plain hupper))⟩

/-- The largest word, behind a mark, a sign and zeros, and the number after it. -/
theorem parseSeed_accepts_largest :
    parseSeed "0X+00FFFFFFFFFFFFFFFF" = .ok 0xFFFFFFFFFFFFFFFF ∧
      parseSeed "18446744073709551616" =
        .error "invalid seed '18446744073709551616': number too large to fit in target type" := by
  obtain ⟨haccepted, hlarge, -⟩ := parseSeed_accepts
  have hdigits : Denotes 16 "ffffffffffffffff".toList (2 ^ 64 - 1) :=
    Denotes.toDigits (by decide) (2 ^ 64 - 1)
  have hlargest : Denotes 16 "00FFFFFFFFFFFFFFFF".toList (2 ^ 64 - 1) :=
    (hdigits.toUpper (by decide)).zeros (by decide) 2
  have hnext : Denotes 10 "18446744073709551616".toList (2 ^ 64) :=
    Denotes.toDigits (by decide) (2 ^ 64)
  exact ⟨(haccepted _ _).mpr (.upper (.plus hlargest)),
    hlarge _ _ (.decimal (.plain hnext)) le_rfl⟩

end AccessBench
