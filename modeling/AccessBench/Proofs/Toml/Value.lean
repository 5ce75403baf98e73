import AccessBench.Proofs.Toml.Number
import AccessBench.Proofs.Toml.Quoted
import AccessBench.Toml.Reader
import Mathlib.Data.List.Forall2

/-!
Texts that are read as values: numbers, quoted texts, and arrays of such.
-/

namespace AccessBench.Toml

open Decimal (exists_toDigits_eq_cons isDigit_of_mem_toDigits ne_of_apply)

/-- Characters that are no blank, comment or line end, and close no array. -/
def startsValue (c : Char) : Bool := !isBlank c && c ≠ '#' && c ≠ '\n' && c ≠ '\r' && c ≠ ']'

/-- The text is read as the value wherever it stands, if as many levels of nesting are left. -/
structure Spells (levels : Nat) (text : List Char) (value : Value) : Prop where
  starts : ∃ c cs, text = c :: cs ∧ startsValue c = true
  reads : ∀ {fuel depth rest}, text.length ≤ fuel → levels ≤ depth → AfterValue rest →
    readValue (fuel + 1) depth (text ++ rest) = some (value, rest)

variable {c : Char} {rest : List Char}

theorem startsValue_of_isDigit (h : c.isDigit = true) : startsValue c = true := by
  have hne : ∀ d : Char, d.isDigit = false → c ≠ d := fun _ hd => ne_of_apply h hd
  simp [startsValue, isBlank, hne]

theorem readValue_of_isDigit (h : c.isDigit = true) (fuel depth : Nat) (cs : List Char)
    (hmoment : skipMoment (c :: cs) = none) :
    readValue (fuel + 1) depth (c :: cs) = readNumber (c :: cs) := by
  have hne : ∀ d : Char, d.isDigit = false → c ≠ d := fun _ hd => ne_of_apply h hd
  simp [readValue, hne, hmoment]

theorem spells_toDigits {n : Nat} (h : n < 2 ^ 63) :
    Spells 0 (Nat.toDigits 10 n) (.integer n) := by
  have hall := isDigit_of_mem_toDigits n
  obtain ⟨c, digits, hdigits, -⟩ := exists_toDigits_eq_cons n
  have hc : c.isDigit = true := by
    rw [hdigits, List.forall_mem_cons] at hall
    exact hall.1
  constructor
  · exact ⟨c, digits, hdigits, startsValue_of_isDigit hc⟩
  · intro fuel depth rest _ _ hrest
    have hmoment := skipMoment_digits hall hrest
    have hnumber := readNumber_toDigits h hrest
    rw [hdigits, List.cons_append] at hmoment hnumber ⊢
    rw [readValue_of_isDigit hc fuel depth _ hmoment, hnumber]

theorem quote_starts (cs : List Char) :
    ∃ tail, Toml.quote cs = '"' :: tail ∨ Toml.quote cs = '\'' :: tail := by
  unfold Toml.quote
  cases quotingOf cs with
  | basic => exact ⟨_, .inl rfl⟩
  | literal => exact ⟨_, .inr rfl⟩
  | basicLines => exact ⟨_, .inl rfl⟩
  | literalLines => exact ⟨_, .inr rfl⟩

theorem spells_quote (cs : List Char) :
    Spells 0 (Toml.quote cs) (.string (String.ofList cs)) := by
  obtain ⟨tail, hstarts⟩ := quote_starts cs
  constructor
  · rcases hstarts with hstarts | hstarts
    · exact ⟨_, tail, hstarts, by decide⟩
    · exact ⟨_, tail, hstarts, by decide⟩
  · intro fuel depth rest _ _ hrest
    have hread : readQuoted (Toml.quote cs ++ rest) = some (String.ofList cs, rest) := by
      apply readQuoted_quote
      · cases hrest <;> simp
      · cases hrest <;> simp
    rcases hstarts with hstarts | hstarts <;>
    · rw [hstarts, List.cons_append] at hread ⊢
      rw [readValue, hread]
      rfl

/-! ### Arrays -/

theorem skipGaps_of_startsValue (h : startsValue c = true) (fuel : Nat) (cs : List Char) :
    skipGaps (fuel + 1) (c :: cs) = some (c :: cs) := by
  simp only [startsValue, Bool.and_eq_true, Bool.not_eq_true', decide_eq_true_eq] at h
  obtain ⟨⟨⟨⟨hblank, hcomment⟩, hline⟩, hreturn⟩, -⟩ := h
  have hblanks : skipBlanks (c :: cs) = c :: cs := by simp [skipBlanks, hblank]
  have hnewline := skipNewline?_of_ne hline hreturn cs
  simp [skipGaps, hblanks, hcomment, hnewline]

theorem readItems_blank (fuel depth : Nat) (cs : List Char) :
    readItems fuel depth (' ' :: cs) = readItems fuel depth cs := by
  have hgaps : ∀ fuel, skipGaps fuel (' ' :: cs) = skipGaps fuel cs := by
    intro fuel
    cases fuel <;> rfl
  cases fuel with
  | zero => rw [readItems, readItems]
  | succ fuel => rw [readItems, readItems, hgaps]

section

variable {levels depth fuel : Nat} {text : List Char} {value : Value}

theorem Spells.exists_cons (h : Spells levels text value) :
    ∃ c cs, text = c :: cs ∧ c ≠ ']' ∧
      ∀ fuel rest, skipGaps (fuel + 1) (c :: rest) = some (c :: rest) := by
  obtain ⟨c, cs, htext, hstarts⟩ := h.starts
  refine ⟨c, cs, htext, ?_, skipGaps_of_startsValue hstarts⟩
  rintro rfl
  cases hstarts

theorem readItems_last (h : Spells levels text value) (hfuel : text.length ≤ fuel)
    (hdepth : levels ≤ depth) (rest : List Char) :
    readItems (fuel + 2) depth (text ++ ']' :: rest) = some ([value], rest) := by
  have hread := h.reads hfuel hdepth (.bracket rest)
  obtain ⟨c, cs, rfl, hne, hgaps⟩ := h.exists_cons
  have hend : skipGaps (fuel + 1) (']' :: rest) = some (']' :: rest) := rfl
  rw [List.cons_append] at hread ⊢
  simp [readItems, hgaps, hne, hread, hend]

theorem readItems_more (h : Spells levels text value) (hfuel : text.length ≤ fuel)
    (hdepth : levels ≤ depth) {values : List Value} {tail : List Char}
    (hmore : readItems (fuel + 1) depth rest = some (values, tail)) :
    readItems (fuel + 2) depth (text ++ ',' :: rest) = some (value :: values, tail) := by
  have hread := h.reads hfuel hdepth (.comma rest)
  obtain ⟨c, cs, rfl, hne, hgaps⟩ := h.exists_cons
  have hend : skipGaps (fuel + 1) (',' :: rest) = some (',' :: rest) := rfl
  rw [List.cons_append] at hread ⊢
  rw [readItems]
  simp [hgaps, hne, hread, hend, hmore]

end

theorem readItems_of_spells {levels depth : Nat} {texts : List (List Char)} {values : List Value}
    (h : List.Forall₂ (Spells levels) texts values) (hdepth : levels ≤ depth) (fuel : Nat)
    (hfuel : ([',', ' '].intercalate texts).length + 2 ≤ fuel) (rest : List Char) :
    readItems fuel depth ([',', ' '].intercalate texts ++ ']' :: rest) = some (values, rest) := by
  induction h generalizing fuel with
  | nil =>
    obtain ⟨fuel, rfl⟩ := Nat.exists_eq_add_of_le' (by omega : 2 ≤ fuel)
    rfl
  | @cons text value texts values hitem hitems ih =>
    obtain ⟨fuel, rfl⟩ := Nat.exists_eq_add_of_le' (by omega : 2 ≤ fuel)
    cases hitems with
    | nil =>
      rw [List.intercalate_singleton] at hfuel ⊢
      exact readItems_last hitem (by omega) hdepth rest
    | @cons next nextValue texts values hnext hitems =>
      rw [List.intercalate_cons_cons] at hfuel ⊢
      simp only [List.length_append, List.length_cons, List.length_nil] at hfuel
      have hinner := ih (fuel + 1) (by omega)
      -- the comma is followed by a blank, which is a gap before the next item
      rw [← readItems_blank] at hinner
      have hmore := readItems_more hitem (by omega) hdepth hinner
      simpa using hmore

/-- Arrays of values have one level more than their items. -/
theorem spells_array {levels : Nat} {texts : List (List Char)} {values : List Value}
    (h : List.Forall₂ (Spells levels) texts values) :
    Spells (levels + 1) ('[' :: ([',', ' '].intercalate texts ++ [']'])) (.array values) := by
  constructor
  · exact ⟨_, _, rfl, by decide⟩
  · intro fuel depth rest hfuel hdepth _
    obtain ⟨depth, rfl⟩ := Nat.exists_eq_add_of_le' hdepth
    simp only [List.length_cons, List.length_append, List.length_nil] at hfuel
    have hread := readItems_of_spells h (by omega : levels ≤ depth + levels) fuel (by omega) rest
    simp [readValue, hread]

end AccessBench.Toml
