import AccessBench.Proofs.Decimal.Digits
import AccessBench.Toml.Moment
import AccessBench.Toml.Number

/-!
The decimal digits of a number are read back as the number, and are not taken for a date or a time.
-/

namespace AccessBench.Toml

open Decimal (exists_toDigits_eq_cons isDigit_of_mem_toDigits ne_of_apply)

/-- What follows a value: the next item, the end of the array or the end of the line. -/
inductive AfterValue : List Char → Prop
  | comma (rest : List Char) : AfterValue (',' :: rest)
  | bracket (rest : List Char) : AfterValue (']' :: rest)
  | newline (rest : List Char) : AfterValue ('\n' :: rest)

variable {digits rest : List Char} {c : Char}

theorem digitValue?_of_isDigit (h : c.isDigit = true) :
    Decimal.digitValue? 10 c = some (c.toNat - '0'.toNat) := by
  have hrange := Char.isDigit_iff_toNat.mp h
  have hsmall : c.toNat - '0'.toNat < 10 := by
    have hnine : '9'.toNat = '0'.toNat + 9 := rfl
    omega
  have hdecimal : '0' ≤ c ∧ c ≤ '9' := hrange
  unfold Decimal.digitValue?
  dsimp only
  rw [if_pos hdecimal, if_pos hsmall]

theorem digitsValue_eq_ofDigitChars (h : ∀ c ∈ digits, c.isDigit = true) :
    digitsValue 10 digits = Nat.ofDigitChars 10 digits 0 := by
  refine List.foldl_ext _ _ 0 ?_
  intro value c hc
  rw [digitValue?_of_isDigit (h c hc), Option.getD_some, Nat.mul_comm]

theorem digitsValue_toDigits (n : Nat) : digitsValue 10 (Nat.toDigits 10 n) = n := by
  rw [digitsValue_eq_ofDigitChars (isDigit_of_mem_toDigits n)]
  exact Nat.ofDigitChars_ten_toDigits

theorem readMoreDigits_cons (isDigit : Char → Bool) (h : c ≠ '_') (cs : List Char) :
    readMoreDigits isDigit (c :: cs) =
      if isDigit c then (readMoreDigits isDigit cs).map fun read => (c :: read.1, read.2)
      else some ([], c :: cs) := by
  rw [readMoreDigits.eq_def]
  split
  · next hcs => exact absurd (List.cons_eq_cons.mp hcs).1 h
  · next hcs => exact absurd (List.cons_eq_cons.mp hcs).1 h
  · next hcs =>
    obtain ⟨rfl, rfl⟩ := List.cons_eq_cons.mp hcs
    rfl
  · next hcs => cases hcs

theorem readMoreDigits_digits (h : ∀ c ∈ digits, c.isDigit = true) (hrest : AfterValue rest) :
    readMoreDigits Char.isDigit (digits ++ rest) = some (digits, rest) := by
  induction digits with
  | nil => cases hrest <;> rw [List.nil_append, readMoreDigits_cons _ (by decide)] <;> rfl
  | cons c digits ih =>
    rw [List.forall_mem_cons] at h
    rw [List.cons_append, readMoreDigits_cons _ (ne_of_apply h.1 rfl), if_pos h.1, ih h.2]
    rfl

theorem readWhole_toDigits (n : Nat) (hrest : AfterValue rest) :
    readWhole (Nat.toDigits 10 n ++ rest) = some (Nat.toDigits 10 n, rest) := by
  have hall := isDigit_of_mem_toDigits n
  obtain ⟨c, digits, hdigits, hzero⟩ := exists_toDigits_eq_cons n
  by_cases hc : c = '0'
  · rw [hzero hc]
    rfl
  · rw [hdigits, List.forall_mem_cons] at hall
    have hmore := readMoreDigits_digits hall.2 hrest
    simp [hdigits, readWhole, hc, readDigits, hall.1, hmore]

theorem readSign_toDigits (n : Nat) (rest : List Char) :
    readSign (Nat.toDigits 10 n ++ rest) = (false, Nat.toDigits 10 n ++ rest) := by
  have hall := isDigit_of_mem_toDigits n
  obtain ⟨c, digits, hdigits, -⟩ := exists_toDigits_eq_cons n
  rw [hdigits, List.forall_mem_cons] at hall
  have hminus : c ≠ '-' := ne_of_apply hall.1 rfl
  have hplus : c ≠ '+' := ne_of_apply hall.1 rfl
  simp [hdigits, readSign, hminus, hplus]

theorem integer?_of_lt {n : Nat} (h : n < 2 ^ 63) : integer? n = some (.integer n) := by
  have hmin : Int64.minValue.toInt = -2 ^ 63 := by decide
  have hmax : Int64.maxValue.toInt = 2 ^ 63 - 1 := by decide
  rw [integer?, if_pos]
  rw [hmin, hmax]
  omega

theorem readDecimal_toDigits {n : Nat} (h : n < 2 ^ 63) (hrest : AfterValue rest) :
    readDecimal (Nat.toDigits 10 n ++ rest) = some (.integer n, rest) := by
  have hfraction : readFraction rest = some ([], rest) := by cases hrest <;> rfl
  have hexponent : readExponent rest = some (none, rest) := by cases hrest <;> rfl
  have hvalue := digitsValue_toDigits n
  simp [readDecimal, readSign_toDigits, readWhole_toDigits n hrest, hfraction, hexponent, hvalue,
    integer?_of_lt h]

/-- No letter that marks another base stands after a zero in front. -/
theorem toDigits_append_ne (n : Nat) (hrest : AfterValue rest) (hc : c.isAlpha = true)
    (tail : List Char) : Nat.toDigits 10 n ++ rest ≠ '0' :: c :: tail := by
  intro heq
  obtain ⟨d, digits, hdigits, hzero⟩ := exists_toDigits_eq_cons n
  rw [hdigits] at heq
  have hn := hzero (List.cons_eq_cons.mp heq).1
  subst hn
  obtain rfl : digits = [] := (List.cons_eq_cons.mp hdigits).2.symm
  obtain rfl : rest = c :: tail := (List.cons_eq_cons.mp heq).2
  cases hrest <;> cases hc

theorem readNumber_toDigits {n : Nat} (h : n < 2 ^ 63) (hrest : AfterValue rest) :
    readNumber (Nat.toDigits 10 n ++ rest) = some (.integer n, rest) := by
  have hletter : ∀ c tail, c.isDigit = false → Nat.toDigits 10 n ++ rest ≠ c :: tail := by
    intro c tail hc heq
    have hall := isDigit_of_mem_toDigits n
    obtain ⟨d, digits, hdigits, -⟩ := exists_toDigits_eq_cons n
    rw [hdigits] at heq hall
    rw [(List.cons_eq_cons.mp heq).1, List.forall_mem_cons] at hall
    rw [hall.1] at hc
    cases hc
  unfold readNumber
  -- digits are neither a mark of another base nor one of the words for numbers
  split
  · next heq => exact absurd heq (toDigits_append_ne n hrest rfl _)
  · next heq => exact absurd heq (toDigits_append_ne n hrest rfl _)
  · next heq => exact absurd heq (toDigits_append_ne n hrest rfl _)
  · rw [readSign_toDigits]
    split
    · next heq => exact absurd heq (hletter _ _ rfl)
    · next heq => exact absurd heq (hletter _ _ rfl)
    · exact readDecimal_toDigits h hrest

/-! ### Dates and times -/

theorem readFixed_digits (hdigits : ∀ c ∈ digits, c.isDigit = true) (hrest : AfterValue rest)
    {n value : Nat} {read : Nat × List Char}
    (h : readFixed n value (digits ++ rest) = some read) :
    ∃ more, (∀ c ∈ more, c.isDigit = true) ∧ read.2 = more ++ rest := by
  induction digits generalizing n value with
  | nil =>
    cases n with
    | zero =>
      cases h
      exact ⟨[], hdigits, rfl⟩
    | succ n => cases hrest <;> cases h
  | cons c digits ih =>
    cases n with
    | zero =>
      cases h
      exact ⟨c :: digits, hdigits, rfl⟩
    | succ n =>
      rw [List.forall_mem_cons] at hdigits
      rw [List.cons_append, readFixed, if_pos hdigits.1] at h
      exact ih hdigits.2 h

theorem skipChar_digits (hc : c = '-' ∨ c = ':') (hdigits : ∀ c ∈ digits, c.isDigit = true)
    (hrest : AfterValue rest) : skipChar c (digits ++ rest) = none := by
  cases digits with
  | nil => rcases hc with rfl | rfl <;> cases hrest <;> rfl
  | cons d digits =>
    rw [List.forall_mem_cons] at hdigits
    have hne : d ≠ c := by
      rcases hc with rfl | rfl <;> exact ne_of_apply hdigits.1 rfl
    rw [List.cons_append, skipChar, if_neg hne]

theorem skipMoment_digits (hdigits : ∀ c ∈ digits, c.isDigit = true) (hrest : AfterValue rest) :
    skipMoment (digits ++ rest) = none := by
  have hdate : skipDate (digits ++ rest) = none := by
    cases hyear : readFixed 4 0 (digits ++ rest) with
    | none => simp [skipDate, hyear]
    | some read =>
      obtain ⟨more, hmore, hleft⟩ := readFixed_digits hdigits hrest hyear
      have hstop := skipChar_digits (.inl rfl) hmore hrest
      simp [skipDate, hyear, hleft, hstop]
  have htime : skipTime (digits ++ rest) = none := by
    cases hhour : readFixed 2 0 (digits ++ rest) with
    | none => simp [skipTime, readTwo, hhour]
    | some read =>
      obtain ⟨more, hmore, hleft⟩ := readFixed_digits hdigits hrest hhour
      have hstop := skipChar_digits (.inr rfl) hmore hrest
      by_cases hrange : read.1 ≤ 23
      · simp [skipTime, readTwo, hhour, hrange, hleft, hstop]
      · simp [skipTime, readTwo, hhour, hrange]
  rw [skipMoment, hdate]
  exact htime

end AccessBench.Toml
