import AccessBench.Decimal.Notation
import AccessBench.Proofs.Decimal.Shortest

/-!
What is written for a natural number or for a finite floating-point number is a number as documents
have them: digits without zeros in front, and digits wherever a point or a mark asks for them.
-/

namespace AccessBench.Decimal

/-- Whether all characters are digits. -/
def AllDigits (cs : List Char) : Prop := ∀ c ∈ cs, c.isDigit = true

/-- Digits with no zero in front. -/
structure Leading (cs : List Char) : Prop where
  digits : AllDigits cs
  first : ∃ c rest, cs = c :: rest ∧ c ≠ '0'

theorem leading_toDigits {n : Nat} (h : n ≠ 0) : Leading (Nat.toDigits 10 n) where
  digits := isDigit_of_mem_toDigits n
  first := by
    obtain ⟨c, rest, hdigits, hzero⟩ := exists_toDigits_eq_cons n
    exact ⟨c, rest, hdigits, fun hc => h (hzero hc)⟩

namespace AllDigits

variable {cs ds : List Char}

theorem append (hcs : AllDigits cs) (hds : AllDigits ds) : AllDigits (cs ++ ds) :=
  fun c hc => (List.mem_append.mp hc).elim (hcs c) (hds c)

theorem take (h : AllDigits cs) (n : Nat) : AllDigits (cs.take n) :=
  fun c hc => h c (List.mem_of_mem_take hc)

theorem drop (h : AllDigits cs) (n : Nat) : AllDigits (cs.drop n) :=
  fun c hc => h c (List.mem_of_mem_drop hc)

theorem zeros (n : Nat) : AllDigits (List.replicate n '0') := by
  intro c hc
  rw [List.eq_of_mem_replicate hc]
  rfl

end AllDigits

namespace Leading

variable {cs ds : List Char}

theorem append (hcs : Leading cs) (hds : AllDigits ds) : Leading (cs ++ ds) where
  digits := hcs.digits.append hds
  first := by
    obtain ⟨c, rest, rfl, hc⟩ := hcs.first
    exact ⟨c, rest ++ ds, rfl, hc⟩

theorem take (h : Leading cs) {n : Nat} (hn : 0 < n) : Leading (cs.take n) where
  digits := h.digits.take n
  first := by
    obtain ⟨c, rest, rfl, hc⟩ := h.first
    obtain ⟨k, rfl⟩ := Nat.exists_eq_succ_of_ne_zero (Nat.pos_iff_ne_zero.mp hn)
    exact ⟨c, rest.take k, rfl, hc⟩

end Leading

/-- The digits before the point are a zero alone or have no zero in front, and an exponent has
digits. -/
structure Numeral.WellFormed (n : Numeral) : Prop where
  whole : n.whole = ['0'] ∨ Leading n.whole
  fraction : AllDigits n.fraction
  exponent : ∀ e ∈ n.exponent, e.2 ≠ [] ∧ AllDigits e.2

theorem Numeral.WellFormed.exists_whole_eq_cons {n : Numeral} (h : n.WellFormed) :
    ∃ c cs, n.whole = c :: cs ∧ c.isDigit = true := by
  obtain hzero | hleading := h.whole
  · exact ⟨'0', [], hzero, rfl⟩
  · obtain ⟨c, cs, hwhole, -⟩ := hleading.first
    exact ⟨c, cs, hwhole, hleading.digits c (by simp [hwhole])⟩

theorem Numeral.wellFormed_ofNat (n : Nat) : (Numeral.ofNat n).WellFormed where
  whole := by
    by_cases hn : n = 0
    · exact .inl (by rw [hn]; rfl)
    · exact .inr (leading_toDigits hn)
  fraction := by simp [Numeral.ofNat, AllDigits]
  exponent := by simp [Numeral.ofNat]

theorem wellFormed_positional (negative : Bool) {digits : List Char} (h : Leading digits)
    (exponent : Int) : (positional negative digits exponent).WellFormed := by
  unfold positional
  dsimp only
  split
  · exact ⟨.inr (h.append (.zeros _)), .zeros 1, by simp⟩
  · split
    · next hwhole => exact ⟨.inr (h.take (by omega)), h.digits.drop _, by simp⟩
    · exact ⟨.inl rfl, (AllDigits.zeros _).append h.digits, by simp⟩

theorem wellFormed_scientific (negative : Bool) {digits : List Char} (h : Leading digits)
    (exponent : Int) : (scientific negative digits exponent).WellFormed where
  whole := .inr (h.take Nat.one_pos)
  fraction := h.digits.drop 1
  exponent := by
    intro e he
    obtain rfl := Option.mem_some.mp he
    exact ⟨Nat.toDigits_ne_nil, isDigit_of_mem_toDigits _⟩

theorem Scientific.trim_ne_zero {s : Scientific} (h : s.digits ≠ 0) (fuel : Nat) :
    (s.trim fuel).digits ≠ 0 := by
  induction fuel generalizing s with
  | zero => exact h
  | succ fuel ih =>
    rw [trim]
    split
    · exact ih (by dsimp only; omega)
    · exact h

theorem Dyadic.wellFormed_numeral (x : Dyadic) : x.numeral.WellFormed := by
  unfold numeral
  split
  · exact ⟨.inl rfl, .zeros 1, by simp⟩
  · next hsignificand =>
    have hdigits := leading_toDigits (Scientific.trim_ne_zero (shortest_ne_zero hsignificand) 17)
    dsimp only
    split
    · exact wellFormed_positional x.negative hdigits _
    · exact wellFormed_scientific x.negative hdigits _

theorem wellFormed_of_numeral? {x : Float} {n : Numeral} (h : numeral? x = some n) :
    n.WellFormed := by
  unfold numeral? at h
  split at h
  · next value _ =>
    obtain rfl := Option.some.inj h
    exact value.wellFormed_numeral
  · cases h

section

open Float.Model

/-- The exponent field is full in the infinities and in what is not a number, and only in them. -/
theorem isFinite_iff (x : Float) : x.isFinite = true ↔ (x.toBits.toNat >>> 52) % 2048 ≠ 2047 := by
  let field := @UnpackedFloat.unpackExponent Format.binary64 x.toBits.toBitVec
  have hfinite : x.isFinite = true ↔ field ≠ -1#11 := by
    change (UnpackedFloat.unpack Format.binary64 x.toBits.toBitVec).isFinite = true ↔ _
    unfold UnpackedFloat.unpack
    dsimp only
    by_cases hfull : field = -1#11
    · rw [if_pos hfull]
      split <;> exact iff_of_false Bool.false_ne_true (not_not_intro hfull)
    · refine iff_of_true ?_ hfull
      rw [if_neg hfull, apply_ite UnpackedFloat.isFinite, apply_dite UnpackedFloat.isFinite]
      change (if _ then if _ : _ then true else true else true) = true
      simp only [dite_eq_ite, ite_self]
  have hfield : field.toNat = (x.toBits.toNat >>> 52) % 2048 := by
    simp [field, UnpackedFloat.unpackExponent]
  rw [hfinite, ne_eq, ← BitVec.toNat_inj, hfield]
  rfl

end

/-- Exactly the finite numbers have a numeral. -/
theorem isSome_numeral? (x : Float) : (numeral? x).isSome = x.isFinite := by
  rw [Bool.eq_iff_iff, isFinite_iff]
  unfold numeral? Binary64.ofFloat Binary64.ofBits
  dsimp only
  split_ifs <;> simp_all

end AccessBench.Decimal
