import AccessBench.Json.Text

/-!
A quoted text is read back as it was, whatever characters it holds.
-/

namespace AccessBench.Json

/-- The units below all halves stand for a character each. -/
theorem joinPieces_unit {n : Nat} (h : n < 0xD800) (rest : List Piece) :
    joinPieces (.unit n :: rest) = (joinPieces rest).map (Char.ofNat n :: ·) := by
  have hhigh : isHighHalf n = false := by simp [isHighHalf]; omega
  have hlow : isLowHalf n = false := by simp [isLowHalf]; omega
  match rest with
  | [] => simp [joinPieces, hhigh, hlow]
  | .char c :: rest => simp [joinPieces, hhigh, hlow]
  | .unit m :: rest => rw [joinPieces, hhigh, hlow]; rfl

/-- The part of a text that a character is written as. -/
def piece (c : Char) : Piece :=
  if c.toNat < 32 ∧ c ∉ ['\x08', '\x0c', '\n', '\r', '\t'] then .unit c.toNat else .char c

theorem joinPieces_map_piece (cs : List Char) : joinPieces (cs.map piece) = some cs := by
  induction cs with
  | nil => rfl
  | cons c cs ih =>
    rw [List.map_cons, piece]
    split
    · rw [joinPieces_unit (by omega), ih, Char.ofNat_toNat]
      rfl
    · rw [joinPieces, ih]
      rfl

/-! ### Reading one character -/

theorem readPieces_short {letter c : Char} (hletter : letter ≠ 'u')
    (h : shortEscape? letter = some c) (rest : List Char) :
    readPieces ('\\' :: letter :: rest) =
      (readPieces rest).map fun read => (.char c :: read.1, read.2) := by
  rw [readPieces.eq_def]
  cases hrest : readPieces rest <;> simp [hletter, h, hrest]

theorem readPieces_fourDigits {n : Nat} (h : n < 32) (rest : List Char) :
    readPieces ('\\' :: 'u' :: (fourDigits n ++ rest)) =
      (readPieces rest).map fun read => (.unit n :: read.1, read.2) := by
  have hunit : ∀ n < 32, unit? (hexDigits.getD (n / 4096 % 16) '0')
      (hexDigits.getD (n / 256 % 16) '0') (hexDigits.getD (n / 16 % 16) '0')
      (hexDigits.getD (n % 16) '0') = some n := by decide
  simp only [fourDigits, List.map_cons, List.map_nil, List.cons_append, List.nil_append, readPieces,
    hunit n h]
  cases readPieces rest <;> rfl

theorem readPieces_plain {c : Char} (hquote : c ≠ '"') (hslash : c ≠ '\\') (h : ¬ c.toNat < 32)
    (rest : List Char) :
    readPieces (c :: rest) = (readPieces rest).map fun read => (.char c :: read.1, read.2) := by
  rw [readPieces.eq_def]
  cases hrest : readPieces rest <;> simp [hslash, h, hrest]

theorem readPieces_escapeChar (c : Char) (rest : List Char) :
    readPieces (escapeChar c ++ rest) =
      (readPieces rest).map fun read => (piece c :: read.1, read.2) := by
  by_cases hshort : c ∈ ['"', '\\', '\x08', '\x0c', '\n', '\r', '\t']
  · simp only [List.mem_cons, List.not_mem_nil, or_false] at hshort
    rcases hshort with rfl | rfl | rfl | rfl | rfl | rfl | rfl <;>
      exact readPieces_short (by decide) rfl rest
  · simp only [List.mem_cons, List.not_mem_nil, or_false, not_or] at hshort
    obtain ⟨hquote, hslash, hback, hform, hline, hreturn, htab⟩ := hshort
    simp only [escapeChar, piece, List.mem_cons, List.not_mem_nil, hquote, hslash, hback, hform,
      hline, hreturn, htab, or_self, not_false_eq_true, and_true, if_false]
    split
    · next hcontrol => exact readPieces_fourDigits hcontrol rest
    · next hcontrol => exact readPieces_plain hquote hslash hcontrol rest

theorem readPieces_flatMap_escapeChar (cs rest : List Char) :
    readPieces (cs.flatMap escapeChar ++ '"' :: rest) = some (cs.map piece, rest) := by
  induction cs with
  | nil => simp [readPieces]
  | cons c cs ih =>
    rw [List.flatMap_cons, List.append_assoc, readPieces_escapeChar, ih]
    rfl

/-- What follows the quote in front of a text is read as the text. -/
theorem readText_quote (cs rest : List Char) :
    readText (cs.flatMap escapeChar ++ '"' :: rest) = some (some (String.ofList cs), rest) := by
  rw [readText, readPieces_flatMap_escapeChar, Option.map_some, joinPieces_map_piece]
  rfl

end AccessBench.Json
