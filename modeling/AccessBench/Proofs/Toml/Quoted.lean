import AccessBench.Toml.Quoted
import AccessBench.Toml.Text
import Mathlib.Tactic.SplitIfs

/-!
Quoted texts are read back as they were before they were quoted, in each of the four forms, and what
follows the closing quotes is left.
-/

namespace AccessBench.Toml

/-- How the inside of a quoted text may show a text, after so many bare quotes in a row. Line ends
and bare quotes, two in a row at most, stand only in a text on several lines. -/
inductive Shows (quote : Char) (escapes lines : Bool) : Nat → List Char → List Char → Prop
  | nil (run : Nat) : Shows quote escapes lines run [] []
  | bare {run : Nat} {shown text : List Char} :
    lines = true → run < 2 → Shows quote escapes lines (run + 1) shown text →
    Shows quote escapes lines run (quote :: shown) (quote :: text)
  | newline {run : Nat} {shown text : List Char} :
    lines = true → Shows quote escapes lines 0 shown text →
    Shows quote escapes lines run ('\n' :: shown) ('\n' :: text)
  | plain {run : Nat} {c : Char} {shown text : List Char} :
    isPlain c = true → c ≠ quote → (escapes = true → c ≠ '\\') →
    Shows quote escapes lines 0 shown text →
    Shows quote escapes lines run (c :: shown) (c :: text)
  | escape {run : Nat} {c : Char} {code shown text : List Char} :
    escapes = true → (∀ rest, readEscape (code ++ rest) = some (c, rest)) →
    (∀ rest, skipJoinedLines? (code ++ rest) = none) →
    Shows quote escapes lines 0 shown text →
    Shows quote escapes lines run ('\\' :: (code ++ shown)) (c :: text)

variable {quote : Char} {escapes lines : Bool} {run : Nat} {shown text rest : List Char}

theorem skipNewline?_of_ne {c : Char} (hline : c ≠ '\n') (hreturn : c ≠ '\r')
    (rest : List Char) : skipNewline? (c :: rest) = none := by
  unfold skipNewline?
  split
  · next hcs => exact absurd (List.cons_eq_cons.mp hcs).1 hline
  · next hcs => exact absurd (List.cons_eq_cons.mp hcs).1 hreturn
  · rfl

theorem skipNewline?_of_plain {c : Char} (h : isPlain c = true) (rest : List Char) :
    skipNewline? (c :: rest) = none := by
  apply skipNewline?_of_ne
  · rintro rfl
    exact absurd h (by decide)
  · rintro rfl
    exact absurd h (by decide)

theorem readLine_of_shows (hquote : '\\' ≠ quote)
    (h : Shows quote escapes false run shown text) (rest : List Char) (fuel : Nat)
    (hfuel : shown.length < fuel) :
    readLine quote escapes fuel (shown ++ quote :: rest) = some (text, rest) := by
  induction h generalizing fuel with
  | nil =>
    obtain ⟨fuel, rfl⟩ := Nat.exists_eq_add_of_lt hfuel
    simp [readLine]
  | bare hlines => cases hlines
  | newline hlines => cases hlines
  | @plain run c shown text hplain hne hslash _ ih =>
    cases fuel with
    | zero => omega
    | succ fuel =>
      have hrest := ih fuel (by simpa using hfuel)
      have hescape : ¬ (escapes = true ∧ c = '\\') := fun h => hslash h.1 h.2
      simp [readLine, hne, hescape, hplain, hrest]
  | @escape run c code shown text hescapes hread _ _ ih =>
    cases fuel with
    | zero => omega
    | succ fuel =>
      have hlength : shown.length < fuel := by
        rw [List.length_cons, List.length_append] at hfuel
        omega
      have hcode := hread (shown ++ quote :: rest)
      subst hescapes
      simp [readLine, hquote, hcode, ih fuel hlength]

theorem takeWhile_replicate_append (n : Nat) (h : rest.head? ≠ some quote) :
    (List.replicate n quote ++ rest).takeWhile (· = quote) = List.replicate n quote := by
  induction n with
  | zero =>
    cases rest with
    | nil => rfl
    | cons c rest =>
      have hne : c ≠ quote := by simpa using h
      simp [hne]
  | succ n ih => simpa [List.replicate_succ] using ih

theorem drop_replicate_append (n : Nat) (rest : List Char) :
    (List.replicate n quote ++ rest).drop n = rest := by
  simp

/-- Of three to five quotes in a row the last three end the text. -/
theorem readLines_close (hrun : run ≤ 2) (hrest : rest.head? ≠ some quote) (fuel : Nat) :
    readLines quote escapes (fuel + 1)
        (List.replicate run quote ++ quote :: quote :: quote :: rest) =
      some (List.replicate run quote, rest) := by
  have hall : List.replicate run quote ++ quote :: quote :: quote :: rest =
      List.replicate (run + 3) quote ++ rest := by
    rw [← List.replicate_append_replicate, List.append_assoc]
    rfl
  have hhead : List.replicate (run + 3) quote ++ rest =
      quote :: (List.replicate (run + 2) quote ++ rest) := by
    rw [List.replicate_succ]
    rfl
  have htake := takeWhile_replicate_append (run + 3) hrest
  rw [hall]
  rw [hhead] at htake ⊢
  rw [readLines, if_pos rfl]
  simp only [htake]
  rw [← hhead, List.length_replicate, drop_replicate_append, if_neg (by omega), if_pos (by omega),
    List.drop_replicate]
  rfl

/-- One or two quotes in a row before something else are part of the text. -/
theorem readLines_run (hrun : run ≤ 2) {cs : List Char} (hcs : cs.head? ≠ some quote) {n : Nat}
    (h : ∀ fuel, n < fuel → readLines quote escapes fuel cs = some (text, rest)) {fuel : Nat}
    (hfuel : run + n < fuel) :
    readLines quote escapes fuel (List.replicate run quote ++ cs) =
      some (List.replicate run quote ++ text, rest) := by
  cases run with
  | zero => exact h fuel (by omega)
  | succ run =>
    cases fuel with
    | zero => omega
    | succ fuel =>
      have hhead : List.replicate (run + 1) quote ++ cs =
          quote :: (List.replicate run quote ++ cs) := by
        rw [List.replicate_succ]
        rfl
      have htake := takeWhile_replicate_append (run + 1) hcs
      rw [hhead] at htake ⊢
      rw [readLines, if_pos rfl]
      simp only [htake]
      rw [← hhead, List.length_replicate, drop_replicate_append, if_pos (by omega),
        h fuel (by omega)]
      rfl

theorem readLines_of_shows (hslash : '\\' ≠ quote) (hline : '\n' ≠ quote)
    (h : Shows quote escapes true run shown text) (hrun : run ≤ 2)
    (hrest : rest.head? ≠ some quote) (fuel : Nat) (hfuel : run + shown.length < fuel) :
    readLines quote escapes fuel
        (List.replicate run quote ++ (shown ++ quote :: quote :: quote :: rest)) =
      some (List.replicate run quote ++ text, rest) := by
  -- the quotes of the run are still to be read: whether they belong to the text or end it is only
  -- seen at what follows them
  induction h generalizing fuel with
  | nil =>
    cases fuel with
    | zero => omega
    | succ fuel =>
      rw [List.append_nil]
      exact readLines_close hrun hrest fuel
  | @bare run shown text _ hroom _ ih =>
    have hmore : ∀ cs : List Char, List.replicate run quote ++ quote :: cs =
        List.replicate (run + 1) quote ++ cs := by
      intro cs
      rw [List.replicate_succ', List.append_assoc]
      rfl
    rw [List.cons_append, hmore, hmore]
    exact ih hroom fuel (by rw [List.length_cons] at hfuel; omega)
  | @newline run shown text _ _ ih =>
    refine readLines_run hrun ?_ ?_ hfuel
    · simpa using hline
    · intro fuel hfuel
      cases fuel with
      | zero => omega
      | succ fuel =>
        have hinner := ih (Nat.zero_le 2) fuel (by simpa using hfuel)
        simp only [List.replicate_zero, List.nil_append] at hinner
        simp [readLines, hline, skipNewline?, hinner]
  | @plain run c shown text hplain hne hescape _ ih =>
    refine readLines_run hrun ?_ ?_ hfuel
    · simpa using hne
    · intro fuel hfuel
      cases fuel with
      | zero => omega
      | succ fuel =>
        have hinner := ih (Nat.zero_le 2) fuel (by simpa using hfuel)
        simp only [List.replicate_zero, List.nil_append] at hinner
        have hnot : ¬ (escapes = true ∧ c = '\\') := fun h => hescape h.1 h.2
        have hkeeps := skipNewline?_of_plain hplain (shown ++ quote :: quote :: quote :: rest)
        simp [readLines, hne, hkeeps, hnot, hplain, hinner]
  | @escape run c code shown text hescapes hread hjoined _ ih =>
    refine readLines_run hrun ?_ ?_ hfuel
    · simpa using hslash
    · intro fuel hfuel
      cases fuel with
      | zero => omega
      | succ fuel =>
        have hlength : shown.length < fuel := by
          rw [List.length_cons, List.length_append] at hfuel
          omega
        have hinner := ih (Nat.zero_le 2) fuel (by omega)
        simp only [List.replicate_zero, List.nil_append] at hinner
        have hcode := hread (shown ++ quote :: quote :: quote :: rest)
        have hstays := hjoined (shown ++ quote :: quote :: quote :: rest)
        subst hescapes
        simp [readLines, hslash, skipNewline?, hcode, hstays, hinner]

/-- A line end right after the opening quotes is not part of the text, so one is written before a
text that has line ends of its own. -/
theorem readInside_of_shows (hslash : '\\' ≠ quote) (hline : '\n' ≠ quote) (hreturn : '\r' ≠ quote)
    (h : Shows quote escapes true 0 shown text) (hrest : rest.head? ≠ some quote) :
    readInside quote escapes ((if text.contains '\n' then ['\n'] else []) ++
        (shown ++ quote :: quote :: quote :: rest)) = some (String.ofList text, rest) := by
  let inside := shown ++ quote :: quote :: quote :: rest
  have hread : readLines quote escapes (inside.length + 1) inside = some (text, rest) := by
    have hshown : shown.length < inside.length + 1 := by
      rw [List.length_append]
      omega
    exact readLines_of_shows hslash hline h (Nat.zero_le 2) hrest _ (by omega)
  have hopening : (skipNewline? ((if text.contains '\n' then ['\n'] else []) ++ inside)).getD
      ((if text.contains '\n' then ['\n'] else []) ++ inside) = inside := by
    by_cases hcontains : text.contains '\n' = true
    · rw [if_pos hcontains]
      rfl
    · rw [if_neg hcontains, List.nil_append]
      have hnone : skipNewline? inside = none := by
        cases h with
        | nil | bare => exact skipNewline?_of_ne hline.symm hreturn.symm _
        | newline => simp at hcontains
        | plain hplain => exact skipNewline?_of_plain hplain _
        | escape => exact skipNewline?_of_ne (by decide) (by decide) _
      rw [hnone]
      rfl
  unfold readInside
  dsimp only
  rw [hopening, hread]
  rfl

theorem digitValue?_upperHexDigits {k : Nat} (h : k < 16) :
    Decimal.digitValue? 16 (upperHexDigits.getD k '0') = some k := by
  have hall : ∀ k < 16, Decimal.digitValue? 16 (upperHexDigits.getD k '0') = some k := by decide
  exact hall k h

theorem readCode_of_small {c : Char} (h : c.toNat < 128) (rest : List Char) :
    readCode 4 ('0' :: '0' :: upperHexDigits.getD (c.toNat / 16) '0' ::
      upperHexDigits.getD (c.toNat % 16) '0' :: rest) = some (c, rest) := by
  have hhigh := digitValue?_upperHexDigits (k := c.toNat / 16) (by omega)
  have hlow := digitValue?_upperHexDigits (k := c.toNat % 16) (by omega)
  have hzero : Decimal.digitValue? 16 '0' = some 0 := by decide
  have hvalue : c.toNat / 16 * 16 + c.toNat % 16 = c.toNat := by omega
  have hvalid : c.toNat.isValidChar := .inl (by omega)
  generalize upperHexDigits.getD (c.toNat / 16) '0' = high at hhigh ⊢
  generalize upperHexDigits.getD (c.toNat % 16) '0' = low at hlow ⊢
  simp [readCode, hzero, hhigh, hlow, hvalue, hvalid]

theorem toNat_lt_of_needsEscapeCode {c : Char} (h : needsEscapeCode c = true) :
    c.toNat < 128 := by
  simp only [needsEscapeCode, Bool.or_eq_true, Bool.and_eq_true, decide_eq_true_eq] at h
  omega

theorem isPlain_of_needsEscapeCode {c : Char} (h : needsEscapeCode c = false) (hline : c ≠ '\n') :
    isPlain c = true := by
  by_cases htab : c = '\t'
  · simp [isPlain, htab]
  · simp only [needsEscapeCode, htab, hline, ne_eq, not_false_eq_true, decide_true, Bool.and_true,
      Bool.or_eq_false_iff, decide_eq_false_iff_not] at h
    simp only [isPlain, htab, decide_false, Bool.false_or, Bool.and_eq_true, decide_eq_true_eq]
    omega

/-- An escape that is written reads back as its character, and is none that joins lines. -/
theorem escape?_spec {c : Char} {escaped : List Char} (h : escape? lines c = some escaped) :
    ∃ code, escaped = '\\' :: code ∧ (∀ rest, readEscape (code ++ rest) = some (c, rest)) ∧
      ∀ rest, skipJoinedLines? (code ++ rest) = none := by
  unfold escape? at h
  split_ifs at h with hb ht hn hlines hf hr hs hcode
  · cases h
    subst hb
    exact ⟨['b'], rfl, fun _ => rfl, fun _ => rfl⟩
  · cases h
    subst ht
    exact ⟨['t'], rfl, fun _ => rfl, fun _ => rfl⟩
  · cases h
    subst hn
    exact ⟨['n'], rfl, fun _ => rfl, fun _ => rfl⟩
  · cases h
    subst hf
    exact ⟨['f'], rfl, fun _ => rfl, fun _ => rfl⟩
  · cases h
    subst hr
    exact ⟨['r'], rfl, fun _ => rfl, fun _ => rfl⟩
  · cases h
    subst hs
    exact ⟨['\\'], rfl, fun _ => rfl, fun _ => rfl⟩
  · cases h
    exact ⟨_, rfl, fun rest => readCode_of_small (toNat_lt_of_needsEscapeCode hcode) rest,
      fun _ => rfl⟩

/-- A character that is not escaped stands for itself, unless it is a line end. -/
theorem plain_of_escape? {c : Char} (h : escape? lines c = none) :
    c ≠ '\\' ∧ (c = '\n' ∧ lines = true ∨ isPlain c = true) := by
  unfold escape? at h
  split_ifs at h with hb ht hn hlines hf hr hs hcode
  · subst hn
    exact ⟨by decide, .inl ⟨rfl, hlines⟩⟩
  · exact ⟨hs, .inr (isPlain_of_needsEscapeCode (by simpa using hcode) hn)⟩

/-- Basic texts show what they are written for. -/
theorem shows_escapeFrom (lines : Bool) (run : Nat) (text : List Char) :
    Shows '"' true lines run (escapeFrom lines run text) text := by
  induction text generalizing run with
  | nil => exact .nil run
  | cons c text ih =>
    rw [escapeFrom]
    by_cases hquote : c = '"'
    · subst hquote
      rw [if_pos rfl]
      by_cases hroom : run < if lines = true then 2 else 0
      · rw [if_pos hroom]
        cases lines with
        | true => exact .bare rfl hroom (ih (run + 1))
        | false => exact absurd hroom (Nat.not_lt_zero run)
      · rw [if_neg hroom]
        have hcode : ∀ rest, readEscape (['"'] ++ rest) = some ('"', rest) := fun _ => rfl
        exact .escape rfl hcode (fun _ => rfl) (ih 0)
    · rw [if_neg hquote]
      cases hescape : escape? lines c with
      | some escaped =>
        obtain ⟨code, rfl, hread, hjoined⟩ := escape?_spec hescape
        exact .escape rfl hread hjoined (ih 0)
      | none =>
        obtain ⟨hslash, ⟨rfl, rfl⟩ | hplain⟩ := plain_of_escape? hescape
        · exact .newline rfl (ih 0)
        · exact .plain hplain hquote (fun _ => hslash) (ih 0)

/-- Literal texts show themselves where nothing in them needs an escape. -/
theorem shows_literal {text : List Char} (hcodes : text.any needsEscapeCode = false)
    (hquote : '\'' ∉ text) (hline : '\n' ∉ text) : Shows '\'' false false 0 text text := by
  induction text with
  | nil => exact .nil 0
  | cons c text ih =>
    simp only [List.any_cons, Bool.or_eq_false_iff] at hcodes
    simp only [List.mem_cons, not_or] at hquote hline
    exact .plain (isPlain_of_needsEscapeCode hcodes.1 (Ne.symm hline.1)) (Ne.symm hquote.1) (by simp)
      (ih hcodes.2 hquote.2 hline.2)

theorem hasTriple_of_append {cs before : List Char}
    (h : hasTriple quote (before ++ cs) = false) : hasTriple quote cs = false := by
  induction before with
  | nil => exact h
  | cons a before ih =>
    apply ih
    rw [List.cons_append] at h
    match before ++ cs, h with
    | [], _ => rfl
    | [_], _ => rfl
    | _ :: _ :: _, h =>
      simp only [hasTriple, Bool.or_eq_false_iff] at h
      exact h.2

/-- So do literal texts on several lines, where no three of their quotes stand in a row. -/
theorem shows_literalLines {text : List Char} (hcodes : text.any needsEscapeCode = false)
    (hrun : run ≤ 2) (htriple : hasTriple '\'' (List.replicate run '\'' ++ text) = false) :
    Shows '\'' false true run text text := by
  induction text generalizing run with
  | nil => exact .nil run
  | cons c text ih =>
    simp only [List.any_cons, Bool.or_eq_false_iff] at hcodes
    by_cases hquote : c = '\''
    · subst hquote
      have hroom : run < 2 := by
        refine Nat.lt_of_le_of_ne hrun ?_
        rintro rfl
        simp [hasTriple] at htriple
      refine .bare rfl hroom (ih hcodes.2 hroom ?_)
      rwa [List.replicate_succ', List.append_assoc]
    · have hinner : Shows '\'' false true 0 text text := by
        refine ih hcodes.2 (Nat.zero_le 2) ?_
        rw [← List.singleton_append, ← List.append_assoc] at htriple
        exact hasTriple_of_append htriple
      by_cases hline : c = '\n'
      · subst hline
        exact .newline rfl hinner
      · exact .plain (isPlain_of_needsEscapeCode hcodes.1 hline) hquote (by simp) hinner

theorem quotingOf_literal {cs : List Char} (h : quotingOf cs = .literal) :
    cs.any needsEscapeCode = false ∧ '\'' ∉ cs ∧ '\n' ∉ cs := by
  unfold quotingOf at h
  dsimp only at h
  split_ifs at h with _ hliteral
  simpa [and_assoc] using hliteral

theorem quotingOf_literalLines {cs : List Char} (h : quotingOf cs = .literalLines) :
    cs.any needsEscapeCode = false ∧ hasTriple '\'' cs = false := by
  unfold quotingOf at h
  dsimp only at h
  split_ifs at h with _ _ _ hliteral
  simpa using hliteral

theorem readQuoted_of_not_triple {cs : List Char} (h : ∀ q tail, cs ≠ q :: q :: q :: tail) :
    readQuoted cs = readOneLine cs := by
  unfold readQuoted
  split
  · exact absurd rfl (h _ _)
  · exact absurd rfl (h _ _)
  · rfl

/-- What stands between quotes on one line is not taken for a text on several lines. -/
theorem not_triple_of_shows (hslash : '\\' ≠ quote)
    (h : Shows quote escapes false run shown text) (hrest : rest.head? ≠ some quote)
    (q : Char) (tail : List Char) : quote :: (shown ++ quote :: rest) ≠ q :: q :: q :: tail := by
  rintro heq
  obtain ⟨rfl, heq⟩ := List.cons_eq_cons.mp heq
  cases h with
  | nil =>
    obtain ⟨_, rfl⟩ := List.cons_eq_cons.mp heq
    exact hrest rfl
  | bare hlines => cases hlines
  | newline hlines => cases hlines
  | plain _ hne => exact hne (List.cons_eq_cons.mp heq).1
  | escape => exact hslash (List.cons_eq_cons.mp heq).1

theorem readQuoted_quote (cs : List Char) {rest : List Char} (hbasic : rest.head? ≠ some '"')
    (hliteral : rest.head? ≠ some '\'') :
    readQuoted (Toml.quote cs ++ rest) = some (String.ofList cs, rest) := by
  unfold Toml.quote
  cases hquoting : quotingOf cs with
  | basic =>
    have hshows := shows_escapeFrom false 0 cs
    have hread := readLine_of_shows (by decide) hshows rest
      ((escapeFrom false 0 cs ++ '"' :: rest).length + 1) (by rw [List.length_append]; omega)
    have hone := readQuoted_of_not_triple (not_triple_of_shows (by decide) hshows hbasic)
    simp only [List.cons_append, List.append_assoc, List.nil_append]
    rw [hone, readOneLine, hread]
    rfl
  | literal =>
    obtain ⟨hcodes, hquote, hline⟩ := quotingOf_literal hquoting
    have hshows := shows_literal hcodes hquote hline
    have hread := readLine_of_shows (by decide) hshows rest
      ((cs ++ '\'' :: rest).length + 1) (by rw [List.length_append]; omega)
    have hone := readQuoted_of_not_triple (not_triple_of_shows (by decide) hshows hliteral)
    simp only [List.cons_append, List.append_assoc, List.nil_append]
    rw [hone, readOneLine, hread]
    rfl
  | basicLines =>
    have hread := readInside_of_shows (by decide) (by decide) (by decide)
      (shows_escapeFrom true 0 cs) hbasic
    simpa [openLines, readQuoted] using hread
  | literalLines =>
    obtain ⟨hcodes, htriple⟩ := quotingOf_literalLines hquoting
    have hread := readInside_of_shows (by decide) (by decide) (by decide)
      (shows_literalLines hcodes (Nat.zero_le 2) htriple) hliteral
    simpa [openLines, readQuoted] using hread

end AccessBench.Toml
