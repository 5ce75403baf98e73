import AccessBench.Json.Reader
import AccessBench.Json.Writer
import AccessBench.Proofs.Json.Number
import AccessBench.Proofs.Json.Text
import Mathlib.Data.List.Forall2

/-!
Values are read back from their indented texts, at whatever level of nesting these stand.
-/

namespace AccessBench.Json

/-- The text is read as the value wherever it stands, with fuel for its length. -/
structure Spells (text : List Char) (value : Json) : Prop where
  starts : ∃ c cs, text = c :: cs ∧ isBlank c = false ∧ c ≠ ']'
  reads : ∀ {fuel rest}, text.length ≤ fuel → EndsNumber rest →
    readValue (fuel + 1) (text ++ rest) = some (value, rest)

/-! ### Blanks -/

def AllBlank (gap : List Char) : Prop := ∀ c ∈ gap, isBlank c = true

variable {gap last text rest : List Char} {value : Json} {fuel : Nat}

theorem allBlank_newLine (level : Nat) : AllBlank (newLine level) := by
  intro c hc
  rw [newLine, List.mem_cons] at hc
  obtain rfl | hspace := hc
  · rfl
  · rw [List.eq_of_mem_replicate hspace]
    rfl

theorem skipBlank_gap (h : AllBlank gap) (cs : List Char) :
    skipBlank (gap ++ cs) = skipBlank cs :=
  List.dropWhile_append_of_pos h

theorem skipBlank_cons {c : Char} (h : isBlank c = false) (cs : List Char) :
    skipBlank (c :: cs) = c :: cs := by
  simp [skipBlank, h]

theorem Spells.skipBlank_append (h : Spells text value) (rest : List Char) :
    skipBlank (text ++ rest) = text ++ rest := by
  obtain ⟨c, cs, rfl, hc, -⟩ := h.starts
  exact skipBlank_cons hc _

theorem readValue_gap (h : AllBlank gap) (cs : List Char) :
    readValue fuel (gap ++ cs) = readValue fuel cs := by
  cases fuel with
  | zero => simp only [readValue]
  | succ fuel => rw [readValue, readValue, skipBlank_gap h]

theorem readItems_gap (h : AllBlank gap) (cs : List Char) :
    readItems fuel (gap ++ cs) = readItems fuel cs := by
  cases fuel with
  | zero => simp only [readItems]
  | succ fuel => rw [readItems, readItems, readValue_gap h]

theorem readMembers_gap (h : AllBlank gap) (cs : List Char) :
    readMembers fuel (gap ++ cs) = readMembers fuel cs := by
  cases fuel with
  | zero => simp only [readMembers]
  | succ fuel => rw [readMembers, readMembers, skipBlank_gap h]

/-- A number ends in front of blanks. -/
theorem endsNumber_gap (h : AllBlank gap) (hrest : EndsNumber rest) : EndsNumber (gap ++ rest) := by
  cases gap with
  | nil => exact hrest
  | cons c cs =>
    rintro d hd
    obtain rfl : c = d := by simpa using hd
    have hblank := h c (List.mem_cons_self ..)
    simp only [isBlank, Bool.or_eq_true, decide_eq_true_eq] at hblank
    rcases hblank with ((rfl | rfl) | rfl) | rfl <;> decide

/-! ### Simple values -/

theorem spells_null : Spells "null".toList .null where
  starts := ⟨_, _, rfl, rfl, by decide⟩
  reads _ _ := rfl

theorem spells_bool (value : Bool) : Spells (writeBool value) (.bool value) where
  starts := by cases value <;> exact ⟨_, _, rfl, rfl, by decide⟩
  reads _ _ := by cases value <;> rfl

theorem spells_text (s : String) : Spells (writeText (some s)) (.string (some s)) where
  starts := ⟨_, _, rfl, rfl, by decide⟩
  reads {fuel rest} _ _ := by
    have hread := readText_quote s.toList rest
    have hskip := skipBlank_cons (c := '"') rfl (s.toList.flatMap escapeChar ++ '"' :: rest)
    simp [writeText, quote, readValue, hskip, hread]

theorem exists_text_eq_cons {n : Decimal.Numeral} (h : n.WellFormed) :
    ∃ c cs, n.text = c :: cs ∧ (c = '-' ∨ c.isDigit = true) := by
  obtain ⟨c, cs, hwhole, hdigit⟩ := h.exists_whole_eq_cons
  cases hsign : n.negative with
  | true => exact ⟨'-', _, by rw [Decimal.Numeral.text, hsign]; rfl, .inl rfl⟩
  | false => exact ⟨c, _, by rw [Decimal.Numeral.text, hsign, hwhole]; rfl, .inr hdigit⟩

theorem spells_number {n : Decimal.Numeral} (h : n.WellFormed) : Spells n.text (.number n) := by
  obtain ⟨c, cs, htext, hfirst⟩ := exists_text_eq_cons h
  have hne : ∀ d : Char, d.isDigit = false → d ≠ '-' → c ≠ d := by
    rintro d hdigit hminus rfl
    rcases hfirst with rfl | hc
    · exact hminus rfl
    · rw [hdigit] at hc
      cases hc
  have hblank : isBlank c = false := by simp [isBlank, hne]
  constructor
  · exact ⟨c, cs, htext, hblank, hne _ rfl (by decide)⟩
  · intro fuel rest _ hrest
    have hread := readNumber_text_append h hrest
    rw [htext, List.cons_append] at hread ⊢
    simp [readValue, skipBlank_cons hblank, hne, hread]

/-! ### Arrays -/

theorem joinWith_cons_cons (separator part next : List Char) (parts : List (List Char)) :
    joinWith separator (part :: next :: parts) =
      part ++ separator ++ joinWith separator (next :: parts) := rfl

theorem exists_joinWith_eq (separator part : List Char) (parts : List (List Char)) :
    ∃ cs, joinWith separator (part :: parts) = part ++ cs := by
  cases parts with
  | nil => exact ⟨[], (List.append_nil _).symm⟩
  | cons next parts => exact ⟨_, List.append_assoc ..⟩

theorem endsNumber_comma (cs : List Char) : EndsNumber (',' :: cs) := by simp [EndsNumber]

theorem readItems_last (h : Spells text value) (hlast : AllBlank last)
    (hfuel : text.length ≤ fuel) (rest : List Char) :
    readItems (fuel + 2) (text ++ (last ++ ']' :: rest)) = some ([value], rest) := by
  have hends : EndsNumber (last ++ ']' :: rest) := endsNumber_gap hlast (by simp [EndsNumber])
  have hskip : skipBlank (last ++ ']' :: rest) = ']' :: rest := by
    rw [skipBlank_gap hlast, skipBlank_cons rfl]
  simp [readItems, h.reads hfuel hends, hskip]

theorem readItems_more (h : Spells text value) (hgap : AllBlank gap) (hfuel : text.length ≤ fuel)
    {values : List Json} {tail : List Char}
    (hmore : readItems (fuel + 1) rest = some (values, tail)) :
    readItems (fuel + 2) (text ++ (',' :: (gap ++ rest))) = some (value :: values, tail) := by
  have hskip : skipBlank (',' :: (gap ++ rest)) = ',' :: (gap ++ rest) := skipBlank_cons rfl _
  rw [readItems]
  simp [h.reads hfuel (endsNumber_comma _), hskip, readItems_gap hgap, hmore]

theorem readItems_joinWith {texts : List (List Char)} {values : List Json}
    (h : List.Forall₂ Spells texts values) (hne : texts ≠ []) (hgap : AllBlank gap)
    (hlast : AllBlank last) (fuel : Nat)
    (hfuel : (joinWith (',' :: gap) texts).length + 2 ≤ fuel) (rest : List Char) :
    readItems fuel (joinWith (',' :: gap) texts ++ (last ++ ']' :: rest)) = some (values, rest) := by
  induction h generalizing fuel with
  | nil => exact absurd rfl hne
  | @cons text value texts values hitem hitems ih =>
    obtain ⟨fuel, rfl⟩ := Nat.exists_eq_add_of_le' (by omega : 2 ≤ fuel)
    cases hitems with
    | nil =>
      rw [joinWith] at hfuel ⊢
      exact readItems_last hitem hlast (by omega) rest
    | @cons next nextValue texts values hnext hitems =>
      rw [joinWith_cons_cons] at hfuel ⊢
      simp only [List.length_append, List.length_cons] at hfuel
      have hmore := ih (List.cons_ne_nil _ _) (fuel + 1) (by omega)
      simpa using readItems_more hitem hgap (by omega) hmore

/-- Between brackets the first part comes after blanks. -/
theorem block_append (opening closing : Char) (level : Nat) (part : List Char)
    (parts : List (List Char)) (rest : List Char) :
    ∃ cs, joinWith (',' :: newLine (level + 1)) (part :: parts) ++
        (newLine level ++ closing :: rest) = part ++ cs ∧
      block opening closing level (part :: parts) ++ rest =
        opening :: (newLine (level + 1) ++ (part ++ cs)) := by
  obtain ⟨more, hjoined⟩ := exists_joinWith_eq (',' :: newLine (level + 1)) part parts
  refine ⟨more ++ (newLine level ++ closing :: rest), ?_, ?_⟩
  · rw [hjoined, List.append_assoc]
  · simp [block, hjoined]

theorem spells_array {texts : List (List Char)} {values : List Json}
    (h : List.Forall₂ Spells texts values) (level : Nat) :
    Spells (block '[' ']' level texts) (.array values) := by
  have hstart : ∀ cs, skipBlank ('[' :: cs) = '[' :: cs := skipBlank_cons rfl
  cases h with
  | nil =>
    refine ⟨⟨_, _, rfl, rfl, by decide⟩, fun {fuel rest} _ _ => ?_⟩
    have hend : skipBlank (']' :: rest) = ']' :: rest := skipBlank_cons rfl _
    simp [block, readValue, hstart, hend]
  | @cons text value texts values hitem hitems =>
    refine ⟨⟨_, _, rfl, rfl, by decide⟩, fun {fuel rest} hfuel _ => ?_⟩
    have hread := readItems_joinWith (.cons hitem hitems) (List.cons_ne_nil _ _)
      (allBlank_newLine (level + 1)) (allBlank_newLine level) fuel
      (by simp [block] at hfuel; omega) rest
    obtain ⟨cs, hjoined, hblock⟩ := block_append '[' ']' level text texts rest
    have hskip : skipBlank (newLine (level + 1) ++ (text ++ cs)) = text ++ cs := by
      rw [skipBlank_gap (allBlank_newLine _), hitem.skipBlank_append]
    obtain ⟨c, tail, rfl, -, hne⟩ := hitem.starts
    rw [hjoined] at hread
    rw [hblock, readValue, hstart]
    rw [List.cons_append] at hskip hread ⊢
    simp [hskip, hne, hread]

/-! ### Objects -/

/-- The text is read as the name and the value of a member. -/
inductive SpellsMember : List Char → Option String × Json → Prop
  | intro (name : String) {text : List Char} {value : Json} : Spells text value →
    SpellsMember (writeText (some name) ++ ':' :: ' ' :: text) (some name, value)

variable {m : Option String × Json}

theorem SpellsMember.exists_cons (h : SpellsMember text m) : ∃ cs, text = '"' :: cs := by
  cases h
  exact ⟨_, rfl⟩

/-- The name is read up to the colon, and the value up to what follows the member. -/
theorem SpellsMember.reads (h : SpellsMember text m) (hfuel : text.length ≤ fuel)
    (hrest : EndsNumber rest) :
    ∃ cs tail body, text ++ rest = '"' :: cs ∧ readText cs = some (m.1, tail) ∧
      skipBlank tail = ':' :: body ∧ readValue (fuel + 1) body = some (m.2, rest) := by
  cases h with
  | @intro name body value hvalue =>
    let tail := ':' :: ' ' :: (body ++ rest)
    have hname := readText_quote name.toList tail
    rw [String.ofList_toList] at hname
    refine ⟨_, tail, ' ' :: (body ++ rest), ?_, hname, skipBlank_cons rfl _, ?_⟩
    · simp [writeText, quote, tail]
    · have hlength : body.length ≤ fuel := by
        simp only [List.length_append, List.length_cons] at hfuel
        omega
      have hblank : AllBlank [' '] := by simp [AllBlank, isBlank]
      rw [← hvalue.reads hlength hrest]
      exact readValue_gap hblank _

theorem readMembers_last (h : SpellsMember text m) (hlast : AllBlank last)
    (hfuel : text.length ≤ fuel) (rest : List Char) :
    readMembers (fuel + 2) (text ++ (last ++ '}' :: rest)) = some ([m], rest) := by
  have hends : EndsNumber (last ++ '}' :: rest) := endsNumber_gap hlast (by simp [EndsNumber])
  have hskip : skipBlank (last ++ '}' :: rest) = '}' :: rest := by
    rw [skipBlank_gap hlast, skipBlank_cons rfl]
  obtain ⟨cs, tail, body, htext, hname, hcolon, hvalue⟩ := h.reads hfuel hends
  rw [htext, readMembers, skipBlank_cons rfl]
  simp [hname, hcolon, hvalue, hskip]

theorem readMembers_more (h : SpellsMember text m) (hgap : AllBlank gap)
    (hfuel : text.length ≤ fuel) {members : List (Option String × Json)} {tail : List Char}
    (hmore : readMembers (fuel + 1) rest = some (members, tail)) :
    readMembers (fuel + 2) (text ++ (',' :: (gap ++ rest))) = some (m :: members, tail) := by
  have hskip : skipBlank (',' :: (gap ++ rest)) = ',' :: (gap ++ rest) := skipBlank_cons rfl _
  obtain ⟨cs, _, body, htext, hname, hcolon, hvalue⟩ := h.reads hfuel (endsNumber_comma _)
  rw [htext, readMembers, skipBlank_cons rfl]
  simp [hname, hcolon, hvalue, hskip, readMembers_gap hgap, hmore]

theorem readMembers_joinWith {texts : List (List Char)} {members : List (Option String × Json)}
    (h : List.Forall₂ SpellsMember texts members) (hne : texts ≠ []) (hgap : AllBlank gap)
    (hlast : AllBlank last) (fuel : Nat)
    (hfuel : (joinWith (',' :: gap) texts).length + 2 ≤ fuel) (rest : List Char) :
    readMembers fuel (joinWith (',' :: gap) texts ++ (last ++ '}' :: rest)) =
      some (members, rest) := by
  induction h generalizing fuel with
  | nil => exact absurd rfl hne
  | @cons text m texts members hmember hmembers ih =>
    obtain ⟨fuel, rfl⟩ := Nat.exists_eq_add_of_le' (by omega : 2 ≤ fuel)
    cases hmembers with
    | nil =>
      rw [joinWith] at hfuel ⊢
      exact readMembers_last hmember hlast (by omega) rest
    | @cons next nextMember texts members hnext hmembers =>
      rw [joinWith_cons_cons] at hfuel ⊢
      simp only [List.length_append, List.length_cons] at hfuel
      have hmore := ih (List.cons_ne_nil _ _) (fuel + 1) (by omega)
      simpa using readMembers_more hmember hgap (by omega) hmore

theorem spells_object {texts : List (List Char)} {members : List (Option String × Json)}
    (h : List.Forall₂ SpellsMember texts members) (level : Nat) :
    Spells (block '{' '}' level texts) (.object members) := by
  have hstart : ∀ cs, skipBlank ('{' :: cs) = '{' :: cs := skipBlank_cons rfl
  cases h with
  | nil =>
    refine ⟨⟨_, _, rfl, rfl, by decide⟩, fun {fuel rest} _ _ => ?_⟩
    have hend : skipBlank ('}' :: rest) = '}' :: rest := skipBlank_cons rfl _
    simp [block, readValue, hstart, hend]
  | @cons text m texts members hmember hmembers =>
    refine ⟨⟨_, _, rfl, rfl, by decide⟩, fun {fuel rest} hfuel _ => ?_⟩
    have hread := readMembers_joinWith (.cons hmember hmembers) (List.cons_ne_nil _ _)
      (allBlank_newLine (level + 1)) (allBlank_newLine level) fuel
      (by simp [block] at hfuel; omega) rest
    obtain ⟨cs, hjoined, hblock⟩ := block_append '{' '}' level text texts rest
    obtain ⟨tail, rfl⟩ := hmember.exists_cons
    have hskip : skipBlank (newLine (level + 1) ++ ('"' :: (tail ++ cs))) = '"' :: (tail ++ cs) := by
      rw [skipBlank_gap (allBlank_newLine _), skipBlank_cons rfl]
    rw [hjoined] at hread
    rw [hblock, readValue, hstart]
    simp only [List.cons_append] at hread ⊢
    simp [hskip, hread]

/-! ### All values -/

/-- The values that are written as they are: their numbers are well formed, and their strings and
names have texts. -/
inductive Readable : Json → Prop
  | null : Readable .null
  | bool (value : Bool) : Readable (.bool value)
  | number {n : Decimal.Numeral} : n.WellFormed → Readable (.number n)
  | text (s : String) : Readable (.text s)
  | array {items : List Json} : (∀ item ∈ items, Readable item) → Readable (.array items)
  | object {members : List (String × Json)} : (∀ m ∈ members, Readable m.2) →
    Readable (.ofMembers members)

theorem prettyItems_eq_map (level : Nat) (items : List Json) :
    prettyItems level items = items.map (pretty level) := by
  induction items with
  | nil => rw [prettyItems, List.map_nil]
  | cons item items ih => rw [prettyItems, ih, List.map_cons]

theorem prettyMembers_eq_map (level : Nat) (members : List (Option String × Json)) :
    prettyMembers level members =
      members.map fun m => writeText m.1 ++ ':' :: ' ' :: pretty level m.2 := by
  induction members with
  | nil => rw [prettyMembers, List.map_nil]
  | cons m members ih => rw [prettyMembers, ih, List.map_cons]

theorem spells_pretty (h : Readable value) (level : Nat) : Spells (value.pretty level) value := by
  induction h generalizing level with
  | null => exact spells_null
  | bool value => exact spells_bool value
  | number hn => exact spells_number hn
  | text s => exact spells_text s
  | @array items _ ih =>
    rw [pretty, prettyItems_eq_map]
    apply spells_array
    rw [List.forall₂_map_left_iff, List.forall₂_same]
    exact fun item hitem => ih item hitem (level + 1)
  | @object members _ ih =>
    rw [ofMembers, pretty, prettyMembers_eq_map, List.map_map]
    apply spells_object
    rw [List.forall₂_map_left_iff, List.forall₂_map_right_iff, List.forall₂_same]
    exact fun m hm => .intro m.1 (ih m hm (level + 1))

/-- A value is read back from its indented text. -/
theorem ofText?_toPrettyText (h : Readable value) : ofText? value.toPrettyText = some value := by
  have hfuel : (value.pretty 0).length ≤ 2 * (value.pretty 0).length + 1 := by omega
  have hread := (spells_pretty h 0).reads hfuel endsNumber_nil
  rw [List.append_nil] at hread
  simp [ofText?, toPrettyText, hread, skipBlank]

end AccessBench.Json
