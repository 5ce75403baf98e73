import AccessBench.Proofs.Toml.Value

/-!
Lines of a file: entries with a bare key, headers with one, and empty lines.
-/

namespace AccessBench.Toml

open Decimal (ne_of_apply)

/-- Keys that need no quotes. -/
def IsBareKey (name : List Char) : Prop := name ≠ [] ∧ name.all isBareKeyChar = true

instance (name : List Char) : Decidable (IsBareKey name) :=
  inferInstanceAs (Decidable (name ≠ [] ∧ name.all isBareKeyChar = true))

/-- The text of a file is read as these lines. -/
def FileLines (cs : List Char) (lines : List Line) : Prop :=
  ∀ fuel, cs.length < fuel → readFileLines fuel cs = some lines

/-- In front of any text that is read as lines, this one is read as these. -/
def Adds (text : List Char) (lines : List Line) : Prop :=
  ∀ cs more, FileLines cs more → FileLines (text ++ cs) (lines ++ more)

variable {name : List Char} {c : Char}

theorem skipBlanks_bare (hname : IsBareKey name) (rest : List Char) :
    skipBlanks (name ++ rest) = name ++ rest := by
  obtain ⟨hne, hbare⟩ := hname
  cases name with
  | nil => exact absurd rfl hne
  | cons c name =>
    rw [List.all_cons, Bool.and_eq_true] at hbare
    have hspace : c ≠ ' ' := ne_of_apply hbare.1 rfl
    have htab : c ≠ '\t' := ne_of_apply hbare.1 rfl
    simp [skipBlanks, isBlank, hspace, htab]

theorem readKeyPart_bare (hname : IsBareKey name) (hc : isBareKeyChar c = false)
    (rest : List Char) :
    readKeyPart (name ++ c :: rest) = some (String.ofList name, c :: rest) := by
  obtain ⟨hne, hbare⟩ := hname
  have htake : (name ++ c :: rest).takeWhile isBareKeyChar = name := by
    rw [List.takeWhile_append_of_pos (List.all_eq_true.mp hbare),
      List.takeWhile_cons_of_neg (by simp [hc]), List.append_nil]
  unfold readKeyPart
  rw [htake]
  cases name with
  | nil => exact absurd rfl hne
  | cons c name => simp

theorem readKey_header (hname : IsBareKey name) (n : Nat) (rest : List Char) :
    readKey (n + 1) (name ++ ']' :: rest) = some ([String.ofList name], ']' :: rest) := by
  have hpart := readKeyPart_bare hname (by decide : isBareKeyChar ']' = false) rest
  have hstop : skipBlanks (']' :: rest) = ']' :: rest := rfl
  simp [readKey, skipBlanks_bare hname, hpart, hstop]

theorem readKey_entry (hname : IsBareKey name) (n : Nat) (rest : List Char) :
    readKey (n + 1) (name ++ ' ' :: '=' :: rest) =
      some ([String.ofList name], '=' :: rest) := by
  have hpart := readKeyPart_bare hname (by decide : isBareKeyChar ' ' = false) ('=' :: rest)
  have hstop : skipBlanks (' ' :: '=' :: rest) = '=' :: rest := rfl
  simp [readKey, skipBlanks_bare hname, hpart, hstop]

theorem skipBlanks_of_startsValue (h : startsValue c = true) (cs : List Char) :
    skipBlanks (c :: cs) = c :: cs := by
  simp only [startsValue, Bool.and_eq_true, Bool.not_eq_true'] at h
  simp [skipBlanks, h.1.1.1.1]

theorem readHeader_bare (hname : IsBareKey name) (rest : List Char) :
    readHeader ('[' :: (name ++ ']' :: '\n' :: rest)) =
      some (.header [String.ofList name], rest) := by
  have hkey : readKey nestingLimit (name ++ ']' :: '\n' :: rest) = _ := readKey_header hname 78 _
  obtain ⟨hne, hbare⟩ := hname
  cases name with
  | nil => exact absurd rfl hne
  | cons c name =>
    rw [List.all_cons, Bool.and_eq_true] at hbare
    have hc : c ≠ '[' := ne_of_apply hbare.1 rfl
    have hend : skipLineEnd ('\n' :: rest) = some rest := rfl
    rw [List.cons_append] at hkey ⊢
    simp [readHeader, hc, hkey, skipChar, hend]

theorem readEntry_bare (hname : IsBareKey name) {levels : Nat} {text : List Char} {value : Value}
    (hvalue : Spells levels text value) (hlevels : levels ≤ nestingLimit) (rest : List Char) :
    readEntry (name ++ ' ' :: '=' :: ' ' :: (text ++ '\n' :: rest)) =
      some (.entry [String.ofList name] value, rest) := by
  have hkey : readKey nestingLimit (name ++ ' ' :: '=' :: ' ' :: (text ++ '\n' :: rest)) = _ :=
    readKey_entry hname 78 _
  have hend : skipLineEnd ('\n' :: rest) = some rest := rfl
  have hblanks : skipBlanks (' ' :: (text ++ '\n' :: rest)) = text ++ '\n' :: rest := by
    obtain ⟨c, cs, rfl, hstarts⟩ := hvalue.starts
    exact skipBlanks_of_startsValue hstarts _
  have hread : readValue (2 * (' ' :: (text ++ '\n' :: rest)).length + 2) nestingLimit
      (text ++ '\n' :: rest) = some (value, '\n' :: rest) := by
    refine hvalue.reads ?_ hlevels (.newline rest)
    simp only [List.length_cons, List.length_append]
    omega
  simp only [readEntry, hkey, skipChar, Option.bind_eq_bind, Option.bind_some, if_pos, hblanks,
    hread, hend]
  rfl

theorem fileLines_nil : FileLines [] [] := by
  intro fuel hfuel
  cases fuel with
  | zero => omega
  | succ fuel => rfl

/-- A text is read in one step, which its characters allow for. -/
theorem adds_of_step {text : List Char} {lines : List Line} (hne : text ≠ [])
    (h : ∀ fuel cs more, readFileLines fuel cs = some more →
      readFileLines (fuel + 1) (text ++ cs) = some (lines ++ more)) : Adds text lines := by
  intro cs more hmore fuel hfuel
  have hlength : 0 < text.length := List.length_pos_of_ne_nil hne
  rw [List.length_append] at hfuel
  cases fuel with
  | zero => omega
  | succ fuel => exact h fuel cs more (hmore fuel (by omega))

theorem adds_newline : Adds ['\n'] [] :=
  adds_of_step (List.cons_ne_nil _ _) fun _ _ _ hrest => hrest

theorem adds_header (hname : IsBareKey name) :
    Adds ('[' :: (name ++ [']', '\n'])) [.header [String.ofList name]] := by
  refine adds_of_step (List.cons_ne_nil _ _) ?_
  intro fuel cs more hrest
  have hheader := readHeader_bare hname cs
  have hblanks : ∀ tail, skipBlanks ('[' :: tail) = '[' :: tail := fun _ => rfl
  simp [readFileLines, hblanks, hheader, hrest]

theorem adds_entry (hname : IsBareKey name) {levels : Nat} {text : List Char} {value : Value}
    (hvalue : Spells levels text value) (hlevels : levels ≤ nestingLimit) :
    Adds (name ++ ' ' :: '=' :: ' ' :: (text ++ ['\n']))
      [.entry [String.ofList name] value] := by
  refine adds_of_step (by simp) ?_
  intro fuel cs more hrest
  have hentry := readEntry_bare hname hvalue hlevels cs
  have hblanks := skipBlanks_bare hname (' ' :: '=' :: ' ' :: (text ++ '\n' :: cs))
  obtain ⟨hne, hbare⟩ := hname
  cases name with
  | nil => exact absurd rfl hne
  | cons c name =>
    rw [List.all_cons, Bool.and_eq_true] at hbare
    have hcomment : c ≠ '#' := ne_of_apply hbare.1 rfl
    have hheader : c ≠ '[' := ne_of_apply hbare.1 rfl
    have hline : c ≠ '\n' := ne_of_apply hbare.1 rfl
    have hreturn : c ≠ '\r' := ne_of_apply hbare.1 rfl
    have hnewline := skipNewline?_of_ne hline hreturn
      (name ++ ' ' :: '=' :: ' ' :: (text ++ '\n' :: cs))
    have htext : c :: name ++ ' ' :: '=' :: ' ' :: (text ++ ['\n']) ++ cs =
        c :: (name ++ ' ' :: '=' :: ' ' :: (text ++ '\n' :: cs)) := by simp
    rw [List.cons_append] at hentry hblanks
    rw [htext, readFileLines, hblanks]
    simp [hcomment, hheader, hnewline, hentry, hrest]

theorem adds_flatten {texts : List (List Char)} {lines : List (List Line)}
    (h : List.Forall₂ Adds texts lines) : Adds texts.flatten lines.flatten := by
  induction h with
  | nil => exact fun _ _ h => h
  | cons hfirst _ ih =>
    intro cs more h
    have hall := hfirst _ _ (ih cs more h)
    simpa using hall

theorem Adds.fileLines {text : List Char} {lines : List Line} (h : Adds text lines) :
    FileLines text lines := by
  have hall := h [] [] fileLines_nil
  simpa using hall

end AccessBench.Toml
