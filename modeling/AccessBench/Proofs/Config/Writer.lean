import AccessBench.Config.Writer
import AccessBench.Proofs.Answers
import AccessBench.Proofs.Toml.Document
import AccessBench.Proofs.Toml.Line

/-!
What is written for a configuration: when there is a file for it, and which lines the file has.
-/

namespace AccessBench

open Toml

namespace Toml

theorem isSome_bind_iff {α β : Type} {o : Option α} {f : α → Option β} {p : Prop}
    (h : ∀ a, (f a).isSome = true ↔ p) : (o.bind f).isSome = true ↔ o.isSome = true ∧ p := by
  cases o with
  | none => simp
  | some a => simp [h]

/-! ### Values -/

variable {n : UInt64} {ns : List UInt64} {text : String}

def wordValue (n : UInt64) : Value := .integer n.toNat

def wordsValue (ns : List UInt64) : Value := .array (ns.map wordValue)

theorem integerText?_isSome : (integerText? n).isSome = true ↔ n.toNat < 2 ^ 63 := by
  have hlimit : n < 0x8000000000000000 ↔ n.toNat < 2 ^ 63 := UInt64.lt_iff_toNat_lt
  unfold integerText?
  by_cases h : n < 0x8000000000000000
  · rw [if_pos h]
    exact iff_of_true rfl (hlimit.mp h)
  · rw [if_neg h]
    exact iff_of_false Bool.false_ne_true (mt hlimit.mpr h)

theorem spells_integerText (h : integerText? n = some text) :
    Spells 0 text.toList (wordValue n) := by
  have hlimit : n.toNat < 2 ^ 63 := by
    rw [← integerText?_isSome, h]
    rfl
  have htext : text.toList = Nat.toDigits 10 n.toNat := by
    unfold integerText? at h
    split at h
    · cases h
      exact Nat.toList_repr
    · cases h
  rw [htext]
  exact spells_toDigits hlimit

theorem spells_quotedText (text : String) : Spells 0 (quotedText text).toList (.string text) := by
  have hspells := spells_quote text.toList
  rw [String.ofList_toList] at hspells
  rwa [quotedText, String.toList_ofList]

theorem arrayText?_isSome : (arrayText? ns).isSome = true ↔ ∀ n ∈ ns, n.toNat < 2 ^ 63 := by
  simp only [arrayText?, Option.isSome_map, mapM_option_isSome, integerText?_isSome]

theorem spells_arrayText (h : arrayText? ns = some text) :
    Spells 1 text.toList (wordsValue ns) := by
  obtain ⟨texts, htexts, rfl⟩ := Option.map_eq_some_iff.mp h
  have hitems : List.Forall₂ (Spells 0) (texts.map String.toList) (ns.map wordValue) := by
    rw [List.forall₂_map_left_iff, List.forall₂_map_right_iff]
    exact (forall₂_of_mapM_option htexts).flip.imp fun _ _ => spells_integerText
  have harray := spells_array hitems
  simpa [wordsValue] using harray

/-! ### Lines -/

theorem adds_keyLine {key value : String} {levels : Nat} {v : Value}
    (hkey : IsBareKey key.toList) (hvalue : Spells levels value.toList v)
    (hlevels : levels ≤ nestingLimit) :
    Adds (keyLine key value).toList [.entry [key] v] := by
  have hentry := adds_entry hkey hvalue hlevels
  simpa [keyLine] using hentry

theorem adds_headerLine {key line : String} (hkey : IsBareKey key.toList)
    (hline : line.toList = '[' :: (key.toList ++ [']', '\n'])) :
    Adds line.toList [.header [key]] := by
  rw [hline]
  simpa using adds_header hkey

theorem adds_join {texts : List String} {lines : List (List Line)}
    (h : List.Forall₂ (fun text => Adds text.toList) texts lines) :
    Adds (String.join texts).toList lines.flatten := by
  have hflatten := adds_flatten (List.forall₂_map_left_iff.mpr h)
  rwa [String.toList_join, List.flatMap_def]

theorem adds_lines {texts : List String} {lines : List Line}
    (h : List.Forall₂ (fun text line => Adds text.toList [line]) texts lines) :
    Adds (String.join texts).toList lines := by
  have hjoin := adds_join (List.forall₂_map_right_iff.mpr h)
  rwa [← List.flatMap_def, List.flatMap_singleton'] at hjoin

end Toml

/-! ### Configurations -/

namespace MemoryConfig

variable {c : MemoryConfig} {text : String}

def integers (c : MemoryConfig) : List UInt64 := c.sizes ++ c.strides ++ [c.patternSize, c.pageSize]

def entries (c : MemoryConfig) : List (String × Value) := [
  ("sizes", wordsValue c.sizes),
  ("strides", wordsValue c.strides),
  ("pattern_size", wordValue c.patternSize),
  ("page_size", wordValue c.pageSize)]

theorem toToml?_isSome : c.toToml?.isSome = true ↔ ∀ n ∈ c.integers, n.toNat < 2 ^ 63 := by
  -- the parts are written one after the other, and each can only fail by itself
  have hparts : c.toToml?.isSome = true ↔ _ :=
    isSome_bind_iff fun _ => isSome_bind_iff fun _ => isSome_bind_iff fun _ =>
      isSome_bind_iff fun _ => iff_of_true rfl trivial
  rw [hparts]
  simp [arrayText?_isSome, integerText?_isSome, integers, or_imp, forall_and]

theorem adds_toToml (h : c.toToml? = some text) :
    Adds text.toList (tableLines ("memory", c.entries)) := by
  simp only [toToml?, Option.bind_eq_bind, Option.bind_eq_some_iff] at h
  obtain ⟨sizes, hsizes, strides, hstrides, patternSize, hpattern, pageSize, hpage, heq⟩ := h
  cases heq
  simp only [tableLines, entryLines, entries, List.map_cons, List.map_nil]
  exact adds_lines <|
    .cons (adds_headerLine (by decide) rfl) <|
    .cons (adds_keyLine (by decide) (spells_arrayText hsizes) (by decide)) <|
    .cons (adds_keyLine (by decide) (spells_arrayText hstrides) (by decide)) <|
    .cons (adds_keyLine (by decide) (spells_integerText hpattern) (by decide)) <|
    .cons (adds_keyLine (by decide) (spells_integerText hpage) (by decide)) .nil

end MemoryConfig

namespace FileConfig

variable {c : FileConfig} {text : String}

def integers (c : FileConfig) : List UInt64 :=
  [c.fileSize, c.blockSize] ++ c.strides ++ c.blockSizes ++ [c.settleDelayMs]

def entries (c : FileConfig) : List (String × Value) := [
  ("path", .string c.path),
  ("file_size", wordValue c.fileSize),
  ("block_size", wordValue c.blockSize),
  ("strides", wordsValue c.strides),
  ("block_sizes", wordsValue c.blockSizes),
  ("fill", .string c.fill.key),
  ("settle_delay_ms", wordValue c.settleDelayMs)]

theorem toToml?_isSome : c.toToml?.isSome = true ↔ ∀ n ∈ c.integers, n.toNat < 2 ^ 63 := by
  have hparts : c.toToml?.isSome = true ↔ _ :=
    isSome_bind_iff fun _ => isSome_bind_iff fun _ => isSome_bind_iff fun _ =>
      isSome_bind_iff fun _ => isSome_bind_iff fun _ => iff_of_true rfl trivial
  rw [hparts]
  simp [arrayText?_isSome, integerText?_isSome, integers, or_imp, forall_and]

theorem adds_toToml (h : c.toToml? = some text) :
    Adds text.toList (tableLines ("file", c.entries)) := by
  simp only [toToml?, Option.bind_eq_bind, Option.bind_eq_some_iff] at h
  obtain ⟨fileSize, hsize, blockSize, hblock, strides, hstrides, blockSizes, hblocks,
    settleDelay, hdelay, heq⟩ := h
  cases heq
  simp only [tableLines, entryLines, entries, List.map_cons, List.map_nil]
  exact adds_lines <|
    .cons (adds_headerLine (by decide) rfl) <|
    .cons (adds_keyLine (by decide) (spells_quotedText c.path) (by decide)) <|
    .cons (adds_keyLine (by decide) (spells_integerText hsize) (by decide)) <|
    .cons (adds_keyLine (by decide) (spells_integerText hblock) (by decide)) <|
    .cons (adds_keyLine (by decide) (spells_arrayText hstrides) (by decide)) <|
    .cons (adds_keyLine (by decide) (spells_arrayText hblocks) (by decide)) <|
    .cons (adds_keyLine (by decide) (spells_quotedText c.fill.key) (by decide)) <|
    .cons (adds_keyLine (by decide) (spells_integerText hdelay) (by decide)) .nil

end FileConfig

namespace Config

variable {c : Config} {text : String}

/-- All the integers of a configuration. -/
def integers (c : Config) : List UInt64 :=
  [c.iterations, c.randomSeed] ++ c.memory.integers ++ c.file.integers

def entries (c : Config) : List (String × Value) := [
  ("iterations", wordValue c.iterations),
  ("random_seed", wordValue c.randomSeed)]

def tables (c : Config) : List (String × List (String × Value)) := [
  ("memory", c.memory.entries),
  ("file", c.file.entries)]

theorem toToml?_isSome : c.toToml?.isSome = true ↔ ∀ n ∈ c.integers, n.toNat < 2 ^ 63 := by
  have hparts : c.toToml?.isSome = true ↔ _ :=
    isSome_bind_iff fun _ => isSome_bind_iff fun _ => isSome_bind_iff fun _ =>
      isSome_bind_iff fun _ => iff_of_true rfl trivial
  rw [hparts]
  simp [integerText?_isSome, MemoryConfig.toToml?_isSome, FileConfig.toToml?_isSome, integers,
    or_imp, forall_and]

theorem adds_toToml (h : c.toToml? = some text) :
    Adds text.toList (entryLines c.entries ++ c.tables.flatMap tableLines) := by
  simp only [toToml?, Option.bind_eq_bind, Option.bind_eq_some_iff] at h
  obtain ⟨iterations, hiterations, randomSeed, hseed, memory, hmemory, file, hfile, heq⟩ := h
  cases heq
  have hlines : entryLines c.entries ++ c.tables.flatMap tableLines =
      [[.entry ["iterations"] (wordValue c.iterations)],
        [.entry ["random_seed"] (wordValue c.randomSeed)],
        [], tableLines ("memory", c.memory.entries),
        [], tableLines ("file", c.file.entries)].flatten := rfl
  rw [hlines]
  exact adds_join <|
    .cons (adds_keyLine (by decide) (spells_integerText hiterations) (by decide)) <|
    .cons (adds_keyLine (by decide) (spells_integerText hseed) (by decide)) <|
    .cons adds_newline <| .cons (MemoryConfig.adds_toToml hmemory) <|
    .cons adds_newline <| .cons (FileConfig.adds_toToml hfile) .nil

/-- No mark of the encoding is written. -/
theorem skipMark_toToml (h : c.toToml? = some text) : skipMark text.toList = text.toList := by
  simp only [toToml?, Option.bind_eq_bind, Option.bind_eq_some_iff] at h
  obtain ⟨iterations, -, randomSeed, -, memory, -, file, -, heq⟩ := h
  cases heq
  simp [keyLine, skipMark]

end Config

end AccessBench
