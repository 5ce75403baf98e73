import AccessBench.Config.Reader
import AccessBench.Proofs.Config.Writer
import Mathlib

/-!
The file that is written for a configuration is read back as that configuration.
-/

namespace AccessBench

open Toml (Value wordValue wordsValue)

namespace Toml

theorem word?_wordValue (n : UInt64) : (wordValue n).word? = some n := by
  simp [wordValue, Value.word?]

theorem words?_wordsValue (ns : List UInt64) : (wordsValue ns).words? = some ns := by
  induction ns with
  | nil => rfl
  | cons n ns ih =>
    have hrest : (ns.map wordValue).mapM Value.word? = some ns := ih
    simp [wordsValue, Value.words?, word?_wordValue, hrest]

theorem fill?_key (mode : FillMode) : (Value.string mode.key).fill? = some mode := by
  cases mode <;> rfl

end Toml

theorem MemoryConfig.ofValue?_entries (c : MemoryConfig) (form : Toml.TableForm) :
    MemoryConfig.ofValue? (.table form c.entries) = some c := by
  simp [ofValue?, Value.fields?, entries, List.lookup, fieldOr, Toml.word?_wordValue,
    Toml.words?_wordsValue]

theorem FileConfig.ofValue?_entries (c : FileConfig) (form : Toml.TableForm) :
    FileConfig.ofValue? (.table form c.entries) = some c := by
  simp [ofValue?, Value.fields?, entries, List.lookup, fieldOr, Toml.word?_wordValue,
    Toml.words?_wordsValue, Toml.fill?_key, Value.text?]

namespace Config

variable {c : Config} {text : String}

theorem ofValue?_entries (c : Config) (form : Toml.TableForm) :
    Config.ofValue? (.table form (c.entries ++ c.tables.map Toml.tableEntry)) = some c := by
  simp [ofValue?, Value.fields?, entries, tables, Toml.tableEntry, List.lookup, fieldOr,
    Toml.word?_wordValue, MemoryConfig.ofValue?_entries, FileConfig.ofValue?_entries]

/-- The names in a file are distinct, at its front and under every header. -/
theorem names_distinct (c : Config) : (Toml.names c.entries ++ Toml.names c.tables).Nodup ∧
    ∀ t ∈ c.tables, (Toml.names t.2).Nodup := by
  simp [entries, tables, MemoryConfig.entries, FileConfig.entries]

theorem ofText?_toToml (h : c.toToml? = some text) :
    Toml.ofText? text = some (c.entries ++ c.tables.map Toml.tableEntry) := by
  obtain ⟨hdistinct, hinside⟩ := c.names_distinct
  have hlines := (adds_toToml h).fileLines (text.toList.length + 1) (Nat.lt_succ_self _)
  rw [Toml.ofText?, skipMark_toToml h, hlines, Option.bind_some,
    Toml.ofLines?_tables hdistinct hinside]

theorem ofToml?_toToml (h : c.toToml? = some text) : ofToml? text = some c := by
  rw [ofToml?, ofText?_toToml h, Option.bind_some, ofValue?_entries]

/-- A configuration has a file exactly when all its integers fit one, and the file is read back as
the configuration. -/
theorem toToml_roundTrip (c : Config) :
    if c.integers.all (fun n => n.toNat < 2 ^ 63) then
      ∃ text, c.toToml? = some text ∧ ofToml? text = some c
    else c.toToml? = none := by
  have hsome : c.integers.all (fun n => n.toNat < 2 ^ 63) = true ↔ c.toToml?.isSome = true := by
    rw [toToml?_isSome, List.all_eq_true]
    simp only [decide_eq_true_eq]
  split
  · next hfit =>
    obtain ⟨text, htext⟩ := Option.isSome_iff_exists.mp (hsome.mp hfit)
    exact ⟨text, htext, ofToml?_toToml htext⟩
  · next hbeyond =>
    rw [hsome] at hbeyond
    exact Option.not_isSome_iff_eq_none.mp hbeyond

end Config

end AccessBench
