import AccessBench.Proofs.Config.RoundTrip
import AccessBench.Proofs.Toml.WellFormed
import Mathlib.Tactic.SplitIfs

/-!
Which documents are configurations, and what each field of a configuration is read from: the value
of its own key, if the key is there, and nothing else.
-/

namespace AccessBench

open Toml (Value TableForm names names_append names_cons wordValue wordsValue)

namespace Toml

/-! ### Values of fields -/

section

variable {v : Value} {n : UInt64} {ns : List UInt64} {text : String} {mode : FillMode}

theorem word?_eq_some_iff (hwell : v.WellFormed) : v.word? = some n ↔ v = wordValue n := by
  refine ⟨?_, fun h => h ▸ word?_wordValue n⟩
  intro h
  cases hwell with
  | @integer i hlow hhigh =>
    simp only [Value.word?] at h
    split at h
    · next hsign =>
      cases h
      have hlimit : Int64.maxValue.toInt = 2 ^ 63 - 1 := rfl
      have hsmall : i.toNat < 2 ^ 64 := by omega
      have hnat : (UInt64.ofNat i.toNat).toNat = i.toNat := Nat.mod_eq_of_lt hsmall
      rw [wordValue, hnat, Int.toNat_of_nonneg hsign]
    · cases h
  | _ => cases h

theorem words?_eq_some_iff (hwell : v.WellFormed) : v.words? = some ns ↔ v = wordsValue ns := by
  refine ⟨?_, fun h => h ▸ words?_wordsValue ns⟩
  intro h
  cases hwell with
  | array hitems =>
    rw [Value.words?] at h
    have hall := forall₂_of_mapM_option h
    rw [wordsValue]
    congr 1
    clear h
    induction hall with
    | nil => rfl
    | cons hfirst _ ih =>
      rw [List.forall_mem_cons] at hitems
      rw [List.map_cons, (word?_eq_some_iff hitems.1).mp hfirst, ih hitems.2]
  | _ => cases h

theorem text?_eq_some_iff : v.text? = some text ↔ v = .string text := by
  cases v <;> simp [Value.text?]

/-- A fill mode is its key as a text, or a table with that only key and nothing under it. -/
inductive SpellsFill (mode : FillMode) : Value → Prop
  | text : SpellsFill mode (.string mode.key)
  | table (form inner : TableForm) : SpellsFill mode (.table form [(mode.key, .table inner [])])
  | array (form : TableForm) : SpellsFill mode (.table form [(mode.key, .array [])])

theorem ofKey?_eq_some_iff : FillMode.ofKey? text = some mode ↔ text = mode.key := by
  unfold FillMode.ofKey?
  split_ifs with hpattern hrandom
  · cases mode <;> simp [FillMode.key, hpattern]
  · cases mode <;> simp [FillMode.key, hrandom]
  · cases mode <;> simp [FillMode.key, hpattern, hrandom]

theorem fill?_eq_some_iff : v.fill? = some mode ↔ SpellsFill mode v := by
  constructor
  · intro h
    unfold Value.fill? at h
    split at h
    · rw [ofKey?_eq_some_iff.mp h]
      exact .text
    · rw [ofKey?_eq_some_iff.mp h]
      exact .table _ _
    · rw [ofKey?_eq_some_iff.mp h]
      exact .array _
    · cases h
  · intro h
    have hkey : FillMode.ofKey? mode.key = some mode := ofKey?_eq_some_iff.mpr rfl
    cases h <;> exact hkey

end

/-- A kind of contents: the values that spell them, and how these are decoded. -/
structure Kind (α : Type) where
  Spells : α → Value → Prop
  decode : Value → Option α
  decode_iff : ∀ {v a}, v.WellFormed → (decode v = some a ↔ Spells a v)

namespace Kind

def word : Kind UInt64 := ⟨fun n v => v = wordValue n, Value.word?, word?_eq_some_iff⟩

def words : Kind (List UInt64) := ⟨fun ns v => v = wordsValue ns, Value.words?, words?_eq_some_iff⟩

def text : Kind String := ⟨fun text v => v = .string text, Value.text?, fun _ => text?_eq_some_iff⟩

def fill : Kind FillMode := ⟨SpellsFill, Value.fill?, fun _ => fill?_eq_some_iff⟩

variable {α : Type} {kind : Kind α} {default a b : α} {o : Option Value}

/-- Contents come from the value, and from the default where there is none. -/
inductive Reads (kind : Kind α) (default : α) : Option Value → α → Prop
  | missing : Reads kind default none default
  | value {v : Value} {a : α} (h : kind.Spells a v) : Reads kind default (some v) a

theorem fieldOr_eq_some_iff (hwell : ∀ v, o = some v → v.WellFormed) :
    fieldOr default kind.decode o = some a ↔ kind.Reads default o a := by
  cases o with
  | none =>
    rw [fieldOr, Option.some_inj]
    exact ⟨fun h => h ▸ .missing, fun h => by cases h; rfl⟩
  | some v =>
    rw [fieldOr, kind.decode_iff (hwell v rfl)]
    exact ⟨.value, fun h => by cases h; assumption⟩

theorem Reads.unique (hwell : ∀ v, o = some v → v.WellFormed) (ha : kind.Reads default o a)
    (hb : kind.Reads default o b) : a = b := by
  rw [← fieldOr_eq_some_iff hwell] at ha hb
  exact Option.some_inj.mp (ha.symm.trans hb)

theorem exists_reads_iff :
    (∃ a, kind.Reads default o a) ↔ ∀ v, o = some v → ∃ a, kind.Spells a v := by
  constructor
  · rintro ⟨a, h⟩ v rfl
    cases h with
    | value h => exact ⟨a, h⟩
  · intro h
    cases o with
    | none => exact ⟨default, .missing⟩
    | some v =>
      obtain ⟨a, ha⟩ := h v rfl
      exact ⟨a, .value ha⟩

end Kind

/-- The entries of a table of a document, of which there are none when the table is not there. -/
def tableUnder (name : String) (entries : List (String × Value)) : List (String × Value) :=
  match entries.lookup name with
  | some (.table _ inner) => inner
  | _ => []

theorem WellFormed.tableUnder {entries : List (String × Value)} (h : WellFormed entries)
    (name : String) : WellFormed (tableUnder name entries) := by
  unfold Toml.tableUnder
  split
  · next hlookup => exact (h.lookup hlookup).of_table
  · exact wellFormed_nil

end Toml

open Toml (Kind tableUnder)

variable {entries entries' inner : List (String × Value)} {form : TableForm}

/-! ### Fields -/

/-- A field of a configuration: the key that it is read from, the table of the key if it is not at
the front, and the kind of its contents. -/
structure Field where
  table : Option String
  key : String
  Content : Type
  kind : Kind Content
  get : Config → Content

namespace Field

def value? (f : Field) (entries : List (String × Value)) : Option Value :=
  match f.table with
  | none => entries.lookup f.key
  | some name => (tableUnder name entries).lookup f.key

/-- The key holds a value of the kind, if it is there. -/
def Fits (f : Field) (entries : List (String × Value)) : Prop :=
  ∀ v, f.value? entries = some v → ∃ a, f.kind.Spells a v

/-- The field is what its key holds, and the default when the key is not there. -/
def Follows (f : Field) (entries : List (String × Value)) (c : Config) : Prop :=
  f.kind.Reads (f.get {}) (f.value? entries) (f.get c)

theorem value?_wellFormed (f : Field) (h : Toml.WellFormed entries) :
    ∀ v, f.value? entries = some v → v.WellFormed := by
  intro v hv
  unfold value? at hv
  split at hv
  · exact h.lookup hv
  · exact (h.tableUnder _).lookup hv

end Field

namespace Config

def fields : List Field := [
  ⟨none, "iterations", _, .word, (·.iterations)⟩,
  ⟨none, "random_seed", _, .word, (·.randomSeed)⟩,
  ⟨some "memory", "sizes", _, .words, (·.memory.sizes)⟩,
  ⟨some "memory", "strides", _, .words, (·.memory.strides)⟩,
  ⟨some "memory", "pattern_size", _, .word, (·.memory.patternSize)⟩,
  ⟨some "memory", "page_size", _, .word, (·.memory.pageSize)⟩,
  ⟨some "file", "path", _, .text, (·.file.path)⟩,
  ⟨some "file", "file_size", _, .word, (·.file.fileSize)⟩,
  ⟨some "file", "block_size", _, .word, (·.file.blockSize)⟩,
  ⟨some "file", "strides", _, .words, (·.file.strides)⟩,
  ⟨some "file", "block_sizes", _, .words, (·.file.blockSizes)⟩,
  ⟨some "file", "fill", _, .fill, (·.file.fill)⟩,
  ⟨some "file", "settle_delay_ms", _, .word, (·.file.settleDelayMs)⟩]

def tableNames : List String := ["memory", "file"]

/-- The memory and the file part, where they are there, are tables. -/
def Tabled (entries : List (String × Value)) : Prop :=
  ∀ name ∈ tableNames, ∀ v, entries.lookup name = some v → ∃ form inner, v = .table form inner

end Config

theorem MemoryConfig.ofValue?_table {c : MemoryConfig} :
    MemoryConfig.ofValue? (.table form entries) = some c ↔
      fieldOr ({} : MemoryConfig).sizes Value.words? (entries.lookup "sizes") = some c.sizes ∧
      fieldOr ({} : MemoryConfig).strides Value.words? (entries.lookup "strides") = some c.strides ∧
      fieldOr ({} : MemoryConfig).patternSize Value.word? (entries.lookup "pattern_size") =
        some c.patternSize ∧
      fieldOr ({} : MemoryConfig).pageSize Value.word? (entries.lookup "page_size") =
        some c.pageSize := by
  obtain ⟨sizes, strides, patternSize, pageSize⟩ := c
  simp [ofValue?, Value.fields?, Option.bind_eq_some_iff]

theorem FileConfig.ofValue?_table {c : FileConfig} :
    FileConfig.ofValue? (.table form entries) = some c ↔
      fieldOr ({} : FileConfig).path Value.text? (entries.lookup "path") = some c.path ∧
      fieldOr ({} : FileConfig).fileSize Value.word? (entries.lookup "file_size") =
        some c.fileSize ∧
      fieldOr ({} : FileConfig).blockSize Value.word? (entries.lookup "block_size") =
        some c.blockSize ∧
      fieldOr ({} : FileConfig).strides Value.words? (entries.lookup "strides") = some c.strides ∧
      fieldOr ({} : FileConfig).blockSizes Value.words? (entries.lookup "block_sizes") =
        some c.blockSizes ∧
      fieldOr ({} : FileConfig).fill Value.fill? (entries.lookup "fill") = some c.fill ∧
      fieldOr ({} : FileConfig).settleDelayMs Value.word? (entries.lookup "settle_delay_ms") =
        some c.settleDelayMs := by
  obtain ⟨path, fileSize, blockSize, strides, blockSizes, fill, settleDelay⟩ := c
  simp [ofValue?, Value.fields?, Option.bind_eq_some_iff]

namespace Config

variable {c : Config}

theorem ofValue?_table : ofValue? (.table form entries) = some c ↔
    fieldOr ({} : Config).iterations Value.word? (entries.lookup "iterations") =
      some c.iterations ∧
    fieldOr ({} : Config).randomSeed Value.word? (entries.lookup "random_seed") =
      some c.randomSeed ∧
    fieldOr ({} : Config).memory MemoryConfig.ofValue? (entries.lookup "memory") =
      some c.memory ∧
    fieldOr ({} : Config).file FileConfig.ofValue? (entries.lookup "file") = some c.file := by
  obtain ⟨iterations, randomSeed, memory, file⟩ := c
  simp [ofValue?, Value.fields?, Option.bind_eq_some_iff]

/-- A part that is not there is read like an empty one, and the form of its table does not
matter. -/
theorem fieldOr_tableUnder {α : Type} {default : α} {decode : Value → Option α} {name : String}
    (hempty : decode (.table .header []) = some default)
    (hform : ∀ form inner, decode (.table form inner) = decode (.table .header inner))
    (h : Tabled entries) (hname : name ∈ tableNames) :
    fieldOr default decode (entries.lookup name) =
      decode (.table .header (tableUnder name entries)) := by
  unfold tableUnder
  cases hlookup : entries.lookup name with
  | none => exact hempty.symm
  | some v =>
    obtain ⟨form, inner, rfl⟩ := h name hname v hlookup
    exact hform form inner

theorem ofValue?_eq_some_iff (h : Tabled entries) :
    ofValue? (.table form entries) = some c ↔
      ∀ f ∈ fields, fieldOr (f.get {}) f.kind.decode (f.value? entries) = some (f.get c) := by
  have hmemory : fieldOr ({} : Config).memory MemoryConfig.ofValue? (entries.lookup "memory") =
      MemoryConfig.ofValue? (.table .header (tableUnder "memory" entries)) :=
    fieldOr_tableUnder rfl (fun _ _ => rfl) h (by decide)
  have hfile : fieldOr ({} : Config).file FileConfig.ofValue? (entries.lookup "file") =
      FileConfig.ofValue? (.table .header (tableUnder "file" entries)) :=
    fieldOr_tableUnder rfl (fun _ _ => rfl) h (by decide)
  rw [ofValue?_table, hmemory, hfile, MemoryConfig.ofValue?_table, FileConfig.ofValue?_table]
  simp only [fields, List.forall_mem_cons, List.not_mem_nil, false_imp_iff, implies_true,
    and_true, and_assoc]
  rfl

/-- A document stands for the configuration whose every field follows it. -/
theorem ofValue?_iff_follows (hwell : Toml.WellFormed entries) (htabled : Tabled entries) :
    ofValue? (.table form entries) = some c ↔ ∀ f ∈ fields, f.Follows entries c := by
  rw [ofValue?_eq_some_iff htabled]
  refine forall₂_congr ?_
  intro f _
  exact Kind.fieldOr_eq_some_iff (f.value?_wellFormed hwell)

/-- Only the values of the fields' keys matter. -/
theorem ofValue?_congr {form' : TableForm} (h : Tabled entries) (h' : Tabled entries')
    (hvalues : ∀ f ∈ fields, f.value? entries' = f.value? entries) :
    ofValue? (.table form' entries') = ofValue? (.table form entries) := by
  ext c
  rw [ofValue?_eq_some_iff h, ofValue?_eq_some_iff h']
  refine forall₂_congr ?_
  intro f hf
  rw [hvalues f hf]

theorem exists_follows_iff :
    (∃ c, ∀ f ∈ fields, f.Follows entries c) ↔ ∀ f ∈ fields, f.Fits entries := by
  have hfits : ∀ f : Field, f.Fits entries ↔
      ∃ a, f.kind.Reads (f.get {}) (f.value? entries) a := fun f => Kind.exists_reads_iff.symm
  constructor
  · rintro ⟨c, hfollows⟩ f hf
    exact (hfits f).mpr ⟨f.get c, hfollows f hf⟩
  · intro h
    -- the contents of the fields have different types, so each is taken by itself
    simp only [hfits, fields, List.forall_mem_cons] at h
    obtain ⟨⟨iterations, h1⟩, ⟨randomSeed, h2⟩, ⟨sizes, h3⟩, ⟨memoryStrides, h4⟩,
      ⟨patternSize, h5⟩, ⟨pageSize, h6⟩, ⟨path, h7⟩, ⟨fileSize, h8⟩, ⟨blockSize, h9⟩,
      ⟨fileStrides, h10⟩, ⟨blockSizes, h11⟩, ⟨fill, h12⟩, ⟨settleDelay, h13⟩, -⟩ := h
    refine ⟨⟨iterations, randomSeed, ⟨sizes, memoryStrides, patternSize, pageSize⟩,
      ⟨path, fileSize, blockSize, fileStrides, blockSizes, fill, settleDelay⟩⟩, ?_⟩
    simp only [fields, List.forall_mem_cons]
    exact ⟨h1, h2, h3, h4, h5, h6, h7, h8, h9, h10, h11, h12, h13, by simp⟩

end Config

end AccessBench
