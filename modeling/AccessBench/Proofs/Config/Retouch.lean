import AccessBench.Proofs.Config.Fields
import Mathlib.Logic.Relation

/-!
Changes to a document that a configuration takes no notice of: other keys and tables that are added
or removed, and keys in another order.
-/

namespace AccessBench

open Toml (Value TableForm names names_append names_cons tableUnder)

namespace Toml

variable {known : List String} {key name : String} {v : Value}
  {entries entries' before after : List (String × Value)}

theorem lookup_middle (h : name ∉ names (before ++ after)) :
    (before ++ (name, v) :: after).lookup name = some v := by
  rw [names_append, List.mem_append, not_or] at h
  rw [List.lookup_append, lookup_of_not_mem_names h.1, Option.none_or, List.lookup_cons_self]

theorem lookup_middle_of_ne (h : key ≠ name) :
    (before ++ (name, v) :: after).lookup key = (before ++ after).lookup key := by
  have hne : (key == name) = false := by simpa using h
  rw [List.lookup_append, List.lookup_append, List.lookup_cons, hne]

theorem lookup_eq_some_iff_mem (h : (names entries).Nodup) :
    entries.lookup name = some v ↔ (name, v) ∈ entries := by
  refine ⟨mem_of_lookup, ?_⟩
  intro hmem
  obtain ⟨before, after, rfl⟩ := List.append_of_mem hmem
  rw [names_append, names_cons, List.nodup_middle, List.nodup_cons, ← names_append] at h
  exact lookup_middle h.1

theorem lookup_perm (h : entries.Perm entries') (hnodup : (names entries).Nodup) :
    entries.lookup name = entries'.lookup name := by
  have hnodup' : (names entries').Nodup := (h.map _).nodup_iff.mp hnodup
  ext v
  rw [lookup_eq_some_iff_mem hnodup, lookup_eq_some_iff_mem hnodup', h.mem_iff]

theorem lookup_filter (h : name ∈ known) :
    (entries.filter (·.1 ∈ known)).lookup name = entries.lookup name := by
  induction entries with
  | nil => rfl
  | cons e entries ih =>
    by_cases hname : name = e.1
    · have heq : (name == e.1) = true := by simpa using hname
      rw [List.filter_cons_of_pos (by simpa [← hname] using h), List.lookup_cons, List.lookup_cons,
        heq]
    · have hne : (name == e.1) = false := by simpa using hname
      rw [List.lookup_cons, hne, List.filter_cons]
      split
      · rw [List.lookup_cons, hne, ih]
      · exact ih

/-- No known name stands twice. -/
def DistinctIn (known : List String) (entries : List (String × Value)) : Prop :=
  ((names entries).filter (· ∈ known)).Nodup

theorem names_filter : names (entries.filter (·.1 ∈ known)) =
    (names entries).filter (· ∈ known) := by
  rw [names, names, List.filter_map]
  rfl

theorem distinctIn_middle (h : name ∈ known) :
    DistinctIn known (before ++ (name, v) :: after) ↔
      name ∉ names (before ++ after) ∧ DistinctIn known (before ++ after) := by
  have hfilter : (names (before ++ (name, v) :: after)).filter (· ∈ known) =
      (names before).filter (· ∈ known) ++ name :: (names after).filter (· ∈ known) := by
    rw [names_append, names_cons, List.filter_append, List.filter_cons_of_pos (by simpa using h)]
  rw [DistinctIn, DistinctIn, hfilter, List.nodup_middle, List.nodup_cons, ← List.filter_append,
    ← names_append, List.mem_filter]
  simp [h]

/-- Another key is added or removed, or the keys are put in another order. -/
inductive Retouch (known : List String) :
    List (String × Value) → List (String × Value) → Prop
  | add {before after : List (String × Value)} {key : String} (h : key ∉ known) (v : Value) :
      Retouch known (before ++ after) (before ++ (key, v) :: after)
  | remove {before after : List (String × Value)} {key : String} (h : key ∉ known) (v : Value) :
      Retouch known (before ++ (key, v) :: after) (before ++ after)
  | reorder {entries entries' : List (String × Value)} (h : entries.Perm entries') :
      Retouch known entries entries'

theorem Retouch.filter_perm (h : Retouch known entries entries') :
    (entries.filter (·.1 ∈ known)).Perm (entries'.filter (·.1 ∈ known)) := by
  cases h with
  | add h v =>
    rw [List.filter_append, List.filter_append, List.filter_cons_of_neg (by simpa using h)]
  | remove h v =>
    rw [List.filter_append, List.filter_append, List.filter_cons_of_neg (by simpa using h)]
  | reorder h => exact h.filter _

/-- Known keys have the same values, and none of them stands twice. -/
structure Alike (known : List String) (entries entries' : List (String × Value)) : Prop where
  lookup : ∀ key ∈ known, entries'.lookup key = entries.lookup key
  distinct : DistinctIn known entries'

theorem Alike.refl (h : DistinctIn known entries) : Alike known entries entries :=
  ⟨fun _ _ => rfl, h⟩

theorem Retouch.alike (h : Retouch known entries entries') (hdistinct : DistinctIn known entries) :
    Alike known entries entries' := by
  have hperm := h.filter_perm
  rw [DistinctIn, ← names_filter] at hdistinct
  constructor
  · intro key hkey
    rw [← lookup_filter hkey, ← lookup_perm hperm hdistinct, lookup_filter hkey]
  · rw [DistinctIn, ← names_filter]
    exact (hperm.map _).nodup_iff.mp hdistinct

end Toml

namespace Config

variable {entries entries' before after inner inner' : List (String × Value)} {form : TableForm}
  {name : String}

def knownKeys (table : Option String) : List String :=
  (fields.filter (·.table = table)).map (·.key)

def rootKeys : List String := knownKeys none ++ tableNames

/-- A change at the front of a document, in the memory or the file part, or to whether one of these
is there without any key. -/
inductive Retouch : List (String × Value) → List (String × Value) → Prop
  | front {entries entries' : List (String × Value)} (h : Toml.Retouch rootKeys entries entries') :
      Retouch entries entries'
  | under {before after inner inner' : List (String × Value)} {form form' : TableForm}
      {name : String} (hname : name ∈ tableNames)
      (h : Toml.Retouch (knownKeys name) inner inner') :
      Retouch (before ++ (name, .table form inner) :: after)
        (before ++ (name, .table form' inner') :: after)
  | begin {before after : List (String × Value)} {form : TableForm} {name : String}
      (hname : name ∈ tableNames) (h : name ∉ names (before ++ after)) :
      Retouch (before ++ after) (before ++ (name, .table form []) :: after)
  | drop {before after : List (String × Value)} {form : TableForm} {name : String}
      (hname : name ∈ tableNames) :
      Retouch (before ++ (name, .table form []) :: after) (before ++ after)

/-- The memory and the file part are tables, and no known key stands twice. -/
structure Plain (entries : List (String × Value)) : Prop where
  root : Toml.DistinctIn rootKeys entries
  tables : ∀ name ∈ tableNames, Toml.DistinctIn (knownKeys name) (tableUnder name entries)
  tabled : Tabled entries

theorem distinctIn_of_wellFormed (h : Toml.WellFormed entries) (known : List String) :
    Toml.DistinctIn known entries := h.names.filter _

theorem Plain.of_wellFormed (hwell : Toml.WellFormed entries) (htabled : Tabled entries) :
    Plain entries :=
  ⟨distinctIn_of_wellFormed hwell _,
    fun name _ => distinctIn_of_wellFormed (hwell.tableUnder name) _, htabled⟩

theorem mem_knownKeys {f : Field} (h : f ∈ fields) : f.key ∈ knownKeys f.table := by
  refine List.mem_map_of_mem ?_
  rw [List.mem_filter]
  exact ⟨h, by simp⟩

theorem table_mem_tableNames {f : Field} (h : f ∈ fields) (htable : f.table = some name) :
    name ∈ tableNames := by
  have hall : ∀ f ∈ fields, ∀ name ∈ f.table, name ∈ tableNames := by
    simp [fields, tableNames]
  exact hall f h name htable

theorem not_mem_tableNames_of_mem_knownKeys {key : String} (h : key ∈ knownKeys none) :
    key ∉ tableNames := by
  have hall : ∀ key ∈ knownKeys none, key ∉ tableNames := by decide
  exact hall key h

theorem value?_eq {f : Field} (hf : f ∈ fields)
    (hkeys : ∀ key ∈ knownKeys none, entries'.lookup key = entries.lookup key)
    (htables : ∀ name ∈ tableNames,
      Toml.Alike (knownKeys name) (tableUnder name entries) (tableUnder name entries')) :
    f.value? entries' = f.value? entries := by
  have hknown := mem_knownKeys hf
  unfold Field.value?
  cases htable : f.table with
  | none => exact hkeys f.key (htable ▸ hknown)
  | some name =>
    exact (htables name (table_mem_tableNames hf htable)).lookup f.key (htable ▸ hknown)

/-- A change that concerns one of the two parts only. -/
theorem Plain.change (h : Plain entries) (hname : name ∈ tableNames)
    (hframe : ∀ key, key ≠ name → entries'.lookup key = entries.lookup key)
    (hroot : Toml.DistinctIn rootKeys entries')
    (htabled : ∀ v, entries'.lookup name = some v → ∃ form inner, v = .table form inner)
    (hinner : Toml.Alike (knownKeys name) (tableUnder name entries) (tableUnder name entries')) :
    Plain entries' ∧ ∀ f ∈ fields, f.value? entries' = f.value? entries := by
  have htables : ∀ other ∈ tableNames,
      Toml.Alike (knownKeys other) (tableUnder other entries) (tableUnder other entries') := by
    intro other hother
    by_cases heq : other = name
    · rw [heq]
      exact hinner
    · have hsame : tableUnder other entries' = tableUnder other entries := by
        rw [tableUnder, tableUnder, hframe other heq]
      rw [hsame]
      exact .refl (h.tables other hother)
  refine ⟨⟨hroot, fun other hother => (htables other hother).distinct, ?_⟩, ?_⟩
  · intro other hother v hlookup
    by_cases heq : other = name
    · rw [heq] at hlookup
      exact htabled v hlookup
    · rw [hframe other heq] at hlookup
      exact h.tabled other hother v hlookup
  · intro f hf
    refine value?_eq hf ?_ htables
    intro key hkey
    refine hframe key ?_
    rintro rfl
    exact not_mem_tableNames_of_mem_knownKeys hkey hname

theorem tableUnder_middle (h : name ∉ names (before ++ after)) :
    tableUnder name (before ++ (name, .table form inner) :: after) = inner := by
  rw [tableUnder, Toml.lookup_middle h]

theorem tableUnder_of_not_mem (h : name ∉ names entries) : tableUnder name entries = [] := by
  rw [tableUnder, Toml.lookup_of_not_mem_names h]

theorem mem_rootKeys (h : name ∈ tableNames) : name ∈ rootKeys :=
  List.mem_append_right (knownKeys none) h

theorem Plain.front (h : Plain entries) (halike : Toml.Alike rootKeys entries entries') :
    Plain entries' ∧ ∀ f ∈ fields, f.value? entries' = f.value? entries := by
  have htable : ∀ name ∈ tableNames, entries'.lookup name = entries.lookup name :=
    fun name hname => halike.lookup name (mem_rootKeys hname)
  have htables : ∀ name ∈ tableNames,
      Toml.Alike (knownKeys name) (tableUnder name entries) (tableUnder name entries') := by
    intro name hname
    rw [tableUnder, tableUnder, htable name hname]
    exact .refl (h.tables name hname)
  refine ⟨⟨halike.distinct, fun name hname => (htables name hname).distinct, ?_⟩, ?_⟩
  · intro name hname v hlookup
    rw [htable name hname] at hlookup
    exact h.tabled name hname v hlookup
  · intro f hf
    exact value?_eq hf (fun key hkey => halike.lookup key (List.mem_append_left _ hkey)) htables

theorem Retouch.step (h : Retouch entries entries') (hplain : Plain entries) :
    Plain entries' ∧ ∀ f ∈ fields, f.value? entries' = f.value? entries := by
  cases h with
  | front h => exact hplain.front (h.alike hplain.root)
  | @under before after inner inner' form form' name hname h =>
    -- the part stands in the document once, so what is looked up is this one
    have hroot := (Toml.distinctIn_middle (mem_rootKeys hname)).mp hplain.root
    have hinner := hplain.tables name hname
    rw [tableUnder_middle hroot.1] at hinner
    refine hplain.change hname ?_ ((Toml.distinctIn_middle (mem_rootKeys hname)).mpr hroot) ?_ ?_
    · intro key hkey
      rw [Toml.lookup_middle_of_ne hkey, Toml.lookup_middle_of_ne hkey]
    · intro v hv
      rw [Toml.lookup_middle hroot.1] at hv
      exact ⟨form', inner', (Option.some_inj.mp hv).symm⟩
    · rw [tableUnder_middle hroot.1, tableUnder_middle hroot.1]
      exact h.alike hinner
  | @begin before after form name hname h =>
    have hroot := (Toml.distinctIn_middle (v := .table form []) (mem_rootKeys hname)).mpr
      ⟨h, hplain.root⟩
    refine hplain.change hname (fun key hkey => Toml.lookup_middle_of_ne hkey) hroot ?_ ?_
    · intro v hv
      rw [Toml.lookup_middle h] at hv
      exact ⟨form, [], (Option.some_inj.mp hv).symm⟩
    · rw [tableUnder_middle h, tableUnder_of_not_mem h]
      exact .refl List.nodup_nil
  | @drop before after form name hname =>
    obtain ⟨h, hroot⟩ := (Toml.distinctIn_middle (mem_rootKeys hname)).mp hplain.root
    refine hplain.change hname (fun key hkey => (Toml.lookup_middle_of_ne hkey).symm) hroot ?_ ?_
    · intro v hv
      rw [Toml.lookup_of_not_mem_names h] at hv
      cases hv
    · rw [tableUnder_middle h, tableUnder_of_not_mem h]
      exact .refl List.nodup_nil

theorem Retouch.steps (h : Relation.ReflTransGen Retouch entries entries')
    (hplain : Plain entries) :
    Plain entries' ∧ ∀ f ∈ fields, f.value? entries' = f.value? entries := by
  induction h with
  | refl => exact ⟨hplain, fun _ _ => rfl⟩
  | tail _ hstep ih =>
    obtain ⟨hmiddle, hsame⟩ := ih
    obtain ⟨hlast, hstep⟩ := hstep.step hmiddle
    exact ⟨hlast, fun f hf => (hstep f hf).trans (hsame f hf)⟩

/-- A document whose memory and file part, where they are there, are tables is a configuration
exactly when every known key that is there holds a value of its field's kind, and it is the one
whose fields are what their keys hold, or the defaults where the keys are missing. A retouched
document stands for the same configuration, or for none if this one does not. A field whose key has
the same value in two documents is the same in both configurations, whatever else they hold. -/
theorem ofToml?_fields {text : String} (hparsed : Toml.ofText? text = some entries)
    (htabled : Tabled entries) :
    ((∃ c, ofToml? text = some c) ↔ ∀ f ∈ fields, f.Fits entries) ∧
    (∀ c, ofToml? text = some c ↔ ∀ f ∈ fields, f.Follows entries c) ∧
    (∀ entries', Relation.ReflTransGen Retouch entries entries' →
      ofValue? (.table .header entries') = ofToml? text) ∧
    ∀ text' entries' c c', Toml.ofText? text' = some entries' → Tabled entries' →
      ofToml? text = some c → ofToml? text' = some c' →
      ∀ f ∈ fields, f.value? entries' = f.value? entries → f.get c' = f.get c := by
  have hwell := Toml.wellFormed_ofText? hparsed
  have hdecode : ofToml? text = ofValue? (.table .header entries) := by
    rw [ofToml?, hparsed, Option.bind_some]
  have hfollows : ∀ c, ofToml? text = some c ↔ ∀ f ∈ fields, f.Follows entries c := by
    intro c
    rw [hdecode, ofValue?_iff_follows hwell htabled]
  refine ⟨?_, hfollows, ?_, ?_⟩
  · rw [← exists_follows_iff]
    exact exists_congr hfollows
  · intro entries' hretouch
    obtain ⟨hplain', hvalues⟩ := Retouch.steps hretouch (.of_wellFormed hwell htabled)
    rw [hdecode, ofValue?_congr htabled hplain'.tabled hvalues]
  · intro text' entries' c c' hparsed' htabled' hc hc' f hf hvalue
    have hwell' := Toml.wellFormed_ofText? hparsed'
    rw [ofToml?, hparsed', Option.bind_some, ofValue?_iff_follows hwell' htabled'] at hc'
    have hnow := (hfollows c).mp hc f hf
    have hthen := hc' f hf
    rw [Field.Follows, hvalue] at hthen
    exact hthen.unique (f.value?_wellFormed hwell) hnow

/-- Two keys that are known and two that are not, of which one of each is in the memory part. -/
theorem ofToml?_fields_sizes :
    let text := "extra = 1\niterations = 5\n[memory]\nother = true\nsizes = [8]\n"
    let entries := [("extra", .integer 1), ("iterations", .integer 5),
      ("memory", .table .header [("other", .bool true), ("sizes", .array [.integer 8])])]
    let entries' := [("memory", .table .header [("sizes", .array [.integer 8])]),
      ("iterations", .integer 5)]
    Toml.ofText? text = some entries ∧ Tabled entries ∧
      ofToml? text = some { iterations := 5, memory := { sizes := [8] } } ∧
      ofValue? (.table .header entries') = ofToml? text := by
  intro text entries entries'
  have hparsed : Toml.ofText? text = some entries := by cbv
  have htabled : Tabled entries := by
    intro name hname v hlookup
    rcases List.mem_pair.mp hname with rfl | rfl
    · cases hlookup
      exact ⟨_, _, rfl⟩
    · cases hlookup
  obtain ⟨-, hfollows, hretouch, -⟩ := ofToml?_fields hparsed htabled
  have hdecoded : ofToml? text = some { iterations := 5, memory := { sizes := [8] } } := by
    rw [hfollows]
    simp only [fields, List.forall_mem_cons]
    exact ⟨.value rfl, .missing, .value rfl, .missing, .missing, .missing, .missing, .missing,
      .missing, .missing, .missing, .missing, .missing, by simp⟩
  have hextra : Retouch entries entries.tail :=
    .front (@Toml.Retouch.remove rootKeys [] entries.tail "extra" (by decide) _)
  have hother : Retouch entries.tail entries'.reverse :=
    @Retouch.under [("iterations", .integer 5)] [] _ _ .header .header "memory" (by decide)
      (@Toml.Retouch.remove _ [] [("sizes", .array [.integer 8])] "other" (by decide) _)
  have horder : Retouch entries'.reverse entries' := .front (.reorder (.swap _ _ _))
  have hsteps : Relation.ReflTransGen Retouch entries entries' :=
    .tail (.tail (.single hextra) hother) horder
  exact ⟨hparsed, htabled, hdecoded, hretouch _ hsteps⟩

end Config

end AccessBench
