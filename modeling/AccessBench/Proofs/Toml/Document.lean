import AccessBench.Toml.Document
import Mathlib.Data.List.Nodup

/-!
Lines with distinct names stand for the table that they spell out: first the entries before all
headers, then a table for every header with the entries under it.
-/

namespace AccessBench.Toml

def names {α : Type} (fields : List (String × α)) : List String := fields.map (·.1)

variable {α : Type} {name : String} {before entries : List (String × Value)}

@[simp] theorem names_nil : names ([] : List (String × α)) = [] := rfl

@[simp] theorem names_cons (field : String × α) (fields : List (String × α)) :
    names (field :: fields) = field.1 :: names fields := rfl

@[simp] theorem names_append (fields more : List (String × α)) :
    names (fields ++ more) = names fields ++ names more := List.map_append

theorem not_mem_of_nodup {xs ys : List String} {x : String} (h : (xs ++ x :: ys).Nodup) :
    x ∉ xs := by
  intro hmem
  have hcons := List.nodup_middle.mp h
  exact (List.nodup_cons.mp hcons).1 (List.mem_append_left ys hmem)

theorem lookup_of_not_mem_names {fields : List (String × α)} (h : name ∉ names fields) :
    fields.lookup name = none := by
  rw [List.lookup_eq_none_iff]
  intro field hfield
  have hne : name ≠ field.1 := by
    rintro rfl
    exact h (List.mem_map_of_mem hfield)
  simpa using hne

theorem lookup_append_last {fields : List (String × α)} (h : name ∉ names fields) (a : α) :
    (fields ++ [(name, a)]).lookup name = some a := by
  rw [List.lookup_append, lookup_of_not_mem_names h]
  simp

theorem put_append (h : name ∉ names before) (value : Value) (rest : List (String × Value)) :
    put name value (before ++ rest) = before ++ put name value rest := by
  induction before with
  | nil => rfl
  | cons e before ih =>
    rw [names_cons, List.mem_cons, not_or] at h
    rw [List.cons_append, put, if_neg (Ne.symm h.1), ih h.2]
    rfl

theorem put_of_not_mem_names (h : name ∉ names before) (value : Value) :
    put name value before = before ++ [(name, value)] := by
  simpa [put] using put_append h value []

def entryLines (entries : List (String × Value)) : List Line :=
  entries.map fun e => .entry [e.1] e.2

def tableLines (table : String × List (String × Value)) : List Line :=
  .header [table.1] :: entryLines table.2

theorem addEntry_of_not_mem_names (h : name ∉ names before) (value : Value) :
    addEntry [name] value ⟨.header, before⟩ = some ⟨.header, before ++ [(name, value)]⟩ := by
  simp [addEntry, alterAt, lookup_of_not_mem_names h, put_of_not_mem_names h]

/-- Entries go to the table at the front as long as there was no header. -/
theorem addLines_root (h : (names (before ++ entries)).Nodup) (lines : List Line) :
    addLines [] ⟨.header, before⟩ (entryLines entries ++ lines) =
      addLines [] ⟨.header, before ++ entries⟩ lines := by
  induction entries generalizing before with
  | nil => rw [List.append_nil]; rfl
  | cons e entries ih =>
    have hmore : before ++ e :: entries = (before ++ [e]) ++ entries := by simp
    have hfresh : e.1 ∉ names before := by
      rw [names_append] at h
      exact not_mem_of_nodup h
    rw [hmore] at h ⊢
    rw [← ih h]
    simp [entryLines, addLines, alterAt, addEntry_of_not_mem_names hfresh]

/-- After a header they go to its table. -/
theorem addLines_table {inside : List (String × Value)} (hname : name ∉ names before)
    (h : (names (inside ++ entries)).Nodup) (lines : List Line) :
    addLines [name] ⟨.header, before ++ [(name, .table .header inside)]⟩
        (entryLines entries ++ lines) =
      addLines [name] ⟨.header, before ++ [(name, .table .header (inside ++ entries))]⟩ lines := by
  induction entries generalizing inside with
  | nil => rw [List.append_nil]; rfl
  | cons e entries ih =>
    have hmore : inside ++ e :: entries = (inside ++ [e]) ++ entries := by simp
    have hfresh : e.1 ∉ names inside := by
      rw [names_append] at h
      exact not_mem_of_nodup h
    rw [hmore] at h ⊢
    rw [← ih h]
    have hlookup := lookup_append_last hname (Value.table .header inside)
    simp [entryLines, addLines, alterAt, hlookup, addEntry_of_not_mem_names hfresh,
      put_append hname, put]

theorem beginTable_of_not_mem_names (h : name ∉ names before) :
    beginTable [name] ⟨.header, before⟩ =
      some ⟨.header, before ++ [(name, .table .header [])]⟩ := by
  simp [beginTable, alterAt, lookup_of_not_mem_names h, put_of_not_mem_names h]

def tableEntry (table : String × List (String × Value)) : String × Value :=
  (table.1, .table .header table.2)

theorem addLines_tables {tables : List (String × List (String × Value))}
    (hdistinct : (names before ++ names tables).Nodup)
    (hinside : ∀ t ∈ tables, (names t.2).Nodup) (current : List String) :
    addLines current ⟨.header, before⟩ (tables.flatMap tableLines) =
      some ⟨.header, before ++ tables.map tableEntry⟩ := by
  induction tables generalizing before current with
  | nil => simp [addLines]
  | cons t tables ih =>
    rw [List.forall_mem_cons] at hinside
    have hfresh : t.1 ∉ names before := not_mem_of_nodup hdistinct
    have hbegin := beginTable_of_not_mem_names hfresh
    have hentries : addLines [t.1] ⟨.header, before ++ [(t.1, .table .header [])]⟩
        (entryLines t.2 ++ tables.flatMap tableLines) =
          addLines [t.1] ⟨.header, before ++ [tableEntry t]⟩ (tables.flatMap tableLines) := by
      have hempty : (names ([] ++ t.2)).Nodup := hinside.1
      exact addLines_table hfresh hempty _
    have hdistinct' : (names (before ++ [tableEntry t]) ++ names tables).Nodup := by
      simpa [tableEntry] using hdistinct
    have hrest := ih hdistinct' hinside.2 [t.1]
    rw [List.flatMap_cons, tableLines, List.cons_append, addLines, hbegin]
    simp only [Option.bind_eq_bind, Option.bind_some]
    rw [hentries, hrest]
    simp

theorem ofLines?_tables {tables : List (String × List (String × Value))}
    (hdistinct : (names entries ++ names tables).Nodup)
    (hinside : ∀ t ∈ tables, (names t.2).Nodup) :
    ofLines? (entryLines entries ++ tables.flatMap tableLines) =
      some (entries ++ tables.map tableEntry) := by
  have hroot : (names ([] ++ entries)).Nodup := (List.nodup_append.mp hdistinct).1
  rw [ofLines?, emptyTable, addLines_root hroot, List.nil_append,
    addLines_tables hdistinct hinside]
  rfl

end AccessBench.Toml
