import AccessBench.Proofs.Toml.Document
import AccessBench.Toml.Reader
import Mathlib.Tactic.SplitIfs

/-!
What every document that is read has in common: its integers fit 64 bits with a sign, and no table
in it has two entries of one name.
-/

namespace AccessBench.Toml

inductive Value.WellFormed : Value → Prop
  | string (text : String) : WellFormed (.string text)
  | integer {n : Int} (hlow : Int64.minValue.toInt ≤ n) (hhigh : n ≤ Int64.maxValue.toInt) :
      WellFormed (.integer n)
  | float : WellFormed .float
  | bool (b : Bool) : WellFormed (.bool b)
  | moment : WellFormed .moment
  | array {items : List Value} (h : ∀ v ∈ items, WellFormed v) : WellFormed (.array items)
  | table (form : TableForm) {entries : List (String × Value)} (hnames : (names entries).Nodup)
      (h : ∀ e ∈ entries, WellFormed e.2) : WellFormed (.table form entries)
  | tables {items : List (List (String × Value))}
      (hnames : ∀ entries ∈ items, (names entries).Nodup)
      (h : ∀ entries ∈ items, ∀ e ∈ entries, WellFormed e.2) : WellFormed (.tables items)

structure WellFormed (entries : List (String × Value)) : Prop where
  names : (names entries).Nodup
  values : ∀ e ∈ entries, e.2.WellFormed

theorem wellFormed_nil : WellFormed [] := ⟨List.nodup_nil, by simp⟩

variable {key name : String} {value : Value} {entries : List (String × Value)} {form : TableForm}
  {items : List (List (String × Value))}

theorem WellFormed.table (h : WellFormed entries) (form : TableForm) :
    (Value.table form entries).WellFormed := .table form h.names h.values

theorem Value.WellFormed.of_table (h : (Value.table form entries).WellFormed) :
    Toml.WellFormed entries := by
  cases h with
  | table _ hnames hvalues => exact ⟨hnames, hvalues⟩

theorem Value.WellFormed.of_tables (h : (Value.tables items).WellFormed) :
    ∀ entries ∈ items, Toml.WellFormed entries := by
  cases h with
  | tables hnames hvalues => exact fun es hes => ⟨hnames es hes, hvalues es hes⟩

theorem wellFormed_tables (h : ∀ entries ∈ items, WellFormed entries) :
    (Value.tables items).WellFormed :=
  .tables (fun es hes => (h es hes).names) (fun es hes => (h es hes).values)

theorem mem_of_lookup {α : Type} {fields : List (String × α)} {a : α}
    (h : fields.lookup name = some a) : (name, a) ∈ fields := by
  obtain ⟨before, after, rfl, -⟩ := List.lookup_eq_some_iff.mp h
  simp

theorem WellFormed.lookup (h : WellFormed entries) (hlookup : entries.lookup name = some value) :
    value.WellFormed := h.values _ (mem_of_lookup hlookup)

/-! ### Changing tables -/

theorem mem_names_put :
    name ∈ names (put key value entries) ↔ name = key ∨ name ∈ names entries := by
  induction entries with
  | nil => simp [put]
  | cons e entries ih =>
    rw [put]
    split
    · next heq => simp [heq]
    · simp only [names_cons, List.mem_cons, ih]
      exact or_left_comm

theorem nodup_names_put (h : (names entries).Nodup) : (names (put key value entries)).Nodup := by
  induction entries with
  | nil => simp [put]
  | cons e entries ih =>
    rw [names_cons, List.nodup_cons] at h
    rw [put]
    split
    · next heq =>
      rw [names_cons, List.nodup_cons]
      exact ⟨heq ▸ h.1, h.2⟩
    · next hne =>
      rw [names_cons, List.nodup_cons, mem_names_put, not_or]
      exact ⟨⟨hne, h.1⟩, ih h.2⟩

theorem mem_put {e : String × Value} (h : e ∈ put key value entries) :
    e = (key, value) ∨ e ∈ entries := by
  induction entries with
  | nil => simpa [put] using h
  | cons d entries ih =>
    rw [put] at h
    split at h
    · rcases List.mem_cons.mp h with h | h
      · exact .inl h
      · exact .inr (List.mem_cons_of_mem _ h)
    · rcases List.mem_cons.mp h with rfl | h
      · exact .inr List.mem_cons_self
      · exact (ih h).imp_right (List.mem_cons_of_mem _)

theorem WellFormed.put (h : WellFormed entries) (hvalue : value.WellFormed) :
    WellFormed (put key value entries) := by
  refine ⟨nodup_names_put h.names, ?_⟩
  intro e he
  rcases mem_put he with rfl | he
  · exact hvalue
  · exact h.values e he

theorem forall_alterLast {α : Type} {P : α → Prop} {f : α → Option α}
    (hf : ∀ a b, P a → f a = some b → P b) {as bs : List α} (h : alterLast f as = some bs)
    (has : ∀ a ∈ as, P a) : ∀ b ∈ bs, P b := by
  induction as generalizing bs with
  | nil => cases h
  | cons a as ih =>
    rw [List.forall_mem_cons] at has
    cases as with
    | nil =>
      obtain ⟨b, hb, rfl⟩ := Option.map_eq_some_iff.mp h
      simpa using hf a b has.1 hb
    | cons a' as =>
      obtain ⟨bs, hbs, rfl⟩ := Option.map_eq_some_iff.mp h
      rw [List.forall_mem_cons]
      exact ⟨has.1, ih hbs has.2⟩

/-- The change keeps tables well-formed. -/
def Keeps (change : Table → Option Table) : Prop :=
  ∀ table table', WellFormed table.entries → change table = some table' → WellFormed table'.entries

/-- So it does at the end of a path. -/
theorem keeps_alterAt {change : Table → Option Table} (hchange : Keeps change) (dotted : Bool)
    (path : List String) : Keeps (alterAt dotted change path) := by
  induction path with
  | nil => exact hchange
  | cons key path ih =>
    intro table table' hwell h
    rw [alterAt] at h
    cases hlookup : table.entries.lookup key with
    | none =>
      simp only [hlookup, Option.bind_eq_bind, Option.bind_eq_some_iff] at h
      obtain ⟨child, hchild, heq⟩ := h
      cases heq
      exact hwell.put ((ih _ child wellFormed_nil hchild).table child.form)
    | some value =>
      have hvalue := hwell.lookup hlookup
      cases value with
      | table form entries =>
        simp only [hlookup, Option.bind_eq_bind] at h
        split at h
        · cases h
        · obtain ⟨child, hchild, heq⟩ := Option.bind_eq_some_iff.mp h
          cases heq
          exact hwell.put ((ih _ child hvalue.of_table hchild).table child.form)
      | tables items =>
        simp only [hlookup, Option.bind_eq_bind, Option.bind_eq_some_iff] at h
        obtain ⟨items', hitems, heq⟩ := h
        cases heq
        refine hwell.put (wellFormed_tables (forall_alterLast ?_ hitems hvalue.of_tables))
        intro entries entries' hentries hstep
        obtain ⟨child, hchild, rfl⟩ := Option.map_eq_some_iff.mp hstep
        exact ih ⟨.header, entries⟩ child hentries hchild
      | _ => simp [hlookup] at h

theorem keeps_addEntry (key : List String) (hvalue : value.WellFormed) :
    Keeps (addEntry key value) := by
  intro table table' hwell h
  rw [addEntry] at h
  split at h
  · cases h
  · refine keeps_alterAt ?_ true key.dropLast table table' hwell h
    intro table table' hwell h
    dsimp only at h
    split_ifs at h
    cases h
    exact hwell.put hvalue

theorem keeps_beginTable (key : List String) : Keeps (beginTable key) := by
  intro table table' hwell h
  rw [beginTable] at h
  split at h
  · cases h
  · refine keeps_alterAt ?_ false key.dropLast table table' hwell h
    intro table table' hwell h
    dsimp only at h
    split at h
    · cases h
      exact hwell.put (wellFormed_nil.table .header)
    · next hlookup =>
      cases h
      exact hwell.put ((hwell.lookup hlookup).of_table.table .header)
    · cases h

theorem keeps_beginItem (key : List String) : Keeps (beginItem key) := by
  intro table table' hwell h
  rw [beginItem] at h
  split at h
  · cases h
  · refine keeps_alterAt ?_ false key.dropLast table table' hwell h
    intro table table' hwell h
    dsimp only at h
    split at h
    · cases h
      exact hwell.put (wellFormed_tables (by simpa using wellFormed_nil))
    · next hlookup =>
      cases h
      refine hwell.put (wellFormed_tables ?_)
      rw [List.forall_mem_append, List.forall_mem_singleton]
      exact ⟨(hwell.lookup hlookup).of_tables, wellFormed_nil⟩
    · cases h

/-- The value of a line, if it has one, is well-formed. -/
def Line.WellFormed : Line → Prop
  | .entry _ value => value.WellFormed
  | .header _ | .item _ => True

theorem keeps_addLines {lines : List Line} (hlines : ∀ line ∈ lines, line.WellFormed)
    (current : List String) : Keeps (addLines current · lines) := by
  induction lines generalizing current with
  | nil =>
    intro table table' hwell h
    cases h
    exact hwell
  | cons line lines ih =>
    rw [List.forall_mem_cons] at hlines
    intro table table' hwell h
    cases line with
    | entry key value =>
      obtain ⟨next, hnext, hrest⟩ := Option.bind_eq_some_iff.mp h
      have hkeeps := keeps_alterAt (keeps_addEntry key hlines.1) false current
      exact ih hlines.2 current next table' (hkeeps table next hwell hnext) hrest
    | header key =>
      obtain ⟨next, hnext, hrest⟩ := Option.bind_eq_some_iff.mp h
      exact ih hlines.2 key next table' (keeps_beginTable key table next hwell hnext) hrest
    | item key =>
      obtain ⟨next, hnext, hrest⟩ := Option.bind_eq_some_iff.mp h
      exact ih hlines.2 key next table' (keeps_beginItem key table next hwell hnext) hrest

theorem wellFormed_ofLines? {lines : List Line} (hlines : ∀ line ∈ lines, line.WellFormed)
    (h : ofLines? lines = some entries) : WellFormed entries := by
  obtain ⟨table, htable, rfl⟩ := Option.map_eq_some_iff.mp h
  exact keeps_addLines hlines [] emptyTable table wellFormed_nil htable

/-! ### Reading values -/

variable {cs rest : List Char}

theorem wellFormed_integer? {n : Int} (h : integer? n = some value) : value.WellFormed := by
  unfold integer? at h
  split at h
  · next hrange =>
    cases h
    exact .integer hrange.1 hrange.2
  · cases h

theorem wellFormed_readBased {base : Nat} (h : readBased base cs = some (value, rest)) :
    value.WellFormed := by
  simp only [readBased, Option.bind_eq_bind, Option.bind_eq_some_iff] at h
  obtain ⟨digits, -, value', hvalue, heq⟩ := h
  cases heq
  exact wellFormed_integer? hvalue

theorem wellFormed_readDecimal (h : readDecimal cs = some (value, rest)) : value.WellFormed := by
  simp only [readDecimal, Option.bind_eq_bind, Option.bind_eq_some_iff] at h
  obtain ⟨whole, -, fraction, -, exponent, -, h⟩ := h
  split at h
  · obtain ⟨value', hvalue, heq⟩ := Option.bind_eq_some_iff.mp h
    cases heq
    exact wellFormed_integer? hvalue
  · split at h
    · cases h
    · cases h
      exact .float

theorem wellFormed_readNumber (h : readNumber cs = some (value, rest)) : value.WellFormed := by
  unfold readNumber at h
  split at h
  · exact wellFormed_readBased h
  · exact wellFormed_readBased h
  · exact wellFormed_readBased h
  · split at h
    · cases h
      exact .float
    · cases h
      exact .float
    · exact wellFormed_readDecimal h

theorem keeps_addEntries {fields : List (List String × Value)}
    (hfields : ∀ e ∈ fields, e.2.WellFormed) :
    Keeps fun table => fields.foldlM (fun table e => addEntry e.1 e.2 table) table := by
  induction fields with
  | nil =>
    intro table table' hwell h
    cases h
    exact hwell
  | cons e fields ih =>
    rw [List.forall_mem_cons] at hfields
    intro table table' hwell h
    obtain ⟨next, hnext, hrest⟩ := Option.bind_eq_some_iff.mp h
    exact ih hfields.2 next table' (keeps_addEntry e.1 hfields.1 table next hwell hnext) hrest

theorem wellFormed_inlineTable? {fields : List (List String × Value)}
    (hfields : ∀ e ∈ fields, e.2.WellFormed) (h : inlineTable? fields = some value) :
    value.WellFormed := by
  obtain ⟨table, htable, rfl⟩ := Option.map_eq_some_iff.mp h
  exact (keeps_addEntries hfields emptyTable table wellFormed_nil htable).table .inline

/-- What is read with so much fuel is well-formed: values, the items of arrays and the entries of
inline tables. -/
structure Sound (fuel : Nat) : Prop where
  value : ∀ {depth cs value rest}, readValue fuel depth cs = some (value, rest) → value.WellFormed
  items : ∀ {depth cs items rest}, readItems fuel depth cs = some (items, rest) →
    ∀ v ∈ items, v.WellFormed
  entries : ∀ {depth cs entries rest}, readEntries fuel depth cs = some (entries, rest) →
    ∀ e ∈ entries, e.2.WellFormed

variable {fuel depth : Nat}

theorem Sound.readValue_succ (ih : Sound fuel)
    (h : readValue (fuel + 1) depth cs = some (value, rest)) : value.WellFormed := by
  rw [readValue.eq_def] at h
  dsimp only at h
  split at h
  · -- an array
    split at h
    · cases h
    · obtain ⟨read, hread, heq⟩ := Option.map_eq_some_iff.mp h
      cases heq
      exact .array (ih.items hread)
  · -- an inline table
    split at h
    · cases h
    · cases h
      exact wellFormed_nil.table .inline
    · simp only [Option.bind_eq_bind, Option.bind_eq_some_iff] at h
      obtain ⟨read, hread, table, htable, heq⟩ := h
      cases heq
      exact wellFormed_inlineTable? (ih.entries hread) htable
  · obtain ⟨read, -, heq⟩ := Option.map_eq_some_iff.mp h
    cases heq
    exact .string _
  · obtain ⟨read, -, heq⟩ := Option.map_eq_some_iff.mp h
    cases heq
    exact .string _
  · cases h
    exact .bool true
  · cases h
    exact .bool false
  · split at h
    · cases h
      exact .moment
    · exact wellFormed_readNumber h

theorem Sound.readItems_succ (ih : Sound fuel) {items : List Value}
    (h : readItems (fuel + 1) depth cs = some (items, rest)) : ∀ v ∈ items, v.WellFormed := by
  rw [readItems] at h
  obtain ⟨start, -, h⟩ := Option.bind_eq_some_iff.mp h
  split at h
  · cases h
    simp
  · obtain ⟨⟨item, after⟩, hitem, h⟩ := Option.bind_eq_some_iff.mp h
    obtain ⟨next, -, h⟩ := Option.bind_eq_some_iff.mp h
    have hfirst := ih.value hitem
    split at h
    · obtain ⟨⟨more, last⟩, hmore, heq⟩ := Option.bind_eq_some_iff.mp h
      cases heq
      rw [List.forall_mem_cons]
      exact ⟨hfirst, ih.items hmore⟩
    · cases h
      simpa using hfirst
    · cases h

theorem Sound.readEntries_succ (ih : Sound fuel) {entries : List (List String × Value)}
    (h : readEntries (fuel + 1) depth cs = some (entries, rest)) :
    ∀ e ∈ entries, e.2.WellFormed := by
  rw [readEntries] at h
  obtain ⟨⟨key, afterKey⟩, -, h⟩ := Option.bind_eq_some_iff.mp h
  obtain ⟨afterSign, -, h⟩ := Option.bind_eq_some_iff.mp h
  obtain ⟨⟨value, afterValue⟩, hvalue, h⟩ := Option.bind_eq_some_iff.mp h
  have hfirst := ih.value hvalue
  dsimp only at h
  split at h
  · obtain ⟨⟨more, last⟩, hmore, heq⟩ := Option.bind_eq_some_iff.mp h
    cases heq
    rw [List.forall_mem_cons]
    exact ⟨hfirst, ih.entries hmore⟩
  · cases h
    simpa using hfirst
  · cases h

theorem sound (fuel : Nat) : Sound fuel := by
  induction fuel with
  | zero =>
    constructor
    · intro depth cs value rest h
      rw [readValue] at h
      cases h
    · intro depth cs items rest h
      rw [readItems] at h
      cases h
    · intro depth cs entries rest h
      rw [readEntries] at h
      cases h
  | succ fuel ih => exact ⟨ih.readValue_succ, ih.readItems_succ, ih.readEntries_succ⟩

/-! ### Reading files -/

variable {line : Line}

theorem wellFormed_readHeader (h : readHeader cs = some (line, rest)) : line.WellFormed := by
  unfold readHeader at h
  split at h
  · simp only [Option.bind_eq_bind, Option.bind_eq_some_iff] at h
    obtain ⟨key, -, _, -, _, -, _, -, heq⟩ := h
    cases heq
    trivial
  · simp only [Option.bind_eq_bind, Option.bind_eq_some_iff] at h
    obtain ⟨key, -, _, -, _, -, heq⟩ := h
    cases heq
    trivial
  · cases h

theorem wellFormed_readEntry (h : readEntry cs = some (line, rest)) : line.WellFormed := by
  simp only [readEntry, Option.bind_eq_bind, Option.bind_eq_some_iff] at h
  obtain ⟨key, -, _, -, value, hvalue, _, -, heq⟩ := h
  cases heq
  exact (sound _).value hvalue

theorem wellFormed_readFileLines {lines : List Line} (h : readFileLines fuel cs = some lines) :
    ∀ line ∈ lines, line.WellFormed := by
  induction fuel generalizing cs lines with
  | zero => cases h
  | succ fuel ih =>
    rw [readFileLines] at h
    split at h
    · cases h
      simp
    · obtain ⟨_, -, hrest⟩ := Option.bind_eq_some_iff.mp h
      exact ih hrest
    · obtain ⟨⟨line, _⟩, hline, h⟩ := Option.bind_eq_some_iff.mp h
      obtain ⟨more, hmore, heq⟩ := Option.bind_eq_some_iff.mp h
      cases heq
      rw [List.forall_mem_cons]
      exact ⟨wellFormed_readHeader hline, ih hmore⟩
    · split at h
      · exact ih h
      · obtain ⟨⟨line, _⟩, hline, h⟩ := Option.bind_eq_some_iff.mp h
        obtain ⟨more, hmore, heq⟩ := Option.bind_eq_some_iff.mp h
        cases heq
        rw [List.forall_mem_cons]
        exact ⟨wellFormed_readEntry hline, ih hmore⟩

/-- Documents are well-formed. -/
theorem wellFormed_ofText? {text : String} (h : ofText? text = some entries) :
    WellFormed entries := by
  obtain ⟨lines, hlines, hentries⟩ := Option.bind_eq_some_iff.mp h
  exact wellFormed_ofLines? (wellFormed_readFileLines hlines) hentries

end AccessBench.Toml
