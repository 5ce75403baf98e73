import AccessBench.Proofs.Benchmark.Sections
import AccessBench.Proofs.Report.Filing
import AccessBench.Proofs.Report.Sheet

/-!
Collected documents and sheets report the same rows, as long as every row comes after some section.
A document keeps its rows under the sections and a sheet writes the current title to every row, so a
row before all sections is lost to the one and not to the other. Runs report no such row.
-/

namespace AccessBench

open Event (RowsFollowSection entry?)

namespace Document

/-- The rows of all sections in their order, each with the title of its section. -/
def titledRows (d : Document) : List (String × Row) :=
  d.sections.flatMap fun s => s.rows.map fun row => (s.title, row)

/-- The title of the last section, empty if there is none. -/
def lastTitle (d : Document) : String := (d.sections.map (·.title)).getLast?.getD ""

variable {d : Document}

theorem lastTitle_changeLast {change : DocumentSection → DocumentSection}
    (hsame : ∀ s, (change s).title = s.title) :
    lastTitle { d with sections := changeLast change d.sections } = d.lastTitle := by
  simp only [lastTitle, map_changeLast_of_eq hsame]

theorem titledRows_changeLast (row : Row) (h : d.sections ≠ []) :
    titledRows { d with
      sections := changeLast (fun s => { s with rows := s.rows ++ [row] }) d.sections } =
      d.titledRows ++ [(d.lastTitle, row)] := by
  obtain hnil | ⟨init, last, hsections⟩ := d.sections.eq_nil_or_concat
  · exact absurd hnil h
  · simp [titledRows, lastTitle, hsections]

end Document

theorem Collection.titledRows_addNote {ω : Type} (c : Collection ω) (message : String) :
    (c.addNote message).titledRows = c.document.titledRows := by
  unfold addNote
  dsimp only
  split
  · exact flatMap_changeLast_of_eq fun _ => rfl
  · split <;> rfl

theorem Collection.lastTitle_addNote {ω : Type} (c : Collection ω) (message : String) :
    (c.addNote message).lastTitle = c.document.lastTitle := by
  unfold addNote
  dsimp only
  split
  · exact Document.lastTitle_changeLast fun _ => rfl
  · split <;> rfl

section

variable {ω ω' : Type} {c : Collection ω} {sheet : Sheet ω'}

/-- The current title of a sheet is that of the last section, and its records are the rows of all
sections. -/
structure Agree (c : Collection ω) (sheet : Sheet ω') : Prop where
  title : sheet.title = c.document.lastTitle
  records : sheet.records = c.document.titledRows.map fun told => Sheet.rowFields told.1 told.2

theorem Agree.collect (h : Agree c sheet) {event : Event}
    (hrow : event.row?.isSome → c.document.sections ≠ []) :
    Agree (c.collect event) (sheet.collect event) := by
  cases event with
  | opened title lines => exact ⟨h.title, h.records⟩
  | entered title suite =>
    constructor
    · simp [Collection.collect, Sheet.collect, Document.lastTitle]
    · simpa [Collection.collect, Sheet.collect, Document.titledRows] using h.records
  | measured row =>
    have hsections := hrow rfl
    constructor
    · have htitle : (c.collect (.measured row)).document.lastTitle = c.document.lastTitle :=
        Document.lastTitle_changeLast fun _ => rfl
      exact h.title.trans htitle.symm
    · rw [Collection.collect, Document.titledRows_changeLast row hsections, List.map_append,
        ← h.records, ← h.title]
      rfl
  | noted message =>
    constructor
    · exact h.title.trans (c.lastTitle_addNote message).symm
    · rw [Collection.collect, Collection.titledRows_addNote]
      exact h.records
  | finished banner => exact h

theorem Agree.receive (h : Agree c sheet) (writer : Writer ω) (writer' : Writer ω') {event : Event}
    (hrow : event.row?.isSome → c.document.sections ≠ []) :
    Agree (c.receive writer event).state (sheet.receive writer' event).state := by
  have hcollect := h.collect hrow
  cases event with
  | opened | entered | measured | noted => exact hcollect
  | finished banner =>
    rw [Collection.receive, Sheet.receive]
    split <;> split <;> exact ⟨h.title, h.records⟩

theorem agree_after (writer : Writer ω) (writer' : Writer ω') (out : ω) (out' : ω')
    (iterations : UInt64) {events : List Event} (h : RowsFollowSection events) :
    Agree
      ((Collection.sink writer).after events { document := { iterations := iterations }, out := out })
      ((Sheet.sink writer').after events { out := out' }) := by
  induction events using List.reverseRecOn with
  | nil => exact ⟨rfl, rfl⟩
  | append_singleton events event ih =>
    rw [Event.rowsFollowSection_append_singleton] at h
    obtain ⟨hbefore, hlast⟩ := h
    have hfiled := (Collection.files_after writer out iterations events).document
    rw [Sink.after_append_singleton, Sink.after_append_singleton]
    refine (ih hbefore).receive writer writer' fun hrow => ?_
    rw [hfiled]
    simpa [Document.filed] using hlast hrow

end

/-- After any events that report no row before all sections, a collected document and a sheet tell
the same rows: the records of the sheet are the rows that stand under the sections of the document,
in their order, each with the title of its section. What a run hands to a sink reports no such
row. -/
theorem Sheet.records_eq_titledRows {ω ω' : Type} (writer : Writer ω) (writer' : Writer ω')
    (out : ω) (out' : ω') (iterations : UInt64) :
    (∀ events : List Event, RowsFollowSection events →
      let told : List (String × Row) := ((Collection.sink writer).after events
        { document := { iterations := iterations }, out := out }).document.titledRows
      let sheet := (sink writer').after events { out := out' }
      told.length = sheet.records.length ∧
        (∀ i : Nat, sheet.records[i]? = told[i]?.map fun (title, row) => rowFields title row) ∧
        sheet.toText =
          String.join (record columns :: told.map fun (title, row) => record (rowFields title row))) ∧
    ∀ {σ τ : Type} (host : Host σ) (sink : Sink τ) (b : Benchmark) (suites : Suites) (w : σ) (t : τ),
      RowsFollowSection ((b.calls host sink suites w t).map Sink.Call.event) := by
  constructor
  · intro events h told sheet
    have hrecords : sheet.records = told.map fun (title, row) => rowFields title row :=
      (agree_after writer writer' out out' iterations h).records
    refine ⟨?_, ?_, ?_⟩
    · rw [hrecords, List.length_map]
    · intro i
      rw [hrecords, List.getElem?_map]
    · rw [toText, hrecords, List.map_map]
      rfl
  · intro σ τ host sink b suites w t
    exact b.rowsFollowSection_calls host sink suites w t

/-- Two sections of one title, one of them opened over before its row, and an empty one between
them. -/
def twinSections (row : Row) : List Event :=
  [] ++ [.opened "run" []] ++ [.entered "twin" .memory] ++ [.opened "again" []] ++ [.measured row]
    ++ [.entered "empty" .file] ++ [.entered "twin" .file] ++ [.noted "late"] ++ [.measured row]

theorem rowsFollowSection_twinSections (row : Row) : RowsFollowSection (twinSections row) := by
  simp only [twinSections, Event.rowsFollowSection_append_singleton]
  simp [Event.rowsFollowSection_nil, Event.row?]

theorem Sheet.records_eq_titledRows_twinSections :
    let row : Row := ⟨"name", 1, 1, .bytesTransferred, .zero, 0, 0, 0, 0, 0, false, false⟩
    let told := ((Collection.sink Page.writer).after (twinSections row)
      { document := { iterations := 1 }, out := {} }).document.titledRows
    let sheet := (sink Page.writer).after (twinSections row) { out := {} }
    RowsFollowSection (twinSections row) ∧ told.map Prod.fst = ["twin", "twin"] ∧
      told.length = sheet.records.length :=
  ⟨rowsFollowSection_twinSections _, rfl,
    ((records_eq_titledRows Page.writer Page.writer {} {} 1).1 _
      (rowsFollowSection_twinSections _)).1⟩

end AccessBench
