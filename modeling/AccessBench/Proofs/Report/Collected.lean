import AccessBench.Report
import AccessBench.Proofs.Benchmark.Feed
import AccessBench.Proofs.Report.Filing
import AccessBench.Proofs.Report.Sheet

/-!
Reports that are collected in full before they are written. The end of the report alone reaches the
place of such a report: it offers the whole text at once and changes nothing of what is collected,
so that the text depends on the other events alone.
-/

namespace AccessBench

variable {ω : Type}

namespace Event

/-- The closing line of an event that ends a report. -/
@[simp] def banner? : Event → Option String
  | finished banner => some banner
  | _ => none

/-- The events without those that end a report. -/
def unfinished (events : List Event) : List Event :=
  events.filter fun event => event.banner?.isNone

theorem gather_row_of_rowsFollowSection {events : List Event} (h : RowsFollowSection events) :
    gather (fun before event => if before.filterMap entry? = [] then none else event.row?) events =
      events.filterMap row? := by
  induction events using List.reverseRecOn with
  | nil => rfl
  | append_singleton events event ih =>
    obtain ⟨hbefore, hlast⟩ := rowsFollowSection_append_singleton.mp h
    rw [gather_append_singleton, ih hbefore, List.filterMap_append]
    cases hrow : event.row? with
    | none => simp [hrow]
    | some row =>
      have hentered := hlast (by simp [hrow])
      simp [hrow, hentered]

end Event

/-- A page without a bound takes any text. -/
theorem Page.write_blank (text : String) :
    (Page.writer.write text {}).1 = .ok () ∧ (Page.writer.write text {}).2.text = text := by
  have hwrite : Page.writer.write text {} = Page.append text {} := rfl
  rw [hwrite, Page.append]
  by_cases hempty : text = ""
  · rw [hempty]
    exact ⟨rfl, rfl⟩
  · simp [hempty]

namespace Report

/-- A report apart from the place that it is written to. -/
def content : Report ω → Report Unit
  | table t => .table ⟨t.suite, t.hasSection, ()⟩
  | document c => .document ⟨c.document, c.inSection, ()⟩
  | sheet s => .sheet ⟨s.title, s.records, ()⟩

/-- What an event changes in a report apart from its place. -/
def collect (r : Report Unit) (event : Event) : Report Unit :=
  match r with
  | table t => .table (t.advance event)
  | document c => .document (c.collect event)
  | sheet s => .sheet (s.collect event)

/-- The text of a report that is collected before it is written. A table is written as it goes. -/
def endText? : Report ω → Option String
  | table _ => none
  | document c => some (c.document.toText ++ "\n")
  | sheet s => some s.toText

/-- The report holds all rows of the events: a document under their sections and a sheet with their
titles. -/
def Covers (iterations : UInt64) (events : List Event) : Report ω → Prop
  | table _ => False
  | document c => c.document = .filed iterations events ∧
      c.document.sections.flatMap (·.rows) = events.filterMap Event.row?
  | sheet s => s.records = (Event.titledRows events).map (fun (title, row) =>
      Sheet.rowFields title row) ∧ s.records.length = (events.filterMap Event.row?).length

@[simp] theorem endText?_content (r : Report ω) : r.content.endText? = r.endText? := by
  cases r <;> rfl

@[simp] theorem isSome_endText?_collect (r : Report Unit) (event : Event) :
    (r.collect event).endText?.isSome = r.endText?.isSome := by
  cases r <;> simp only [collect, endText?, Option.isSome_none, Option.isSome_some]

@[simp] theorem collect_finished (r : Report Unit) (banner : String) :
    r.collect (.finished banner) = r := by
  cases r <;> rfl

@[simp] theorem out_start (format : Format) (iterations : UInt64) (out : ω) :
    (start format iterations out).out = out := by
  cases format <;> rfl

theorem content_start (format : Format) (iterations : UInt64) (out : ω) :
    (start format iterations out).content = start format iterations () := by
  cases format <;> rfl

theorem isSome_endText?_start {format : Format} (h : format ≠ .text) (iterations : UInt64)
    (out : ω) : (start format iterations out).endText?.isSome = true := by
  cases format with
  | text => exact absurd rfl h
  | json | csv => rfl

section

variable (writer : Writer ω) (event : Event) (r : Report ω)

/-- Whatever the writer answers, what is collected goes on in the same way. -/
theorem content_receive : (r.receive writer event).state.content = r.content.collect event := by
  cases r with
  | table t => cases event <;> rfl
  | document c =>
    cases event with
    | opened | entered | measured | noted => rfl
    | finished banner =>
      rw [receive, Collection.receive]
      split <;> rfl
  | sheet s =>
    cases event with
    | opened | entered | measured | noted => rfl
    | finished banner =>
      rw [receive, Sheet.receive]
      split <;> rfl

theorem isSome_endText?_receive :
    (r.receive writer event).state.endText?.isSome = r.endText?.isSome := by
  rw [← endText?_content, content_receive, isSome_endText?_collect, endText?_content]

end

section

variable {writer : Writer ω} {r : Report ω}

/-- Before its end a collected report takes every event and leaves its place alone. -/
theorem receive_of_unfinished (writer : Writer ω) (h : r.endText?.isSome = true) {event : Event}
    (hevent : event.banner? = none) :
    (r.receive writer event).result = .ok () ∧ (r.receive writer event).state.out = r.out := by
  cases event with
  | finished banner => cases hevent
  | opened | entered | measured | noted =>
    cases r with
    | table t => cases h
    | document | sheet => exact ⟨rfl, rfl⟩

theorem receive_finished {text : String} (h : r.endText? = some text) (banner : String) :
    (r.receive writer (.finished banner)).result = (writer.write text r.out).1 ∧
      (r.receive writer (.finished banner)).state.out = (writer.write text r.out).2 := by
  cases r with
  | table t => cases h
  | document c =>
    obtain rfl : c.document.toText ++ "\n" = text := Option.some.inj h
    have hout : (document c).out = c.out := rfl
    rw [receive, Collection.receive, hout]
    rcases writer.write (c.document.toText ++ "\n") c.out with ⟨failure | _, out⟩
    · exact ⟨rfl, rfl⟩
    · exact ⟨rfl, rfl⟩
  | sheet s =>
    obtain rfl : s.toText = text := Option.some.inj h
    have hout : (sheet s).out = s.out := rfl
    rw [receive, Sheet.receive, hout]
    rcases writer.write s.toText s.out with ⟨failure | _, out⟩
    · exact ⟨rfl, rfl⟩
    · exact ⟨rfl, rfl⟩

theorem content_after (events : List Event) :
    ((sink writer).after events r).content = events.foldl collect r.content := by
  induction events using List.reverseRecOn with
  | nil => rfl
  | append_singleton events event ih =>
    rw [Sink.after_append_singleton, List.foldl_append, ← ih]
    exact content_receive writer event _

theorem isSome_endText?_after (events : List Event) :
    ((sink writer).after events r).endText?.isSome = r.endText?.isSome := by
  induction events using List.reverseRecOn with
  | nil => rfl
  | append_singleton events event ih =>
    rw [Sink.after_append_singleton, ← ih]
    exact isSome_endText?_receive writer event _

/-- Nothing that is collected comes of the ends of a report. -/
theorem foldl_collect_unfinished (events : List Event) (kept : Report Unit) :
    (Event.unfinished events).foldl collect kept = events.foldl collect kept := by
  induction events generalizing kept with
  | nil => rfl
  | cons event rest ih =>
    cases event with
    | finished banner =>
      rw [List.foldl_cons, collect_finished]
      exact ih kept
    | opened | entered | measured | noted => exact ih _

theorem feed_of_unfinished (writer : Writer ω) {events : List Event}
    (h : r.endText?.isSome = true) (hevents : ∀ event ∈ events, event.banner? = none) :
    (sink writer).feed events r = (.ok (), (sink writer).after events r) ∧
      ((sink writer).after events r).out = r.out := by
  induction events generalizing r with
  | nil => exact ⟨rfl, rfl⟩
  | cons event rest ih =>
    obtain ⟨hhead, hrest⟩ := List.forall_mem_cons.mp hevents
    obtain ⟨hresult, hout⟩ := receive_of_unfinished writer h hhead
    have hnext := isSome_endText?_receive writer event r
    obtain ⟨hfeed, hsame⟩ := ih (hnext.trans h) hrest
    have hreceive : (sink writer).receive event r = r.receive writer event := rfl
    refine ⟨?_, hsame.trans hout⟩
    rw [Sink.feed, hreceive, hresult]
    exact hfeed

/-- The end of a collected report offers the text that the other events before it have made, whether
or not the report has ended before, and changes nothing of what is collected. -/
theorem receive_finished_after (writer : Writer ω) (out : ω) {format : Format}
    (hformat : format ≠ .text) (iterations : UInt64) (events : List Event) (banner : String) :
    let reached := (sink writer).after events (start format iterations out)
    let kept := (Event.unfinished events).foldl collect (start format iterations ())
    let reply := reached.receive writer (.finished banner)
    reached.content = kept ∧ reply.state.content = kept ∧
      ∃ text, kept.endText? = some text ∧ reply.result = (writer.write text reached.out).1 ∧
        reply.state.out = (writer.write text reached.out).2 := by
  intro reached kept reply
  have hreached : reached.content = kept := by
    rw [content_after, content_start, ← foldl_collect_unfinished]
  have hreply : reply.state.content = kept := by
    rw [content_receive, hreached, collect_finished]
  have hcollected : reached.endText?.isSome = true := by
    rw [isSome_endText?_after]
    exact isSome_endText?_start hformat iterations out
  obtain ⟨text, htext⟩ := Option.isSome_iff_exists.mp hcollected
  have hkept : kept.endText? = some text := by rw [← hreached, endText?_content, htext]
  exact ⟨hreached, hreply, text, hkept, receive_finished htext banner⟩

theorem after_document (events : List Event) (c : Collection ω) :
    (sink writer).after events (.document c) =
      .document ((Collection.sink writer).after events c) := by
  induction events using List.reverseRecOn with
  | nil => rfl
  | append_singleton events event ih =>
    rw [Sink.after_append_singleton, Sink.after_append_singleton, ih]
    rfl

theorem after_sheet (events : List Event) (s : Sheet ω) :
    (sink writer).after events (.sheet s) = .sheet ((Sheet.sink writer).after events s) := by
  induction events using List.reverseRecOn with
  | nil => rfl
  | append_singleton events event ih =>
    rw [Sink.after_append_singleton, Sink.after_append_singleton, ih]
    rfl

theorem covers_after (writer : Writer ω) (out : ω) (iterations : UInt64) {format : Format}
    (hformat : format ≠ .text) {events : List Event} (h : Event.RowsFollowSection events) :
    ((sink writer).after events (start format iterations out)).Covers iterations events := by
  cases format with
  | text => exact absurd rfl hformat
  | json =>
    let filed := (Collection.sink writer).after events
      { document := { iterations := iterations }, out := out }
    have hfiled : filed.document = .filed iterations events :=
      (Collection.files_after writer out iterations events).document
    have hrows := Document.rows_filed iterations events
    rw [Event.gather_row_of_rowsFollowSection h] at hrows
    have hreport : (sink writer).after events (start .json iterations out) = .document filed :=
      after_document events _
    rw [hreport, Covers, hfiled]
    exact ⟨rfl, hrows⟩
  | csv =>
    let held := (Sheet.sink writer).after events { out := out }
    have hheld : held.records = (Event.titledRows events).map fun told =>
        Sheet.rowFields told.1 told.2 := (Sheet.holds_after writer out events).records
    have hreport : (sink writer).after events (start .csv iterations out) = .sheet held :=
      after_sheet events _
    rw [hreport, Covers, hheld, List.length_map]
    exact ⟨rfl, Event.length_titledRows events⟩

end

end Report

end AccessBench
