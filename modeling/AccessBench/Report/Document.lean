import AccessBench.Json.Reader
import AccessBench.Json.Writer
import AccessBench.Report.Event
import AccessBench.Report.Writer
import AccessBench.Row.Json

/-!
Reports as one document: the runs with their titles, and the sections with their rows. The
document is collected event by event and written as a whole at the end.
-/

namespace AccessBench

structure DocumentRun where
  title : String
  info : List String
  /-- Messages from before the suite's first section. -/
  notes : List String := []

structure DocumentSection where
  title : String
  suite : String
  rows : List Row := []
  /-- Messages about what could not be run in this section. -/
  notes : List String := []

structure Document where
  tool : String := "readahead-bench"
  version : String := "0.3.0"
  iterations : UInt64
  runs : List DocumentRun := []
  sections : List DocumentSection := []
  /-- Messages from outside all runs. -/
  notes : List String := []

def changeLast {α : Type} (f : α → α) : List α → List α
  | [] => []
  | [a] => [f a]
  | a :: b :: rest => a :: changeLast f (b :: rest)

/-- Notes as a member of an object, left out when there are none. -/
def noteMembers (notes : List String) : List (String × Json) :=
  if notes.isEmpty then [] else [("notes", .array (notes.map Json.text))]

def texts? : Json → Option (List String) := Json.list? Json.text?

def notes? (field : Option Json) : Option (List String) := Json.optional? [] texts? field

namespace DocumentRun

def toJson (r : DocumentRun) : Json :=
  .ofMembers ([("title", .text r.title), ("info", .array (r.info.map Json.text))]
    ++ noteMembers r.notes)

def ofJson? (json : Json) : Option DocumentRun :=
  match Json.fields? ["title", "info", "notes"] json with
  | some [title, info, notes] => do
    return {
      title := ← Json.required? Json.text? title
      info := ← Json.required? texts? info
      notes := ← notes? notes }
  | _ => none

end DocumentRun

namespace DocumentSection

def toJson (s : DocumentSection) : Json :=
  .ofMembers ([("title", .text s.title), ("suite", .text s.suite),
    ("rows", .array (s.rows.map Row.toJson))] ++ noteMembers s.notes)

def ofJson? (json : Json) : Option DocumentSection :=
  match Json.fields? ["title", "suite", "rows", "notes"] json with
  | some [title, suite, rows, notes] => do
    return {
      title := ← Json.required? Json.text? title
      suite := ← Json.required? Json.text? suite
      rows := ← Json.required? (Json.list? Row.ofJson?) rows
      notes := ← notes? notes }
  | _ => none

end DocumentSection

namespace Document

def toJson (d : Document) : Json :=
  .ofMembers ([("tool", .text d.tool), ("version", .text d.version),
    ("iterations", .nat d.iterations.toNat), ("runs", .array (d.runs.map DocumentRun.toJson)),
    ("sections", .array (d.sections.map DocumentSection.toJson))] ++ noteMembers d.notes)

def ofJson? (json : Json) : Option Document :=
  match Json.fields? ["tool", "version", "iterations", "runs", "sections", "notes"] json with
  | some [tool, version, iterations, runs, sections, notes] => do
    return {
      tool := ← Json.required? Json.text? tool
      version := ← Json.required? Json.text? version
      iterations := ← Json.required? Json.word? iterations
      runs := ← Json.required? (Json.list? DocumentRun.ofJson?) runs
      sections := ← Json.required? (Json.list? DocumentSection.ofJson?) sections
      notes := ← notes? notes }
  | _ => none

def toText (d : Document) : String := d.toJson.toPrettyText

def ofText? (text : String) : Option Document := (Json.ofText? text).bind ofJson?

end Document

def Row.ofText? (text : String) : Option Row := (Json.ofText? text).bind Row.ofJson?

def Row.toText (r : Row) : String := r.toJson.toCompactText

/-- A document that is being collected, and the place that it is to be written to. -/
structure Collection (ω : Type) where
  document : Document
  /-- Whether a section has begun since the latest run began. -/
  inSection : Bool := false
  out : ω

namespace Collection

variable {ω : Type}

/-- Files a message in the current section, else in the latest run, else in the document. -/
def addNote (message : String) (c : Collection ω) : Document :=
  let d := c.document
  if c.inSection && !d.sections.isEmpty then
    { d with sections := changeLast (fun s => { s with notes := s.notes ++ [message] }) d.sections }
  else if !c.inSection && !d.runs.isEmpty then
    { d with runs := changeLast (fun r => { r with notes := r.notes ++ [message] }) d.runs }
  else { d with notes := d.notes ++ [message] }

/-- Collects an event. A row before all sections is lost. -/
def collect (c : Collection ω) : Event → Collection ω
  | .opened title texts =>
    { c with
      document := { c.document with runs := c.document.runs ++ [⟨title, texts, []⟩] }
      inSection := false }
  | .entered title suite =>
    { c with
      document := { c.document with
        sections := c.document.sections ++ [⟨title, suite.key, [], []⟩] }
      inSection := true }
  | .measured row =>
    { c with document := { c.document with
        sections := changeLast (fun s => { s with rows := s.rows ++ [row] }) c.document.sections } }
  | .noted message => { c with document := c.addNote message }
  | .finished _ => c

/-- The title of a run goes to the diagnostics. The end writes the whole document and then sends the
closing line there. -/
def receive (writer : Writer ω) (event : Event) (c : Collection ω) : Reply (Collection ω) :=
  match event with
  | .finished text =>
    match writer.write (c.document.toText ++ "\n") c.out with
    | (.ok (), out) => ⟨{ c with out := out }, [text], .ok ()⟩
    | (.error failure, out) => ⟨{ c with out := out }, [], .error failure⟩
  | .opened title texts => ⟨c.collect (.opened title texts), [title], .ok ()⟩
  | event => ⟨c.collect event, [], .ok ()⟩

def sink (writer : Writer ω) : Sink (Collection ω) := ⟨receive writer⟩

end Collection

end AccessBench
