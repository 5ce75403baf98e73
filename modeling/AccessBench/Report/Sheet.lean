import AccessBench.Decimal.Fixed
import AccessBench.Report.Event
import AccessBench.Report.Writer

/-!
Reports for spreadsheets: one record of ten fields a row, separated by commas, under a record with
the names of the columns. The sheet is written as a whole at the end.
-/

namespace AccessBench

namespace Sheet

def columns : List String :=
  ["section", "test", "size_bytes", "block_size", "metric", "time_us", "aux_count", "per_unit_us",
    "throughput_mib_s", "failed"]

/-- Whether a character sets fields or records apart. -/
def isSpecial (c : Char) : Bool := c = ',' || c = '"' || c = '\n'

/-- A quote written twice, and any other character once. -/
def doubleQuote (c : Char) : List Char := if c = '"' then ['"', '"'] else [c]

/-- A field as it is, or between quotes with its own quotes doubled when it holds a special
character. -/
def field (text : String) : String :=
  if text.toList.any isSpecial then
    String.ofList ('"' :: (text.toList.flatMap doubleQuote ++ ['"']))
  else text

def truthText (b : Bool) : String := if b then "true" else "false"

def rowFields (title : String) (r : Row) : List String :=
  [title, r.name, toString r.sizeBytes, toString r.blockSize, r.metric.label,
    toString r.duration.toMicros, toString r.auxCount, Decimal.fixed 3 r.perUnit,
    Decimal.fixed 2 r.throughput, truthText r.failed]

def record (fields : List String) : String := ",".intercalate (fields.map field) ++ "\n"

end Sheet

/-- A sheet that is being collected, and the place that it is to be written to. -/
structure Sheet (ω : Type) where
  title : String := ""
  records : List (List String) := []
  out : ω

namespace Sheet

variable {ω : Type}

def toText (sheet : Sheet ω) : String :=
  String.join (record columns :: sheet.records.map record)

/-- Collects an event. Messages are not part of a sheet. -/
def collect (sheet : Sheet ω) : Event → Sheet ω
  | .entered title _ => { sheet with title := title }
  | .measured row => { sheet with records := sheet.records ++ [rowFields sheet.title row] }
  | _ => sheet

/-- The title of a run goes to the diagnostics. The end writes the whole sheet and then sends the
closing line there. -/
def receive (writer : Writer ω) (event : Event) (sheet : Sheet ω) : Reply (Sheet ω) :=
  match event with
  | .finished text =>
    match writer.write sheet.toText sheet.out with
    | (.ok (), out) => ⟨{ sheet with out := out }, [text], .ok ()⟩
    | (.error failure, out) => ⟨{ sheet with out := out }, [], .error failure⟩
  | .opened title _ => ⟨sheet, [title], .ok ()⟩
  | event => ⟨sheet.collect event, [], .ok ()⟩

def sink (writer : Writer ω) : Sink (Sheet ω) := ⟨receive writer⟩

end Sheet

end AccessBench
