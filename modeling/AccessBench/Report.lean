import AccessBench.Report.Document
import AccessBench.Report.Format
import AccessBench.Report.Sheet
import AccessBench.Report.Table

/-!
Reports in any of the formats.
-/

namespace AccessBench

/-- A report that is being made, over a place with states of type `ω`. -/
inductive Report (ω : Type)
  | table (table : Table ω)
  | document (collection : Collection ω)
  | sheet (sheet : Sheet ω)

namespace Report

variable {ω : Type}

/-- An empty report. Documents tell the number of iterations. -/
def start (format : Format) (iterations : UInt64) (out : ω) : Report ω :=
  match format with
  | .text => .table { out := out }
  | .json => .document { document := { iterations := iterations }, out := out }
  | .csv => .sheet { out := out }

def out : Report ω → ω
  | table t => t.out
  | document c => c.out
  | sheet s => s.out

def receive (writer : Writer ω) (event : Event) : Report ω → Reply (Report ω)
  | table t =>
    let reply := t.receive writer event
    ⟨.table reply.state, reply.notices, reply.result⟩
  | document c =>
    let reply := c.receive writer event
    ⟨.document reply.state, reply.notices, reply.result⟩
  | sheet s =>
    let reply := s.receive writer event
    ⟨.sheet reply.state, reply.notices, reply.result⟩

def sink (writer : Writer ω) : Sink (Report ω) := ⟨receive writer⟩

end Report

end AccessBench
