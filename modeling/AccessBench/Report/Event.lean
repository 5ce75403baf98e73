import AccessBench.Row

/-!
What a run reports, event by event, and the sinks that take events.
-/

namespace AccessBench

inductive Event
  /-- A suite begins, with a title and lines about the run. -/
  | opened (title : String) (lines : List String)
  | entered (title : String) (suite : Suite)
  | measured (row : Row)
  | noted (message : String)
  | finished (banner : String)

/-- What a sink does on an event: its new state, the lines that it sends to the diagnostics, and
whether it failed. -/
structure Reply (τ : Type) where
  state : τ
  notices : List String := []
  result : Except Failure Unit := .ok ()

/-- A destination for events, with states of type `τ`. -/
structure Sink (τ : Type) where
  receive : Event → τ → Reply τ

end AccessBench
