import AccessBench.Report.Event
import Mathlib.Data.List.Basic
import Mathlib.Data.List.Induction

/-!
Sequences of events: what they tell, each event seen together with those before it, and the state of
a sink that takes them one after another.
-/

namespace AccessBench

namespace Event

def row? : Event → Option Row
  | measured row => some row
  | _ => none

def isNote : Event → Bool
  | noted _ => true
  | _ => false

@[simp] def message? : Event → Option String
  | noted message => some message
  | _ => none

/-- The title of a suite and the lines about its run. -/
@[simp] def opening? : Event → Option (String × List String)
  | opened title lines => some (title, lines)
  | _ => none

@[simp] def entry? : Event → Option (String × Suite)
  | entered title suite => some (title, suite)
  | _ => none

variable {α : Type} {f : List Event → Event → Option α}

/-- What is made of each event and those before it, in the order of the events. -/
def gather (f : List Event → Event → Option α) (events : List Event) : List α :=
  (List.range events.length).filterMap fun k => events[k]?.bind (f (events.take k))

@[simp] theorem gather_nil : gather f [] = [] := rfl

@[simp] theorem gather_append_singleton (events : List Event) (event : Event) :
    gather f (events ++ [event]) = gather f events ++ (f events event).toList := by
  have hbefore : ∀ k ∈ List.range events.length,
      (events ++ [event])[k]?.bind (f ((events ++ [event]).take k)) =
        events[k]?.bind (f (events.take k)) := by
    intro k hk
    rw [List.mem_range] at hk
    rw [List.getElem?_append_left hk, List.take_append_of_le_length (Nat.le_of_lt hk)]
  rw [gather, List.length_append, List.length_singleton, List.range_succ, List.filterMap_append,
    List.filterMap_congr hbefore, ← gather]
  cases hlast : f events event <;> simp [hlast]

theorem gather_append (before after : List Event) :
    gather f (before ++ after) =
      gather f before ++ gather (fun seen => f (before ++ seen)) after := by
  induction after using List.reverseRecOn with
  | nil => simp
  | append_singleton after event ih =>
    rw [← List.append_assoc, gather_append_singleton, gather_append_singleton, ih,
      List.append_assoc]

/-- Some section has been entered before every row. -/
def RowsFollowSection (events : List Event) : Prop :=
  ∀ before row after, events = before ++ .measured row :: after → before.filterMap entry? ≠ []

theorem rowsFollowSection_nil : RowsFollowSection [] := by
  intro before row after h
  simp at h

theorem RowsFollowSection.of_append {before after : List Event}
    (h : RowsFollowSection (before ++ after)) : RowsFollowSection before := by
  rintro first row rest rfl
  exact h first row (rest ++ after) (by simp)

theorem rowsFollowSection_append_singleton {events : List Event} {event : Event} :
    RowsFollowSection (events ++ [event]) ↔
      RowsFollowSection events ∧ (event.row?.isSome → events.filterMap entry? ≠ []) := by
  constructor
  · intro h
    refine ⟨h.of_append, fun hrow => ?_⟩
    cases event with
    | measured row => exact h events row [] rfl
    | opened | entered | noted | finished => cases hrow
  · rintro ⟨h, hlast⟩ before row after heq
    cases after using List.reverseRecOn with
    | nil =>
      obtain ⟨rfl, hevent⟩ := List.append_inj' heq rfl
      obtain rfl : event = .measured row := by simpa using hevent
      exact hlast rfl
    | append_singleton after last =>
      rw [← List.cons_append, ← List.append_assoc] at heq
      exact h before row after (List.append_inj' heq rfl).1

end Event

/-- The state of a sink after it has taken the events, whatever it answered. -/
def Sink.after {τ : Type} (sink : Sink τ) (events : List Event) (t : τ) : τ :=
  events.foldl (fun t event => (sink.receive event t).state) t

@[simp] theorem Sink.after_append_singleton {τ : Type} (sink : Sink τ) (events : List Event)
    (event : Event) (t : τ) :
    sink.after (events ++ [event]) t = (sink.receive event (sink.after events t)).state := by
  simp [after]

end AccessBench
