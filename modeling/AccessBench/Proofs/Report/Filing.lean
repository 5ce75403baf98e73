import AccessBench.Report.Document
import AccessBench.Proofs.Report.Event
import Mathlib.Data.List.DropRight

/-!
Where a collected document keeps what is reported. After any events it is the document that has
every run and every section in their order, each row in the section that was entered last before it,
and each message in one place that only the events before it decide.
-/

namespace AccessBench

section

variable {α β : Type} {f g : Nat → α → β} {change : β → β}

@[simp] theorem changeLast_append_singleton (l : List β) (b : β) :
    changeLast change (l ++ [b]) = l ++ [change b] := by
  induction l with
  | nil => rfl
  | cons a l ih =>
    cases l with
    | nil => rfl
    | cons c l => simpa [changeLast] using ih

theorem changeLast_mapIdx {l : List α} (hinit : ∀ i a, i + 1 < l.length → g i a = f i a)
    (hlast : ∀ i a, i + 1 = l.length → g i a = change (f i a)) :
    changeLast change (l.mapIdx f) = l.mapIdx g := by
  cases l using List.reverseRecOn with
  | nil => rfl
  | append_singleton l a =>
    have hsame : l.mapIdx f = l.mapIdx g := by
      rw [List.mapIdx_eq_mapIdx_iff]
      intro i hi
      exact (hinit i l[i] (by simpa using hi)).symm
    rw [List.mapIdx_concat, List.mapIdx_concat, changeLast_append_singleton, hsame,
      hlast l.length a (by simp)]

theorem changeLast_mapIdx_pred {l : List α} (hinit : ∀ i a, l.length - 1 ≠ i → g i a = f i a)
    (hlast : ∀ i a, l.length - 1 = i → g i a = change (f i a)) :
    changeLast change (l.mapIdx f) = l.mapIdx g :=
  changeLast_mapIdx (fun i a hi => hinit i a (by omega)) fun i a hi => hlast i a (by omega)

theorem flatMap_changeLast {part : β → List α} {more : List α} {l : List β} (hl : l ≠ [])
    (hmore : ∀ b, part (change b) = part b ++ more) :
    (changeLast change l).flatMap part = l.flatMap part ++ more := by
  cases l using List.reverseRecOn with
  | nil => exact absurd rfl hl
  | append_singleton l b => simp [hmore]

theorem map_changeLast_of_eq {part : β → α} {l : List β} (hsame : ∀ b, part (change b) = part b) :
    (changeLast change l).map part = l.map part := by
  cases l using List.reverseRecOn with
  | nil => rfl
  | append_singleton l b => simp [hsame]

theorem flatMap_changeLast_of_eq {part : β → List α} {l : List β}
    (hsame : ∀ b, part (change b) = part b) :
    (changeLast change l).flatMap part = l.flatMap part := by
  rw [List.flatMap_def, map_changeLast_of_eq hsame, List.flatMap_def]

end

namespace Event

/-- Whether a section has been entered since the latest run was opened, or at all if none was. -/
def inSection (events : List Event) : Bool :=
  (events.rtakeWhile fun event => event.opening?.isNone).any fun event => event.entry?.isSome

/-- The places of a document that messages are kept in. -/
inductive Place
  | inSection (index : Nat)
  | inRun (index : Nat)
  | onTop
  deriving DecidableEq

/-- The place of a message that comes after the events: the latest section if one has been entered
since the latest run was opened, else the latest run if there is one. -/
def placeAfter (events : List Event) : Place :=
  if inSection events then .inSection ((events.filterMap entry?).length - 1)
  else if events.filterMap opening? = [] then .onTop
  else .inRun ((events.filterMap opening?).length - 1)

def notesAt (place : Place) (events : List Event) : List String :=
  gather (fun before event => if placeAfter before = place then event.message? else none) events

/-- The rows between the section of an index and the next one. -/
def rowsAt (index : Nat) (events : List Event) : List Row :=
  gather (fun before event =>
    if (before.filterMap entry?).length = index + 1 then event.row? else none) events

@[simp] theorem notesAt_append_singleton (place : Place) (events : List Event) (event : Event) :
    notesAt place (events ++ [event]) =
      notesAt place events ++ (if placeAfter events = place then event.message? else none).toList :=
  gather_append_singleton events event

@[simp] theorem rowsAt_append_singleton (index : Nat) (events : List Event) (event : Event) :
    rowsAt index (events ++ [event]) =
      rowsAt index events ++
        (if (events.filterMap entry?).length = index + 1 then event.row? else none).toList :=
  gather_append_singleton events event

theorem exists_notesAt_append (place : Place) (before after : List Event) :
    ∃ more, notesAt place (before ++ after) = notesAt place before ++ more :=
  ⟨_, gather_append before after⟩

theorem exists_rowsAt_append (index : Nat) (before after : List Event) :
    ∃ more, rowsAt index (before ++ after) = rowsAt index before ++ more :=
  ⟨_, gather_append before after⟩

theorem entry?_ne_nil_of_inSection {events : List Event} (h : inSection events = true) :
    events.filterMap entry? ≠ [] := by
  obtain ⟨event, hmem, hentry⟩ := List.any_eq_true.mp h
  obtain ⟨entry, hentry⟩ := Option.isSome_iff_exists.mp hentry
  exact List.ne_nil_of_mem
    (List.mem_filterMap.mpr ⟨event, (List.rtakeWhile_suffix _ _).subset hmem, hentry⟩)

variable {events : List Event} {index : Nat}

/-- Nothing is filed in a section before it is entered. -/
theorem notesAt_inSection_of_le (h : (events.filterMap entry?).length ≤ index) :
    notesAt (.inSection index) events = [] := by
  induction events using List.reverseRecOn with
  | nil => rfl
  | append_singleton events event ih =>
    have hbefore : (events.filterMap entry?).length ≤ index := by
      rw [List.filterMap_append, List.length_append] at h
      omega
    have hplace : placeAfter events ≠ .inSection index := by
      unfold placeAfter
      split
      · next hin =>
        have hpos := List.length_pos_of_ne_nil (entry?_ne_nil_of_inSection hin)
        simp only [ne_eq, Place.inSection.injEq]
        omega
      · split <;> exact Place.noConfusion
    simp [ih hbefore, hplace]

/-- Nothing is filed in a run before it is opened. -/
theorem notesAt_inRun_of_le (h : (events.filterMap opening?).length ≤ index) :
    notesAt (.inRun index) events = [] := by
  induction events using List.reverseRecOn with
  | nil => rfl
  | append_singleton events event ih =>
    have hbefore : (events.filterMap opening?).length ≤ index := by
      rw [List.filterMap_append, List.length_append] at h
      omega
    have hplace : placeAfter events ≠ .inRun index := by
      unfold placeAfter
      split
      · exact Place.noConfusion
      · split
        · exact Place.noConfusion
        · next hopening =>
          have hpos := List.length_pos_of_ne_nil hopening
          simp only [ne_eq, Place.inRun.injEq]
          omega
    simp [ih hbefore, hplace]

theorem rowsAt_of_le (h : (events.filterMap entry?).length ≤ index) :
    rowsAt index events = [] := by
  induction events using List.reverseRecOn with
  | nil => rfl
  | append_singleton events event ih =>
    have hbefore : (events.filterMap entry?).length ≤ index := by
      rw [List.filterMap_append, List.length_append] at h
      omega
    have hnot : (events.filterMap entry?).length ≠ index + 1 := by omega
    simp [ih hbefore, hnot]

end Event

open Event (notesAt rowsAt placeAfter entry? opening?)

/-- The document in which everything that the events report is filed. -/
def Document.filed (iterations : UInt64) (events : List Event) : Document where
  iterations := iterations
  runs := (events.filterMap opening?).mapIdx fun i (title, lines) =>
    { title := title, info := lines, notes := notesAt (.inRun i) events }
  sections := (events.filterMap entry?).mapIdx fun i (title, suite) =>
    { title := title, suite := suite.key, rows := rowsAt i events
      notes := notesAt (.inSection i) events }
  notes := notesAt .onTop events

/-- What a document holds is held by the later one in the same places, in front of what was added
there. -/
structure Document.KeptIn (d later : Document) : Prop where
  notes : d.notes <+: later.notes
  runs : ∀ (i : Nat) (r : DocumentRun), d.runs[i]? = some r →
    ∃ more, later.runs[i]? = some { r with notes := r.notes ++ more }
  sections : ∀ (i : Nat) (s : DocumentSection), d.sections[i]? = some s →
    ∃ rows more, later.sections[i]? = some { s with rows := s.rows ++ rows, notes := s.notes ++ more }

/-- All messages of a document. -/
def Document.allNotes (d : Document) : List String :=
  d.notes ++ d.runs.flatMap (·.notes) ++ d.sections.flatMap (·.notes)

namespace Document

variable {iterations : UInt64} {events : List Event}

theorem filed_keptIn (iterations : UInt64) (before after : List Event) :
    (filed iterations before).KeptIn (filed iterations (before ++ after)) where
  notes := by
    obtain ⟨more, hmore⟩ := Event.exists_notesAt_append .onTop before after
    exact ⟨more, hmore.symm⟩
  runs i r hr := by
    simp only [filed, List.getElem?_mapIdx, Option.map_eq_some_iff] at hr ⊢
    obtain ⟨opening, hopening, rfl⟩ := hr
    obtain ⟨more, hmore⟩ := Event.exists_notesAt_append (.inRun i) before after
    refine ⟨more, opening, ?_, congrArg _ hmore⟩
    rw [List.filterMap_append, List.getElem?_append_left (List.getElem?_eq_some_iff.mp hopening).1]
    exact hopening
  sections i s hs := by
    simp only [filed, List.getElem?_mapIdx, Option.map_eq_some_iff] at hs ⊢
    obtain ⟨entry, hentry, rfl⟩ := hs
    obtain ⟨rows, hrows⟩ := Event.exists_rowsAt_append i before after
    obtain ⟨more, hmore⟩ := Event.exists_notesAt_append (.inSection i) before after
    refine ⟨rows, more, entry, ?_, congrArg₂ _ hrows hmore⟩
    rw [List.filterMap_append, List.getElem?_append_left (List.getElem?_eq_some_iff.mp hentry).1]
    exact hentry

end Document

namespace Collection

variable {ω : Type} {iterations : UInt64} {events : List Event} {c : Collection ω}

/-- What is collected is what the events report, filed. -/
structure Files (c : Collection ω) (iterations : UInt64) (events : List Event) : Prop where
  document : c.document = .filed iterations events
  inSection : c.inSection = Event.inSection events

theorem Files.collect_opened (h : c.Files iterations events) (title : String)
    (lines : List String) :
    (c.collect (.opened title lines)).Files iterations (events ++ [.opened title lines]) where
  document := by
    have hnotes : notesAt (.inRun (events.filterMap opening?).length) events = [] :=
      Event.notesAt_inRun_of_le le_rfl
    simp [collect, h.document, Document.filed, List.filterMap_cons, Event.row?, hnotes]
  inSection := by simp [collect, Event.inSection]

theorem Files.collect_entered (h : c.Files iterations events) (title : String) (suite : Suite) :
    (c.collect (.entered title suite)).Files iterations (events ++ [.entered title suite]) where
  document := by
    have hnotes : notesAt (.inSection (events.filterMap entry?).length) events = [] :=
      Event.notesAt_inSection_of_le le_rfl
    have hrows : rowsAt (events.filterMap entry?).length events = [] :=
      Event.rowsAt_of_le le_rfl
    simp [collect, h.document, Document.filed, List.filterMap_cons, Event.row?, hnotes, hrows]
  inSection := by simp [collect, Event.inSection]

theorem Files.collect_measured (h : c.Files iterations events) (row : Row) :
    (c.collect (.measured row)).Files iterations (events ++ [.measured row]) where
  document := by
    rw [collect, h.document]
    simp only [Document.filed, List.filterMap_append, List.filterMap_cons, entry?, opening?,
      List.filterMap_nil, List.append_nil, Event.notesAt_append_singleton, Event.message?, ite_self,
      Option.toList_none]
    congr 1
    apply changeLast_mapIdx
    · intro i entry hi
      have hnot : (events.filterMap entry?).length ≠ i + 1 := by omega
      simp [hnot]
    · intro i entry hi
      simp [hi, Event.row?]
  inSection := by simp [collect, Event.inSection, h.inSection]

theorem addNote_inSection (message : String) (hin : c.inSection = true)
    (hsections : c.document.sections ≠ []) :
    c.addNote message = { c.document with
      sections := changeLast (fun s => { s with notes := s.notes ++ [message] })
        c.document.sections } := by
  simp [addNote, hin, hsections]

theorem addNote_inRun (message : String) (hin : c.inSection = false)
    (hruns : c.document.runs ≠ []) :
    c.addNote message = { c.document with
      runs := changeLast (fun r => { r with notes := r.notes ++ [message] }) c.document.runs } := by
  simp [addNote, hin, hruns]

theorem addNote_onTop (message : String) (hin : c.inSection = false)
    (hruns : c.document.runs = []) :
    c.addNote message = { c.document with notes := c.document.notes ++ [message] } := by
  simp [addNote, hin, hruns]

theorem filed_append_noted (message : String) :
    Document.filed iterations (events ++ [.noted message]) =
      { iterations := iterations
        runs := (events.filterMap opening?).mapIdx fun i (title, lines) =>
          { title := title, info := lines
            notes := notesAt (.inRun i) events ++
              (if placeAfter events = .inRun i then some message else none).toList }
        sections := (events.filterMap entry?).mapIdx fun i (title, suite) =>
          { title := title, suite := suite.key, rows := rowsAt i events
            notes := notesAt (.inSection i) events ++
              (if placeAfter events = .inSection i then some message else none).toList }
        notes := notesAt .onTop events ++
          (if placeAfter events = .onTop then some message else none).toList } := by
  simp [Document.filed, List.filterMap_cons, Event.row?]

/-- A message goes to the place that the events before it decide. -/
theorem Files.addNote (h : c.Files iterations events) (message : String) :
    c.addNote message = .filed iterations (events ++ [.noted message]) := by
  rw [filed_append_noted]
  by_cases hin : Event.inSection events = true
  · have hentries := Event.entry?_ne_nil_of_inSection hin
    have hplace : placeAfter events = .inSection ((events.filterMap entry?).length - 1) := by
      rw [placeAfter, if_pos hin]
    have hsections : c.document.sections ≠ [] := by simp [h.document, Document.filed, hentries]
    rw [addNote_inSection message (h.inSection.trans hin) hsections, h.document, hplace]
    simp only [Document.filed, reduceCtorEq, if_false, Option.toList_none, List.append_nil]
    congr 1
    apply changeLast_mapIdx_pred
    · intro i entry hi
      simp [hi]
    · intro i entry hi
      simp [hi]
  · have hout : c.inSection = false := by simp [h.inSection, hin]
    by_cases hopenings : events.filterMap opening? = []
    · have hplace : placeAfter events = .onTop := by
        rw [placeAfter, if_neg hin, if_pos hopenings]
      have hruns : c.document.runs = [] := by simp [h.document, Document.filed, hopenings]
      rw [addNote_onTop message hout hruns, h.document, hplace]
      simp [Document.filed]
    · have hplace : placeAfter events = .inRun ((events.filterMap opening?).length - 1) := by
        rw [placeAfter, if_neg hin, if_neg hopenings]
      have hruns : c.document.runs ≠ [] := by simp [h.document, Document.filed, hopenings]
      rw [addNote_inRun message hout hruns, h.document, hplace]
      simp only [Document.filed, reduceCtorEq, if_false, Option.toList_none, List.append_nil]
      congr 1
      apply changeLast_mapIdx_pred
      · intro i opening hi
        simp [hi]
      · intro i opening hi
        simp [hi]

theorem Files.collect_noted (h : c.Files iterations events) (message : String) :
    (c.collect (.noted message)).Files iterations (events ++ [.noted message]) where
  document := h.addNote message
  inSection := by simp [collect, Event.inSection, h.inSection]

theorem Files.collect (h : c.Files iterations events) (event : Event) :
    (c.collect event).Files iterations (events ++ [event]) := by
  cases event with
  | opened title lines => exact h.collect_opened title lines
  | entered title suite => exact h.collect_entered title suite
  | measured row => exact h.collect_measured row
  | noted message => exact h.collect_noted message
  | finished banner =>
    constructor
    · simp [Collection.collect, h.document, Document.filed, List.filterMap_cons, Event.row?]
    · simp [Collection.collect, h.inSection, Event.inSection]

theorem Files.receive (h : c.Files iterations events) (writer : Writer ω) (event : Event) :
    (c.receive writer event).state.Files iterations (events ++ [event]) := by
  have hcollect := h.collect event
  cases event with
  | opened | entered | measured | noted => exact hcollect
  | finished banner =>
    -- the end writes the document, which stays as it is
    rw [Collection.receive]
    split <;> exact ⟨hcollect.document, hcollect.inSection⟩

theorem files_after (writer : Writer ω) (out : ω) (iterations : UInt64) (events : List Event) :
    ((sink writer).after events { document := { iterations := iterations }, out := out }).Files
      iterations events := by
  induction events using List.reverseRecOn with
  | nil => exact ⟨rfl, rfl⟩
  | append_singleton events event ih =>
    rw [Sink.after_append_singleton]
    exact ih.receive writer event

theorem rows_addNote (c : Collection ω) (message : String) :
    (c.addNote message).sections.flatMap (·.rows) = c.document.sections.flatMap (·.rows) := by
  unfold addNote
  dsimp only
  split
  · exact flatMap_changeLast_of_eq fun _ => rfl
  · split <;> rfl

theorem allNotes_addNote (c : Collection ω) (message : String) :
    (c.addNote message).allNotes.Perm (c.document.allNotes ++ [message]) := by
  rw [List.perm_iff_count]
  intro text
  unfold addNote
  dsimp only
  split
  · next hsection =>
    have hsections : c.document.sections ≠ [] := by
      rintro hnil
      simp [hnil] at hsection
    have hadded : (changeLast (fun s : DocumentSection => { s with notes := s.notes ++ [message] })
        c.document.sections).flatMap (·.notes) =
          c.document.sections.flatMap (·.notes) ++ [message] :=
      flatMap_changeLast hsections fun _ => rfl
    simp only [Document.allNotes, hadded, List.count_append]
    omega
  · split
    · next hrun =>
      have hruns : c.document.runs ≠ [] := by
        rintro hnil
        simp [hnil] at hrun
      have hadded : (changeLast (fun r : DocumentRun => { r with notes := r.notes ++ [message] })
          c.document.runs).flatMap (·.notes) = c.document.runs.flatMap (·.notes) ++ [message] :=
        flatMap_changeLast hruns fun _ => rfl
      simp only [Document.allNotes, hadded, List.count_append]
      omega
    · simp only [Document.allNotes, List.count_append]
      omega

end Collection

namespace Document

variable (iterations : UInt64)

/-- The filed document, collected event by event. -/
theorem filed_append_singleton (events : List Event) (event : Event) :
    filed iterations (events ++ [event]) =
      ((⟨filed iterations events, Event.inSection events, ()⟩ : Collection Unit).collect
        event).document := by
  have hfiles : (⟨filed iterations events, Event.inSection events, ()⟩ : Collection Unit).Files
      iterations events := ⟨rfl, rfl⟩
  exact (hfiles.collect event).document.symm

/-- Of the rows only those before all sections are lost. -/
theorem rows_filed (events : List Event) :
    (filed iterations events).sections.flatMap (·.rows) =
      Event.gather (fun before event =>
        if before.filterMap entry? = [] then none else event.row?) events := by
  induction events using List.reverseRecOn with
  | nil => rfl
  | append_singleton events event ih =>
    rw [filed_append_singleton, Event.gather_append_singleton, ← ih]
    cases event with
    | opened | entered | finished => simp [Collection.collect, Event.row?]
    | noted message => simp [Collection.collect, Collection.rows_addNote, Event.row?]
    | measured row =>
      by_cases hentries : events.filterMap entry? = []
      · simp [Collection.collect, filed, hentries, changeLast]
      · have hsections : (filed iterations events).sections ≠ [] := by simp [filed, hentries]
        rw [if_neg hentries]
        exact flatMap_changeLast hsections fun _ => rfl

/-- Every message is kept, and none twice. -/
theorem allNotes_filed (events : List Event) :
    (filed iterations events).allNotes.Perm (events.filterMap Event.message?) := by
  induction events using List.reverseRecOn with
  | nil => exact .refl _
  | append_singleton events event ih =>
    rw [filed_append_singleton, List.filterMap_append]
    refine List.Perm.trans ?_ (ih.append_right _)
    cases event with
    | opened => simp [Collection.collect, allNotes, List.filterMap_cons]
    | entered => simp [Collection.collect, allNotes, List.filterMap_cons]
    | finished => simp [Collection.collect, List.filterMap_cons]
    | noted message => exact Collection.allNotes_addNote _ message
    | measured row =>
      have hsame : (changeLast (fun s : DocumentSection => { s with rows := s.rows ++ [row] })
          (filed iterations events).sections).flatMap (·.notes) =
            (filed iterations events).sections.flatMap (·.notes) :=
        flatMap_changeLast_of_eq fun _ => rfl
      simp [Collection.collect, allNotes, hsame, List.filterMap_cons]

end Document

/-- After any events a collected document has a run for every opening and a section for every entry,
in their order. The rows of a section are those between its entry and the next, and only rows before
all entries are lost. Every message is kept once, in the place that the events before it decide, and
whatever is reported later leaves it there. -/
theorem Collection.after_filed {ω : Type} (writer : Writer ω) (out : ω) (iterations : UInt64)
    (events : List Event) :
    let collected (events : List Event) : Document :=
      ((sink writer).after events { document := { iterations := iterations }, out := out }).document
    collected events = .filed iterations events ∧
      (collected events).sections.flatMap (·.rows) =
        Event.gather (fun before event =>
          if before.filterMap entry? = [] then none else event.row?) events ∧
      (collected events).allNotes.Perm (events.filterMap Event.message?) ∧
      ∀ more, (collected events).KeptIn (collected (events ++ more)) := by
  intro collected
  have hfiled : ∀ events, collected events = .filed iterations events :=
    fun events => (files_after writer out iterations events).document
  refine ⟨hfiled events, ?_, ?_, ?_⟩
  · rw [hfiled]
    exact Document.rows_filed iterations events
  · rw [hfiled]
    exact Document.allNotes_filed iterations events
  · intro more
    rw [hfiled, hfiled]
    exact Document.filed_keptIn iterations events more

end AccessBench
