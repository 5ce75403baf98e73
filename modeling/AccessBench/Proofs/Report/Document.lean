import AccessBench.Proofs.Row.Json
import AccessBench.Report.Document

/-!
Documents are read back from their texts: all runs, sections, messages and rows in their order, and
of every row all but its duration and its rates as it was written.
-/

namespace AccessBench

/-! ### Messages -/

/-- Messages as a field, which is not there when there are none. -/
def noteField (notes : List String) : Option Json :=
  if notes.isEmpty then none else some (.array (notes.map Json.text))

theorem texts?_map_text (texts : List String) : texts? (.array (texts.map Json.text)) = some texts :=
  Json.list?_map_some Json.text?_text texts

theorem notes?_noteField (notes : List String) : notes? (noteField notes) = some notes := by
  cases notes with
  | nil => rfl
  | cons note notes => exact texts?_map_text (note :: notes)

/-- The fields of an object with messages as its last one. -/
theorem fields?_notes {members : List (String × Json)} {names : List String} (notes : List String)
    (hnames : names = members.map Prod.fst ++ ["notes"]) (hdistinct : names.Nodup) :
    Json.fields? names (.ofMembers (members ++ noteMembers notes)) =
      some (members.map (fun m => some m.2) ++ [noteField notes]) := by
  cases notes with
  | nil =>
    have hfields := Json.fields?_ofMembers ["notes"] hnames hdistinct
    simpa [noteMembers, noteField] using hfields
  | cons note notes =>
    rw [Json.fields?_ofMembers [] (by simp [hnames, noteMembers]) hdistinct]
    simp [noteMembers, noteField]

theorem readable_texts (texts : List String) : Json.Readable (.array (texts.map Json.text)) := by
  apply Json.Readable.array
  rw [List.forall_mem_map]
  exact fun text _ => .text text

theorem readable_withNotes {members : List (String × Json)} (h : ∀ m ∈ members, m.2.Readable)
    (notes : List String) : Json.Readable (.ofMembers (members ++ noteMembers notes)) := by
  apply Json.Readable.object
  rw [List.forall_mem_append]
  refine ⟨h, ?_⟩
  unfold noteMembers
  split
  · simp
  · simpa using readable_texts notes

/-- Whether an object has a member of a name. -/
def Json.hasMember (name : String) : Json → Bool
  | .object members => members.any fun m => m.1 = some name
  | _ => false

/-- A list of messages is written unless it is empty. -/
theorem hasMember_notes {members : List (String × Json)} (h : "notes" ∉ members.map Prod.fst)
    (notes : List String) :
    Json.hasMember "notes" (.ofMembers (members ++ noteMembers notes)) = !notes.isEmpty := by
  have hnone : (members.any fun m => m.1 = "notes") = false := by
    rw [List.any_eq_false]
    intro m hm
    have hne : m.1 ≠ "notes" := fun heq => h (heq ▸ List.mem_map_of_mem hm)
    simpa using hne
  cases notes with
  | nil => simpa [Json.hasMember, Json.ofMembers, noteMembers] using hnone
  | cons note notes => simp [Json.hasMember, Json.ofMembers, noteMembers]

/-! ### Runs and sections -/

namespace DocumentRun

theorem readable_toJson (r : DocumentRun) : r.toJson.Readable := by
  apply readable_withNotes
  simp only [List.forall_mem_cons]
  exact ⟨.text _, readable_texts _, by simp⟩

theorem ofJson?_toJson (r : DocumentRun) : ofJson? r.toJson = some r := by
  have hfields : Json.fields? ["title", "info", "notes"] r.toJson =
      some [some (.text r.title), some (.array (r.info.map Json.text)), noteField r.notes] := by
    apply fields?_notes r.notes
    · rfl
    · simp
  rw [ofJson?, hfields]
  simp [Json.required?_some, Json.text?_text, texts?_map_text, notes?_noteField]

theorem hasMember_notes_toJson (r : DocumentRun) :
    r.toJson.hasMember "notes" = !r.notes.isEmpty :=
  hasMember_notes (by simp) r.notes

end DocumentRun

namespace DocumentSection

def reread? (s : DocumentSection) : Option DocumentSection := do
  let rows ← s.rows.mapM Row.reread?
  return { s with rows := rows }

def mapRows (f : Row → Row) (s : DocumentSection) : DocumentSection :=
  { s with rows := s.rows.map f }

def floats (s : DocumentSection) : List Float := s.rows.flatMap Row.floats

def durations (s : DocumentSection) : List Duration := s.rows.map (·.duration)

theorem reread?_of_read {s : DocumentSection} {read : Float → Float}
    (h : ∀ x ∈ s.floats, Json.reread? x = some (read x)) :
    s.reread? = some (s.mapRows (Row.recorded read)) := by
  have hrows : s.rows.mapM Row.reread? = some (s.rows.map (Row.recorded read)) := by
    refine mapM_option_of_forall fun row hrow => Row.reread?_of_read fun x hx => h x ?_
    exact List.mem_flatMap.mpr ⟨row, hrow, hx⟩
  simp [reread?, hrows, mapRows]

theorem isSome_reread? {s : DocumentSection} :
    s.reread?.isSome = true ↔ ∀ x ∈ s.floats, (Json.reread? x).isSome = true := by
  have hrows : s.reread?.isSome = (s.rows.mapM Row.reread?).isSome := by
    rw [reread?]
    cases s.rows.mapM Row.reread? <;> rfl
  simp only [hrows, mapM_option_isSome, Row.isSome_reread?, floats, List.forall_mem_flatMap]

theorem durations_of_reread? {s s' : DocumentSection} (h : s.reread? = some s') :
    s'.durations = s.durations.map Duration.recorded := by
  simp only [reread?, Option.bind_eq_bind, Option.bind_eq_some_iff] at h
  obtain ⟨rows, hrows, hsection⟩ := h
  obtain rfl := Option.some.inj hsection
  rw [durations, durations, List.map_map]
  exact map_of_mapM_option hrows fun _ _ => Row.duration_of_reread?

theorem readable_toJson (s : DocumentSection) : s.toJson.Readable := by
  apply readable_withNotes
  simp only [List.forall_mem_cons]
  refine ⟨.text _, .text _, .array ?_, by simp⟩
  rw [List.forall_mem_map]
  exact fun row _ => row.readable_toJson

theorem ofJson?_toJson (s : DocumentSection) : ofJson? s.toJson = s.reread? := by
  have hfields : Json.fields? ["title", "suite", "rows", "notes"] s.toJson =
      some [some (.text s.title), some (.text s.suite), some (.array (s.rows.map Row.toJson)),
        noteField s.notes] := by
    apply fields?_notes s.notes
    · rfl
    · simp
  have hrows := Json.list?_map Row.ofJson?_toJson s.rows
  rw [ofJson?, hfields]
  simp [Json.required?_some, Json.text?_text, hrows, notes?_noteField, reread?]

theorem hasMember_notes_toJson (s : DocumentSection) :
    s.toJson.hasMember "notes" = !s.notes.isEmpty :=
  hasMember_notes (by simp) s.notes

end DocumentSection

namespace Document

def reread? (d : Document) : Option Document := do
  let sections ← d.sections.mapM DocumentSection.reread?
  return { d with sections := sections }

def mapRows (f : Row → Row) (d : Document) : Document :=
  { d with sections := d.sections.map (DocumentSection.mapRows f) }

/-- The rates of all rows. -/
def floats (d : Document) : List Float := d.sections.flatMap DocumentSection.floats

/-- The durations of all rows, section by section. -/
def durations (d : Document) : List (List Duration) := d.sections.map DocumentSection.durations

theorem reread?_of_read {d : Document} {read : Float → Float}
    (h : ∀ x ∈ d.floats, Json.reread? x = some (read x)) :
    d.reread? = some (d.mapRows (Row.recorded read)) := by
  have hsections : d.sections.mapM DocumentSection.reread? =
      some (d.sections.map (DocumentSection.mapRows (Row.recorded read))) := by
    refine mapM_option_of_forall fun s hs => DocumentSection.reread?_of_read fun x hx => h x ?_
    exact List.mem_flatMap.mpr ⟨s, hs, hx⟩
  simp [reread?, hsections, mapRows]

theorem isSome_reread? {d : Document} :
    d.reread?.isSome = true ↔ ∀ x ∈ d.floats, (Json.reread? x).isSome = true := by
  have hsections : d.reread?.isSome = (d.sections.mapM DocumentSection.reread?).isSome := by
    rw [reread?]
    cases d.sections.mapM DocumentSection.reread? <;> rfl
  simp only [hsections, mapM_option_isSome, DocumentSection.isSome_reread?, floats,
    List.forall_mem_flatMap]

theorem durations_of_reread? {d d' : Document} (h : d.reread? = some d') :
    d'.durations = d.durations.map (List.map Duration.recorded) := by
  simp only [reread?, Option.bind_eq_bind, Option.bind_eq_some_iff] at h
  obtain ⟨sections, hsections, hdocument⟩ := h
  obtain rfl := Option.some.inj hdocument
  rw [durations, durations, List.map_map]
  exact map_of_mapM_option hsections fun _ _ => DocumentSection.durations_of_reread?

theorem readable_toJson (d : Document) : d.toJson.Readable := by
  apply readable_withNotes
  simp only [List.forall_mem_cons]
  refine ⟨.text _, .text _, Json.readable_nat _, .array ?_, .array ?_, by simp⟩
  · rw [List.forall_mem_map]
    exact fun r _ => r.readable_toJson
  · rw [List.forall_mem_map]
    exact fun s _ => s.readable_toJson

theorem ofJson?_toJson (d : Document) : ofJson? d.toJson = d.reread? := by
  have hfields : Json.fields? ["tool", "version", "iterations", "runs", "sections", "notes"]
      d.toJson = some [some (.text d.tool), some (.text d.version), some (.nat d.iterations.toNat),
        some (.array (d.runs.map DocumentRun.toJson)),
        some (.array (d.sections.map DocumentSection.toJson)), noteField d.notes] := by
    apply fields?_notes d.notes
    · rfl
    · simp
  have hruns := Json.list?_map_some DocumentRun.ofJson?_toJson d.runs
  have hsections := Json.list?_map DocumentSection.ofJson?_toJson d.sections
  rw [ofJson?, hfields]
  simp [Json.required?_some, Json.text?_text, Json.word?_toNat, hruns, hsections, notes?_noteField,
    reread?]

theorem hasMember_notes_toJson (d : Document) :
    d.toJson.hasMember "notes" = !d.notes.isEmpty :=
  hasMember_notes (by simp) d.notes

theorem ofText?_toText (d : Document) : ofText? d.toText = d.reread? := by
  rw [ofText?, toText, Json.ofText?_toPrettyText d.readable_toJson, Option.bind_some,
    ofJson?_toJson]

/-- What has been read back once has the same durations when it is written and read again. -/
theorem durations_again {d first second : Document} (hfirst : ofText? d.toText = some first)
    (hsecond : ofText? first.toText = some second) : second.durations = first.durations := by
  rw [ofText?_toText] at hfirst hsecond
  have hagain : List.map Duration.recorded ∘ List.map Duration.recorded =
      List.map Duration.recorded := by
    funext spans
    simp [Duration.recorded_recorded]
  rw [durations_of_reread? hsecond, durations_of_reread? hfirst, List.map_map, hagain]

/-- As long as the texts of finite numbers are read as numbers, a document whose rates are all finite
is read back from its text with every duration cut to whole microseconds and every rate as its text
is read, and one with any other rate is not read back at all. What is cut off a duration is less than
a microsecond, unless its microseconds do not fit a word; it is cut only once. Messages are written
only where there are some. -/
theorem toText_roundTrip (d : Document)
    (h : ∀ x ∈ d.floats, x.isFinite = true → (Json.reread? x).isSome = true) :
    ((∀ x ∈ d.floats, x.isFinite = true) →
      ∃ read : Float → Float, (∀ x ∈ d.floats, Json.reread? x = some (read x)) ∧
        ofText? d.toText = some (d.mapRows (Row.recorded read))) ∧
    ((∃ x ∈ d.floats, x.isFinite = false) → ofText? d.toText = none) ∧
    (∀ first second, ofText? d.toText = some first → ofText? first.toText = some second →
      second.durations = first.durations) ∧
    (∀ span : Duration,
      span.recorded.toNanos = 1000 * min (span.toNanos / 1000) (2 ^ 64 - 1) ∧
        span.recorded.recorded = span.recorded) ∧
    d.toJson.hasMember "notes" = (!d.notes.isEmpty) ∧
    (∀ r ∈ d.runs, r.toJson.hasMember "notes" = !r.notes.isEmpty) ∧
    ∀ s ∈ d.sections, s.toJson.hasMember "notes" = !s.notes.isEmpty := by
  refine ⟨?_, ?_, fun _ _ => durations_again,
    fun span => ⟨span.toNanos_recorded, span.recorded_recorded⟩,
    d.hasMember_notes_toJson, fun r _ => r.hasMember_notes_toJson,
    fun s _ => s.hasMember_notes_toJson⟩
  · intro hfinite
    have hread : ∀ x ∈ d.floats, Json.reread? x = some ((Json.reread? x).getD 0) := by
      intro x hx
      obtain ⟨y, hy⟩ := Option.isSome_iff_exists.mp (h x hx (hfinite x hx))
      rw [hy, Option.getD_some]
    refine ⟨fun x => (Json.reread? x).getD 0, hread, ?_⟩
    rw [ofText?_toText, reread?_of_read hread]
  · rintro ⟨x, hx, hinfinite⟩
    have hnone := Json.reread?_of_not_finite hinfinite
    rw [ofText?_toText, ← Option.not_isSome_iff_eq_none, isSome_reread?]
    intro hall
    have hsome := hall x hx
    simp [hnone] at hsome

end Document

/-- A document with a row, whose duration is no number of microseconds, and with a message. -/
def quotedDocument : Document where
  iterations := 3
  runs := [⟨"a \"run\"\n", ["line \\"], []⟩]
  sections := [⟨"π", "file",
    [⟨"row", 4096, 512, .bytesTransferred, ⟨1, 1500, by decide⟩, 8, 8, 1.5, 0, 2, true, false⟩],
    ["cut short"]⟩]

theorem Document.toText_roundTrip_quoted :
    (∀ x ∈ quotedDocument.floats, x.isFinite = true → (Json.reread? x).isSome = true) ∧
    ∃ read : Float → Float,
      ofText? quotedDocument.toText = some (quotedDocument.mapRows (Row.recorded read)) := by
  have hfinite : ∀ x ∈ quotedDocument.floats, x.isFinite = true := by
    change ∀ x ∈ [(1.5 : Float), 0], x.isFinite = true
    simp only [List.forall_mem_cons]
    decide +kernel
  have hread : ∀ x ∈ quotedDocument.floats, x.isFinite = true → (Json.reread? x).isSome = true := by
    change ∀ x ∈ [(1.5 : Float), 0], _
    simp only [← Json.float?_float, List.forall_mem_cons]
    decide +kernel
  obtain ⟨read, -, hdocument⟩ := (toText_roundTrip quotedDocument hread).1 hfinite
  exact ⟨hread, read, hdocument⟩

end AccessBench
