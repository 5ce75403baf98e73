import AccessBench.Report.Sheet
import AccessBench.Proofs.Decimal.Digits
import AccessBench.Proofs.Report.Event

/-!
Sheets are read back as the records that were collected, whatever titles and names stand in them.
-/

namespace AccessBench

namespace Sheet

/-- Where in a field a reader of sheets is: in front of it, in a bare one, between quotes, or behind
a quote that ends the field unless a second one follows. -/
inductive Position
  | front
  | bare
  | quoted
  | behind
  deriving DecidableEq

/-- What has been read of a sheet: its records, the fields of the record that is not yet ended, and
the text of the field that is not. -/
structure Reading where
  records : List (List String) := []
  fields : List String := []
  text : List Char := []
  position : Position := .front

namespace Reading

/-- Ends a field at a comma, and the record with it at a line end. Nothing else may follow one. -/
def endField (r : Reading) (c : Char) : Option Reading :=
  if c = ',' then some { records := r.records, fields := r.fields ++ [String.ofList r.text] }
  else if c = '\n' then some { records := r.records ++ [r.fields ++ [String.ofList r.text]] }
  else none

/-- Reads one character. A quote stands only in front of a field, or doubled between quotes. -/
def step (r : Reading) (c : Char) : Option Reading :=
  match r.position with
  | .front =>
    if c = '"' then some { r with position := .quoted }
    else if c = ',' ∨ c = '\n' then r.endField c
    else some { r with text := [c], position := .bare }
  | .bare =>
    if c = '"' then none
    else if c = ',' ∨ c = '\n' then r.endField c
    else some { r with text := r.text ++ [c] }
  | .quoted =>
    if c = '"' then some { r with position := .behind } else some { r with text := r.text ++ [c] }
  | .behind =>
    if c = '"' then some { r with text := r.text ++ [c], position := .quoted } else r.endField c

def run (r : Reading) (cs : List Char) : Option Reading := cs.foldlM step r

end Reading

/-- The records of a text, each ended by a line end. -/
def records? (text : String) : Option (List (List String)) :=
  match Reading.run {} text.toList with
  | some ⟨records, [], [], .front⟩ => some records
  | _ => none

namespace Reading

variable {r : Reading}

@[simp] theorem run_nil : r.run [] = some r := rfl

@[simp] theorem run_cons (c : Char) (cs : List Char) :
    r.run (c :: cs) = (r.step c).bind fun next => next.run cs := by
  rw [run, List.foldlM_cons]
  rfl

theorem run_append (cs rest : List Char) :
    r.run (cs ++ rest) = (r.run cs).bind fun next => next.run rest := by
  rw [run, List.foldlM_append]
  rfl

/-- Between quotes a text is read once its quotes are doubled. -/
theorem run_doubled (h : r.position = .quoted) (cs : List Char) :
    r.run (cs.flatMap doubleQuote) = some { r with text := r.text ++ cs } := by
  induction cs generalizing r with
  | nil => simp
  | cons c cs ih =>
    have hstep : r.run (doubleQuote c) = some { r with text := r.text ++ [c] } := by
      by_cases hc : c = '"'
      · simp [doubleQuote, hc, step, h]
      · simp [doubleQuote, hc, step, h]
    have hrest := ih (r := { r with text := r.text ++ [c] }) h
    rw [List.flatMap_cons, run_append, hstep, Option.bind_some, hrest, List.append_assoc,
      List.singleton_append]

theorem run_bare (h : r.position = .bare) {cs : List Char}
    (hplain : ∀ c ∈ cs, isSpecial c = false) :
    r.run cs = some { r with text := r.text ++ cs } := by
  induction cs generalizing r with
  | nil => simp
  | cons c cs ih =>
    rw [List.forall_mem_cons] at hplain
    obtain ⟨⟨hcomma, hquote⟩, hline⟩ : (c ≠ ',' ∧ c ≠ '"') ∧ c ≠ '\n' := by
      simpa [isSpecial] using hplain.1
    have hstep : r.step c = some { r with text := r.text ++ [c] } := by
      simp [step, h, hcomma, hquote, hline]
    have hrest := ih (r := { r with text := r.text ++ [c] }) h hplain.2
    rw [run_cons, hstep, Option.bind_some, hrest, List.append_assoc, List.singleton_append]

theorem step_front (hfront : r.position = .front) (hnone : r.text = []) {c : Char}
    (hquote : c ≠ '"') : r.step c = ({ r with position := .bare } : Reading).step c := by
  obtain ⟨records, fields, text, position⟩ := r
  subst hfront hnone
  simp only [step, if_neg hquote, List.nil_append]
  rfl

/-- In front of a field its text is read, however it is written, up to the character that ends
it. -/
theorem run_field (hfront : r.position = .front) (hnone : r.text = []) (text : String) {c : Char}
    (hc : c = ',' ∨ c = '\n') :
    r.run ((field text).toList ++ [c]) = { r with text := text.toList }.endField c := by
  have hquote : c ≠ '"' := by rcases hc with rfl | rfl <;> decide
  unfold field
  split
  · let quoted : Reading := { r with position := .quoted }
    have hopen : r.step '"' = some quoted := by simp [step, hfront, quoted]
    have hinside : quoted.run (text.toList.flatMap doubleQuote) =
        some { quoted with text := text.toList } := by
      rw [run_doubled rfl]
      simp [quoted, hnone]
    have hclose : ({ quoted with text := text.toList } : Reading).run ['"', c] =
        { r with text := text.toList }.endField c := by
      simp [step, quoted, hquote]
      rfl
    rw [String.toList_ofList, List.cons_append, run_cons, hopen, Option.bind_some,
      List.append_assoc, run_append, hinside, Option.bind_some]
    exact hclose
  · next hspecial =>
    have hplain : ∀ c ∈ text.toList, isSpecial c = false := by simpa using hspecial
    let bare : Reading := { r with position := .bare }
    have hfirst : r.run (text.toList ++ [c]) = bare.run (text.toList ++ [c]) := by
      cases htext : text.toList with
      | nil => rw [List.nil_append, run_cons, run_cons, step_front hfront hnone hquote]
      | cons first rest =>
        have hne : first ≠ '"' := Decimal.ne_of_apply (p := fun c => !isSpecial c)
          (by simpa using hplain first (by simp [htext])) rfl
        rw [List.cons_append, run_cons, run_cons, step_front hfront hnone hne]
    have hclose : ({ bare with text := text.toList } : Reading).run [c] =
        { r with text := text.toList }.endField c := by
      simp [step, bare, hquote, hc]
      rfl
    rw [hfirst, run_append, run_bare rfl hplain, Option.bind_some, ← hclose]
    simp [bare, hnone]

/-- A reader between two records. -/
def afterRecords (records : List (List String)) : Reading := { records := records }

theorem run_record {fields : List String} (hne : fields ≠ []) (records : List (List String))
    (before : List String) :
    ({ records := records, fields := before } : Reading).run (record fields).toList =
      some (afterRecords (records ++ [before ++ fields])) := by
  induction fields generalizing before with
  | nil => exact absurd rfl hne
  | cons f fields ih =>
    cases fields with
    | nil =>
      have htext : (record [f]).toList = (field f).toList ++ ['\n'] := by simp [record]
      rw [htext, run_field rfl rfl f (.inr rfl)]
      simp [endField, afterRecords]
    | cons g fields =>
      have htext : (record (f :: g :: fields)).toList =
          ((field f).toList ++ [',']) ++ (record (g :: fields)).toList := by
        simp [record, String.intercalate_cons_cons]
      have hrest := ih (List.cons_ne_nil _ _) (before ++ [f])
      rw [htext, run_append, run_field rfl rfl f (.inl rfl)]
      simpa [endField] using hrest

theorem run_records {rows : List (List String)} (hne : ∀ fields ∈ rows, fields ≠ [])
    (records : List (List String)) :
    (afterRecords records).run (String.join (rows.map record)).toList =
      some (afterRecords (records ++ rows)) := by
  induction rows generalizing records with
  | nil => simp
  | cons fields rows ih =>
    rw [List.forall_mem_cons] at hne
    have hfirst := run_record hne.1 records []
    rw [List.map_cons, String.join_cons, String.toList_append, run_append, afterRecords, hfirst,
      Option.bind_some, ih hne.2, List.nil_append, List.append_assoc, List.singleton_append]

end Reading

variable {ω : Type}

/-- A sheet whose records all have fields is read back as they are, under the names of the
columns. -/
theorem records?_toText {sheet : Sheet ω} (hne : ∀ fields ∈ sheet.records, fields ≠ []) :
    records? sheet.toText = some (columns :: sheet.records) := by
  have hall : ∀ fields ∈ columns :: sheet.records, fields ≠ [] :=
    List.forall_mem_cons.mpr ⟨List.cons_ne_nil _ _, hne⟩
  have hrun : Reading.run {} (String.join ((columns :: sheet.records).map record)).toList =
      some (Reading.afterRecords (columns :: sheet.records)) := Reading.run_records hall []
  rw [records?, toText, ← List.map_cons, hrun]
  rfl

example : records? "a,\"b\"\"c\"\n,\n" = some [["a", "b\"c"], ["", ""]] := by decide

/-! ### Values that need no quotes -/

/-- Whether a text is written as it is. -/
def isPlain (text : String) : Bool := !text.toList.any isSpecial

theorem field_of_isPlain {text : String} (h : isPlain text = true) : field text = text := by
  rw [isPlain, Bool.not_eq_true'] at h
  simp [field, h]

theorem isPlain_of_forall {text : String} (h : ∀ c ∈ text.toList, isSpecial c = false) :
    isPlain text = true := by
  rw [isPlain, Bool.not_eq_true', List.any_eq_false]
  intro c hc
  rw [h c hc]
  exact Bool.false_ne_true

theorem isPlain_append {first rest : String} (hfirst : isPlain first = true)
    (hrest : isPlain rest = true) : isPlain (first ++ rest) = true := by
  simp only [isPlain, Bool.not_eq_true'] at hfirst hrest ⊢
  rw [String.toList_append, List.any_append, hfirst, hrest, Bool.or_false]

theorem isSpecial_of_isDigit {c : Char} (h : c.isDigit = true) : isSpecial c = false := by
  have hcomma : c ≠ ',' := Decimal.ne_of_apply h rfl
  have hquote : c ≠ '"' := Decimal.ne_of_apply h rfl
  have hline : c ≠ '\n' := Decimal.ne_of_apply h rfl
  simp [isSpecial, hcomma, hquote, hline]

theorem isPlain_nat (n : Nat) : isPlain (toString n) = true := by
  apply isPlain_of_forall
  intro c hc
  rw [Nat.toString_eq_ofList_toDigits, String.toList_ofList] at hc
  exact isSpecial_of_isDigit (Decimal.isDigit_of_mem_toDigits n c hc)

theorem isPlain_withPoint (places n : Nat) : isPlain (Decimal.withPoint places n) = true := by
  have hdigits : ∀ width, ∀ c ∈ Decimal.paddedDigits width n, isSpecial c = false := by
    intro width c hc
    rw [Decimal.paddedDigits, List.mem_append] at hc
    obtain hzero | hdigit := hc
    · rw [List.eq_of_mem_replicate hzero]
      rfl
    · exact isSpecial_of_isDigit (Decimal.isDigit_of_mem_toDigits n c hdigit)
  apply isPlain_of_forall
  intro c hc
  unfold Decimal.withPoint at hc
  split at hc
  · rw [String.toList_ofList] at hc
    exact isSpecial_of_isDigit (Decimal.isDigit_of_mem_toDigits n c hc)
  · rw [String.toList_ofList, List.mem_append, List.mem_cons] at hc
    obtain hwhole | rfl | hplaces := hc
    · exact hdigits _ c (List.mem_of_mem_take hwhole)
    · rfl
    · exact hdigits _ c (List.mem_of_mem_drop hplaces)

theorem isPlain_fixed (places : Nat) (x : Float) : isPlain (Decimal.fixed places x) = true := by
  unfold Decimal.fixed
  split
  · decide
  · split <;> decide
  · dsimp only
    split
    · exact isPlain_append (by decide) (isPlain_withPoint _ _)
    · exact isPlain_withPoint _ _

/-- The values of a row, which follow the title of its section and its name. -/
def values (r : Row) : List String :=
  [toString r.sizeBytes, toString r.blockSize, r.metric.label, toString r.duration.toMicros,
    toString r.auxCount, Decimal.fixed 3 r.perUnit, Decimal.fixed 2 r.throughput,
    truthText r.failed]

theorem isPlain_of_mem_values {r : Row} {value : String} (h : value ∈ values r) :
    isPlain value = true := by
  have hmetric : isPlain r.metric.label = true := by cases r.metric <;> decide
  have hfailed : isPlain (truthText r.failed) = true := by cases r.failed <;> decide
  simp only [values, List.mem_cons, List.not_mem_nil, or_false] at h
  obtain rfl | rfl | rfl | rfl | rfl | rfl | rfl | rfl := h
  · exact isPlain_nat _
  · exact isPlain_nat _
  · exact hmetric
  · exact isPlain_nat _
  · exact isPlain_nat _
  · exact isPlain_fixed _ _
  · exact isPlain_fixed _ _
  · exact hfailed

end Sheet

/-! ### Sheets of events -/

namespace Event

/-- The title of the section that has been entered last, empty if none has. -/
def latestTitle (before : List Event) : String :=
  ((before.filterMap entry?).getLast?.map Prod.fst).getD ""

/-- Every row with the title of the section that it comes after. -/
def titledRows (events : List Event) : List (String × Row) :=
  gather (fun before event => event.row?.map fun row => (latestTitle before, row)) events

theorem latestTitle_append_singleton (events : List Event) (event : Event) :
    latestTitle (events ++ [event]) = (event.entry?.map Prod.fst).getD (latestTitle events) := by
  cases event <;> simp [latestTitle, List.filterMap_cons]

theorem titledRows_append_singleton (events : List Event) (event : Event) :
    titledRows (events ++ [event]) =
      titledRows events ++ (event.row?.map fun row => (latestTitle events, row)).toList :=
  gather_append_singleton events event

theorem length_titledRows (events : List Event) :
    (titledRows events).length = (events.filterMap row?).length := by
  induction events using List.reverseRecOn with
  | nil => rfl
  | append_singleton events event ih =>
    rw [titledRows_append_singleton, List.length_append, ih, List.filterMap_append,
      List.length_append]
    cases event <;> rfl

end Event

namespace Sheet

variable {ω : Type} {sheet : Sheet ω} {events : List Event}

/-- A sheet holds what the events report. -/
structure Holds (sheet : Sheet ω) (events : List Event) : Prop where
  title : sheet.title = Event.latestTitle events
  records : sheet.records = (Event.titledRows events).map fun told => rowFields told.1 told.2

theorem Holds.collect (h : sheet.Holds events) (event : Event) :
    (sheet.collect event).Holds (events ++ [event]) where
  title := by
    rw [Event.latestTitle_append_singleton, ← h.title]
    cases event <;> rfl
  records := by
    rw [Event.titledRows_append_singleton, List.map_append, ← h.records, ← h.title]
    cases event with
    | measured row => rfl
    | opened | entered | noted | finished => simp [Sheet.collect, Event.row?]

theorem Holds.receive (h : sheet.Holds events) (writer : Writer ω) (event : Event) :
    (sheet.receive writer event).state.Holds (events ++ [event]) := by
  have hcollect := h.collect event
  cases event with
  | opened | entered | measured | noted => exact hcollect
  | finished banner =>
    -- the end writes the sheet, which stays as it is
    rw [Sheet.receive]
    split <;> exact ⟨hcollect.title, hcollect.records⟩

theorem holds_after (writer : Writer ω) (out : ω) (events : List Event) :
    ((sink writer).after events { out := out }).Holds events := by
  induction events using List.reverseRecOn with
  | nil => exact ⟨rfl, rfl⟩
  | append_singleton events event ih =>
    rw [Sink.after_append_singleton]
    exact ih.receive writer event

/-- After any events the text of a sheet is read back as the names of the columns and one record for
every row: the title of its section, its name and its values, which are written as they are. -/
theorem records_after (writer : Writer ω) (out : ω) (events : List Event) :
    let text := ((sink writer).after events { out := out }).toText
    ∃ records, records? text = some records ∧
      records = columns ::
        (Event.titledRows events).map (fun (title, row) => title :: row.name :: values row) ∧
      records.length = 1 + (events.filterMap Event.row?).length ∧
      (∀ fields ∈ records, fields.length = 10) ∧
      ∀ row, ∀ value ∈ values row, field value = value := by
  have hrecords := (holds_after writer out events).records
  have hne : ∀ fields ∈ ((sink writer).after events { out := out }).records, fields ≠ [] := by
    intro fields hfields
    rw [hrecords, List.mem_map] at hfields
    obtain ⟨told, -, rfl⟩ := hfields
    exact List.cons_ne_nil _ _
  refine ⟨_, records?_toText hne, ?_, ?_, ?_, fun row value h =>
    field_of_isPlain (isPlain_of_mem_values h)⟩
  · rw [hrecords]
    rfl
  · rw [hrecords, List.length_cons, List.length_map, Event.length_titledRows, Nat.add_comm]
  · intro fields hfields
    rw [hrecords, List.mem_cons, List.mem_map] at hfields
    obtain rfl | ⟨told, -, rfl⟩ := hfields <;> rfl

end Sheet

end AccessBench
