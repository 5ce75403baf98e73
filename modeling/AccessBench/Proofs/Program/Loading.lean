import AccessBench.Program

/-!
Which configuration an invocation asks for, and why it gets none. The file, or the defaults without
one, gives the base; what the command line gives replaces fields of it, and the result is checked.
-/

namespace AccessBench

/-- The text of a file, all of it. -/
def Store.readText (s : Store) (path : String) : Except Failure String :=
  match s.readAll path with
  | .error failure => .error failure
  | .ok bytes =>
    match String.fromUTF8? bytes with
    | some text => .ok text
    | none => .error (.described "stream did not contain valid UTF-8")

theorem Store.readText_of_find {s : Store} {path text : String} {place : Path} {node : Nat}
    (hfind : s.find path = .ok (place, .file node)) (hbytes : s.bytes node = text.toUTF8) :
    s.readText path = .ok text := by
  have htext : String.fromUTF8? text.toUTF8 = some text := by
    exact dif_pos text.isValidUTF8
  have hread : s.readAll path = .ok text.toUTF8 := by
    simp [readAll, openExisting, hfind, hbytes]
  rw [readText, hread]
  simp only [htext]

theorem Config.ofFile_eq (path : String) (s : Store) :
    ofFile path s =
      match s.readText path with
      | .error failure => .error (.configRead path failure)
      | .ok text =>
        match ofToml? text with
        | some config => .ok config
        | none => .error .configParse := by
  rw [ofFile, Store.readText]
  cases s.readAll path with
  | error failure => rfl
  | ok bytes =>
    cases htext : String.fromUTF8? bytes with
    | none => simp only [htext]
    | some text =>
      cases hparsed : ofToml? text with
      | none => simp only [htext, hparsed]
      | some config => simp only [htext, hparsed]

namespace Invocation

variable {i : Invocation} {s : Store}

/-- The base configuration of an invocation, before what the command line gives. -/
inductive Reads (i : Invocation) (s : Store) : Config → Prop
  | defaults : i.config = none → Reads i s {}
  | file {path text : String} {base : Config} : i.config = some path → s.readText path = .ok text →
      Config.ofToml? text = some base → Reads i s base

/-- Why an invocation gets no configuration. -/
inductive Refused (i : Invocation) (s : Store) : Fault → Prop
  | unread {path : String} {failure : Failure} : i.config = some path →
      s.readText path = .error failure → Refused i s ⟨.loading path, .configRead path failure⟩
  | unparsed {path text : String} : i.config = some path → s.readText path = .ok text →
      Config.ofToml? text = none → Refused i s ⟨.loading path, .configParse⟩
  | invalid {base : Config} {e : BenchError} : i.Reads s base →
      (i.apply base).validate = .error e → Refused i s ⟨.validating, e⟩

theorem baseConfig_eq_ok_iff {base : Config} : i.baseConfig s = .ok base ↔ i.Reads s base := by
  rw [baseConfig]
  constructor
  · intro h
    cases hconfig : i.config with
    | none =>
      rw [hconfig] at h
      obtain rfl := Except.ok.inj h
      exact .defaults hconfig
    | some path =>
      simp only [hconfig, Config.ofFile_eq] at h
      cases htext : s.readText path with
      | error failure => simp [htext] at h
      | ok text =>
        cases hbase : Config.ofToml? text with
        | none => simp [htext, hbase] at h
        | some parsed =>
          simp only [htext, hbase, Except.ok.injEq] at h
          rw [← h]
          exact .file hconfig htext hbase
  · intro h
    cases h with
    | defaults hconfig => rw [hconfig]
    | file hconfig htext hbase => simp only [hconfig, Config.ofFile_eq, htext, hbase]

theorem load_of_reads {base : Config} (h : i.Reads s base) : i.load s = (i.apply base).checked := by
  rw [load, baseConfig_eq_ok_iff.mpr h]

/-- The configuration that an invocation gets is its base with the overrides, found valid. -/
theorem load_eq_ok_iff {c : Config} :
    i.load s = .ok c ↔ ∃ base, i.Reads s base ∧ c = i.apply base ∧ c.validate = .ok () := by
  constructor
  · intro h
    cases hbase : i.baseConfig s with
    | error fault => simp [load, hbase] at h
    | ok base =>
      have hreads := baseConfig_eq_ok_iff.mp hbase
      rw [load_of_reads hreads, Config.checked] at h
      cases hvalid : (i.apply base).validate with
      | error e => simp [hvalid] at h
      | ok _ =>
        simp only [hvalid, Except.ok.injEq] at h
        rw [← h]
        exact ⟨base, hreads, rfl, hvalid⟩
  · rintro ⟨base, hreads, rfl, hvalid⟩
    rw [load_of_reads hreads, Config.checked, hvalid]

theorem refused_of_baseConfig {fault : Fault} (h : i.baseConfig s = .error fault) :
    i.Refused s fault := by
  cases hconfig : i.config with
  | none => simp [baseConfig, hconfig] at h
  | some path =>
    simp only [baseConfig, hconfig, Config.ofFile_eq] at h
    cases htext : s.readText path with
    | error failure =>
      simp only [htext, Except.error.injEq] at h
      rw [← h]
      exact .unread hconfig htext
    | ok text =>
      cases hparsed : Config.ofToml? text with
      | some base => simp [htext, hparsed] at h
      | none =>
        simp only [htext, hparsed, Except.error.injEq] at h
        rw [← h]
        exact .unparsed hconfig htext hparsed

/-- An invocation gets no configuration for one of three reasons, and the fault tells which. -/
theorem load_eq_error_iff {fault : Fault} : i.load s = .error fault ↔ i.Refused s fault := by
  constructor
  · intro h
    cases hbase : i.baseConfig s with
    | error reason =>
      obtain rfl : reason = fault := by simpa [load, hbase] using h
      exact refused_of_baseConfig hbase
    | ok base =>
      have hreads := baseConfig_eq_ok_iff.mp hbase
      rw [load_of_reads hreads, Config.checked] at h
      cases hvalid : (i.apply base).validate with
      | ok _ => simp [hvalid] at h
      | error e =>
        simp only [hvalid, Except.error.injEq] at h
        rw [← h]
        exact .invalid hreads hvalid
  · intro h
    cases h with
    | unread hconfig htext =>
      simp only [load, baseConfig, hconfig, Config.ofFile_eq, htext]
    | unparsed hconfig htext hparsed =>
      simp only [load, baseConfig, hconfig, Config.ofFile_eq, htext, hparsed]
    | invalid hreads hvalid => rw [load_of_reads hreads, Config.checked, hvalid]

/-- The configurations differ in nothing but what the command line overrides. -/
structure Alike (i : Invocation) (c d : Config) : Prop where
  iterations : i.iterations = none → c.iterations = d.iterations
  randomSeed : i.seed = none → c.randomSeed = d.randomSeed
  memory : c.memory = d.memory
  path : i.path = none → c.file.path = d.file.path
  file : { c.file with path := d.file.path } = d.file

theorem Alike.apply_eq {c d : Config} (h : i.Alike c d) : i.apply c = i.apply d := by
  have hiterations : i.iterations.getD c.iterations = i.iterations.getD d.iterations := by
    cases hgiven : i.iterations with
    | none => exact h.iterations hgiven
    | some n => rfl
  have hseed : i.seed.getD c.randomSeed = i.seed.getD d.randomSeed := by
    cases hgiven : i.seed with
    | none => exact h.randomSeed hgiven
    | some n => rfl
  have hpath : i.path.getD c.file.path = i.path.getD d.file.path := by
    cases hgiven : i.path with
    | none => exact h.path hgiven
    | some path => rfl
  have hfile : { c.file with path := i.path.getD c.file.path } =
      { d.file with path := i.path.getD d.file.path } := by
    rw [hpath, ← h.file]
  rw [apply, apply, hiterations, hseed, h.memory, hfile]

end Invocation

end AccessBench
