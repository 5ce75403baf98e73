import AccessBench.Proofs.Store

/-!
What there is to see at the places of a file store, and how much of it a file that is made, emptied,
turned or removed changes.
-/

namespace AccessBench

/-- What is at a place, apart from where its contents are kept. -/
inductive Sight
  | directory
  | file (bytes : ByteArray)

namespace Store

def sight? (s : Store) (place : Path) : Option Sight :=
  match s.entry? place with
  | none => none
  | some .directory => some .directory
  | some (.file node) => some (.file (s.bytes node))

/-- Every file has contents, and no two names lead to the same ones. -/
structure Sound (s : Store) : Prop where
  stored : ∀ place node, s.entry? place = some (.file node) → node < s.contents.size
  apart : ∀ place other node, s.entry? place = some (.file node) →
    s.entry? other = some (.file node) → place = other

section

variable {s t : Store} {text : String} {place : Path} {node : Nat}

theorem sight?_of_file (h : s.entry? place = some (.file node)) :
    s.sight? place = some (.file (s.bytes node)) := by
  rw [sight?, h]

theorem sight?_of_none (h : s.entry? place = none) : s.sight? place = none := by
  rw [sight?, h]

theorem sight?_congr (hentry : t.entry? place = s.entry? place)
    (hbytes : ∀ node, s.entry? place = some (.file node) → t.bytes node = s.bytes node) :
    t.sight? place = s.sight? place := by
  rw [sight?, sight?, hentry]
  cases hfound : s.entry? place with
  | none => rfl
  | some entry =>
    cases entry with
    | directory => rfl
    | file node => simp only [hbytes node hfound]

/-- Names are followed through directories only, so a place is still found when all of them stay. -/
theorem walk_of_directories
    (h : ∀ p, s.entry? p = some .directory → t.entry? p = some .directory) {here : Path}
    {names : List String} (hwalk : s.walk here names = .ok place) :
    t.walk here names = .ok place := by
  induction names generalizing here with
  | nil => exact hwalk
  | cons name names ih =>
    rw [walk] at hwalk ⊢
    cases hfound : s.entry? here with
    | none => simp [directoryFailure?, hfound] at hwalk
    | some entry =>
      cases entry with
      | file node => simp [directoryFailure?, hfound] at hwalk
      | directory =>
        simp only [directoryFailure?, hfound, h here hfound] at hwalk ⊢
        split at hwalk
        · cases hwalk
        · next hname =>
          rw [if_neg hname]
          exact ih hwalk

theorem resolve_of_directories
    (h : ∀ p, s.entry? p = some .directory → t.entry? p = some .directory)
    (hworking : t.workingDirectory = s.workingDirectory) (hplace : s.resolve text = .ok place) :
    t.resolve text = .ok place := by
  rw [resolve, follow] at hplace ⊢
  cases hfailure : Path.textFailure? text with
  | some failure => simp [hfailure] at hplace
  | none =>
    simp only [hfailure, hworking] at hplace ⊢
    exact walk_of_directories h hplace

theorem find_of_file (hplace : s.resolve text = .ok place)
    (hfile : s.entry? place = some (.file node)) (hslash : Path.needsDirectory text = false) :
    s.find text = .ok (place, .file node) := by
  simp [find, hplace, hfile, hslash]

theorem of_find_file (h : s.find text = .ok (place, .file node)) :
    s.resolve text = .ok place ∧ s.entry? place = some (.file node) ∧
      Path.needsDirectory text = false := by
  rw [find] at h
  cases hresolve : s.resolve text with
  | error failure => simp [hresolve] at h
  | ok found =>
    cases hentry : s.entry? found with
    | none => simp [hresolve, hentry] at h
    | some entry =>
      cases entry with
      | directory => simp [hresolve, hentry] at h
      | file other =>
        cases hslash : Path.needsDirectory text with
        | true => simp [hresolve, hentry, hslash] at h
        | false =>
          obtain ⟨rfl, rfl⟩ : found = place ∧ other = node := by
            simpa [hresolve, hentry, hslash] using h
          exact ⟨rfl, hentry, rfl⟩

end

section

/-- The store with the file that a text leads to emptied. -/
def masking (text : String) (s : Store) : Store :=
  match s.find text with
  | .ok (_, .file node) => s.setBytes node fun _ => ByteArray.empty
  | _ => s

variable {s t : Store} {text : String}

theorem masking_of_file {place : Path} {node : Nat} (h : s.find text = .ok (place, .file node)) :
    s.masking text = s.setBytes node fun _ => ByteArray.empty := by
  rw [masking, h]

theorem masking_cases (s : Store) (text : String) :
    (∃ place node, s.find text = .ok (place, .file node) ∧
      s.masking text = s.setBytes node fun _ => ByteArray.empty) ∨
      ((∀ place node, s.find text ≠ .ok (place, .file node)) ∧ s.masking text = s) := by
  rw [masking]
  cases hfind : s.find text with
  | error failure => exact .inr ⟨by simp, rfl⟩
  | ok found =>
    obtain ⟨place, entry⟩ := found
    cases entry with
    | directory => exact .inr ⟨by simp, rfl⟩
    | file node => exact .inl ⟨place, node, rfl, rfl⟩

/-- Whatever is written to the file that a text leads to, the rest of the store stays. -/
theorem masking_setBytes {place : Path} {node : Nat} (h : s.find text = .ok (place, .file node))
    (f : ByteArray → ByteArray) : (s.setBytes node f).masking text = s.masking text := by
  have hfind : (s.setBytes node f).find text = .ok (place, .file node) := by
    rw [find_setBytes, h]
  rw [masking_of_file h, masking_of_file hfind, setBytes_setBytes]
  rfl

/-- Stores that differ at most in the file that a text leads to. -/
theorem same_of_masking (h : t.masking text = s.masking text) :
    t.entries = s.entries ∧ t.workingDirectory = s.workingDirectory ∧
      t.contents.size = s.contents.size ∧
      ∀ node, (∀ place, s.find text ≠ .ok (place, .file node)) → t.bytes node = s.bytes node := by
  have hentries (u : Store) : (u.masking text).entries = u.entries := by
    obtain ⟨_, _, -, hu⟩ | ⟨-, hu⟩ := u.masking_cases text
    · rw [hu]
      rfl
    · rw [hu]
  have hworking (u : Store) : (u.masking text).workingDirectory = u.workingDirectory := by
    obtain ⟨_, _, -, hu⟩ | ⟨-, hu⟩ := u.masking_cases text
    · rw [hu]
      rfl
    · rw [hu]
  have hsize (u : Store) : (u.masking text).contents.size = u.contents.size := by
    obtain ⟨_, _, -, hu⟩ | ⟨-, hu⟩ := u.masking_cases text
    · rw [hu]
      simp [setBytes]
    · rw [hu]
  have hbytes (u : Store) (node : Nat) (hother : ∀ place, u.find text ≠ .ok (place, .file node)) :
      (u.masking text).bytes node = u.bytes node := by
    obtain ⟨place, masked, hfind, hu⟩ | ⟨-, hu⟩ := u.masking_cases text
    · rw [hu]
      apply bytes_setBytes_of_ne
      rintro rfl
      exact hother place hfind
    · rw [hu]
  have hsame : t.entries = s.entries := by rw [← hentries t, h, hentries]
  have hsameDirectory : t.workingDirectory = s.workingDirectory := by
    rw [← hworking t, h, hworking]
  refine ⟨hsame, hsameDirectory, ?_, ?_⟩
  · rw [← hsize t, h, hsize]
  · intro node hother
    rw [← hbytes t node, h, hbytes s node hother]
    intro place
    rw [find_congr hsame hsameDirectory]
    exact hother place

theorem sound_of_masking (hs : s.Sound) (h : t.masking text = s.masking text) : t.Sound := by
  obtain ⟨hentries, -, hsize, -⟩ := same_of_masking h
  constructor
  · intro place node
    rw [ entry?_congr hentries, hsize]
    exact hs.stored place node
  · intro place other node
    rw [ entry?_congr hentries, entry?_congr hentries]
    exact hs.apart place other node

theorem sight?_of_masking (hs : s.Sound) (h : t.masking text = s.masking text) {place : Path}
    (hplace : s.resolve text ≠ .ok place) : t.sight? place = s.sight? place := by
  obtain ⟨hentries, -, -, hbytes⟩ := same_of_masking h
  apply sight?_congr (entry?_congr hentries place)
  intro node hfile
  apply hbytes
  intro other hfind
  obtain ⟨hresolve, hother, -⟩ := of_find_file hfind
  obtain rfl := hs.apart other place node hother hfile
  exact hplace hresolve

end

end Store

end AccessBench
