import AccessBench.Proofs.Store.Sight

/-!
Files that come and go: what making a file and removing one change in a store, and that all that is
elsewhere stays. Stores stay sound.
-/

namespace AccessBench.Store

variable {s t : Store} {text : String} {place : Path} {bytes : ByteArray}

theorem lookup_filter_ne (entries : List (Path × Entry)) (place p : Path) :
    (entries.filter (·.1 ≠ place)).lookup p = if p = place then none else entries.lookup p := by
  induction entries with
  | nil => simp
  | cons e rest ih =>
    by_cases he : e.1 = place
    · rw [List.filter_cons_of_neg (by simp [he]), ih, List.lookup_cons]
      by_cases hp : p = place
      · simp [hp]
      · have hne : (p == e.1) = false := by simp [he, hp]
        simp [hp, hne]
    · rw [List.filter_cons_of_pos (by simp [he]), List.lookup_cons, List.lookup_cons, ih]
      by_cases hp : p = e.1
      · simp [hp, he]
      · have hne : (p == e.1) = false := by simp [hp]
        simp [hne]

theorem place_ne_nil (h : s.entry? place ≠ some .directory) : place ≠ [] := by
  rintro rfl
  exact h rfl

/-- The second store is the first one with a file of the given contents at a place, where there was
nothing or another file. -/
structure Gains (place : Path) (bytes : ByteArray) (s t : Store) : Prop where
  sound : t.Sound
  workingDirectory : t.workingDirectory = s.workingDirectory
  free : s.entry? place ≠ some .directory
  gained : ∃ node, t.entry? place = some (.file node) ∧ t.bytes node = bytes
  others : ∀ p, p ≠ place → t.entry? p = s.entry? p
  kept : ∀ p node, p ≠ place → s.entry? p = some (.file node) → t.bytes node = s.bytes node

/-- The second store is the first one without what was at a place. -/
structure Loses (place : Path) (s t : Store) : Prop where
  sound : t.Sound
  workingDirectory : t.workingDirectory = s.workingDirectory
  lost : t.entry? place = none
  others : ∀ p, p ≠ place → t.entry? p = s.entry? p
  kept : ∀ node, t.bytes node = s.bytes node

theorem Gains.sight?_of_ne (h : Gains place bytes s t) {p : Path} (hp : p ≠ place) :
    t.sight? p = s.sight? p :=
  sight?_congr (h.others p hp) fun node => h.kept p node hp

theorem Gains.sight?_self (h : Gains place bytes s t) : t.sight? place = some (.file bytes) := by
  obtain ⟨node, hfile, hbytes⟩ := h.gained
  rw [sight?_of_file hfile, hbytes]

theorem Loses.sight?_of_ne (h : Loses place s t) {p : Path} (hp : p ≠ place) :
    t.sight? p = s.sight? p :=
  sight?_congr (h.others p hp) fun node _ => h.kept node

/-- Directories are neither made nor removed with a file. -/
theorem Gains.directory_iff (h : Gains place bytes s t) {p : Path} :
    t.entry? p = some .directory ↔ s.entry? p = some .directory := by
  by_cases hp : p = place
  · subst hp
    obtain ⟨node, hfile, -⟩ := h.gained
    simp [hfile, h.free]
  · rw [h.others p hp]

theorem Gains.resolve_iff (h : Gains place bytes s t) {p : Path} :
    t.resolve text = .ok p ↔ s.resolve text = .ok p :=
  ⟨resolve_of_directories (fun _ => h.directory_iff.mp) h.workingDirectory.symm,
    resolve_of_directories (fun _ => h.directory_iff.mpr) h.workingDirectory⟩

theorem gains_setBytes {node : Nat} (hs : s.Sound) (hfile : s.entry? place = some (.file node)) :
    Gains place bytes s (s.setBytes node fun _ => bytes) where
  sound := by
    constructor
    · intro p n
      simp only [setBytes, Array.size_modify]
      exact hs.stored p n
    · exact hs.apart
  workingDirectory := rfl
  free := by simp [hfile]
  gained := ⟨node, hfile, bytes_setBytes_self _ _ _ (hs.stored place node hfile)⟩
  others := fun _ _ => rfl
  kept := by
    intro p n hp hn
    apply bytes_setBytes_of_ne
    rintro rfl
    exact hp (hs.apart p place n hn hfile)

theorem gains_push (hs : s.Sound) (hnone : s.entry? place = none) :
    Gains place bytes s { s with
      entries := s.entries ++ [(place, .file s.contents.size)]
      contents := s.contents.push bytes } := by
  have hne : place ≠ [] := place_ne_nil (s := s) (by simp [hnone])
  have hlookup : s.entries.lookup place = none := by
    simpa [ entry?, hne] using hnone
  let t : Store := { s with
    entries := s.entries ++ [(place, .file s.contents.size)]
    contents := s.contents.push bytes }
  have hentry (p : Path) : t.entry? p =
      if p = place then some (.file s.contents.size) else s.entry? p := by
    by_cases hp : p = place
    · subst hp
      simp [t, entry?, hne, List.lookup_append, hlookup]
    · simp only [t, entry?, List.lookup_append, if_neg hp]
      have hlast : List.lookup p [(place, Entry.file s.contents.size)] = none := by
        have hbeq : (p == place) = false := by simp [hp]
        simp [List.lookup_cons, hbeq]
      rw [hlast, Option.or_none]
  have hstored (p : Path) (node : Nat) (h : t.entry? p = some (.file node)) :
      p = place ∧ node = s.contents.size ∨ p ≠ place ∧ s.entry? p = some (.file node) := by
    rw [hentry] at h
    by_cases hp : p = place
    · rw [if_pos hp] at h
      exact .inl ⟨hp, by simpa using h.symm⟩
    · rw [if_neg hp] at h
      exact .inr ⟨hp, h⟩
  refine ⟨⟨?_, ?_⟩, rfl, by simp [hnone], ⟨s.contents.size, ?_, ?_⟩, ?_, ?_⟩
  · intro p node h
    have hsize : t.contents.size = s.contents.size + 1 := Array.size_push bytes
    change node < t.contents.size
    obtain ⟨-, rfl⟩ | ⟨-, hfile⟩ := hstored p node h
    · omega
    · have := hs.stored p node hfile
      omega
  · intro p q node hp hq
    obtain ⟨hpp, hnode⟩ | ⟨-, hfile⟩ := hstored p node hp
    · obtain ⟨hqp, -⟩ | ⟨-, hother⟩ := hstored q node hq
      · rw [hpp, hqp]
      · have := hs.stored q node hother
        omega
    · obtain ⟨-, hnode⟩ | ⟨-, hother⟩ := hstored q node hq
      · have := hs.stored p node hfile
        omega
      · exact hs.apart p q node hfile hother
  · exact (hentry place).trans (if_pos rfl)
  · simp [Store.bytes]
  · intro p hp
    exact (hentry p).trans (if_neg hp)
  · intro p node hp hfile
    have hlt := hs.stored p node hfile
    simp [Store.bytes, Array.getD_eq_getD_getElem?, Array.getElem?_push, Nat.ne_of_lt hlt]

theorem creationPath_ok (h : s.creationPath text = .ok place) :
    s.resolve text = .ok place ∧ Path.needsDirectory text = false := by
  rw [creationPath] at h
  split at h
  · split at h <;> cases h
  · next hslash => exact ⟨h, by simpa using hslash⟩

/-- A file gets its contents, at the place that its text leads to, or nothing is changed. -/
theorem put_cases (hs : s.Sound) (text : String) (bytes : ByteArray) :
    (∃ failure, s.put text bytes = .error failure) ∨
      ∃ place t, s.put text bytes = .ok t ∧ s.resolve text = .ok place ∧
        Path.needsDirectory text = false ∧ Gains place bytes s t := by
  rw [put, create]
  cases hpath : s.creationPath text with
  | error failure => exact .inl ⟨failure, rfl⟩
  | ok place =>
    obtain ⟨hplace, hslash⟩ := creationPath_ok hpath
    dsimp only
    cases hentry : s.entry? place with
    | none =>
      refine .inr ⟨place, _, ?_, hplace, hslash, gains_push hs hentry⟩
      simp only [Except.map, setBytes]
      congr 2
      apply Array.ext
      · simp
      · intro i _ hi
        rw [Array.size_push] at hi
        by_cases hlast : s.contents.size = i
        · subst hlast
          simp [Array.getElem_modify]
        · have hbefore : i < s.contents.size := by omega
          simp [Array.getElem_modify, hlast, Array.getElem_push, hbefore]
    | some entry =>
      cases entry with
      | directory => exact .inl ⟨.reason Reason.isDirectory, rfl⟩
      | file node =>
        refine .inr ⟨place, _, ?_, hplace, hslash, gains_setBytes hs hentry⟩
        simp only [Except.map, setBytes_setBytes]
        rfl

/-- A file that is there can be removed, and nothing else goes with it. -/
theorem remove_of_find {node : Nat} (hs : s.Sound)
    (hfind : s.find text = .ok (place, .file node)) :
    ∃ t, s.remove text = .ok t ∧ Loses place s t := by
  obtain ⟨-, hfile, -⟩ := of_find_file hfind
  have hne : place ≠ [] := place_ne_nil (s := s) (by simp [hfile])
  let t : Store := { s with entries := s.entries.filter (·.1 ≠ place) }
  have hentry (p : Path) : t.entry? p = if p = place then none else s.entry? p := by
    by_cases hp : p = []
    · subst hp
      simp [ entry?, hne.symm]
    · have hempty : p.isEmpty = false := by simpa using hp
      simp only [t, entry?, hempty, Bool.false_eq_true, if_false]
      exact lookup_filter_ne s.entries place p
  have hstays {p : Path} {n : Nat} (h : t.entry? p = some (.file n)) :
      s.entry? p = some (.file n) := by
    rw [hentry] at h
    split at h
    · cases h
    · exact h
  refine ⟨t, by rw [remove, hfind], ⟨⟨?_, ?_⟩, rfl, (hentry place).trans (if_pos rfl), ?_, ?_⟩⟩
  · exact fun p n h => hs.stored p n (hstays h)
  · exact fun p q n hp hq => hs.apart p q n (hstays hp) (hstays hq)
  · exact fun p hp => (hentry p).trans (if_neg hp)
  · exact fun _ => rfl

end AccessBench.Store
