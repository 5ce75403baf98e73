import AccessBench.Fixture
import AccessBench.Proofs.Fixture.Content
import AccessBench.Proofs.Store.Change

/-!
Fixture files in a store: making one, and ending its use.
-/

namespace AccessBench.FixtureFile

/-- Makes a fixture where filling it fails after so many bytes. What has been written is removed. -/
def createPartly (written : Nat) (failure : Failure) (path : String) (size : UInt64)
    (mode : FillMode) (seed : UInt64) (s : Store) : Except BenchError FixtureFile × Store :=
  match s.put path ((fixtureContent mode seed size.toNat).extract 0 written) with
  | .error refusal => (.error (.fixtureCreate path refusal), s)
  | .ok s => (.error (.fixtureCreate path failure), discard ⟨path, size, true⟩ s)

variable {s t : Store} {place : Path} {bytes : ByteArray}

theorem create_cases (hs : s.Sound) (path : String) (size : UInt64) (mode : FillMode)
    (seed : UInt64) :
    (∃ e, create path size mode seed s = (.error e, s)) ∨
      ∃ place t, create path size mode seed s = (.ok ⟨path, size, true⟩, t) ∧
        s.resolve path = .ok place ∧ Path.needsDirectory path = false ∧
        Store.Gains place (fixtureContent mode seed size.toNat) s t := by
  rw [create]
  obtain ⟨failure, hput⟩ | ⟨place, t, hput, hplace, hslash, hgains⟩ :=
    Store.put_cases hs path (fixtureContent mode seed size.toNat)
  · rw [hput]
    exact .inl ⟨_, rfl⟩
  · rw [hput]
    exact .inr ⟨place, t, rfl, hplace, hslash, hgains⟩

/-- A fixture that is owned goes with its file, as long as its text still leads there. -/
theorem discard_of_owned {f : FixtureFile} (howned : f.owned = true) (ht : t.Sound)
    {node : Nat} (hfind : t.find f.path = .ok (place, .file node)) :
    Store.Loses place t (f.discard t) := by
  obtain ⟨u, hremove, hloses⟩ := Store.remove_of_find ht hfind
  rw [discard, if_pos howned, hremove]
  exact hloses

theorem discard_of_kept {f : FixtureFile} (hkept : f.owned = false) (t : Store) :
    f.discard t = t := by
  rw [discard, hkept]
  rfl

theorem find_of_gains {path : String} (h : Store.Gains place bytes s t)
    (hplace : s.resolve path = .ok place) (hslash : Path.needsDirectory path = false) :
    ∃ node, t.find path = .ok (place, .file node) ∧ t.bytes node = bytes := by
  obtain ⟨node, hfile, hbytes⟩ := h.gained
  exact ⟨node, Store.find_of_file (h.resolve_iff.mpr hplace) hfile hslash, hbytes⟩

theorem createPartly_cases (hs : s.Sound) (written : Nat) (failure : Failure) (path : String)
    (size : UInt64) (mode : FillMode) (seed : UInt64) :
    ∃ e t, createPartly written failure path size mode seed s = (.error e, t) ∧
      (t = s ∨ ∃ place, s.resolve path = .ok place ∧ t.Sound ∧ t.sight? place = none ∧
        ∀ p, p ≠ place → t.sight? p = s.sight? p) := by
  rw [createPartly]
  obtain ⟨refusal, hput⟩ | ⟨place, t, hput, hplace, hslash, hgains⟩ :=
    Store.put_cases hs path ((fixtureContent mode seed size.toNat).extract 0 written)
  · rw [hput]
    exact ⟨_, s, rfl, .inl rfl⟩
  · obtain ⟨node, hfind, -⟩ := find_of_gains hgains hplace hslash
    have hloses : Store.Loses place t (discard ⟨path, size, true⟩ t) :=
      discard_of_owned rfl hgains.sound hfind
    rw [hput]
    refine ⟨_, _, rfl, .inr ⟨place, hplace, hloses.sound, Store.sight?_of_none hloses.lost, ?_⟩⟩
    intro p hp
    rw [hloses.sight?_of_ne hp, hgains.sight?_of_ne hp]

end AccessBench.FixtureFile
