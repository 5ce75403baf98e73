import AccessBench.Proofs.Fixture
import AccessBench.Proofs.Random.Keystream

/-!
The bytes of a fresh fixture, told by their offsets alone. Chunks hold whole words and whole rounds
of the pattern, so where they begin and end leaves no trace, and a shorter fixture is the beginning
of a longer one.
-/

namespace AccessBench

open AccessBench.Random

/-- The byte that a fixture gets at an offset. -/
def filledByte (seed : UInt64) (offset : Nat) : FillMode → UInt8
  | .pattern => UInt8.ofNat offset
  | .random => keystreamByte (keyOfSeed seed) offset

/-- So many bytes have been made, and the random ones go on with the word after them. -/
structure Filled (mode : FillMode) (seed : UInt64) (size : Nat) (f : Filling) : Prop where
  bytes : f.1.data.toList = (List.range size).map fun i => filledByte seed i mode
  stream : mode = .random → f.2.StandsAt (keyOfSeed seed) (size / 4)

variable {mode : FillMode} {seed : UInt64} {size length : Nat} {f : Filling}

theorem toList_extract_patternChunk (h : length ≤ chunkSize) :
    (patternChunk.extract 0 length).data.toList = (List.range length).map UInt8.ofNat := by
  rw [patternChunk, ByteArray.data_extract, Array.toList_extract, Array.toList_map,
    Array.toList_range, List.extract_eq_take_drop, List.drop_zero, Nat.sub_zero, ← List.map_take,
    List.take_range, Nat.min_eq_left h]

theorem ofNat_add_of_dvd (h : chunkSize ∣ size) (i : Nat) :
    UInt8.ofNat (size + i) = UInt8.ofNat i := by
  obtain ⟨k, rfl⟩ := h
  rw [← UInt8.toNat_inj, UInt8.toNat_ofNat', UInt8.toNat_ofNat', chunkSize]
  omega

theorem toList_appendChunk (h : Filled mode seed size f) (hsize : chunkSize ∣ size)
    (hlength : length ≤ chunkSize) :
    (appendChunk mode length f).1.data.toList =
      (List.range (size + length)).map fun i => filledByte seed i mode := by
  rw [List.range_add, List.map_append, ← h.bytes, List.map_map]
  cases mode with
  | pattern =>
    rw [appendChunk, ByteArray.toList_data_append, toList_extract_patternChunk hlength]
    congr 1
    apply List.map_congr_left
    intro i _
    exact (ofNat_add_of_dvd hsize i).symm
  | random =>
    have hwords : 4 * (size / 4) = size := Nat.mul_div_cancel' (Nat.dvd_trans (by decide) hsize)
    obtain ⟨hfilled, -⟩ := Keystream.fill_of_standsAt (h.stream rfl) f.1 length
    rw [hwords, List.range'_eq_map_range, List.map_map] at hfilled
    exact hfilled

theorem filled_appendChunk (h : Filled mode seed size f) (hsize : chunkSize ∣ size) :
    Filled mode seed (size + chunkSize) (appendChunk mode chunkSize f) where
  bytes := toList_appendChunk h hsize (Nat.le_refl _)
  stream := by
    rintro rfl
    obtain ⟨-, hstands⟩ := Keystream.fill_of_standsAt (h.stream rfl) f.1 chunkSize
    have hdiv : size / 4 + chunkSize / 4 = (size + chunkSize) / 4 := by
      rw [chunkSize]
      omega
    rw [← hdiv]
    exact hstands (by decide)

theorem filled_appendChunks (h : Filled mode seed size f) (hsize : chunkSize ∣ size) (n : Nat) :
    Filled mode seed (size + n * chunkSize) (appendChunks mode n f) := by
  induction n generalizing size f with
  | zero => simpa [appendChunks] using h
  | succ n ih =>
    have hnext := ih (filled_appendChunk h hsize) (Nat.dvd_add_right hsize |>.mpr (Nat.dvd_refl _))
    rw [Nat.succ_mul, Nat.add_comm (n * chunkSize), ← Nat.add_assoc]
    exact hnext

theorem toList_fixtureContent (mode : FillMode) (seed : UInt64) (size : Nat) :
    (fixtureContent mode seed size).data.toList =
      (List.range size).map fun i => filledByte seed i mode := by
  have hnone : Filled mode seed 0 (ByteArray.empty, Keystream.ofSeed seed) :=
    ⟨rfl, fun _ => Keystream.standsAt_ofSeed seed⟩
  have hfull := filled_appendChunks hnone (Nat.dvd_zero _) (size / chunkSize)
  have hrest : size % chunkSize ≤ chunkSize := Nat.le_of_lt (Nat.mod_lt _ (by decide))
  have hall := toList_appendChunk hfull ⟨size / chunkSize, by rw [Nat.zero_add, Nat.mul_comm]⟩ hrest
  rw [Nat.zero_add, Nat.div_add_mod'] at hall
  exact hall

theorem getElem?_fixtureContent {i : Nat} (hi : i < size) :
    (fixtureContent mode seed size)[i]? = some (filledByte seed i mode) := by
  change (fixtureContent mode seed size).data[i]? = _
  rw [← Array.getElem?_toList, toList_fixtureContent, List.getElem?_map, List.getElem?_range hi,
    Option.map_some]

theorem fixtureContent_eq_extract {larger : Nat} (h : size ≤ larger) :
    fixtureContent mode seed size = (fixtureContent mode seed larger).extract 0 size := by
  apply ByteArray.ext
  rw [← Array.toList_inj, ByteArray.data_extract, Array.toList_extract, toList_fixtureContent,
    toList_fixtureContent, List.extract_eq_take_drop, List.drop_zero, Nat.sub_zero,
    ← List.map_take, List.take_range, Nat.min_eq_left h]

theorem Store.readAll_of_gains {s t : Store} {place : Path} {path : String} {bytes : ByteArray}
    (h : Gains place bytes s t) (hplace : s.resolve path = .ok place)
    (hslash : Path.needsDirectory path = false) : t.readAll path = .ok bytes := by
  obtain ⟨node, hfind, hbytes⟩ := FixtureFile.find_of_gains h hplace hslash
  rw [readAll, openExisting, hfind, ← hbytes]

namespace FixtureFile

variable {path : String} {fixtureSize : UInt64} {s t : Store} {made : FixtureFile}

theorem of_create (hs : s.Sound) (hmade : create path fixtureSize mode seed s = (.ok made, t)) :
    made = ⟨path, fixtureSize, true⟩ ∧
      t.readAll path = .ok (fixtureContent mode seed fixtureSize.toNat) := by
  obtain ⟨e, hfailed⟩ | ⟨place, u, hcreated, hplace, hslash, hgains⟩ :=
    create_cases hs path fixtureSize mode seed
  · cases hfailed.symm.trans hmade
  · cases hcreated.symm.trans hmade
    exact ⟨rfl, Store.readAll_of_gains hgains hplace hslash⟩

/-- A fixture that has been made has exactly its size. Its bytes are their own offsets, or those of
the words that the generator of the seed gives one by one; a smaller fixture of the same fill and
seed, made wherever, is the beginning of it. -/
theorem create_fills (hs : s.Sound)
    (hmade : create path fixtureSize mode seed s = (.ok made, t)) :
    ∃ bytes, t.readAll path = .ok bytes ∧ bytes.size = fixtureSize.toNat ∧
      made.length = fixtureSize ∧
      (mode = .pattern → ∀ i < fixtureSize.toNat, bytes[i]? = some (UInt8.ofNat (i % 256))) ∧
      (mode = .random → ∀ i < fixtureSize.toNat, bytes[i]? = some
        (UInt8.ofNat ((Keystream.afterWords seed (i / 4)).nextWord.1.toNat / 256 ^ (i % 4)))) ∧
      ∀ otherPath otherSize otherMade s' t', s'.Sound →
        create otherPath otherSize mode seed s' = (.ok otherMade, t') → otherSize ≤ fixtureSize →
        t'.readAll otherPath = .ok (bytes.extract 0 otherSize.toNat) := by
  obtain ⟨hfixture, hread⟩ := of_create hs hmade
  refine ⟨_, hread, size_fixtureContent _ _ _, ?_, ?_, ?_, ?_⟩
  · rw [hfixture]
  · rintro rfl i hi
    rw [getElem?_fixtureContent hi, filledByte, ← UInt8.ofNat_mod_size]
  · rintro rfl i hi
    rw [getElem?_fixtureContent hi, Keystream.nextWord_afterWords]
    rfl
  · intro otherPath otherSize otherMade s' t' hs' hother hle
    rw [(of_create hs' hother).2,
      fixtureContent_eq_extract (UInt64.le_iff_toNat_le.mp hle)]

theorem create_in_empty (fixtureSize : UInt64) (mode : FillMode) (seed : UInt64) :
    ∃ t, create "/f" fixtureSize mode seed {} = (.ok ⟨"/f", fixtureSize, true⟩, t) := by
  have hfile : ({} : Store).create "/f" =
      .ok (0, { entries := [(["f"], .file 0)], contents := #[ByteArray.empty] }) := by
    cbv
  rw [create, Store.put, hfile]
  exact ⟨_, rfl⟩

theorem sound_empty : ({} : Store).Sound where
  stored := by
    intro place node h
    rw [Store.entry?] at h
    split at h <;> cases h
  apart := by
    intro place other node h
    rw [Store.entry?] at h
    split at h <;> cases h

/-- The larger one has a single word after its first chunk, and the smaller one ends inside it. -/
theorem create_fills_beyond_chunk :
    ∃ made t other u bytes, ({} : Store).Sound ∧
      create "/f" 4100 .random 7 {} = (.ok made, t) ∧ t.readAll "/f" = .ok bytes ∧
      bytes.size = 4100 ∧
      bytes[4099]? = some
        (UInt8.ofNat ((Keystream.afterWords 7 1024).nextWord.1.toNat / 256 ^ 3)) ∧
      create "/f" 4098 .random 7 {} = (.ok other, u) ∧
      u.readAll "/f" = .ok (bytes.extract 0 4098) := by
  obtain ⟨t, hmade⟩ := create_in_empty 4100 .random 7
  obtain ⟨u, hother⟩ := create_in_empty 4098 .random 7
  obtain ⟨bytes, hread, hsize, -, -, hwords, hbeginning⟩ := create_fills sound_empty hmade
  have hlast := hwords rfl 4099 (by decide)
  have hbeginning := hbeginning _ _ _ _ _ sound_empty hother (by decide)
  have hword : 4099 / 4 = 1024 := by decide
  have hbyte : 4099 % 4 = 3 := by decide
  have hlarge : (4100 : UInt64).toNat = 4100 := by decide
  have hsmall : (4098 : UInt64).toNat = 4098 := by decide
  rw [hword, hbyte] at hlast
  rw [hlarge] at hsize
  rw [hsmall] at hbeginning
  exact ⟨_, t, _, u, bytes, sound_empty, hmade, hread, hsize, hlast, hother, hbeginning⟩

end FixtureFile

end AccessBench
