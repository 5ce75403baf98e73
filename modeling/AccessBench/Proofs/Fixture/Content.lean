import AccessBench.Fixture.Content

/-!
The contents of a fresh fixture have exactly the size that is asked for, however they are made.
-/

namespace AccessBench

theorem size_foldl_push (bytes : List UInt8) (acc : ByteArray) :
    (bytes.foldl ByteArray.push acc).size = acc.size + bytes.length := by
  induction bytes generalizing acc with
  | nil => rfl
  | cons b rest ih =>
    rw [List.foldl_cons, ih, ByteArray.size_push, List.length_cons]
    omega

theorem Random.Keystream.size_fill (acc : ByteArray) (n : Nat) (stream : Keystream) :
    (stream.fill acc n).1.size = acc.size + n := by
  fun_induction Keystream.fill acc n stream with
  | case1 => rfl
  | case2 acc n stream hshort hzero word rest hword =>
    rw [size_foldl_push, List.length_take]
    have hlength : (wordBytes word).length = 4 := rfl
    omega
  | case3 acc n stream hlong word rest hword ih =>
    rw [ih, size_foldl_push]
    have hlength : (wordBytes word).length = 4 := rfl
    omega

theorem size_patternChunk : patternChunk.size = chunkSize := by
  simp [patternChunk, ByteArray.size]

theorem size_appendChunk (mode : FillMode) {length : Nat} (h : length ≤ chunkSize) (f : Filling) :
    (appendChunk mode length f).1.size = f.1.size + length := by
  cases mode with
  | pattern =>
    rw [appendChunk, ByteArray.size_append, ByteArray.size_extract, size_patternChunk]
    omega
  | random => exact Random.Keystream.size_fill _ _ _

theorem size_appendChunks (mode : FillMode) (n : Nat) (f : Filling) :
    (appendChunks mode n f).1.size = f.1.size + n * chunkSize := by
  induction n generalizing f with
  | zero => simp [appendChunks]
  | succ n ih =>
    rw [appendChunks, ih, size_appendChunk mode (Nat.le_refl _), Nat.succ_mul]
    omega

theorem size_fixtureContent (mode : FillMode) (seed : UInt64) (size : Nat) :
    (fixtureContent mode seed size).size = size := by
  have hdiv : chunkSize * (size / chunkSize) + size % chunkSize = size := Nat.div_add_mod _ _
  have hrest : size % chunkSize ≤ chunkSize := Nat.le_of_lt (Nat.mod_lt _ (by decide))
  rw [fixtureContent, size_appendChunk mode hrest, size_appendChunks, Nat.mul_comm]
  simpa using hdiv

end AccessBench
