import AccessBench.Store.File

/-!
What a change of contents does to a file store: the names and all that they lead to stay, and so do
the contents of every other file.
-/

namespace AccessBench

theorem size_overwrite (bytes : ByteArray) (offset : Nat) (piece : ByteArray) :
    (overwrite bytes offset piece).size = max bytes.size (offset + piece.size) := by
  have hcopy (dest : ByteArray) (h : offset ≤ dest.size) :
      (piece.copySlice 0 dest offset piece.size false).size =
        max dest.size (offset + piece.size) := by
    simp only [ByteArray.size] at h ⊢
    simp only [ByteArray.copySlice, Array.size_append, Array.size_extract]
    have := piece.data.size
    omega
  unfold overwrite
  dsimp only
  split
  · next hshort =>
    have hpadded : (bytes ++ zeros (offset - bytes.size)).size = offset := by
      simp only [ByteArray.size_append, zeros]
      simp only [ByteArray.size, Array.size_replicate] at hshort ⊢
      omega
    rw [hcopy _ (Nat.le_of_eq hpadded.symm), hpadded]
    omega
  · next hlong => exact hcopy bytes (by omega)

theorem getElem?_overwrite {bytes piece : ByteArray} {offset : Nat} (h : offset ≤ bytes.size)
    (i : Nat) : (overwrite bytes offset piece)[i]? =
      if offset ≤ i ∧ i < offset + piece.size then piece[i - offset]? else bytes[i]? := by
  have hstored : offset ≤ bytes.data.size := h
  have hbefore : (bytes.data.extract 0 offset).size = offset := by
    rw [Array.size_extract]
    omega
  rw [overwrite, if_neg (Nat.not_lt_of_le h)]
  change (bytes.data.extract 0 offset ++ piece.data.extract 0 (0 + piece.data.size) ++
      bytes.data.extract (offset + min piece.data.size (piece.data.size - 0)) bytes.data.size)[i]? =
    if offset ≤ i ∧ i < offset + piece.data.size then piece.data[i - offset]? else bytes.data[i]?
  rw [Nat.zero_add, Nat.sub_zero, Nat.min_self, Array.extract_size, Array.getElem?_append,
    Array.getElem?_append, Array.size_append, hbefore]
  by_cases hpiece : i < offset + piece.data.size
  · rw [if_pos hpiece]
    by_cases hfront : i < offset
    · rw [if_pos hfront, if_neg (by omega), Array.getElem?_extract, if_pos (by omega), Nat.zero_add]
    · rw [if_neg hfront, if_pos ⟨Nat.le_of_not_lt hfront, hpiece⟩]
  · rw [if_neg hpiece, if_neg (by omega), Array.getElem?_extract]
    split
    · congr 1
      omega
    · exact (Array.getElem?_eq_none (by omega)).symm

theorem getElem?_extract (bytes : ByteArray) (start stop i : Nat) :
    (bytes.extract start stop)[i]? =
      if i < min stop bytes.size - start then bytes[start + i]? else none := by
  change (bytes.extract start stop).data[i]? = _
  rw [ByteArray.data_extract, Array.getElem?_extract]
  rfl

namespace Store

section

variable {s t : Store}

theorem entry?_congr (h : t.entries = s.entries) (place : Path) :
    t.entry? place = s.entry? place := by
  rw [ entry?, entry?, h]

theorem walk_congr (h : t.entries = s.entries) (here : Path) (names : List String) :
    t.walk here names = s.walk here names := by
  induction names generalizing here with
  | nil => rfl
  | cons name names ih =>
    have hfailure : t.directoryFailure? here = s.directoryFailure? here := by
      rw [directoryFailure?, directoryFailure?, entry?_congr h]
    rw [walk, walk, hfailure, ih]

/-- What a text leads to depends on the names alone, not on any contents. -/
theorem find_congr (h : t.entries = s.entries) (hw : t.workingDirectory = s.workingDirectory)
    (text : String) : t.find text = s.find text := by
  have hresolve : t.resolve text = s.resolve text := by
    simp only [resolve, follow, walk_congr h, hw]
  simp only [find, hresolve, entry?_congr h]

end

variable (s : Store) (node : Nat) (f : ByteArray → ByteArray)

@[simp] theorem find_setBytes (text : String) : (s.setBytes node f).find text = s.find text :=
  find_congr (s := s) (t := s.setBytes node f) rfl rfl text

theorem setBytes_setBytes (g : ByteArray → ByteArray) :
    (s.setBytes node f).setBytes node g = s.setBytes node (g ∘ f) := by
  rw [setBytes, setBytes, setBytes]
  congr 1
  apply Array.ext
  · simp
  · intro i _ _
    by_cases hi : node = i <;> simp [Array.getElem_modify, hi]

theorem bytes_setBytes_of_ne {other : Nat} (h : other ≠ node) :
    (s.setBytes node f).bytes other = s.bytes other := by
  simp [bytes, setBytes, Array.getD_eq_getD_getElem?, Array.getElem?_modify, h.symm]

theorem lt_size_of_bytes (h : 0 < (s.bytes node).size) : node < s.contents.size := by
  apply Nat.lt_of_not_le
  intro hnone
  rw [bytes, Array.getD_eq_getD_getElem?, Array.getElem?_eq_none hnone] at h
  exact absurd h (by decide)

theorem bytes_setBytes_self (h : node < s.contents.size) :
    (s.setBytes node f).bytes node = f (s.bytes node) := by
  simp [bytes, setBytes, Array.getD_eq_getD_getElem?, Array.getElem_modify, h]

/-- No file becomes shorter by a piece that is written into one. -/
theorem size_bytes_le_overwrite (other offset : Nat) (piece : ByteArray) :
    (s.bytes other).size ≤
      ((s.setBytes node fun bytes => overwrite bytes offset piece).bytes other).size := by
  by_cases hother : other = node
  · subst hother
    by_cases hstored : other < s.contents.size
    · rw [bytes_setBytes_self _ _ _ hstored, size_overwrite]
      omega
    · simp [bytes, Array.getD_eq_getD_getElem?, hstored]
  · have hkept := bytes_setBytes_of_ne s node (fun bytes => overwrite bytes offset piece) hother
    exact Nat.le_of_eq (congrArg ByteArray.size hkept.symm)

end Store

end AccessBench
