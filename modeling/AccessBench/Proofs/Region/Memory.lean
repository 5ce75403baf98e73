import AccessBench.Proofs.Machine.Bounds
import Mathlib.Data.List.Induction

/-!
What a region over memory holds in the course of any touches. The byte at the front of a unit tells
whether the unit has been written, and the sum of the bytes read tells how often this was seen.
-/

namespace AccessBench.MemoryRegion

variable {size unit : UInt64} {r : MemoryRegion} {touches : List (Nat × Access)}

/-- The region after some touches, whether they have succeeded or not. -/
def after (r : MemoryRegion) (touches : List (Nat × Access)) : MemoryRegion :=
  touches.foldl (fun r t => (r.touch t.1 t.2).2) r

theorem after_concat (r : MemoryRegion) (touches : List (Nat × Access)) (t : Nat × Access) :
    r.after (touches ++ [t]) = ((r.after touches).touch t.1 t.2).2 := by
  rw [after, List.foldl_concat, after]

/-- Whether the touch reads a unit of the region that one of the touches before has written. -/
def echoes (size unit : UInt64) (past : List (Nat × Access)) (t : Nat × Access) : Bool :=
  t.2 = .read ∧ t.1 * unit.toNat < size.toNat ∧ (t.1, .write) ∈ past

/-- How many of the touches read a unit that an earlier one has written. -/
def echoCount (size unit : UInt64) (touches : List (Nat × Access)) : Nat :=
  (List.range touches.length).countP fun j => touches[j]?.any (echoes size unit (touches.take j))

theorem echoCount_concat (size unit : UInt64) (touches : List (Nat × Access)) (t : Nat × Access) :
    echoCount size unit (touches ++ [t]) =
      echoCount size unit touches + if echoes size unit touches t then 1 else 0 := by
  have hbefore : ∀ j ∈ List.range touches.length,
      (touches ++ [t])[j]?.any (echoes size unit ((touches ++ [t]).take j)) =
        touches[j]?.any (echoes size unit (touches.take j)) := by
    intro j hj
    have hlt : j < touches.length := List.mem_range.mp hj
    rw [List.getElem?_append_left hlt, List.take_append_of_le_length hlt.le]
  have hlast : (touches ++ [t])[touches.length]?.any
      (echoes size unit ((touches ++ [t]).take touches.length)) = echoes size unit touches t := by
    simp
  rw [echoCount, List.length_append, List.length_singleton, List.range_succ, List.countP_append,
    List.countP_singleton, hlast, List.countP_congr fun j hj => by rw [hbefore j hj], echoCount]

theorem byteAt_insert (r : MemoryRegion) (place offset : Nat) :
    { r with written := r.written.insert place 1 }.byteAt offset =
      if offset = place then 1 else r.byteAt offset := by
  rw [byteAt, Std.HashMap.getD_insert]
  by_cases h : offset = place
  · simp [h]
  · simp [byteAt, h, Ne.symm h]

/-- The region shows which of its units the touches have written. -/
structure Shows (size unit : UInt64) (touches : List (Nat × Access)) (r : MemoryRegion) :
    Prop where
  marked : ∀ i, i * unit.toNat < size.toNat →
    r.byteAt (i * unit.toNat) = if (i, .write) ∈ touches then 1 else 0
  blank : ∀ offset, ¬ unit.toNat ∣ offset → r.byteAt offset = 0
  fold : r.fold.toNat = echoCount size unit touches % 256
  size : r.size = size
  unit : r.unit = unit

theorem shows_fresh (size unit : UInt64) :
    Shows size unit [] { size := size, unit := unit } where
  marked := fun _ _ => by simp [byteAt]
  blank := fun _ _ => by simp [byteAt]
  fold := rfl
  size := rfl
  unit := rfl

namespace Shows

theorem touch_outside (h : r.Shows size unit touches) {i : Nat} (access : Access)
    (hi : size.toNat ≤ i * unit.toNat) :
    r.touch i access = (.error (outOfRange (unitOffset i unit)), r) := by
  have houtside : r.size.toNat ≤ i * r.unit.toNat := by rwa [h.size, h.unit]
  rw [MemoryRegion.touch_outside access houtside, h.unit]

theorem touch_inside (h : r.Shows size unit touches) {i : Nat} (access : Access)
    (hi : i * unit.toNat < size.toNat) :
    r.touch i access = (.ok 1,
      match access with
      | .write => { r with written := r.written.insert (i * unit.toNat) 1 }
      | .read => { r with fold := r.fold + r.byteAt (i * unit.toNat) }) := by
  have hoffset : unitOffset i r.unit = i * unit.toNat := by
    rw [h.unit]
    exact unitOffset_of_lt hi
  have hinside : i * unit.toNat < r.size.toNat := by rwa [h.size]
  cases access with
  | read | write => simp only [touch, hoffset, if_pos hinside]

/-- A write marks its own unit and no other, because different units begin at different places. -/
theorem write (h : r.Shows size unit touches) (hunit : 0 < unit.toNat) (i : Nat) :
    Shows size unit (touches ++ [(i, Access.write)])
      { r with written := r.written.insert (i * unit.toNat) 1 } := by
  refine ⟨?_, ?_, ?_, h.size, h.unit⟩
  · intro j hj
    have hplace : j * unit.toNat = i * unit.toNat ↔ j = i := Nat.mul_left_inj hunit.ne'
    rw [byteAt_insert]
    by_cases hij : j = i
    · simp [hij]
    · rw [if_neg (mt hplace.mp hij), h.marked j hj]
      simp [hij]
  · intro offset hoffset
    have hplace : offset ≠ i * unit.toNat := by
      rintro rfl
      exact hoffset (Nat.dvd_mul_left _ _)
    rw [byteAt_insert, if_neg hplace]
    exact h.blank offset hoffset
  · have hread : echoes size unit touches (i, .write) = false := by simp [echoes]
    rw [echoCount_concat, hread]
    exact h.fold

theorem read (h : r.Shows size unit touches) {i : Nat} (hi : i * unit.toNat < size.toNat) :
    Shows size unit (touches ++ [(i, Access.read)])
      { r with fold := r.fold + r.byteAt (i * unit.toNat) } := by
  refine ⟨?_, h.blank, ?_, h.size, h.unit⟩
  · intro j hj
    have hsame : (j, Access.write) ∈ touches ++ [(i, .read)] ↔ (j, .write) ∈ touches := by simp
    rw [if_congr hsame rfl rfl]
    exact h.marked j hj
  · have hecho : echoes size unit touches (i, .read) = decide ((i, .write) ∈ touches) := by
      simp [echoes, hi]
    have hfold := h.fold
    have hzero : (0 : UInt8).toNat = 0 := rfl
    have hone : (1 : UInt8).toNat = 1 := rfl
    rw [echoCount_concat, hecho, UInt8.toNat_add, h.marked i hi]
    by_cases hwritten : (i, .write) ∈ touches
    · simp only [hwritten, decide_true, if_true, hone]
      omega
    · simp only [hwritten, decide_false, if_false, Bool.false_eq_true, hzero]
      omega

theorem refused (h : r.Shows size unit touches) {i : Nat} (access : Access)
    (hi : size.toNat ≤ i * unit.toNat) : r.Shows size unit (touches ++ [(i, access)]) := by
  refine ⟨?_, h.blank, ?_, h.size, h.unit⟩
  · intro j hj
    have hne : j ≠ i := by
      rintro rfl
      exact absurd hj (Nat.not_lt_of_le hi)
    have hsame : (j, Access.write) ∈ touches ++ [(i, access)] ↔ (j, .write) ∈ touches := by
      simp [hne]
    rw [if_congr hsame rfl rfl]
    exact h.marked j hj
  · have hread : echoes size unit touches (i, access) = false := by
      simp [echoes, Nat.not_lt_of_le hi]
    rw [echoCount_concat, hread]
    exact h.fold

theorem touch (h : r.Shows size unit touches) (hunit : 0 < unit.toNat) (t : Nat × Access) :
    (r.touch t.1 t.2).2.Shows size unit (touches ++ [t]) := by
  obtain ⟨i, access⟩ := t
  by_cases hi : i * unit.toNat < size.toNat
  · rw [h.touch_inside access hi]
    cases access with
    | write => exact h.write hunit i
    | read => exact h.read hi
  · have houtside := Nat.le_of_not_lt hi
    rw [h.touch_outside access houtside]
    exact h.refused access houtside

end Shows

theorem shows_after (hunit : unit ≠ 0) (touches : List (Nat × Access)) :
    (after { size := size, unit := unit } touches).Shows size unit touches := by
  have hpos : 0 < unit.toNat := toNat_pos_of_ne_zero hunit
  induction touches using List.reverseRecOn with
  | nil => exact shows_fresh size unit
  | append_singleton touches t ih =>
    rw [after_concat]
    exact ih.touch hpos t

/-- Memory that has been mapped is fresh, whatever the system has room for. Whatever has then been
touched in it, a touch inside moves one byte, and one outside is refused and leaves no trace. Of all
bytes those are ones that begin a unit that has been written, and the sum of the bytes read is the
number of reads of units that had been written before, as a word of eight bits tells it. -/
theorem contents_after (hunit : unit ≠ 0) (touches : List (Nat × Access)) :
    let r : MemoryRegion := { size := size, unit := unit }
    (∀ space mapped, map space size unit = .ok mapped → mapped = r) ∧
    (∀ i access, i * unit.toNat < size.toNat →
      ((r.after touches).touch i access).1 = .ok 1) ∧
    (∀ i access, size.toNat ≤ i * unit.toNat →
      (r.after touches).touch i access =
        (.error (outOfRange (unitOffset i unit)), r.after touches)) ∧
    (∀ i, i * unit.toNat < size.toNat →
      (r.after touches).byteAt (i * unit.toNat) = if (i, .write) ∈ touches then 1 else 0) ∧
    (∀ offset, ¬ unit.toNat ∣ offset → (r.after touches).byteAt offset = 0) ∧
    (r.after touches).fold.toNat = echoCount size unit touches % 256 := by
  intro r
  have hshows : (r.after touches).Shows size unit touches := shows_after hunit touches
  refine ⟨?_, ?_, fun i access => hshows.touch_outside access, hshows.marked, hshows.blank,
    hshows.fold⟩
  · intro space mapped hmapped
    obtain ⟨e, hmap, -⟩ | hmap := map_cases space size unit
    · cases hmap.symm.trans hmapped
    · cases hmap.symm.trans hmapped
      rfl
  · intro i access hi
    rw [hshows.touch_inside access hi]

/-- The third unit has two bytes, and the fourth is outside. Of the five reads one is too early and
one outside. -/
theorem contents_after_echoes :
    let touches : List (Nat × Access) :=
      [(2, .read), (2, .write), (3, .write), (3, .read), (2, .read), (0, .read), (2, .read)]
    (4 : UInt64) ≠ 0 ∧ map (.limited 4096) 10 4 = .ok { size := 10, unit := 4 } ∧
      let r := after { size := 10, unit := 4 } touches
      r.byteAt 8 = 1 ∧ r.byteAt 9 = 0 ∧ r.byteAt 4 = 0 ∧ r.fold = 2 := by
  intro touches
  have hunit : (4 : UInt64) ≠ 0 := by decide
  obtain ⟨-, -, -, hmarked, hblank, hfold⟩ := @contents_after 10 4 hunit touches
  refine ⟨hunit, rfl, ?_⟩
  intro r
  refine ⟨hmarked 2 (by decide), hblank 9 (by decide), hmarked 1 (by decide), ?_⟩
  exact UInt8.toNat_inj.mp (hfold.trans (by decide))

end AccessBench.MemoryRegion
