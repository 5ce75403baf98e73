import AccessBench.Proofs.Machine.Bounds
import AccessBench.Proofs.Machine.Transfer
import AccessBench.Proofs.Region.Moves

/-!
What a region over a file reads and writes in the course of any requests. All blocks go through one
buffer, so that a block that is written holds what has been read before it, in as far as the blocks
that were read are long enough.
-/

namespace AccessBench

namespace Rig

variable {σ : Type} (rig : Rig σ)

def serve : Request → Action σ UInt64
  | .touch index access => rig.touch index access
  | .rewind => do
    rig.rewind
    return 0

/-- The state after some requests, whether they have succeeded or not. -/
def after (w : σ) (requests : List Request) : σ :=
  requests.foldl (fun w request => ((rig.serve request).perform w).2) w

theorem after_concat (w : σ) (requests : List Request) (request : Request) :
    rig.after w (requests ++ [request]) =
      ((rig.serve request).perform (rig.after w requests)).2 := by
  rw [after, List.foldl_concat, after]

end Rig

namespace Machine

/-- The machine has such a region. -/
def Serves (s : Scenario) (node : Nat) (r : FileRegion) (m : Machine) : Prop :=
  m.region = some (.file r) ∧ r.Serves s node m.store

section

variable (platform : Platform) (path : String) (cache : CacheControl)
variable {s : Scenario} {node : Nat} {r : FileRegion} {m : Machine}

theorem perform_touch_of_region (hregion : m.region = some (.file r)) (i : Nat) (access : Access) :
    ((fileRig platform path cache).touch i access).perform m =
      ((r.touch i access m.store).1.mapError .failed,
        { m with
          region := some (.file (r.touch i access m.store).2.1)
          store := (r.touch i access m.store).2.2 }) := by
  obtain ⟨store, region?, counter, clockReadings, faultReadings⟩ := m
  obtain rfl : region? = some (.file r) := hregion
  rfl

theorem Serves.touch_outside (h : m.Serves s node r) {i : Nat} (access : Access)
    (hi : s.size.toNat ≤ i * s.unit.toNat) :
    ((fileRig platform path cache).touch i access).perform m =
      (.error (.failed (outOfRange (unitOffset i s.unit))), m) := by
  obtain ⟨hregion, hserves⟩ := h
  have houtside : r.size.toNat ≤ i * r.unit.toNat := by
    rw [hserves.size, hserves.unit]
    exact hi
  rw [perform_touch_of_region platform path cache hregion, FileRegion.touch_outside access m.store
    houtside, hserves.unit, ← hregion]
  rfl

theorem Serves.touch_inside (h : m.Serves s node r) {i : Nat} (access : Access)
    (hi : i * s.unit.toNat < s.size.toNat) :
    ∃ r' m', ((fileRig platform path cache).touch i access).perform m = (.ok (s.moved i), m') ∧
      m'.Serves s node r' ∧ FileRegion.Moves s node (.touch i access) r m.store r' m'.store := by
  obtain ⟨hregion, hserves⟩ := h
  rw [perform_touch_of_region platform path cache hregion]
  cases access with
  | read =>
    rw [FileRegion.touch_read hserves.size hserves.unit hserves.opened hi hserves.stored]
    obtain ⟨hserves', hmoves⟩ := hserves.moves_read hi
    exact ⟨_, _, rfl, ⟨rfl, hserves'⟩, hmoves⟩
  | write =>
    rw [FileRegion.touch_write hserves.size hserves.unit hserves.opened hi hserves.writable]
    obtain ⟨hserves', hmoves⟩ := hserves.moves_write hi
    exact ⟨_, _, rfl, ⟨rfl, hserves'⟩, hmoves⟩

theorem Serves.serve (h : m.Serves s node r) (q : Request) :
    ∃ r', (((fileRig platform path cache).serve q).perform m).2.Serves s node r' ∧
      FileRegion.Moves s node q r m.store r'
        (((fileRig platform path cache).serve q).perform m).2.store := by
  cases hinside : q.inside s with
  | false =>
    have hsame : (((fileRig platform path cache).serve q).perform m).2 = m := by
      cases q with
      | rewind => rfl
      | touch i access =>
        have houtside : s.size.toNat ≤ i * s.unit.toNat := by
          simpa [Request.inside] using hinside
        exact congrArg Prod.snd (h.touch_outside platform path cache access houtside)
    rw [hsame]
    exact ⟨r, h, FileRegion.moves_outside hinside⟩
  | true =>
    cases q with
    | rewind => cases hinside
    | touch i access =>
      have hbegins : i * s.unit.toNat < s.size.toNat := by simpa [Request.inside] using hinside
      obtain ⟨r', m', htouch, hserves, hmoves⟩ := h.touch_inside platform path cache access hbegins
      rw [Rig.serve, htouch]
      exact ⟨r', hserves, hmoves⟩

end

/-- No block that has a byte at the place has been read. -/
def Unread (s : Scenario) (place : Nat) (requests : List Request) : Prop :=
  ∀ i, .touch i .read ∈ requests → blockLength s.size.toNat s.unit.toNat i ≤ place

theorem unread_nil (s : Scenario) (place : Nat) : Unread s place [] :=
  fun _ h => absurd h List.not_mem_nil

theorem unread_concat {s : Scenario} {place : Nat} {requests : List Request} {q : Request}
    (h : Unread s place requests) (hq : q.source s place = none) :
    Unread s place (requests ++ [q]) := by
  intro i hi
  obtain hi | hi := List.mem_append.mp hi
  · exact h i hi
  · obtain rfl := List.mem_singleton.mp hi
    by_contra hplace
    rw [Request.source, if_pos (Nat.lt_of_not_le hplace)] at hq
    cases hq

/-- Where a byte of the buffer is from: from the latest of the blocks read that have a byte at its
place, which the file had then and still has, or from the beginning if there is none. -/
inductive Carried (s : Scenario) (file : List Request → ByteArray) (past : List Request)
    (place : Nat) (byte : UInt8) : Prop
  | fresh (hbyte : byte = 0xA5) (hunread : Unread s place past)
  | read (earlier : List Request) (i : Nat) (later : List Request)
      (hpast : past = earlier ++ .touch i .read :: later)
      (hplace : place < blockLength s.size.toNat s.unit.toNat i)
      (hunread : Unread s place later)
      (hthen : (file earlier)[i * s.unit.toNat + place]? = some byte)
      (hnow : (file past)[i * s.unit.toNat + place]? = some byte)

theorem Carried.of_unread {s : Scenario} {file : List Request → ByteArray} {past : List Request}
    {place : Nat} {byte : UInt8} (h : Carried s file past place byte)
    (hunread : Unread s place past) : byte = 0xA5 := by
  cases h with
  | fresh hbyte _ => exact hbyte
  | read earlier i later hpast hplace _ _ _ =>
    have hread : .touch i .read ∈ past := by simp [hpast]
    exact absurd (hunread i hread) (Nat.not_le_of_lt hplace)

section

variable (platform : Platform) (path : String) (cache : CacheControl)
variable {s : Scenario} {node : Nat} {r : FileRegion} {m : Machine} {past : List Request}

/-- Requests change nothing but bytes of the file that the region writes. -/
theorem Serves.after (h : m.Serves s node r) (past : List Request) :
    let m' := (fileRig platform path cache).after m past
    ∃ r', m'.Serves s node r' ∧
      (m'.store.bytes node).size = (m.store.bytes node).size ∧
      (∀ offset, (∀ q ∈ past, q.target s offset = none) →
        (m'.store.bytes node)[offset]? = (m.store.bytes node)[offset]?) ∧
      (∀ other, other ≠ node → m'.store.bytes other = m.store.bytes other) ∧
      ∀ text, m'.store.find text = m.store.find text := by
  induction past using List.reverseRecOn with
  | nil => exact ⟨r, h, rfl, fun _ _ => rfl, fun _ _ => rfl, fun _ => rfl⟩
  | append_singleton past q ih =>
    obtain ⟨r₁, hserves, hlength, hkept, hothers, hfound⟩ := ih
    obtain ⟨r₂, hserved, hmoves⟩ := hserves.serve platform path cache q
    rw [Rig.after_concat]
    refine ⟨r₂, hserved, hmoves.length.trans hlength, ?_, ?_, ?_⟩
    · intro offset hnone
      rw [hmoves.file, hnone q (by simp)]
      exact hkept offset fun q hq => hnone q (List.mem_append_left _ hq)
    · intro other hother
      rw [hmoves.others other hother, hothers other hother]
    · intro text
      rw [hmoves.found, hfound]

/-- The contents of a file after some requests. -/
def fileAfter (rig : Rig Machine) (node : Nat) (m : Machine) (past : List Request) : ByteArray :=
  (rig.after m past).store.bytes node

/-- The region after some requests, with its calls and its buffer as these tell them. -/
structure Tells (rig : Rig Machine) (s : Scenario) (node : Nat) (m : Machine) (past : List Request)
    (r : FileRegion) : Prop where
  serves : (rig.after m past).Serves s node r
  calls : r.calls = past.countP (Request.inside s)
  buffer : ∀ place < r.buffer.size, ∃ byte, r.buffer[place]? = some byte ∧
    Carried s (fileAfter rig node m) past place byte

variable {platform path cache}

theorem Carried.concat {q : Request} {r' : FileRegion} {place : Nat} {byte : UInt8}
    (h : Carried s (fileAfter (fileRig platform path cache) node m) past place byte)
    (hbyte : r.buffer[place]? = some byte) (hsource : q.source s place = none)
    (hmoves : FileRegion.Moves s node q r ((fileRig platform path cache).after m past).store r'
      ((fileRig platform path cache).after m (past ++ [q])).store) :
    Carried s (fileAfter (fileRig platform path cache) node m) (past ++ [q]) place byte := by
  cases h with
  | fresh hfresh hunread => exact .fresh hfresh (unread_concat hunread hsource)
  | read earlier i later hpast hplace hunread hthen hnow =>
    refine .read earlier i (later ++ [q]) (by simp [hpast]) hplace (unread_concat hunread hsource)
      hthen ?_
    rw [fileAfter, hmoves.file]
    cases htarget : q.target s (i * s.unit.toNat + place) with
    | none => exact hnow
    | some place' =>
      -- the block itself is written, with what was read from it
      obtain ⟨-, rfl⟩ := Request.of_target_in_block hplace htarget
      exact hbyte

theorem Tells.concat (h : Tells (fileRig platform path cache) s node m past r) (q : Request) :
    ∃ r', Tells (fileRig platform path cache) s node m (past ++ [q]) r' ∧
      FileRegion.Moves s node q r ((fileRig platform path cache).after m past).store r'
        ((fileRig platform path cache).after m (past ++ [q])).store := by
  obtain ⟨r', hserves, hmoves⟩ := h.serves.serve platform path cache q
  rw [← Rig.after_concat] at hserves hmoves
  refine ⟨r', ⟨hserves, ?_, ?_⟩, hmoves⟩
  · rw [hmoves.calls, h.calls, List.countP_append, List.countP_singleton]
  · intro place hplace
    rw [hserves.2.room, ← h.serves.2.room] at hplace
    rw [hmoves.buffer]
    cases hsource : q.source s place with
    | none =>
      obtain ⟨byte, hbyte, hcarried⟩ := h.buffer place hplace
      exact ⟨byte, hbyte, hcarried.concat hbyte hsource hmoves⟩
    | some offset =>
      obtain ⟨i, rfl, hblock, rfl⟩ := Request.of_source_eq_some hsource
      have hoffset : i * s.unit.toNat + place < s.size.toNat := by
        rw [blockLength] at hblock
        omega
      have hstored : i * s.unit.toNat + place <
          (fileAfter (fileRig platform path cache) node m past).size :=
        Nat.lt_of_lt_of_le hoffset h.serves.2.stored
      have hbyte := getElem?_pos (fileAfter (fileRig platform path cache) node m past)
        (i * s.unit.toNat + place) hstored
      refine ⟨_, hbyte, .read past i [] rfl hblock (unread_nil s place) hbyte ?_⟩
      rw [fileAfter, hmoves.file]
      exact hbyte

variable (platform path cache)

theorem exists_tells (h : m.Serves s node r) (hcalls : r.calls = 0)
    (hbuffer : r.buffer = freshBuffer (min s.size.toNat s.unit.toNat)) (past : List Request) :
    ∃ r', Tells (fileRig platform path cache) s node m past r' := by
  induction past using List.reverseRecOn with
  | nil =>
    refine ⟨r, h, hcalls, ?_⟩
    intro place hplace
    rw [hbuffer, size_freshBuffer] at hplace
    rw [hbuffer]
    exact ⟨0xA5, getElem?_freshBuffer hplace, .fresh rfl (unread_nil s place)⟩
  | append_singleton past q ih =>
    obtain ⟨r₁, htells⟩ := ih
    obtain ⟨r₂, htells', -⟩ := htells.concat q
    exact ⟨r₂, htells'⟩

variable {platform path cache}

/-- What a region over a file has done and does next, after some requests. -/
structure History (rig : Rig Machine) (s : Scenario) (node : Nat) (m : Machine)
    (past : List Request) : Prop where
  calls : ∃ r, (rig.after m past).region = some (.file r) ∧
    r.calls = past.countP (Request.inside s)
  length : (fileAfter rig node m past).size = (m.store.bytes node).size
  kept : ∀ offset, s.size.toNat ≤ offset ∨ .touch (offset / s.unit.toNat) .write ∉ past →
    (fileAfter rig node m past)[offset]? = (m.store.bytes node)[offset]?
  moved : ∀ i access, i * s.unit.toNat < s.size.toNat →
    ((rig.touch i access).perform (rig.after m past)).1 = .ok (s.moved i) ∧
      (s.moved i).toNat = min s.unit.toNat (s.size.toNat - i * s.unit.toNat)
  refused : ∀ i access, s.size.toNat ≤ i * s.unit.toNat →
    (rig.touch i access).perform (rig.after m past) =
      (.error (.failed (outOfRange (unitOffset i s.unit))), rig.after m past)
  written : ∀ i place, place < blockLength s.size.toNat s.unit.toNat i →
    ∃ byte, Carried s (fileAfter rig node m) past place byte ∧
      (fileAfter rig node m (past ++ [.touch i .write]))[i * s.unit.toNat + place]? = some byte
  /-- A region that is only written marks the blocks that have been written, and no others. -/
  marked : (∀ i, .touch i .read ∉ past) →
    ∀ i place, place < blockLength s.size.toNat s.unit.toNat i →
      (fileAfter rig node m past)[i * s.unit.toNat + place]? =
        if .touch i .write ∈ past then some 0xA5
        else (m.store.bytes node)[i * s.unit.toNat + place]?
  others : ∀ other, other ≠ node → (rig.after m past).store.bytes other = m.store.bytes other
  found : ∀ text, (rig.after m past).store.find text = m.store.find text

theorem Tells.written (h : Tells (fileRig platform path cache) s node m past r) {i place : Nat}
    (hplace : place < blockLength s.size.toNat s.unit.toNat i) :
    ∃ byte, Carried s (fileAfter (fileRig platform path cache) node m) past place byte ∧
      (fileAfter (fileRig platform path cache) node m (past ++ [.touch i .write]))[
        i * s.unit.toNat + place]? = some byte := by
  have hroom := h.serves.2.block_le_room i
  obtain ⟨byte, hbyte, hcarried⟩ := h.buffer place (Nat.lt_of_lt_of_le hplace hroom)
  obtain ⟨r', -, hmoves⟩ := h.concat (.touch i .write)
  refine ⟨byte, hcarried, ?_⟩
  rw [fileAfter, hmoves.file, Request.target_write hplace]
  exact hbyte

theorem marked_of_unread (h : m.Serves s node r) (hcalls : r.calls = 0)
    (hbuffer : r.buffer = freshBuffer (min s.size.toNat s.unit.toNat))
    (hunread : ∀ i, .touch i .read ∉ past) {i place : Nat}
    (hplace : place < blockLength s.size.toNat s.unit.toNat i) :
    (fileAfter (fileRig platform path cache) node m past)[i * s.unit.toNat + place]? =
      if .touch i .write ∈ past then some 0xA5
      else (m.store.bytes node)[i * s.unit.toNat + place]? := by
  induction past using List.reverseRecOn with
  | nil => rfl
  | append_singleton past q ih =>
    have hbefore : ∀ j, .touch j .read ∉ past :=
      fun j hj => hunread j (List.mem_append_left _ hj)
    obtain ⟨r₁, htells⟩ := exists_tells platform path cache h hcalls hbuffer past
    by_cases hwrite : q = .touch i .write
    · subst hwrite
      obtain ⟨byte, hcarried, hbyte⟩ := htells.written hplace
      rw [hbyte, if_pos (by simp), hcarried.of_unread fun j hj => absurd hj (hbefore j)]
    · obtain ⟨r₂, -, hmoves⟩ := htells.concat q
      have htarget : q.target s (i * s.unit.toNat + place) = none := by
        cases hsome : q.target s (i * s.unit.toNat + place) with
        | none => rfl
        | some place' => exact absurd (Request.of_target_in_block hplace hsome).1 hwrite
      have hsame : .touch i .write ∈ past ++ [q] ↔ .touch i .write ∈ past := by
        simp [Ne.symm hwrite]
      rw [fileAfter, hmoves.file, htarget, if_congr hsame rfl rfl]
      exact ih hbefore

theorem history_of_serves (h : m.Serves s node r) (hcalls : r.calls = 0)
    (hbuffer : r.buffer = freshBuffer (min s.size.toNat s.unit.toNat)) (past : List Request) :
    History (fileRig platform path cache) s node m past := by
  obtain ⟨r', htells⟩ := exists_tells platform path cache h hcalls hbuffer past
  obtain ⟨-, -, hlength, hkept, hothers, hfound⟩ := h.after platform path cache past
  refine ⟨⟨r', htells.serves.1, htells.calls⟩, hlength, ?_, ?_, ?_, fun _ _ => htells.written,
    fun hunread _ _ => marked_of_unread h hcalls hbuffer hunread, hothers, hfound⟩
  · intro offset hoffset
    apply hkept
    intro q hq
    apply Request.target_eq_none
    exact hoffset.imp_right fun hwrite heq => hwrite (heq ▸ hq)
  · intro i access hi
    obtain ⟨_, _, htouch, -, -⟩ := htells.serves.touch_inside platform path cache access hi
    refine ⟨congrArg Prod.fst htouch, ?_⟩
    rw [Scenario.toNat_moved, blockLength, Nat.min_comm]
  · intro i access hi
    exact htells.serves.touch_outside platform path cache access hi

variable (platform path cache)

/-- A file that is long enough can be opened for writing whenever a buffer of a unit can be made.
Whatever is then asked of the region, every block inside moves whole and no other is moved; what is
written is what was last read at its place; and of everything stored only the blocks that have been
written are changed. -/
theorem fileRig_history {m₀ : Machine} {place : Path}
    (hfile : m₀.store.find path = .ok (place, .file node))
    (hlong : s.size.toNat ≤ (m₀.store.bytes node).size) (haccess : s.access = .write) :
    match platform.space.obtain s.unit.toNat with
    | .ok _ =>
      ∃ m, ((fileRig platform path cache).acquire s).perform m₀ = (.ok (), m) ∧
        m.store = m₀.store ∧ ∀ past, History (fileRig platform path cache) s node m past
    | .error reason =>
      ((fileRig platform path cache).acquire s).perform m₀ = (.error (.halted reason), m₀) := by
  rw [perform_acquire_fileRig, haccess, decide_eq_true rfl,
    FileRegion.openAt_of_long platform.space hfile hlong]
  cases platform.space.obtain s.unit.toNat with
  | error reason => rfl
  | ok _ =>
    refine ⟨_, rfl, rfl, fun past => ?_⟩
    apply history_of_serves (r := FileRegion.fresh path (.file node) s.size s.unit true)
    · exact ⟨rfl, rfl, rfl, rfl, rfl, size_freshBuffer _, hlong⟩
    · rfl
    · rfl

end

/-- The last unit has two bytes. They are read, and then another unit is written, which gets these
two and, where nothing has been read, what the buffer had from the beginning. -/
theorem fileRig_history_mixed :
    let rig := fileRig still "/f" .disabled
    let s := overTenBytes 4 .write
    let past : List Request := [.touch 0 .write, .touch 2 .read, .touch 9 .read]
    withTenBytes.store.find "/f" = .ok (["f"], .file 0) ∧
      s.size.toNat ≤ (withTenBytes.store.bytes 0).size ∧ s.access = .write ∧
      ∃ m, (rig.acquire s).perform withTenBytes = (.ok (), m) ∧
        (∃ r, (rig.after m past).region = some (.file r) ∧ r.calls = 2) ∧
        (fileAfter rig 0 m (past ++ [.touch 1 .write]))[1 * s.unit.toNat]? = some 7 ∧
        (fileAfter rig 0 m (past ++ [.touch 1 .write]))[1 * s.unit.toNat + 3]? = some 0xA5 := by
  intro rig s past
  have hlong : s.size.toNat ≤ (withTenBytes.store.bytes 0).size := by decide
  obtain ⟨m, hacquire, hstore, hhistory⟩ :=
    fileRig_history still "/f" .disabled find_withTenBytes hlong rfl
  obtain ⟨r, hregion, hcalls⟩ := (hhistory past).calls
  obtain ⟨front, hfront, hwritten⟩ := (hhistory past).written 1 0 (by decide)
  obtain ⟨back, hback, hbehind⟩ := (hhistory past).written 1 3 (by decide)
  refine ⟨find_withTenBytes, hlong, rfl, m, hacquire, ⟨r, hregion, hcalls⟩, ?_, ?_⟩
  · suffices h : front = 7 from hwritten.trans (congrArg some h)
    cases hfront with
    | fresh _ hunread => exact absurd (hunread 2 (by decide)) (by decide)
    | read earlier i later hpast hplace _ _ hnow =>
      have hread : Request.touch i .read ∈ past := by simp [hpast]
      obtain rfl | rfl : i = 2 ∨ i = 9 := by simpa [past] using hread
      · have hkept := (hhistory past).kept (2 * s.unit.toNat + 0) (.inr (by decide))
        rw [hstore, hnow] at hkept
        exact Option.some.inj (hkept.trans rfl)
      · exact absurd hplace (by decide)
  · have hunread : Unread s 3 past := by
      intro i hread
      obtain rfl | rfl : i = 2 ∨ i = 9 := by simpa [past] using hread
      · decide
      · decide
    exact hbehind.trans (congrArg some (hback.of_unread hunread))

end Machine

end AccessBench
