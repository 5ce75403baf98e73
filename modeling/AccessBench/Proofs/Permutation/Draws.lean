import AccessBench.Pattern
import AccessBench.Proofs.Permutation
import AccessBench.Proofs.Random.Draw
import Mathlib.Data.List.Count
import Mathlib.Data.List.Nodup
import Mathlib.Data.Set.Function

/-!
Sequences of draws and the orders that they shuffle a range into. One draw for each position, none
beyond its position, gives every rearrangement, and no two such sequences give the same one. What a
seed draws is such a sequence, so no exchange of the shuffle lies outside the array.
-/

namespace AccessBench

/-- Draws for the positions from `i` down to 1, each at most its position. -/
structure AreDrawsFrom (i : Nat) (draws : List Nat) : Prop where
  length : draws.length = i
  le : ∀ k j, draws[k]? = some j → j ≤ i - k

theorem areDrawsFrom_zero_iff {draws : List Nat} : AreDrawsFrom 0 draws ↔ draws = [] := by
  constructor
  · intro h
    exact List.eq_nil_of_length_eq_zero h.length
  · rintro rfl
    exact ⟨rfl, by simp⟩

theorem areDrawsFrom_cons_iff {i j : Nat} {draws : List Nat} :
    AreDrawsFrom (i + 1) (j :: draws) ↔ j ≤ i + 1 ∧ AreDrawsFrom i draws := by
  constructor
  · intro h
    have hhead := h.le 0 j rfl
    have hlength : draws.length = i := by simpa using h.length
    refine ⟨hhead, hlength, fun k l hl => ?_⟩
    have hnext := h.le (k + 1) l hl
    omega
  · rintro ⟨hhead, hrest⟩
    refine ⟨by simp [hrest.length], fun k l hl => ?_⟩
    cases k with
    | zero =>
      obtain rfl : j = l := by simpa using hl
      exact hhead
    | succ k =>
      have hnext := hrest.le k l (by simpa using hl)
      omega

/-- The bound of every draw is the length of the range that it stays in. -/
theorem areDrawsFrom_drawsFrom (stream : Random.Keystream) (i : Nat) :
    AreDrawsFrom i (drawsFrom stream i) := by
  induction i generalizing stream with
  | zero => exact areDrawsFrom_zero_iff.mpr rfl
  | succ i ih =>
    have hdrawn := Random.draw_lt (i + 2) stream (Nat.succ_pos _)
    rw [drawsFrom]
    generalize Random.draw (i + 2) stream = drawn at hdrawn
    obtain ⟨j, stream⟩ := drawn
    exact areDrawsFrom_cons_iff.mpr ⟨Nat.le_of_lt_succ hdrawn, ih stream⟩

section

variable {a b : Array Nat} {i j k : Nat} {draws : List Nat}

theorem getElem?_swapIfInBounds (hi : i < a.size) (hj : j < a.size) :
    (a.swapIfInBounds i j)[k]? = if j = k then a[i]? else if i = k then a[j]? else a[k]? := by
  rw [Array.swapIfInBounds_def, dif_pos hi, dif_pos hj, Array.getElem?_swap,
    Array.getElem?_eq_getElem hi, Array.getElem?_eq_getElem hj]

theorem getElem?_swapIfInBounds_left (hi : i < a.size) (hj : j < a.size) :
    (a.swapIfInBounds i j)[i]? = a[j]? := by
  rw [getElem?_swapIfInBounds hi hj, if_pos rfl]
  split
  · next heq => rw [heq]
  · rfl

theorem getElem?_swapIfInBounds_of_gt (hi : i < a.size) (hj : j ≤ i) (hk : i < k) :
    (a.swapIfInBounds i j)[k]? = a[k]? := by
  have hjk : j ≠ k := by omega
  have hik : i ≠ k := by omega
  rw [getElem?_swapIfInBounds hi (by omega), if_neg hjk, if_neg hik]

/-- Exchanges at lower positions leave the higher ones as they are. -/
theorem getElem?_applyDraws_of_gt (hdraws : AreDrawsFrom i draws) (hi : i ≤ a.size - 1)
    (hk : i < k) : (applyDraws a draws)[k]? = a[k]? := by
  induction i generalizing a draws with
  | zero =>
    obtain rfl := areDrawsFrom_zero_iff.mp hdraws
    rfl
  | succ i ih =>
    obtain ⟨j, draws, rfl⟩ := List.exists_cons_of_length_eq_add_one hdraws.length
    obtain ⟨hj, hrest⟩ := areDrawsFrom_cons_iff.mp hdraws
    rw [applyDraws, hrest.length, ih hrest (by simp; omega) (by omega)]
    exact getElem?_swapIfInBounds_of_gt (by omega) hj hk

theorem applyDraws_perm (a : Array Nat) (draws : List Nat) : (applyDraws a draws).Perm a := by
  induction draws generalizing a with
  | nil => exact Array.Perm.refl a
  | cons j draws ih => exact (ih _).trans (swapIfInBounds_perm a _ j)

theorem nodup_of_perm (h : b.Perm a) (hdistinct : a.toList.Nodup) : b.toList.Nodup :=
  (Array.perm_iff_toList_perm.mp h).nodup_iff.mpr hdistinct

theorem eq_of_getElem?_eq (hdistinct : a.toList.Nodup) (hi : i < a.size) (h : a[i]? = a[j]?) :
    i = j := by
  rw [← Array.getElem?_toList, ← Array.getElem?_toList] at h
  exact (List.getElem?_inj hi hdistinct).mp h

/-- Where the element comes from that a rearrangement of the lower positions has at the highest of
them. -/
theorem exists_getElem?_eq (hdistinct : a.toList.Nodup) (hperm : b.Perm a)
    (hsame : ∀ k, i < k → b[k]? = a[k]?) : ∃ j ≤ i, a[j]? = b[i]? := by
  have hsize : b.size = a.size := hperm.size_eq
  by_cases hi : i < b.size
  · have hmem : b[i] ∈ a := hperm.mem_iff.mp (Array.getElem_mem hi)
    obtain ⟨j, hj, heq⟩ := Array.getElem_of_mem hmem
    have hfound : a[j]? = b[i]? := by
      rw [Array.getElem?_eq_getElem hj, Array.getElem?_eq_getElem hi, heq]
    refine ⟨j, ?_, hfound⟩
    -- further up the element would stand at two places
    by_contra hbeyond
    have htwice : b[i]? = b[j]? := by rw [hsame j (by omega), hfound]
    have hij := eq_of_getElem?_eq (nodup_of_perm hperm hdistinct) hi htwice
    omega
  · refine ⟨i, Nat.le_refl i, ?_⟩
    rw [Array.getElem?_eq_none (by omega), Array.getElem?_eq_none (by omega)]

/-- Every rearrangement of the positions up to `i` comes of exactly one sequence of draws: the first
draw is the place of its element at `i`, and the exchange leaves a rearrangement of the others. -/
theorem existsUnique_draws (hdistinct : a.toList.Nodup) (hi : i ≤ a.size - 1) (hperm : b.Perm a)
    (hsame : ∀ k, i < k → b[k]? = a[k]?) :
    ∃! draws, AreDrawsFrom i draws ∧ applyDraws a draws = b := by
  induction i generalizing a with
  | zero =>
    obtain ⟨j, hj, hfirst⟩ := exists_getElem?_eq hdistinct hperm hsame
    obtain rfl : j = 0 := by omega
    have heq : a = b := by
      apply Array.ext_getElem?
      intro k
      cases k with
      | zero => exact hfirst
      | succ k => exact (hsame (k + 1) (Nat.succ_pos k)).symm
    refine ⟨[], ⟨areDrawsFrom_zero_iff.mpr rfl, heq⟩, ?_⟩
    intro draws h
    exact areDrawsFrom_zero_iff.mp h.1
  | succ i ih =>
    obtain ⟨j, hj, hlast⟩ := exists_getElem?_eq hdistinct hperm hsame
    have hswap := swapIfInBounds_perm a (i + 1) j
    have hrest : ∀ k, i < k → b[k]? = (a.swapIfInBounds (i + 1) j)[k]? := by
      intro k hk
      by_cases hki : k = i + 1
      · subst hki
        rw [getElem?_swapIfInBounds_left (by omega) (by omega), hlast]
      · rw [getElem?_swapIfInBounds_of_gt (by omega) hj (by omega), hsame k (by omega)]
    obtain ⟨draws, ⟨hdraws, happly⟩, hunique⟩ := ih (nodup_of_perm hswap hdistinct)
      (by simp; omega) (hperm.trans hswap.symm) hrest
    refine ⟨j :: draws, ⟨areDrawsFrom_cons_iff.mpr ⟨hj, hdraws⟩, ?_⟩, ?_⟩
    · rw [applyDraws, hdraws.length, happly]
    · rintro others ⟨hothers, hresult⟩
      obtain ⟨l, others, rfl⟩ := List.exists_cons_of_length_eq_add_one hothers.length
      obtain ⟨hl, hrest⟩ := areDrawsFrom_cons_iff.mp hothers
      rw [applyDraws, hrest.length] at hresult
      have hplaced : b[i + 1]? = a[l]? := by
        rw [← hresult, getElem?_applyDraws_of_gt hrest (by simp; omega) (Nat.lt_succ_self i),
          getElem?_swapIfInBounds_left (by omega) (by omega)]
      obtain rfl : j = l := eq_of_getElem?_eq hdistinct (by omega) (hlast.trans hplaced)
      rw [hunique others ⟨hrest, hresult⟩]

end

section

variable {units : Nat} {seed : UInt64} {indices : Array Nat}

theorem boundedPermutation_eq_ok_iff {space : AddressSpace} :
    boundedPermutation space units seed = .ok indices ↔
      space.obtain (indexBytes * units) = .ok () ∧ indices = permutation units seed := by
  rw [boundedPermutation]
  generalize permutation units seed = order
  cases space.obtain (indexBytes * units) with
  | error reason => simp [Except.map]
  | ok _ => simp [Except.map, eq_comm]

theorem tryPermutation_eq_ok_iff {canIndex : Nat → Bool} :
    tryPermutation canIndex units seed = .ok indices ↔
      canIndex units = true ∧ indices = permutation units seed := by
  rw [tryPermutation]
  generalize permutation units seed = order
  cases canIndex units with
  | true => simp [eq_comm]
  | false => simp

end

/-- The shuffle of an array from a position down, with draws that take as many words as they need. -/
inductive Shuffles : Array Nat → Random.Keystream → Nat → Array Nat → Prop
  | done {a : Array Nat} {stream : Random.Keystream} : Shuffles a stream 0 a
  | next {a b : Array Nat} {stream rest : Random.Keystream} {i j : Nat} :
      Random.Draws (i + 2) stream j rest → Shuffles (a.swapIfInBounds (i + 1) j) rest i b →
        Shuffles a stream (i + 1) b

/-- Each draw for the positions from `i` down ends within the words that are allowed for it. -/
def DrawsEnd : Random.Keystream → Nat → Prop
  | _, 0 => True
  | stream, i + 1 => ∃ drawn,
      Random.drawWithin? (i + 2) Random.drawAttempts stream = some drawn ∧ DrawsEnd drawn.2 i

namespace Shuffles

variable {a b b' : Array Nat} {stream : Random.Keystream} {i : Nat}

theorem perm (h : Shuffles a stream i b) : b.Perm a := by
  induction h with
  | done => exact Array.Perm.refl _
  | next _ _ ih => exact ih.trans (swapIfInBounds_perm _ _ _)

theorem unique (h : Shuffles a stream i b) (h' : Shuffles a stream i b') : b = b' := by
  induction h with
  | done =>
    cases h'
    rfl
  | next hdraws _ ih =>
    cases h' with
    | next hdraws' hrest =>
      obtain ⟨rfl, rfl⟩ := hdraws.unique hdraws'
      exact ih hrest

end Shuffles

theorem shuffles_of_drawsEnd {stream : Random.Keystream} {i : Nat} (h : DrawsEnd stream i)
    (a : Array Nat) : Shuffles a stream i (shuffleFrom a stream i) := by
  induction i generalizing a stream with
  | zero => exact .done
  | succ i ih =>
    obtain ⟨drawn, hdrawn, hrest⟩ := h
    have hdraw : Random.draw (i + 2) stream = drawn := by rw [Random.draw, hdrawn, Option.getD_some]
    rw [shuffleFrom, hdraw]
    exact .next (Random.draws_of_drawWithin? hdrawn) (ih hrest _)

theorem count_of_perm_range {units : Nat} {order : Array Nat} (h : order.Perm (Array.range units))
    (index : Nat) : order.count index = if index < units then 1 else 0 := by
  rw [← Array.count_toList, (Array.perm_iff_toList_perm.mp h).count_eq, Array.toList_range,
    List.count_range]

/-- Whatever the seed, a permutation holds every number below its count once and no other. None of
its exchanges reaches beyond the array, and one whose buffer may be refused is the same when it is
not. With draws that take as many words as they need there is at most one such permutation, and it
is the same as soon as the draws end. -/
theorem permutation_holds_each_once (units : Nat) (seed : UInt64) :
    let order := permutation units seed
    let draws := drawsFrom (.ofSeed seed) (units - 1)
    order.size = units ∧ (∀ index, order.count index = if index < units then 1 else 0) ∧
      AreDrawsFrom (units - 1) draws ∧ order = applyDraws (Array.range units) draws ∧
      (∀ space indices, boundedPermutation space units seed = .ok indices ↔
        space.obtain (indexBytes * units) = .ok () ∧ indices = order) ∧
      (∀ canIndex indices, tryPermutation canIndex units seed = .ok indices ↔
        canIndex units = true ∧ indices = order) ∧
      (∀ result, Shuffles (Array.range units) (.ofSeed seed) (units - 1) result →
        result.size = units ∧ ∀ index, result.count index = if index < units then 1 else 0) ∧
      (DrawsEnd (.ofSeed seed) (units - 1) →
        ∀ result, Shuffles (Array.range units) (.ofSeed seed) (units - 1) result ↔
          result = order) := by
  intro order draws
  have hperm : order.Perm (Array.range units) := shuffleFrom_perm _ _ _
  refine ⟨hperm.size_eq.trans Array.size_range, count_of_perm_range hperm,
    areDrawsFrom_drawsFrom _ _, shuffleFrom_eq_applyDraws _ _ _, ?_, ?_, ?_, ?_⟩
  · intro space indices
    exact boundedPermutation_eq_ok_iff
  · intro canIndex indices
    exact tryPermutation_eq_ok_iff
  · intro result hshuffles
    exact ⟨hshuffles.perm.size_eq.trans Array.size_range, count_of_perm_range hshuffles.perm⟩
  · intro hend result
    have hshuffles : Shuffles (Array.range units) (.ofSeed seed) (units - 1) order :=
      shuffles_of_drawsEnd hend _
    constructor
    · intro h
      exact h.unique hshuffles
    · rintro rfl
      exact hshuffles

/-- The shuffle of a range takes the sequences of one draw for each position, none beyond its
position, to the rearrangements of the range, each of them once. What a seed draws is such a
sequence, and the shuffle does what that sequence says. -/
theorem bijOn_applyDraws (units : Nat) :
    Set.BijOn (applyDraws (Array.range units)) {draws | AreDrawsFrom (units - 1) draws}
        {order | order.Perm (Array.range units)} ∧
      ∀ stream, AreDrawsFrom (units - 1) (drawsFrom stream (units - 1)) ∧
        shuffleFrom (Array.range units) stream (units - 1) =
          applyDraws (Array.range units) (drawsFrom stream (units - 1)) := by
  have hdistinct : (Array.range units).toList.Nodup := by
    rw [Array.toList_range]
    exact List.nodup_range
  have hunique {order : Array Nat} (hperm : order.Perm (Array.range units)) :
      ∃! draws, AreDrawsFrom (units - 1) draws ∧
        applyDraws (Array.range units) draws = order := by
    have hsize : order.size = units := hperm.size_eq.trans Array.size_range
    apply existsUnique_draws hdistinct (by simp) hperm
    intro k hk
    rw [Array.getElem?_eq_none (by omega), Array.getElem?_eq_none (by simp; omega)]
  refine ⟨⟨?_, ?_, ?_⟩, ?_⟩
  · intro draws _
    exact applyDraws_perm _ draws
  · intro draws hdraws others hothers heq
    exact (hunique (applyDraws_perm _ others)).unique ⟨hdraws, heq⟩ ⟨hothers, rfl⟩
  · intro order hperm
    obtain ⟨draws, ⟨hdraws, happly⟩, -⟩ := hunique hperm
    exact ⟨draws, hdraws, happly⟩
  · intro stream
    exact ⟨areDrawsFrom_drawsFrom stream _, shuffleFrom_eq_applyDraws _ stream _⟩

example : [[0, 0], [0, 1], [1, 0], [1, 1], [2, 0], [2, 1]].map (applyDraws (Array.range 3)) =
    [#[1, 2, 0], #[2, 1, 0], #[2, 0, 1], #[0, 2, 1], #[1, 0, 2], #[0, 1, 2]] := by decide

end AccessBench
