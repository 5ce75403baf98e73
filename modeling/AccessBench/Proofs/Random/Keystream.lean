import AccessBench.Random.Keystream
import Mathlib

/-!
What a reader of a keystream reads. It stands at one word of the sequence and goes on word by word,
over the ends of the blocks; the bytes that it fills in are those of the words from there on.
-/

namespace AccessBench.Random

/-- Byte `n` of the sequence under a key. Each word gives four bytes, the lowest first. -/
def keystreamByte (key : Vector UInt32 8) (n : Nat) : UInt8 :=
  UInt8.ofNat ((keystreamWord key (n / 4)).toNat / 256 ^ (n % 4))

theorem toUInt8_shiftRight (word : UInt32) {amount : UInt32} {i : Nat}
    (h : amount.toNat % 32 = 8 * i) :
    (word >>> amount).toUInt8 = UInt8.ofNat (word.toNat / 256 ^ i) := by
  have hpow : 2 ^ (8 * i) = 256 ^ i := Nat.pow_mul 2 8 i
  rw [← UInt8.toNat_inj, UInt32.toNat_toUInt8, UInt32.toNat_shiftRight, h,
    Nat.shiftRight_eq_div_pow, hpow, UInt8.toNat_ofNat']

theorem wordBytes_eq (word : UInt32) :
    wordBytes word = (List.range 4).map fun i => UInt8.ofNat (word.toNat / 256 ^ i) := by
  have hlowest : word.toUInt8 = UInt8.ofNat (word.toNat / 256 ^ 0) := by
    rw [← UInt8.toNat_inj, UInt32.toNat_toUInt8, Nat.pow_zero, Nat.div_one, UInt8.toNat_ofNat']
  rw [wordBytes, hlowest, toUInt8_shiftRight word (i := 1) (by decide),
    toUInt8_shiftRight word (i := 2) (by decide), toUInt8_shiftRight word (i := 3) (by decide)]
  rfl

theorem take_wordBytes {key : Vector UInt32 8} {n length : Nat} (h : length ≤ 4) :
    (wordBytes (keystreamWord key n)).take length =
      (List.range' (4 * n) length).map (keystreamByte key) := by
  rw [wordBytes_eq, ← List.map_take, List.take_range, Nat.min_eq_left h, List.range'_eq_map_range,
    List.map_map]
  apply List.map_congr_left
  intro i hi
  rw [List.mem_range] at hi
  have hdiv : (4 * n + i) / 4 = n := by omega
  have hmod : (4 * n + i) % 4 = i := by omega
  rw [Function.comp_apply, keystreamByte, hdiv, hmod]

theorem toList_foldl_push (bytes : List UInt8) (acc : ByteArray) :
    (bytes.foldl ByteArray.push acc).data.toList = acc.data.toList ++ bytes := by
  induction bytes generalizing acc with
  | nil => simp
  | cons b rest ih => simp [ih]

theorem keystreamWord_of_block (key : Vector UInt32 8) (k : Nat) {i : Nat} (hi : i < 16) :
    keystreamWord key (16 * k + i) = (blockWords key (UInt64.ofNat k))[i] := by
  have hdiv : (16 * k + i) / 16 = k := by omega
  have hmod : (16 * k + i) % 16 = i := by omega
  simp only [keystreamWord, hdiv, hmod]
  generalize blockWords key (UInt64.ofNat k) = words
  rfl

namespace Keystream

theorem nextWord_cons (key : Vector UInt32 8) (block : UInt64) (word : UInt32)
    (rest : List UInt32) : nextWord ⟨key, block, word :: rest⟩ = (word, ⟨key, block, rest⟩) := rfl

/-- The next word to be read is word `n` of the sequence, and those that are left of its block are
the ones after it. -/
structure StandsAt (key : Vector UInt32 8) (n : Nat) (stream : Keystream) : Prop where
  underKey : stream.key = key
  block : ∃ k, stream.block = UInt64.ofNat k ∧ n + stream.pending.length = 16 * k
  pending : ∀ i word, stream.pending[i]? = some word → word = keystreamWord key (n + i)

variable {key : Vector UInt32 8} {n : Nat} {stream : Keystream}

theorem standsAt_ofSeed (seed : UInt64) : (ofSeed seed).StandsAt (keyOfSeed seed) 0 where
  underKey := rfl
  block := ⟨0, rfl, rfl⟩
  pending := by simp [ofSeed]

theorem nextWord_of_standsAt (h : stream.StandsAt key n) :
    stream.nextWord.1 = keystreamWord key n ∧ stream.nextWord.2.StandsAt key (n + 1) := by
  obtain ⟨streamKey, block, pending⟩ := stream
  obtain ⟨hkey, ⟨k, hblock, hlength⟩, hpending⟩ := h
  dsimp only at hkey hblock hlength hpending
  subst hkey hblock
  cases pending with
  | cons word rest =>
    rw [nextWord_cons]
    refine ⟨hpending 0 word rfl, rfl, ⟨k, rfl, ?_⟩, ?_⟩
    · rw [List.length_cons] at hlength
      dsimp only
      omega
    · intro i next hnext
      have hword := hpending (i + 1) next hnext
      rw [hword, Nat.add_assoc, Nat.add_comm 1]
  | nil =>
    obtain rfl : n = 16 * k := hlength
    have hblock (i : Nat) (hi : i < 16) :
        keystreamWord streamKey (16 * k + i) = (blockWords streamKey (UInt64.ofNat k))[i] :=
      keystreamWord_of_block streamKey k hi
    simp only [nextWord]
    generalize blockWords streamKey (UInt64.ofNat k) = words at hblock ⊢
    have htail : words.toList.tail.length = 15 := by simp
    refine ⟨(hblock 0 (by decide)).symm, rfl, ⟨k + 1, UInt64.ofNat_add k 1 |>.symm, ?_⟩, ?_⟩
    · rw [htail]
      omega
    · intro i next hnext
      dsimp only at hnext
      obtain ⟨hi, rfl⟩ := List.getElem?_eq_some_iff.mp hnext
      rw [htail] at hi
      rw [Nat.add_assoc, Nat.add_comm 1, hblock (i + 1) (by omega), List.getElem_tail,
        Vector.getElem_toList]

/-- The reader of a seed after so many words. -/
def afterWords (seed : UInt64) (n : Nat) : Keystream :=
  (fun stream => stream.nextWord.2)^[n] (ofSeed seed)

theorem standsAt_afterWords (seed : UInt64) (n : Nat) :
    (afterWords seed n).StandsAt (keyOfSeed seed) n := by
  induction n with
  | zero => exact standsAt_ofSeed seed
  | succ n ih =>
    rw [afterWords, Function.iterate_succ_apply']
    exact (nextWord_of_standsAt ih).2

/-- Read one by one, the words are those of the numbered blocks. -/
theorem nextWord_afterWords (seed : UInt64) (n : Nat) :
    (afterWords seed n).nextWord.1 = keystreamWord (keyOfSeed seed) n :=
  (nextWord_of_standsAt (standsAt_afterWords seed n)).1

/-- Filling in whole words leads to a later word; a rest that is shorter takes a word of its own. -/
theorem fill_of_standsAt (h : stream.StandsAt key n) (acc : ByteArray) (length : Nat) :
    (stream.fill acc length).1.data.toList =
        acc.data.toList ++ (List.range' (4 * n) length).map (keystreamByte key) ∧
      (4 ∣ length → (stream.fill acc length).2.StandsAt key (n + length / 4)) := by
  fun_induction fill acc length stream generalizing n with
  | case1 acc stream =>
    refine ⟨?_, fun _ => h⟩
    rw [List.range'_zero, List.map_nil, List.append_nil]
  | case2 acc length stream hshort hzero word rest hword =>
    obtain ⟨hnext, -⟩ := nextWord_of_standsAt h
    rw [hword] at hnext
    obtain rfl : word = keystreamWord key n := hnext
    refine ⟨?_, fun hwhole => by omega⟩
    rw [toList_foldl_push, take_wordBytes (by omega)]
  | case3 acc length stream hlong word rest hword ih =>
    obtain ⟨hnext, hrest⟩ := nextWord_of_standsAt h
    rw [hword] at hnext hrest
    obtain rfl : word = keystreamWord key n := hnext
    obtain ⟨hbytes, hstands⟩ := ih hrest
    have hwhole : wordBytes (keystreamWord key n) =
        (List.range' (4 * n) 4).map (keystreamByte key) := take_wordBytes (Nat.le_refl 4)
    constructor
    · rw [hbytes, toList_foldl_push, hwhole, List.append_assoc, ← List.map_append, Nat.mul_add,
        Nat.mul_one, List.range'_append_1, Nat.add_sub_cancel' (by omega)]
    · intro hdvd
      have hlater := hstands (by omega)
      have hword : n + 1 + (length - 4) / 4 = n + length / 4 := by omega
      rw [hword] at hlater
      exact hlater

end Keystream

end AccessBench.Random
