import AccessBench.Proofs.Answers
import AccessBench.Proofs.Duration
import AccessBench.Row
import Mathlib.Algebra.Order.BigOperators.Group.List

/-!
The mean of trials. There is one exactly when the times add up to a span and each of the two counts
to a word, and then it is exact. It lies between the extremes of the trials, but for a time that is
divided by fewer trials than there are.
-/

namespace AccessBench

/-- What words add up to, whether or not it is a word. -/
def wordTotal (words : List UInt64) : Nat := (words.map UInt64.toNat).sum

theorem addWords?_eq_some_iff {a b word : UInt64} :
    addWords? a b = some word ↔ word.toNat = a.toNat + b.toNat := by
  rw [addWords?]
  split
  · next hlt =>
    rw [Option.some_inj, ← UInt64.toNat_inj, UInt64.toNat_add, Nat.mod_eq_of_lt hlt, eq_comm]
  · next hlarge =>
    have hword : word.toNat < UInt64.size := word.toNat_lt
    exact iff_of_false nofun (by omega)

theorem foldlM_addWords?_eq_some_iff {words : List UInt64} {sum word : UInt64} :
    words.foldlM addWords? sum = some word ↔ word.toNat = sum.toNat + wordTotal words := by
  induction words generalizing sum with
  | nil =>
    rw [List.foldlM_nil, wordTotal, List.map_nil, List.sum_nil, Nat.add_zero, UInt64.toNat_inj,
      eq_comm]
    exact Option.some_inj
  | cons next rest ih =>
    have htotal : wordTotal (next :: rest) = next.toNat + wordTotal rest := List.sum_cons
    rw [List.foldlM_cons, htotal, ← Nat.add_assoc]
    constructor
    · intro h
      obtain ⟨first, hfirst, hrest⟩ := Option.bind_eq_some_iff.mp h
      rw [ih.mp hrest, addWords?_eq_some_iff.mp hfirst]
    · intro h
      -- the sum so far is no larger than the whole, so it is a word as well
      have hlt : word.toNat < UInt64.size := word.toNat_lt
      have hfirst : (UInt64.ofNat (sum.toNat + next.toNat)).toNat = sum.toNat + next.toNat :=
        UInt64.toNat_ofNat_of_lt' (by omega)
      refine Option.bind_eq_some_iff.mpr ⟨_, addWords?_eq_some_iff.mpr hfirst, ih.mpr ?_⟩
      rw [h, hfirst]

theorem wordSum?_eq_some_iff {words : List UInt64} {word : UInt64} :
    wordSum? words = some word ↔ word.toNat = wordTotal words := by
  rw [wordSum?, foldlM_addWords?_eq_some_iff, UInt64.toNat_zero, Nat.zero_add]

theorem wordTotal_perm {words others : List UInt64} (h : words.Perm others) :
    wordTotal words = wordTotal others := (h.map UInt64.toNat).sum_eq

theorem wordSum?_perm {words others : List UInt64} (h : words.Perm others) :
    wordSum? words = wordSum? others := by
  ext word
  rw [wordSum?_eq_some_iff, wordSum?_eq_some_iff, wordTotal_perm h]

/-- Counts have a mean when their sum is a word. -/
theorem wordMean_eq_ok_iff {count : Nat} {words : List UInt64} {mean : UInt64} :
    wordMean count words = .ok mean ↔
      wordTotal words < 2 ^ 64 ∧ mean.toNat = wordTotal words / count := by
  rw [wordMean]
  cases hsum : wordSum? words with
  | none =>
    refine iff_of_false nofun fun h => ?_
    have hword : wordSum? words = some (UInt64.ofNat (wordTotal words)) :=
      wordSum?_eq_some_iff.mpr (UInt64.toNat_ofNat_of_lt' h.1)
    rw [hsum] at hword
    cases hword
  | some total =>
    have htotal := wordSum?_eq_some_iff.mp hsum
    have hlt : wordTotal words < 2 ^ 64 := htotal ▸ total.toNat_lt
    have hmean : (UInt64.ofNat (total.toNat / count)).toNat = wordTotal words / count := by
      rw [htotal]
      exact UInt64.toNat_ofNat_of_lt' (Nat.lt_of_le_of_lt (Nat.div_le_self _ _) hlt)
    simp only [Except.ok.injEq, hlt, true_and, ← hmean, UInt64.toNat_inj, eq_comm]

theorem wordMean_perm {count : Nat} {words others : List UInt64} (h : words.Perm others) :
    wordMean count words = wordMean count others := by
  rw [wordMean, wordSum?_perm h, wordMean]

theorem durationMean_eq_ok_iff {n : Nat} (hn : 0 < n) {spans : List Duration} {mean : Duration} :
    durationMean n spans = .ok mean ↔
      (∃ total : Duration, total.toNanos = (spans.map Duration.toNanos).sum) ∧
        mean.toNanos = (spans.map Duration.toNanos).sum / n := by
  rw [durationMean]
  cases hsum : Duration.sum? spans with
  | none =>
    refine iff_of_false nofun ?_
    rintro ⟨⟨total, htotal⟩, -⟩
    rw [Duration.sum?_eq_some_iff.mpr htotal] at hsum
    cases hsum
  | some total =>
    have htotal := Duration.sum?_eq_some_iff.mp hsum
    rw [← htotal, ← Duration.toNanos_div total hn, Duration.toNanos_inj, Except.ok.injEq, eq_comm]
    exact (and_iff_right ⟨total, rfl⟩).symm

theorem durationMean_perm {n : Nat} {spans others : List Duration} (h : spans.Perm others) :
    durationMean n spans = durationMean n others := by
  rw [durationMean, Duration.sum?_perm h, durationMean]

/-- A number is at least the smallest and at most the largest of some values. -/
def Between (values : List Nat) (mean : Nat) : Prop :=
  (∃ v ∈ values, v ≤ mean) ∧ ∃ v ∈ values, mean ≤ v

instance (values : List Nat) (mean : Nat) : Decidable (Between values mean) :=
  inferInstanceAs (Decidable (_ ∧ _))

section

variable {values : List Nat}

/-- A sum divided into no more parts than there are values is at least the smallest of them. -/
theorem exists_le_div {parts : Nat} (hparts : 0 < parts) (hle : parts ≤ values.length) :
    ∃ v ∈ values, v ≤ values.sum / parts := by
  have hrest : values.sum < parts * (values.sum / parts + 1) := Nat.lt_mul_div_succ _ hparts
  have hlt : (values.map id).sum < (values.map fun _ => values.sum / parts + 1).sum := by
    rw [List.map_id, List.map_const', List.sum_replicate_nat]
    exact Nat.lt_of_lt_of_le hrest (Nat.mul_le_mul_right _ hle)
  obtain ⟨v, hv, hless⟩ := List.exists_lt_of_sum_lt id _ hlt
  exact ⟨v, hv, Nat.le_of_lt_succ hless⟩

theorem exists_div_le (hne : values ≠ []) : ∃ v ∈ values, values.sum / values.length ≤ v := by
  have hle : (values.map fun _ => values.sum / values.length).sum ≤ (values.map id).sum := by
    rw [List.map_id, List.map_const', List.sum_replicate_nat]
    exact Nat.mul_div_le _ _
  exact List.exists_le_of_sum_le hne _ id hle

theorem between_mean (hne : values ≠ []) : Between values (values.sum / values.length) :=
  ⟨exists_le_div (List.length_pos_iff.mpr hne) (Nat.le_refl _), exists_div_le hne⟩

/-- With fewer parts than values the quotient can be above the largest of them. -/
theorem between_parts_iff {parts : Nat} (hparts : 0 < parts) (hle : parts ≤ values.length) :
    Between values (values.sum / parts) ↔ ∃ v ∈ values, values.sum < (v + 1) * parts := by
  have hupper (v : Nat) : values.sum / parts ≤ v ↔ values.sum < (v + 1) * parts := by
    rw [← Nat.lt_succ_iff, Nat.div_lt_iff_lt_mul hparts]
  simp only [Between, hupper, and_iff_right (exists_le_div hparts hle)]

end

/-- The times of the trials add up to a span, and each of their counts to a word. -/
structure Trial.Summable (ts : List Trial) : Prop where
  duration : ∃ total : Duration, total.toNanos = (ts.map (·.duration.toNanos)).sum
  auxCount : (ts.map (·.auxCount.toNat)).sum < 2 ^ 64
  visited : (ts.map (·.visited.toNat)).sum < 2 ^ 64

namespace Row

variable {s : Scenario} {metric : Metric} {ts others : List Trial} {row : Row}

/-- The rate of a row is taken over the bytes that the row itself tells of. -/
theorem throughput_ofMeans (s : Scenario) (metric : Metric) (duration : Duration)
    (auxCount visited trials : UInt64) (clamped : Bool) :
    (ofMeans s metric duration auxCount visited trials clamped).throughput =
      throughputOf (ofMeans s metric duration auxCount visited trials clamped).bytesMoved
        duration := by
  cases metric with
  | pageFaults => rfl
  | bytesTransferred => rfl

theorem ofTrials_perm (h : others.Perm ts) : ofTrials s metric others = ofTrials s metric ts := by
  simp only [ofTrials, durationDivisor, h.isEmpty_eq, h.length_eq, h.any_eq,
    durationMean_perm (h.map _), wordMean_perm (h.map _)]

/-- What averaging does: times are divided by the number of trials as far as it fits 32 bits. -/
structure Averages (ts : List Trial) (row : Row) : Prop where
  duration : row.duration.toNanos =
    (ts.map (·.duration.toNanos)).sum / min ts.length (2 ^ 32 - 1)
  auxCount : row.auxCount.toNat = (ts.map (·.auxCount.toNat)).sum / ts.length
  visited : row.visited.toNat = (ts.map (·.visited.toNat)).sum / ts.length
  trials : row.trials = UInt64.ofNat ts.length
  clamped : row.clamped = ts.any (·.clamped)
  throughput : row.throughput = throughputOf row.bytesMoved row.duration

theorem ofTrials_eq_ok_iff (hne : ts ≠ []) :
    ofTrials s metric ts = .ok row ↔ ∃ duration auxCount visited,
      durationMean (durationDivisor ts) (ts.map (·.duration)) = .ok duration ∧
        wordMean ts.length (ts.map (·.auxCount)) = .ok auxCount ∧
        wordMean ts.length (ts.map (·.visited)) = .ok visited ∧
        row = ofMeans s metric duration auxCount visited (UInt64.ofNat ts.length)
          (ts.any (·.clamped)) := by
  have hempty : ts.isEmpty = false := List.isEmpty_eq_false_iff.mpr hne
  rw [ofTrials, hempty, if_neg Bool.false_ne_true]
  simp only [bind_eq_ok_iff, pure, Except.pure, Except.ok.injEq, exists_and_left]
  constructor
  · rintro ⟨duration, hduration, auxCount, haux, visited, hvisited, hrow⟩
    exact ⟨duration, hduration, auxCount, haux, visited, hvisited, hrow.symm⟩
  · rintro ⟨duration, hduration, auxCount, haux, visited, hvisited, hrow⟩
    exact ⟨duration, hduration, auxCount, haux, visited, hvisited, hrow.symm⟩

section

variable (hne : ts ≠ [])

include hne

theorem durationDivisor_pos : 0 < durationDivisor ts :=
  Nat.lt_min.mpr ⟨List.length_pos_iff.mpr hne, by decide⟩

theorem summable_of_ofTrials (h : ofTrials s metric ts = .ok row) : Trial.Summable ts := by
  obtain ⟨duration, auxCount, visited, hduration, haux, hvisited, -⟩ :=
    (ofTrials_eq_ok_iff hne).mp h
  have htime := ((durationMean_eq_ok_iff (durationDivisor_pos hne)).mp hduration).1
  have hfirst := (wordMean_eq_ok_iff.mp haux).1
  have hsecond := (wordMean_eq_ok_iff.mp hvisited).1
  rw [List.map_map] at htime
  rw [wordTotal, List.map_map] at hfirst hsecond
  exact ⟨htime, hfirst, hsecond⟩

theorem averages_of_ofTrials (h : ofTrials s metric ts = .ok row) : row.Averages ts := by
  obtain ⟨duration, auxCount, visited, hduration, haux, hvisited, rfl⟩ :=
    (ofTrials_eq_ok_iff hne).mp h
  have htime := ((durationMean_eq_ok_iff (durationDivisor_pos hne)).mp hduration).2
  have hfirst := (wordMean_eq_ok_iff.mp haux).2
  have hsecond := (wordMean_eq_ok_iff.mp hvisited).2
  rw [List.map_map] at htime
  rw [wordTotal, List.map_map] at hfirst hsecond
  exact ⟨htime, hfirst, hsecond, rfl, rfl, throughput_ofMeans ..⟩

end

/-- Trials that can be added up have a row. -/
theorem exists_ofTrials (s : Scenario) (metric : Metric) (h : Trial.Summable ts) :
    ∃ row, ofTrials s metric ts = .ok row := by
  by_cases hne : ts = []
  · subst hne
    exact ⟨_, rfl⟩
  obtain ⟨total, htotal⟩ := h.duration
  have hsum : Duration.sum? (ts.map (·.duration)) = some total := by
    rw [Duration.sum?_eq_some_iff, htotal, List.map_map]
    rfl
  have htimes : durationMean (durationDivisor ts) (ts.map (·.duration)) =
      .ok (total.div (durationDivisor ts)) := by
    rw [durationMean, hsum]
  have hmean (count : Trial → UInt64) (hlt : (ts.map fun t => (count t).toNat).sum < 2 ^ 64) :
      ∃ mean, wordMean ts.length (ts.map count) = .ok mean := by
    refine ⟨UInt64.ofNat (wordTotal (ts.map count) / ts.length), wordMean_eq_ok_iff.mpr ?_⟩
    have hfits : wordTotal (ts.map count) < 2 ^ 64 := by
      rw [wordTotal, List.map_map]
      exact hlt
    exact ⟨hfits, UInt64.toNat_ofNat_of_lt' (Nat.lt_of_le_of_lt (Nat.div_le_self _ _) hfits)⟩
  obtain ⟨auxCount, haux⟩ := hmean (·.auxCount) h.auxCount
  obtain ⟨visited, hvisited⟩ := hmean (·.visited) h.visited
  exact ⟨_, (ofTrials_eq_ok_iff hne).mpr ⟨_, _, _, htimes, haux, hvisited, rfl⟩⟩

/-- The trials have a row exactly when they can be added up; otherwise the program halts. -/
theorem exists_ofTrials_iff : (∃ row, ofTrials s metric ts = .ok row) ↔ Trial.Summable ts := by
  refine ⟨?_, exists_ofTrials s metric⟩
  rintro ⟨row, hrow⟩
  by_cases hne : ts = []
  · subst hne
    exact ⟨⟨.zero, rfl⟩, by decide, by decide⟩
  · exact summable_of_ofTrials hne hrow

/-- The row holds the means of the trials, each rounded down once. -/
structure IsMeanOf (ts : List Trial) (row : Row) : Prop where
  duration : row.duration.toNanos = (ts.map (·.duration.toNanos)).sum / ts.length
  nanos : row.duration.nanos < 1000000000
  auxCount : row.auxCount.toNat = (ts.map (·.auxCount.toNat)).sum / ts.length
  visited : row.visited.toNat = (ts.map (·.visited.toNat)).sum / ts.length
  trials : row.trials.toNat = ts.length
  clamped : row.clamped = true ↔ ∃ t ∈ ts, t.clamped = true
  throughput : row.throughput = throughputOf row.bytesMoved row.duration

theorem Averages.isMeanOf (h : row.Averages ts) (hlength : ts.length < 2 ^ 32) :
    row.IsMeanOf ts where
  duration := by
    have hdivisor : min ts.length (2 ^ 32 - 1) = ts.length :=
      Nat.min_eq_left (Nat.le_pred_of_lt hlength)
    rw [h.duration, hdivisor]
  nanos := row.duration.nanos_lt
  auxCount := h.auxCount
  visited := h.visited
  trials := by
    rw [h.trials]
    exact UInt64.toNat_ofNat_of_lt' (hlength.trans (by decide))
  clamped := by rw [h.clamped, List.any_eq_true]
  throughput := h.throughput

/-- Trials whose times and counts can be added up have a row, with the exact mean of their times to
the nanosecond and of their counts to the unit, rated by what it holds itself. The order of the
trials makes no difference to any part of it. -/
theorem ofTrials_exact (hne : ts ≠ []) (hlength : ts.length < 2 ^ 32)
    (hduration : ∃ total : Duration, total.toNanos = (ts.map (·.duration.toNanos)).sum)
    (haux : (ts.map (·.auxCount.toNat)).sum < 2 ^ 64)
    (hvisited : (ts.map (·.visited.toNat)).sum < 2 ^ 64) :
    ∃ row, ofTrials s metric ts = .ok row ∧ row.IsMeanOf ts ∧
      ∀ others, others.Perm ts → ofTrials s metric others = .ok row := by
  obtain ⟨row, hrow⟩ := exists_ofTrials s metric ⟨hduration, haux, hvisited⟩
  refine ⟨row, hrow, (averages_of_ofTrials hne hrow).isMeanOf hlength, ?_⟩
  intro others hperm
  rw [ofTrials_perm hperm, hrow]

def overPages : Scenario where
  name := "seq_write"
  kind := .sequential
  access := .write
  size := 0x4000000
  unit := 4096

/-- The times are carried over into seconds, and the counts make the largest sum that is a word. -/
def carried : List Trial :=
  [{ duration := ⟨0, 999999999, by decide⟩, auxCount := 0x8000000000000000, visited := 3 },
    { duration := ⟨2, 1, by decide⟩, auxCount := 0x7FFFFFFFFFFFFFFF, visited := 4,
      clamped := true }]

theorem summable_carried : Trial.Summable carried :=
  ⟨⟨⟨3, 0, by decide⟩, by decide⟩, by decide, by decide⟩

theorem ofTrials_exact_carried :
    carried ≠ [] ∧ carried.length < 2 ^ 32 ∧
      (∃ total : Duration, total.toNanos = (carried.map (·.duration.toNanos)).sum) ∧
      (carried.map (·.auxCount.toNat)).sum < 2 ^ 64 ∧
      (carried.map (·.visited.toNat)).sum < 2 ^ 64 ∧
      ∃ row, ofTrials overPages .pageFaults carried = .ok row ∧
        row.duration.toNanos = 1500000000 ∧ row.auxCount.toNat = 0x7FFFFFFFFFFFFFFF ∧
        row.visited.toNat = 3 ∧ row.clamped = true ∧
        ofTrials overPages .pageFaults carried.reverse = .ok row := by
  have hne : carried ≠ [] := by decide
  have hlength : carried.length < 2 ^ 32 := by decide
  obtain ⟨hduration, haux, hvisited⟩ := summable_carried
  obtain ⟨row, hrow, hmean, hother⟩ :=
    @ofTrials_exact overPages .pageFaults carried hne hlength hduration haux hvisited
  refine ⟨hne, hlength, hduration, haux, hvisited, row, hrow, ?_, ?_, ?_, ?_,
    hother _ (List.reverse_perm _)⟩
  · rw [hmean.duration]
    decide
  · rw [hmean.auxCount]
    decide
  · rw [hmean.visited]
    decide
  · rw [hmean.clamped]
    decide

end Row

end AccessBench
