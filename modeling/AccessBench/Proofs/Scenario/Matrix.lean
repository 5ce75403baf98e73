import AccessBench.Proofs.Answers
import AccessBench.Proofs.Config.Validation
import AccessBench.Proofs.Pattern.Materialize
import AccessBench.Scenario.Matrix
import Mathlib.Algebra.Order.Ring.Nat

/-!
What the matrices make of a configuration. They pass over strides and block sizes of zero, so that
they have a scenario for everything that the configuration lists exactly when it lists no such zero.
The sections over a file exist only as long as the distances of all strides fit a word.
-/

namespace AccessBench

/-- The units of a stride pattern. -/
def PatternKind.stride? : PatternKind → Option UInt64
  | .stride s => some s.units
  | _ => none

theorem Stride.map_units_ofList (units : List UInt64) :
    (Stride.ofList units).map Stride.units = units.filter (· ≠ 0) := by
  induction units with
  | nil => rfl
  | cons k units ih =>
    rw [ofList] at ih ⊢
    by_cases hk : k = 0
    · simp [ofUnits?, hk, ih]
    · simp [ofUnits?, hk, ih]

theorem Stride.length_ofList (units : List UInt64) :
    (Stride.ofList units).length = (units.filter (· ≠ 0)).length := by
  rw [← map_units_ofList, List.length_map]

theorem length_filter_ne_zero_iff {ns : List UInt64} :
    (ns.filter (· ≠ 0)).length = ns.length ↔ 0 ∉ ns := by
  rw [List.length_filter_eq_length_iff]
  constructor
  · intro hall hzero
    simpa using hall 0 hzero
  · intro hnone n hn
    have hne : n ≠ 0 := fun h => hnone (h ▸ hn)
    simpa using hne

theorem filter_ne_zero {ns : List UInt64} (h : 0 ∉ ns) : ns.filter (· ≠ 0) = ns :=
  List.filter_eq_self.mpr fun n hn => by
    have hne : n ≠ 0 := fun hzero => h (hzero ▸ hn)
    simpa using hne

/-- Of strides without a zero none is lost. -/
theorem Stride.map_ofList {α : Type} {units : List UInt64} (h : 0 ∉ units) (f : UInt64 → α) :
    (Stride.ofList units).map (fun s => f s.units) = units.map f := by
  have hunits : (Stride.ofList units).map Stride.units = units := by
    rw [map_units_ofList, filter_ne_zero h]
  calc (Stride.ofList units).map (fun s => f s.units)
      = ((Stride.ofList units).map Stride.units).map f := by rw [List.map_map]; rfl
    _ = units.map f := by rw [hunits]

namespace MemoryConfig

theorem scenarioCount_matrix (c : MemoryConfig) :
    c.matrix.scenarioCount = 2 * c.sizes.length + (c.strides.filter (· ≠ 0)).length + 2 := by
  simp only [matrix, Matrix.scenarioCount, List.map_cons, List.map_nil, List.foldl_cons,
    List.foldl_nil, List.length_map, List.length_singleton, Stride.length_ofList]
  omega

theorem scenarioCount_eq_iff (c : MemoryConfig) :
    c.matrix.scenarioCount = 2 * c.sizes.length + c.strides.length + 2 ↔ 0 ∉ c.strides := by
  rw [scenarioCount_matrix, ← length_filter_ne_zero_iff]
  omega

theorem unit_ne_zero {c : MemoryConfig} (h : c.pageSize ≠ 0) :
    ∀ s ∈ c.matrix, ∀ scenario ∈ s.scenarios, scenario.unit ≠ 0 := by
  simp [matrix, h]

/-- The sections list the sizes and the strides of the configuration, with a scenario for each. -/
def IsListedBy (c : MemoryConfig) (m : Matrix) : Prop :=
  ∃ writing reading strides reverse random : Section,
    m = [writing, reading, strides, reverse, random] ∧
    (∀ s ∈ m, s.suite = .memory) ∧
    writing.scenarios.map (fun s => (s.kind, s.access, s.size)) =
      c.sizes.map (fun size => (.sequential, .write, size)) ∧
    reading.scenarios.map (fun s => (s.kind, s.access, s.size)) =
      c.sizes.map (fun size => (.sequential, .read, size)) ∧
    strides.scenarios.map (fun s => (s.kind.stride?, s.access, s.size)) =
      c.strides.map (fun k => (some k, .write, c.patternSize)) ∧
    reverse.scenarios.map (fun s => (s.kind, s.access, s.size)) =
      [(.reverse, .write, c.patternSize)] ∧
    random.scenarios.map (fun s => (s.kind, s.access, s.size)) = [(.random, .write, c.patternSize)]

theorem isListedBy_matrix {c : MemoryConfig} (h : 0 ∉ c.strides) : c.IsListedBy c.matrix := by
  refine ⟨_, _, _, _, _, rfl, by simp [matrix], ?_, ?_, ?_, rfl, rfl⟩
  · rw [List.map_map]
    rfl
  · rw [List.map_map]
    rfl
  · rw [← Stride.map_ofList h, List.map_map]
    rfl

end MemoryConfig

/-- The bytes from one block that a stride visits to the next. -/
def strideDistance (k blockSize : UInt64) : Nat := k.toNat * blockSize.toNat

namespace FileConfig

/-- The distances of all strides fit a word. -/
def DistancesFit (c : FileConfig) : Prop := ∀ k ∈ c.strides, strideDistance k c.blockSize < 2 ^ 64

instance (c : FileConfig) : Decidable c.DistancesFit := List.decidableBAll _ _

/-- The stride scenarios, named for the distances that words make of those of the strides. -/
def strided (c : FileConfig) (length : UInt64) : List Scenario :=
  (Stride.ofList c.strides).map fun s => c.striding length s (s.units * c.blockSize)

variable {c : FileConfig} {length : UInt64} {m : Matrix}

theorem distancesFit_iff :
    c.DistancesFit ↔ ∀ s ∈ Stride.ofList c.strides, strideDistance s.units c.blockSize < 2 ^ 64 := by
  have hunits : (∀ s ∈ Stride.ofList c.strides, strideDistance s.units c.blockSize < 2 ^ 64) ↔
      ∀ k ∈ (Stride.ofList c.strides).map Stride.units, strideDistance k c.blockSize < 2 ^ 64 := by
    simp only [List.forall_mem_map]
  rw [hunits, Stride.map_units_ofList]
  constructor
  · intro h k hk
    exact h k (List.mem_of_mem_filter hk)
  · intro h k hk
    by_cases hzero : k = 0
    · subst hzero
      rw [strideDistance, UInt64.toNat_zero, Nat.zero_mul]
      decide
    · exact h k (List.mem_filter.mpr ⟨hk, by simpa using hzero⟩)

theorem strideScenarios_eq (c : FileConfig) (length : UInt64) :
    c.strideScenarios length =
      if c.DistancesFit then .ok (c.strided length) else .error .distanceOverflow := by
  have hstriding (s : Stride) : (s.distance c.blockSize).map (c.striding length s) =
      if strideDistance s.units c.blockSize < 2 ^ 64
      then .ok (c.striding length s (s.units * c.blockSize)) else .error .distanceOverflow := by
    rw [Stride.distance]
    change Except.map _ (if strideDistance s.units c.blockSize < 2 ^ 64 then _ else _) = _
    split
    · rfl
    · rfl
  rw [strideScenarios, funext hstriding,
    mapM_guarded fun s : Stride => strideDistance s.units c.blockSize < 2 ^ 64]
  simp only [← distancesFit_iff]
  rfl

theorem matrix_eq (c : FileConfig) (length : UInt64) :
    c.matrix length =
      if c.DistancesFit then .ok (c.sections length (c.strided length))
      else .error .distanceOverflow := by
  rw [matrix, strideScenarios_eq]
  split
  · rfl
  · rfl

theorem matrix_eq_ok_iff :
    c.matrix length = .ok m ↔ c.DistancesFit ∧ m = c.sections length (c.strided length) := by
  rw [matrix_eq]
  split
  · next hfit => simp [hfit, eq_comm]
  · next hfit => exact iff_of_false nofun fun h => hfit h.1

theorem exists_matrix_iff : (∃ m, c.matrix length = .ok m) ↔ c.DistancesFit := by
  constructor
  · rintro ⟨m, hm⟩
    exact (matrix_eq_ok_iff.mp hm).1
  · intro hfit
    exact ⟨_, matrix_eq_ok_iff.mpr ⟨hfit, rfl⟩⟩

section

variable (hm : c.matrix length = .ok m)

include hm

theorem scenarioCount_matrix :
    m.scenarioCount =
      5 + (c.strides.filter (· ≠ 0)).length + (c.blockSizes.filter (· ≠ 0)).length := by
  obtain ⟨-, rfl⟩ := matrix_eq_ok_iff.mp hm
  simp [sections, strided, Matrix.scenarioCount, Stride.length_ofList]

/-- Neither list can make up for what is lost of the other. -/
theorem scenarioCount_eq_iff :
    m.scenarioCount = 5 + c.strides.length + c.blockSizes.length ↔
      0 ∉ c.strides ∧ 0 ∉ c.blockSizes := by
  have hstrides := List.length_filter_le (· ≠ 0) c.strides
  have hblocks := List.length_filter_le (· ≠ 0) c.blockSizes
  rw [scenarioCount_matrix hm, ← length_filter_ne_zero_iff, ← length_filter_ne_zero_iff]
  omega

theorem unit_cases : ∀ s ∈ m, ∀ scenario ∈ s.scenarios,
    scenario.unit = c.blockSize ∨ scenario.unit ∈ c.blockSizes ∧ scenario.unit ≠ 0 := by
  obtain ⟨-, rfl⟩ := matrix_eq_ok_iff.mp hm
  intro s hs
  simp only [sections, List.mem_cons, List.not_mem_nil, or_false] at hs
  rcases hs with rfl | rfl | rfl | rfl
  · simp [Scenario.cold, reading]
  · simp [Scenario.cold, reading]
  · simp [strided, striding, Scenario.cold, reading]
  · intro scenario hscenario
    obtain ⟨size, hsize, rfl⟩ := List.mem_map.mp hscenario
    obtain ⟨hmem, hne⟩ := List.mem_filter.mp hsize
    exact .inr ⟨hmem, by simpa using hne⟩

theorem unit_ne_zero (h : c.blockSize ≠ 0) :
    ∀ s ∈ m, ∀ scenario ∈ s.scenarios, scenario.unit ≠ 0 := by
  intro s hs scenario hscenario
  obtain hunit | ⟨-, hunit⟩ := unit_cases hm s hs scenario hscenario
  · rw [hunit]
    exact h
  · exact hunit

/-- Scenarios over a file read, and all of it. -/
theorem reads : ∀ s ∈ m, s.suite = .file ∧ ∀ scenario ∈ s.scenarios,
    scenario.access = .read ∧ scenario.size = length := by
  obtain ⟨-, rfl⟩ := matrix_eq_ok_iff.mp hm
  simp [sections, strided, striding, Scenario.cold, reading]
  rintro _ size - - rfl
  exact ⟨rfl, rfl⟩

end

/-- The sections list the strides and the block sizes of the configuration, with a scenario for
each, after those that there always are. -/
def IsListedBy (c : FileConfig) (length : UInt64) (m : Matrix) : Prop :=
  ∃ caches patterns strides blocks : Section,
    m = [caches, patterns, strides, blocks] ∧
    (∀ s ∈ m, s.suite = .file ∧ ∀ scenario ∈ s.scenarios,
      scenario.access = .read ∧ scenario.size = length) ∧
    caches.scenarios.map (fun s => (s.kind, s.unit)) =
      [(.sequential, c.blockSize), (.hotCache, c.blockSize)] ∧
    patterns.scenarios.map (fun s => (s.kind, s.unit)) =
      [(.sequential, c.blockSize), (.random, c.blockSize), (.reverse, c.blockSize)] ∧
    strides.scenarios.map (fun s => (s.kind.stride?, s.unit)) =
      c.strides.map (fun k => (some k, c.blockSize)) ∧
    blocks.scenarios.map (fun s => (s.kind, s.unit)) =
      c.blockSizes.map (fun size => (.sequential, size))

theorem isListedBy_matrix (hstrides : 0 ∉ c.strides) (hblocks : 0 ∉ c.blockSizes)
    (hm : c.matrix length = .ok m) : c.IsListedBy length m := by
  have hreads := reads hm
  obtain ⟨-, rfl⟩ := matrix_eq_ok_iff.mp hm
  refine ⟨_, _, _, _, rfl, hreads, rfl, rfl, ?_, ?_⟩
  · rw [← Stride.map_ofList hstrides, strided, List.map_map]
    rfl
  · rw [filter_ne_zero hblocks, List.map_map]
    rfl

end FileConfig

namespace Config

/-- The scenarios over memory and those of a matrix over a file. -/
def scenarios (c : Config) (m : Matrix) : List Scenario :=
  (c.memory.matrix ++ m).flatMap (·.scenarios)

variable {c : Config} {length : UInt64} {m : Matrix}

theorem unit_ne_zero (h : c.validate = .ok ()) (hm : c.file.matrix length = .ok m) :
    ∀ s ∈ c.scenarios m, s.unit ≠ 0 := by
  intro s hs
  obtain ⟨part, hpart, hmem⟩ := List.mem_flatMap.mp hs
  obtain hmemory | hfile := List.mem_append.mp hpart
  · exact MemoryConfig.unit_ne_zero (pageSize_ne_zero h) part hmemory s hmem
  · exact FileConfig.unit_ne_zero hm (blockSize_ne_zero h) part hfile s hmem

/-- The sections over a file can be made exactly when the distances of all strides fit a word; the
program halts otherwise. Where they are made, the rules accept a configuration exactly when the
matrices have a scenario for all that it lists, and none with an empty unit. Then they list all of it
in its order, and every scenario has a number of units. -/
theorem validate_agrees (c : Config) (length : UInt64) :
    ((∃ m, c.file.matrix length = .ok m) ↔
      ∀ k ∈ c.file.strides, k.toNat * c.file.blockSize.toNat < 2 ^ 64) ∧
    ((¬ ∃ m, c.file.matrix length = .ok m) →
      c.file.matrix length = .error .distanceOverflow) ∧
    ∀ m, c.file.matrix length = .ok m →
      (c.validate = .ok () ↔
        1 ≤ c.iterations ∧ (∃ k, c.memory.pageSize.toNat = 2 ^ k) ∧ 0 < c.file.blockSize ∧
          c.memory.matrix.scenarioCount =
            2 * c.memory.sizes.length + c.memory.strides.length + 2 ∧
          m.scenarioCount = 5 + c.file.strides.length + c.file.blockSizes.length ∧
          ∀ s ∈ c.scenarios m, 0 < s.unit) ∧
      (c.validate = .ok () →
        c.memory.IsListedBy c.memory.matrix ∧ c.file.IsListedBy length m ∧
          ∀ s ∈ c.scenarios m, ∃ n, s.units = .ok n) := by
  refine ⟨FileConfig.exists_matrix_iff, ?_, ?_⟩
  · intro hnone
    rw [FileConfig.matrix_eq, if_neg (mt FileConfig.exists_matrix_iff.mpr hnone)]
  intro m hm
  rw [MemoryConfig.scenarioCount_eq_iff, FileConfig.scenarioCount_eq_iff hm, one_le_iff_ne_zero,
    UInt64.pos_iff_ne_zero]
  refine ⟨⟨?_, ?_⟩, ?_⟩
  · intro h
    obtain ⟨hiterations, hpage, hmemory, hblock, hblocks, hfile⟩ := validate_eq_ok_iff.mp h
    refine ⟨hiterations, hpage, hblock, hmemory, ⟨hfile, hblocks⟩, ?_⟩
    intro s hs
    exact UInt64.pos_iff_ne_zero.mpr (unit_ne_zero h hm s hs)
  · rintro ⟨hiterations, hpage, hblock, hmemory, ⟨hfile, hblocks⟩, -⟩
    exact validate_eq_ok_iff.mpr ⟨hiterations, hpage, hmemory, hblock, hblocks, hfile⟩
  · intro h
    obtain ⟨-, -, hmemory, -, hblocks, hfile⟩ := validate_eq_ok_iff.mp h
    refine ⟨MemoryConfig.isListedBy_matrix hmemory,
      FileConfig.isListedBy_matrix hfile hblocks hm, ?_⟩
    intro s hs
    exact ⟨_, Scenario.units_of_unit_ne_zero (unit_ne_zero h hm s hs)⟩

/-- Sizes may be zero, and what is listed twice has two scenarios. -/
theorem validate_agrees_repeated :
    let c : Config := {
      memory := { sizes := [0, 4096, 4096], strides := [3, 3] }
      file := { strides := [2, 2], blockSizes := [512, 512] } }
    c.validate = .ok () ∧ c.memory.matrix.scenarioCount = 10 ∧
      ∃ m, c.file.matrix 0 = .ok m ∧ m.scenarioCount = 9 ∧
        c.memory.IsListedBy c.memory.matrix ∧ ∀ s ∈ c.scenarios m, ∃ n, s.units = .ok n := by
  intro c
  have hvalid : c.validate = .ok () := validate_eq_ok_iff_faults.mpr (by decide)
  obtain ⟨hmade, -, hagrees⟩ := validate_agrees c 0
  have hfit : ∀ k ∈ c.file.strides, k.toNat * c.file.blockSize.toNat < 2 ^ 64 :=
    List.forall_mem_cons.mpr ⟨by decide, List.forall_mem_singleton.mpr (by decide)⟩
  obtain ⟨m, hm⟩ := hmade.mpr hfit
  obtain ⟨hrules, haccepted⟩ := hagrees m hm
  obtain ⟨-, -, -, hmemory, hfile, -⟩ := hrules.mp hvalid
  obtain ⟨hlisted, -, hunits⟩ := haccepted hvalid
  exact ⟨hvalid, hmemory, m, hm, hfile, hlisted, hunits⟩

/-- The distance of the stride is 2⁶⁴. The rules accept it, and there are no sections. -/
theorem validate_accepts_far :
    let c : Config := { file := { strides := [0x10000000000000] } }
    c.validate = .ok () ∧ ∀ length, c.file.matrix length = .error .distanceOverflow := by
  intro c
  refine ⟨validate_eq_ok_iff_faults.mpr (by decide), fun length => ?_⟩
  rw [FileConfig.matrix_eq, if_neg (by decide)]

end Config

end AccessBench
