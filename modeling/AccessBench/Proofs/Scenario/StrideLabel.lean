import AccessBench.Proofs.Scenario.Matrix
import AccessBench.Proofs.Size.Label
import Mathlib.Data.List.Forall2

/-!
The names of the stride scenarios over a file. The label in a name is exactly the distance between
visited blocks, so that scenarios of different strides have different names. There are names only as
long as all distances fit a word.
-/

namespace AccessBench

variable {k l blockSize : UInt64}

theorem strideDistance_inj (h : blockSize ≠ 0) :
    strideDistance k blockSize = strideDistance l blockSize ↔ k = l := by
  have hne : blockSize.toNat ≠ 0 := mt toNat_eq_zero_iff.mp h
  rw [strideDistance, strideDistance, Nat.mul_left_inj hne, UInt64.toNat_inj]

theorem toNat_distance (h : strideDistance k blockSize < 2 ^ 64) :
    (k * blockSize).toNat = strideDistance k blockSize := by
  rw [UInt64.toNat_mul]
  exact Nat.mod_eq_of_lt h

namespace Scenario

/-- The scenario visits by the stride and is named for the distance. -/
structure IsNamedFor (k blockSize : UInt64) (s : Scenario) : Prop where
  stride : s.kind.stride? = some k
  fits : strideDistance k blockSize < 2 ^ 64
  name : s.name = "stride_read (stride=" ++ byteLabel (k * blockSize) ++ ")"

variable {s t : Scenario}

/-- The label denotes the distance. -/
theorem IsNamedFor.denotes (h : s.IsNamedFor k blockSize) :
    ∃ label, s.name = "stride_read (stride=" ++ label ++ ")" ∧
      labelBytes? label = some (strideDistance k blockSize) :=
  ⟨_, h.name, by rw [labelBytes?_byteLabel, toNat_distance h.fits]⟩

theorem IsNamedFor.name_eq_iff (hs : s.IsNamedFor k blockSize) (ht : t.IsNamedFor l blockSize)
    (hblock : blockSize ≠ 0) : s.name = t.name ↔ k = l := by
  rw [hs.name, ht.name, String.append_left_inj, String.append_right_inj, byteLabel_inj,
    ← UInt64.toNat_inj, toNat_distance hs.fits, toNat_distance ht.fits, strideDistance_inj hblock]

end Scenario

/-- The third section over a file has a scenario for every stride, named for it. -/
theorem FileConfig.exists_strides {c : FileConfig} {length : UInt64} {m : Matrix}
    (h : 0 ∉ c.strides) (hm : c.matrix length = .ok m) :
    ∃ strides : Section, m[2]? = some strides ∧
      strides.scenarios.map (·.kind.stride?) = c.strides.map some ∧
      ∀ s ∈ strides.scenarios, ∀ k, s.kind.stride? = some k → s.IsNamedFor k c.blockSize := by
  obtain ⟨hfit, rfl⟩ := matrix_eq_ok_iff.mp hm
  refine ⟨_, rfl, ?_, ?_⟩
  · rw [← Stride.map_ofList h, strided, List.map_map]
    rfl
  · intro s hs k hk
    obtain ⟨stride, hstride, rfl⟩ := List.mem_map.mp hs
    obtain rfl : stride.units = k := Option.some.inj hk
    exact ⟨rfl, distancesFit_iff.mp hfit stride hstride, rfl⟩

namespace Config

/-- The stride scenarios of an accepted configuration have names exactly when the distances of all
strides fit a word; the program halts otherwise. The label in a name denotes the distance, and two
scenarios have one name exactly when their strides are equal. -/
theorem strideLabels_denote {c : Config} (h : c.validate = .ok ()) (length : UInt64) :
    ((∃ m, c.file.matrix length = .ok m) ↔
      ∀ k ∈ c.file.strides, strideDistance k c.file.blockSize < 2 ^ 64) ∧
    ((¬ ∃ m, c.file.matrix length = .ok m) →
      c.file.matrix length = .error .distanceOverflow) ∧
    ∀ m, c.file.matrix length = .ok m →
      ∃ strides : Section, m[2]? = some strides ∧
        strides.scenarios.map (·.kind.stride?) = c.file.strides.map some ∧
        (∀ s ∈ strides.scenarios, ∀ k, s.kind.stride? = some k →
          ∃ label, s.name = "stride_read (stride=" ++ label ++ ")" ∧
            labelBytes? label = some (k.toNat * c.file.blockSize.toNat)) ∧
        ∀ s ∈ strides.scenarios, ∀ t ∈ strides.scenarios, ∀ k l,
          s.kind.stride? = some k → t.kind.stride? = some l → (s.name = t.name ↔ k = l) := by
  obtain ⟨-, -, -, hblock, -, hstrides⟩ := validate_eq_ok_iff.mp h
  refine ⟨FileConfig.exists_matrix_iff, ?_, ?_⟩
  · intro hnone
    rw [FileConfig.matrix_eq, if_neg (mt FileConfig.exists_matrix_iff.mpr hnone)]
  intro m hm
  obtain ⟨strides, hsection, hlisted, hnamed⟩ := FileConfig.exists_strides hstrides hm
  refine ⟨strides, hsection, hlisted, ?_, ?_⟩
  · intro s hs k hk
    exact (hnamed s hs k hk).denotes
  · intro s hs t ht k l hk hl
    exact (hnamed s hs k hk).name_eq_iff (hnamed t ht l hl) hblock

/-- The second distance is the largest power of two that fits a word. -/
theorem strideLabels_denote_edge :
    let c : Config := { file := { strides := [1, 0x8000000000000] } }
    c.validate = .ok () ∧
      ∃ m, c.file.matrix 16777216 = .ok m ∧ ∃ strides : Section, m[2]? = some strides ∧
        ∃ near edge, strides.scenarios = [near, edge] ∧ edge.name ≠ near.name ∧
          ∃ label, edge.name = "stride_read (stride=" ++ label ++ ")" ∧
            labelBytes? label = some (2 ^ 63) := by
  intro c
  have hvalid : c.validate = .ok () := by decide
  obtain ⟨hmade, -, hlabels⟩ := strideLabels_denote hvalid 16777216
  have hfit : ∀ k ∈ c.file.strides, strideDistance k c.file.blockSize < 2 ^ 64 :=
    List.forall_mem_cons.mpr ⟨by decide, List.forall_mem_singleton.mpr (by decide)⟩
  obtain ⟨m, hm⟩ := hmade.mpr hfit
  obtain ⟨strides, hsection, -, hdenotes, hnames⟩ := hlabels m hm
  obtain rfl := (FileConfig.matrix_eq_ok_iff.mp hm).2
  obtain rfl := Option.some.inj hsection
  refine ⟨hvalid, _, hm, _, rfl, _, _, rfl, ?_, ?_⟩
  · have hstrides : (0x8000000000000 : UInt64) ≠ 1 := by decide
    exact mt (hnames _ (.tail _ (.head _)) _ (.head _) _ _ rfl rfl).mp hstrides
  · exact hdenotes _ (.tail _ (.head _)) 0x8000000000000 rfl

/-- The second distance does not fit a word. The strides are accepted and have no names. -/
theorem strideLabels_far_unnamed :
    let c : Config := { file := { strides := [1, 0x10000000000001], blockSizes := [4096] } }
    c.validate = .ok () ∧ c.file.matrix 16777216 = .error .distanceOverflow ∧
      ¬ ∃ m, c.file.matrix 16777216 = .ok m :=
  ⟨by decide, by decide, by rw [FileConfig.exists_matrix_iff]; decide⟩

end Config

end AccessBench
