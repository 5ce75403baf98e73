import AccessBench.Config
import AccessBench.Scenario

/-!
The matrices of the two suites. Sections and scenarios stand in the order of the report; strides and
block sizes of zero have no scenario.
-/

namespace AccessBench

def Stride.ofList (units : List UInt64) : List Stride := units.filterMap Stride.ofUnits?

/-- The scenarios over anonymous memory. -/
def MemoryConfig.matrix (c : MemoryConfig) : Matrix :=
  let sized (name : String) (access : Access) : List Scenario :=
    c.sizes.map fun size => ⟨name, .sequential, access, size, c.pageSize, false⟩
  let writing (name : String) (kind : PatternKind) : Scenario :=
    ⟨name, kind, .write, c.patternSize, c.pageSize, false⟩
  [⟨"[Sequential Write] (Tests basic fault handling)", .memory, sized "seq_write" .write⟩,
    ⟨"[Sequential Read] (Tests read-fault latency)", .memory, sized "seq_read" .read⟩,
    ⟨"[Stride Write] (Tests prefetch distance/aggressiveness)", .memory,
      (Stride.ofList c.strides).map fun s =>
        writing ("stride_" ++ toString s.units ++ "_pg") (.stride s)⟩,
    ⟨"[Reverse Write] (Tests backward fault handling)", .memory,
      [writing "reverse_write" .reverse]⟩,
    ⟨"[Random Access] (Tests worst-case fault latency)", .memory,
      [writing "random_write" .random]⟩]

/-- The bytes from one visited block to the next, which halts when they are not a word. -/
def Stride.distance (s : Stride) (blockSize : UInt64) : Except Halt UInt64 :=
  if s.units.toNat * blockSize.toNat < UInt64.size then .ok (s.units * blockSize)
  else .error .distanceOverflow

namespace FileConfig

variable (c : FileConfig) (length : UInt64)

def reading (name : String) (kind : PatternKind) : Scenario :=
  ⟨name, kind, .read, length, c.blockSize, false⟩

def striding (s : Stride) (distance : UInt64) : Scenario :=
  (c.reading length ("stride_read (stride=" ++ byteLabel distance ++ ")") (.stride s)).cold

/-- The scenarios of the strides, each of which has its distance in the name. -/
def strideScenarios : Except Halt (List Scenario) :=
  (Stride.ofList c.strides).mapM fun s => (s.distance c.blockSize).map (c.striding length s)

/-- The sections around given stride scenarios. -/
def sections (strides : List Scenario) : Matrix :=
  let block := " (" ++ byteLabel c.blockSize ++ " block)"
  [⟨"[Cold vs Hot Cache Sequential Read]" ++ block, .file,
      [(c.reading length "cold_cache_sequential" .sequential).cold,
        c.reading length "hot_cache_read (2nd pass)" .hotCache]⟩,
    ⟨"[Access Pattern Comparison]" ++ block, .file,
      [(c.reading length "sequential" .sequential).cold,
        (c.reading length "random_read" .random).cold,
        (c.reading length "reverse_sequential_read" .reverse).cold]⟩,
    ⟨"[Stride Access Tests]" ++ block, .file, strides⟩,
    ⟨"[Block Size Impact on Sequential Read]", .file,
      (c.blockSizes.filter (· ≠ 0)).map fun size =>
        ⟨"sequential (block=" ++ toString size ++ "B)", .sequential, .read, length, size, true⟩⟩]

/-- The scenarios over a fixture of `length` bytes. There are none when a distance is not a word. -/
def matrix : Except Halt Matrix := (c.strideScenarios length).map (c.sections length)

end FileConfig

end AccessBench
