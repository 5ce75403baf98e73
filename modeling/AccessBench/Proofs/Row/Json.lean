import AccessBench.Proofs.Duration
import AccessBench.Proofs.Json.Record
import AccessBench.Proofs.Json.Value
import AccessBench.Row.Json

/-!
What is read back of a row: everything but its duration, which is cut to whole microseconds, and its
rates, which are what their texts are read as.
-/

namespace AccessBench

namespace Duration

/-- The span in whole microseconds, at most as many as fit a word. -/
def recorded (d : Duration) : Duration :=
  ofMicros (UInt64.ofNat (min (d.toNanos / 1000) (UInt64.size - 1)))

theorem toMicros_eq (d : Duration) : d.toMicros = d.toNanos / 1000 := by
  unfold toMicros toNanos nanosPerSecond
  omega

theorem toNanos_ofMicros (n : UInt64) : (ofMicros n).toNanos = 1000 * n.toNat := by
  have hseconds : (n / 1000000).toNat = n.toNat / 1000000 := UInt64.toNat_div ..
  unfold toNanos ofMicros nanosPerSecond
  dsimp only
  omega

theorem toNanos_recorded (d : Duration) :
    d.recorded.toNanos = 1000 * min (d.toNanos / 1000) (2 ^ 64 - 1) := by
  have hfit : min (d.toNanos / 1000) (UInt64.size - 1) < UInt64.size :=
    Nat.lt_of_le_of_lt (Nat.min_le_right _ _) (by decide)
  rw [recorded, toNanos_ofMicros, UInt64.toNat_ofNat_of_lt' hfit]
  rfl

theorem ofMicros_toMicrosWord (d : Duration) :
    ofMicros (UInt64.ofNat d.toMicrosWord) = d.recorded := by
  rw [toMicrosWord, toMicros_eq, recorded]

/-- A span that has been cut is not cut any more. -/
theorem recorded_recorded (d : Duration) : d.recorded.recorded = d.recorded := by
  rw [← toNanos_inj, toNanos_recorded, toNanos_recorded]
  omega

end Duration

namespace Json

/-- What the text of a number is read as. -/
def reread? (x : Float) : Option Float := (ofText? (float x).toPrettyText).bind float?

theorem text?_text (s : String) : text? (.text s) = some s := rfl

theorem readable_nat (n : Nat) : Readable (.nat n) := .number (Decimal.Numeral.wellFormed_ofNat n)

theorem readable_float (x : Float) : Readable (.float x) := by
  unfold float
  split
  · next hn => exact .number (Decimal.wellFormed_of_numeral? hn)
  · exact .null

theorem float?_float (x : Float) : float? (.float x) = reread? x := by
  rw [reread?, ofText?_toPrettyText (readable_float x), Option.bind_some]

/-- A number that is not finite has no text that is read as a number. -/
theorem reread?_of_not_finite {x : Float} (h : x.isFinite = false) : reread? x = none := by
  have hnone : Decimal.numeral? x = none := by
    rw [← Option.not_isSome_iff_eq_none, Decimal.isSome_numeral?, h]
    exact Bool.false_ne_true
  rw [← float?_float, float, hnone]
  rfl

end Json

namespace Row

def reread? (r : Row) : Option Row := do
  let throughput ← Json.reread? r.throughput
  let perUnit ← Json.reread? r.perUnit
  return { r with duration := r.duration.recorded, throughput := throughput, perUnit := perUnit }

def floats (r : Row) : List Float := [r.throughput, r.perUnit]

/-- The row with its duration cut and its rates read by a function. -/
def recorded (read : Float → Float) (r : Row) : Row :=
  { r with
    duration := r.duration.recorded
    throughput := read r.throughput
    perUnit := read r.perUnit }

theorem reread?_of_read {r : Row} {read : Float → Float}
    (h : ∀ x ∈ r.floats, Json.reread? x = some (read x)) : r.reread? = some (r.recorded read) := by
  simp only [floats, List.forall_mem_cons] at h
  simp [reread?, h.1, h.2.1, recorded]

theorem isSome_reread? {r : Row} :
    r.reread?.isSome = true ↔ ∀ x ∈ r.floats, (Json.reread? x).isSome = true := by
  simp only [floats, List.forall_mem_cons, reread?]
  cases Json.reread? r.throughput <;> cases Json.reread? r.perUnit <;> simp

theorem duration_of_reread? {r r' : Row} (h : r.reread? = some r') :
    r'.duration = r.duration.recorded := by
  simp only [reread?, Option.bind_eq_bind, Option.bind_eq_some_iff] at h
  obtain ⟨_, -, _, -, hrow⟩ := h
  obtain rfl := Option.some.inj hrow
  rfl

theorem readable_toJson (r : Row) : Json.Readable r.toJson := by
  apply Json.Readable.object
  simp only [List.forall_mem_cons]
  exact ⟨.text _, Json.readable_nat _, Json.readable_nat _, .text _, Json.readable_nat _,
    Json.readable_nat _, Json.readable_nat _, Json.readable_float _, Json.readable_float _,
    Json.readable_nat _, .bool _, .bool _, by simp⟩

theorem metric_ofJson?_key (metric : Metric) : Metric.ofJson? (.text metric.key) = some metric := by
  cases metric <;> rfl

theorem word?_toMicrosWord (d : Duration) :
    Json.word? (.nat d.toMicrosWord) = some (UInt64.ofNat d.toMicrosWord) := by
  have hsize : 0 < UInt64.size := by decide
  apply Json.word?_nat
  unfold Duration.toMicrosWord
  omega

theorem ofJson?_toJson (r : Row) : ofJson? r.toJson = r.reread? := by
  have hfields : Json.fields? fieldNames r.toJson = some [
      some (.text r.name), some (.nat r.sizeBytes.toNat), some (.nat r.blockSize.toNat),
      some (.text r.metric.key), some (.nat r.duration.toMicrosWord), some (.nat r.auxCount.toNat),
      some (.nat r.visited.toNat), some (.float r.throughput), some (.float r.perUnit),
      some (.nat r.trials.toNat), some (.bool r.clamped), some (.bool r.failed)] := by
    apply Json.fields?_ofMembers []
    · rfl
    · simp [fieldNames]
  rw [ofJson?, hfields]
  simp [Json.required?_some, metric_ofJson?_key, Json.word?_toNat, word?_toMicrosWord,
    Json.float?_float, Json.text?_text, Json.bool?, Duration.ofMicros_toMicrosWord, reread?]

end Row

end AccessBench
