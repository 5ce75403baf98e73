import AccessBench.Proofs.Pattern.Fit
import Mathlib.Data.List.DropRight

/-!
Patterns that are requested one after the other, with one permutation kept on the way. What is kept
follows from the requests that were granted: it is the permutation for the first of the latest ones
of one length, whatever was refused or needed no permutation in between.
-/

namespace AccessBench

/-- A request for a pattern. Room for an index buffer can be there at one request and not at
another. -/
structure PatternRequest where
  kind : PatternKind
  units : Nat
  seed : UInt64
  canIndex : Nat → Bool

namespace PatternRequest

/-- The answer to a request, and what is kept after it. -/
def answer (q : PatternRequest) (kept : PermutationCache) :
    Except BenchError AccessPattern × PermutationCache :=
  q.kind.materialize q.canIndex q.units q.seed kept

/-- A random pattern is requested, and there is one. -/
def IsGranted (q : PatternRequest) (kept : PermutationCache) : Prop :=
  q.kind = .random ∧ (q.answer kept).1.isOk = true

instance (q : PatternRequest) (kept : PermutationCache) : Decidable (q.IsGranted kept) :=
  inferInstanceAs (Decidable (_ ∧ _))

/-- The latest requests, as far back as they are for so many units. -/
def latestFor (units : Nat) (granted : List PatternRequest) : List PatternRequest :=
  granted.rtakeWhile (·.units = units)

/-- What the requests that were granted leave. -/
def keptBy (granted : List PatternRequest) : PermutationCache :=
  granted.getLast?.bind fun last =>
    (latestFor last.units granted).head?.map fun first => permutation last.units first.seed

end PatternRequest

/-- The requests for random patterns that were granted so far, and the permutation that is kept. -/
structure PatternHistory where
  granted : List PatternRequest := []
  kept : PermutationCache := none

namespace PatternHistory

def request (past : PatternHistory) (q : PatternRequest) : PatternHistory where
  granted := if q.IsGranted past.kept then past.granted ++ [q] else past.granted
  kept := (q.answer past.kept).2

/-- The history of some requests, with nothing kept before them. -/
def ofRequests (requests : List PatternRequest) : PatternHistory := requests.foldl request {}

end PatternHistory

namespace PatternRequest

variable {granted : List PatternRequest} {q : PatternRequest} {units : Nat}

theorem latestFor_append_singleton :
    latestFor units (granted ++ [q]) =
      if q.units = units then latestFor units granted ++ [q] else [] := by
  simp only [latestFor, List.rtakeWhile_concat, decide_eq_true_eq]

theorem head?_latestFor_append_singleton :
    (latestFor q.units (granted ++ [q])).head? =
      some ((latestFor q.units granted).head?.getD q) := by
  rw [latestFor_append_singleton, if_pos rfl, List.head?_append]
  cases (latestFor q.units granted).head? <;> rfl

theorem keptBy_append_singleton :
    keptBy (granted ++ [q]) =
      some (permutation q.units ((latestFor q.units granted).head?.getD q).seed) := by
  rw [keptBy, List.getLast?_concat, Option.bind_some, head?_latestFor_append_singleton,
    Option.map_some]

/-- A permutation of one length is kept just when the last request that was granted is for that
length. -/
theorem filter_keptBy :
    (keptBy granted).filter (·.size = units) =
      (latestFor units granted).head?.map fun first => permutation units first.seed := by
  obtain rfl | ⟨earlier, last, rfl⟩ := granted.eq_nil_or_concat'
  · rfl
  · rw [keptBy_append_singleton, Option.filter_some, size_permutation]
    by_cases hunits : last.units = units
    · subst hunits
      rw [head?_latestFor_append_singleton, decide_eq_true rfl, if_pos rfl, Option.map_some]
    · rw [latestFor_append_singleton, if_neg hunits, decide_eq_false hunits]
      rfl

theorem head?_latestFor_of_not_kept
    (h : ∀ indices, keptBy granted = some indices → indices.size ≠ units) :
    (latestFor units granted).head? = none := by
  rw [← Option.map_eq_none_iff, ← filter_keptBy, Option.filter_eq_none_iff]
  simpa using h

/-- A request that is granted gets the permutation for the first of the latest requests of its length,
and that is kept. -/
theorem answer_of_isGranted (h : q.IsGranted (keptBy granted)) :
    q.answer (keptBy granted) =
      (.ok (.random (permutation q.units ((latestFor q.units granted).head?.getD q).seed)),
        keptBy (granted ++ [q])) := by
  obtain ⟨hkind, hok⟩ := h
  rw [answer, hkind] at hok ⊢
  rw [keptBy_append_singleton]
  obtain ⟨indices, hkept, hsize, hmade⟩ | ⟨hother, hmade⟩ :=
    PatternKind.materialize_random_cases q.canIndex q.units q.seed (keptBy granted)
  · have hfirst : (keptBy granted).filter (·.size = q.units) = some indices :=
      Option.filter_eq_some_iff.mpr ⟨hkept, decide_eq_true hsize⟩
    rw [filter_keptBy, Option.map_eq_some_iff] at hfirst
    obtain ⟨first, hlatest, rfl⟩ := hfirst
    rw [hmade, hkept, hlatest, Option.getD_some]
  · rw [head?_latestFor_of_not_kept hother, Option.getD_none]
    rw [hmade] at hok ⊢
    by_cases hroom : q.canIndex q.units = true
    · rw [if_pos hroom]
    · rw [if_neg hroom] at hok
      cases hok

theorem answer_of_ne_random (hkind : q.kind ≠ .random) :
    ∃ pattern, ∀ kept, q.answer kept = (.ok pattern, kept) := by
  obtain ⟨kind, units, seed, canIndex⟩ := q
  cases kind with
  | random => exact absurd rfl hkind
  | sequential | stride | reverse | hotCache => exact ⟨_, fun kept => rfl⟩

theorem kept_of_not_isGranted {kept : PermutationCache} (h : ¬ q.IsGranted kept) :
    (q.answer kept).2 = kept := by
  by_cases hkind : q.kind = .random
  · rw [IsGranted, answer, hkind] at h
    rw [answer, hkind]
    obtain ⟨indices, -, -, hmade⟩ | ⟨-, hmade⟩ :=
      PatternKind.materialize_random_cases q.canIndex q.units q.seed kept
    · rw [hmade]
    · rw [hmade] at h ⊢
      by_cases hroom : q.canIndex q.units = true
      · rw [if_pos hroom] at h
        exact absurd ⟨rfl, rfl⟩ h
      · rw [if_neg hroom]
  · obtain ⟨pattern, hanswer⟩ := answer_of_ne_random hkind
    rw [hanswer]

theorem answer_eq_error_iff {kept : PermutationCache} {e : BenchError} :
    (q.answer kept).1 = .error e ↔
      q.kind = .random ∧ (∀ indices, kept = some indices → indices.size ≠ q.units) ∧
        q.canIndex q.units = false ∧ e = .indexBuffer q.units := by
  by_cases hkind : q.kind = .random
  · rw [answer, hkind]
    obtain ⟨indices, rfl, hsize, hmade⟩ | ⟨hother, hmade⟩ :=
      PatternKind.materialize_random_cases q.canIndex q.units q.seed kept
    · rw [hmade]
      simp [hsize]
    · rw [hmade, and_iff_right rfl, and_iff_right hother]
      cases q.canIndex q.units <;> simp [eq_comm]
  · obtain ⟨pattern, hanswer⟩ := answer_of_ne_random hkind
    simp [hanswer, hkind]

end PatternRequest

namespace PatternHistory

theorem kept_request {past : PatternHistory} (h : past.kept = PatternRequest.keptBy past.granted)
    (q : PatternRequest) :
    (past.request q).kept = PatternRequest.keptBy (past.request q).granted := by
  rw [request, h]
  by_cases hgranted : q.IsGranted (PatternRequest.keptBy past.granted)
  · rw [if_pos hgranted, PatternRequest.answer_of_isGranted hgranted]
  · rw [if_neg hgranted, PatternRequest.kept_of_not_isGranted hgranted]

theorem ofRequests_append_singleton (requests : List PatternRequest) (q : PatternRequest) :
    ofRequests (requests ++ [q]) = (ofRequests requests).request q := by
  rw [ofRequests, List.foldl_append]
  rfl

theorem kept_ofRequests (requests : List PatternRequest) :
    (ofRequests requests).kept = PatternRequest.keptBy (ofRequests requests).granted := by
  induction requests using List.reverseRecOn with
  | nil => rfl
  | append_singleton earlier q ih =>
    rw [ofRequests_append_singleton]
    exact kept_request ih q

theorem granted_ofRequests_subset (requests : List PatternRequest) :
    (ofRequests requests).granted ⊆ requests := by
  induction requests using List.reverseRecOn with
  | nil => exact List.Subset.refl _
  | append_singleton earlier q ih =>
    have hearlier : (ofRequests earlier).granted ⊆ earlier ++ [q] := fun r hr =>
      List.mem_append_left _ (ih hr)
    rw [ofRequests_append_singleton, request]
    dsimp only
    split
    · exact List.append_subset.mpr ⟨hearlier, List.subset_append_right _ _⟩
    · exact hearlier

/-- With one seed throughout, the first of the latest requests has that seed. -/
theorem seed_of_head?_latestFor {requests : List PatternRequest} {q first : PatternRequest}
    {units : Nat} (hseed : ∀ r ∈ requests, r.seed = q.seed)
    (hfirst : (PatternRequest.latestFor units ((ofRequests requests).granted ++ [q])).head? =
      some first) :
    first.seed = q.seed := by
  have hsuffix := List.rtakeWhile_suffix (·.units = units) ((ofRequests requests).granted ++ [q])
  have hmem := hsuffix.subset (List.mem_of_head? hfirst)
  obtain hgranted | hlast := List.mem_append.mp hmem
  · exact hseed first (granted_ofRequests_subset requests hgranted)
  · rw [List.mem_singleton.mp hlast]

end PatternHistory

/-- The request that a section makes for a scenario. -/
def Scenario.request (canIndex : Nat → Bool) (seed : UInt64) (s : Scenario) : PatternRequest where
  kind := s.kind
  units := unitsToCover s.size.toNat s.unit.toNat
  seed := seed
  canIndex := canIndex

theorem PermutationCache.leftBy_eq_kept (canIndex : Nat → Bool) (seed : UInt64)
    (scenarios : List Scenario) :
    leftBy canIndex seed scenarios =
      (PatternHistory.ofRequests (scenarios.map (·.request canIndex seed))).kept := by
  induction scenarios using List.reverseRecOn with
  | nil => rfl
  | append_singleton earlier s ih =>
    rw [List.map_append, List.map_singleton, PatternHistory.ofRequests_append_singleton,
      PatternHistory.request, ← ih, leftBy, List.foldl_append]
    rfl

/-- After any requests, one that is not granted leaves what is kept as it was. One that is granted
gets the permutation of its length whose seed is that of the first among the latest requests of its
length, itself included; with one seed throughout, as in a section, that is what it would get with
nothing kept. A request fails only when no permutation of its length is kept and there is no room for
one. -/
theorem PatternRequest.answer_after_requests (earlier : List PatternRequest) (q : PatternRequest) :
    let past := PatternHistory.ofRequests earlier
    (¬ q.IsGranted past.kept → (q.answer past.kept).2 = past.kept) ∧
      (q.IsGranted past.kept → ∃ first,
        (latestFor q.units (past.granted ++ [q])).head? = some first ∧
          (permutation q.units first.seed).size = q.units ∧
          q.answer past.kept =
            (.ok (.random (permutation q.units first.seed)),
              some (permutation q.units first.seed)) ∧
          ((∀ r ∈ earlier, r.seed = q.seed) → first.seed = q.seed ∧
            (q.answer past.kept).1 = ({ q with canIndex := fun _ => true }.answer none).1)) ∧
      (∀ e, (q.answer past.kept).1 = .error e ↔
        q.kind = .random ∧ (∀ indices, past.kept = some indices → indices.size ≠ q.units) ∧
          q.canIndex q.units = false ∧ e = .indexBuffer q.units) ∧
      ∀ canIndex seed scenarios, PermutationCache.leftBy canIndex seed scenarios =
        (PatternHistory.ofRequests (scenarios.map (·.request canIndex seed))).kept := by
  intro past
  have hkept : past.kept = keptBy past.granted := PatternHistory.kept_ofRequests earlier
  rw [hkept]
  refine ⟨kept_of_not_isGranted, ?_, fun e => answer_eq_error_iff,
    PermutationCache.leftBy_eq_kept⟩
  intro hgranted
  have hfirst : (latestFor q.units (past.granted ++ [q])).head? = _ :=
    head?_latestFor_append_singleton
  refine ⟨_, hfirst, size_permutation _ _, ?_, ?_⟩
  · rw [answer_of_isGranted hgranted, keptBy_append_singleton]
  · intro hseed
    have hsame := PatternHistory.seed_of_head?_latestFor hseed hfirst
    refine ⟨hsame, ?_⟩
    rw [answer_of_isGranted hgranted, hsame, answer, hgranted.1]
    rfl

end AccessBench
