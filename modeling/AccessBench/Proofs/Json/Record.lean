import AccessBench.Json.Record
import AccessBench.Proofs.Answers
import Mathlib.Data.List.Nodup

/-!
The fields of an object whose members have distinct names, and lists that are decoded item by item.
-/

namespace AccessBench.Json

variable {members : List (String × Json)} {name : String}

/-- The members of an object as it holds them. -/
def encoded (members : List (String × Json)) : List (Option String × Json) :=
  members.map fun m => (some m.1, m.2)

theorem valuesOf_of_notMem (h : name ∉ members.map Prod.fst) :
    valuesOf name (encoded members) = [] := by
  rw [valuesOf, List.filterMap_eq_nil_iff]
  intro m hm
  obtain ⟨member, hmember, rfl⟩ := List.mem_map.mp hm
  have hne : member.1 ≠ name := by
    rintro rfl
    exact h (List.mem_map_of_mem hmember)
  simp [hne]

theorem valuesOf_of_mem (hdistinct : (members.map Prod.fst).Nodup) {m : String × Json}
    (hm : m ∈ members) : valuesOf m.1 (encoded members) = [m.2] := by
  obtain ⟨before, after, rfl⟩ := List.append_of_mem hm
  have hboth : m.1 ∉ before.map Prod.fst ∧ m.1 ∉ after.map Prod.fst := by
    rw [List.map_append, List.map_cons, List.nodup_middle, List.nodup_cons] at hdistinct
    simpa using hdistinct.1
  have hbefore := valuesOf_of_notMem hboth.1
  have hafter := valuesOf_of_notMem hboth.2
  simp only [valuesOf, encoded] at hbefore hafter ⊢
  simp [hbefore, hafter]

/-- The fields that an object has are found under their names, and the other ones are not there. -/
theorem fields?_ofMembers (absent : List String) {names : List String}
    (hnames : names = members.map Prod.fst ++ absent) (hdistinct : names.Nodup) :
    fields? names (.ofMembers members) =
      some (members.map (fun m => some m.2) ++ List.replicate absent.length none) := by
  subst hnames
  obtain ⟨hpresent, -, hapart⟩ := List.nodup_append.mp hdistinct
  have hfound : ∀ m ∈ members, field? (encoded members) m.1 = some (some m.2) := by
    intro m hm
    rw [field?, valuesOf_of_mem hpresent hm]
  have hmissing : ∀ n ∈ absent, field? (encoded members) n = some none := by
    intro n hn
    have hnone : n ∉ members.map Prod.fst := fun hmem => hapart n hmem n hn rfl
    rw [field?, valuesOf_of_notMem hnone]
  have hall : (encoded members).all (·.1.isSome) = true := by simp [encoded]
  have hmembers : (members.map Prod.fst).mapM (field? (encoded members)) =
      some (members.map fun m => some m.2) := by
    rw [List.mapM_map]
    exact mapM_option_of_forall hfound
  have habsent : absent.mapM (field? (encoded members)) =
      some (List.replicate absent.length none) := by
    rw [← List.map_const', mapM_option_of_forall hmissing]
  have hobject : ofMembers members = .object (encoded members) := rfl
  rw [hobject, fields?, if_pos hall, List.mapM_append, hmembers, habsent]
  rfl

theorem required?_some {α : Type} (decode : Json → Option α) (value : Json) :
    required? decode (some value) = decode value := by
  rw [required?, Option.bind_some]

theorem list?_map {α β : Type} {encode : α → Json} {decode : Json → Option β} {answer? : α → Option β}
    (h : ∀ a, decode (encode a) = answer? a) (as : List α) :
    list? decode (.array (as.map encode)) = as.mapM answer? := by
  rw [list?, List.mapM_map]
  exact congrArg (fun f => as.mapM f) (funext h)

theorem list?_map_some {α : Type} {encode : α → Json} {decode : Json → Option α}
    (h : ∀ a, decode (encode a) = some a) (as : List α) :
    list? decode (.array (as.map encode)) = some as := by
  have hsome : as.mapM some = some (as.map id) := mapM_option_of_forall fun _ _ => rfl
  rw [list?_map h, hsome, List.map_id]

end AccessBench.Json
