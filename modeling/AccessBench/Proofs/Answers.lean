import Mathlib.Data.List.Forall2

/-!
Answers that depend on others, and lists whose items are each made by a function that may have no
answer.
-/

namespace AccessBench

theorem bind_eq_ok_iff {ε α β : Type} {answer : Except ε α} {next : α → Except ε β} {b : β} :
    (answer >>= next) = .ok b ↔ ∃ a, answer = .ok a ∧ next a = .ok b := by
  cases answer with
  | error e => exact iff_of_false nofun (by rintro ⟨_, h, -⟩; cases h)
  | ok a =>
    constructor
    · intro h
      exact ⟨a, rfl, h⟩
    · rintro ⟨_, h, hnext⟩
      cases h
      exact hnext

section

variable {ε α β : Type} {as : List α}

/-- Where each item is made under a condition, all of them are made under all the conditions. -/
theorem mapM_guarded (p : α → Prop) [DecidablePred p] (g : α → β) (e : ε) :
    as.mapM (fun a => if p a then Except.ok (g a) else .error e) =
      if ∀ a ∈ as, p a then .ok (as.map g) else .error e := by
  induction as with
  | nil => rw [if_pos (by simp)]; rfl
  | cons a as ih =>
    rw [List.mapM_cons, ih]
    by_cases ha : p a
    · by_cases hrest : ∀ a ∈ as, p a
      · rw [if_pos ha, if_pos hrest, if_pos (List.forall_mem_cons.mpr ⟨ha, hrest⟩)]
        rfl
      · rw [if_pos ha, if_neg hrest, if_neg fun h => hrest (List.forall_mem_cons.mp h).2]
        rfl
    · rw [if_neg ha, if_neg fun h => ha (List.forall_mem_cons.mp h).1]
      rfl

end

variable {α β : Type} {f : α → Option β} {as : List α}

theorem mapM_option_isSome :
    (as.mapM f).isSome = true ↔ ∀ a ∈ as, (f a).isSome = true := by
  induction as with
  | nil => simp
  | cons a as ih =>
    rw [List.mapM_cons, List.forall_mem_cons, ← ih]
    cases f a with
    | none => simp
    | some b => cases as.mapM f <;> simp

theorem forall₂_of_mapM_option {bs : List β} (h : as.mapM f = some bs) :
    List.Forall₂ (fun a b => f a = some b) as bs := by
  induction as generalizing bs with
  | nil =>
    obtain rfl : bs = [] := by simpa using h.symm
    exact .nil
  | cons a as ih =>
    simp only [List.mapM_cons, Option.bind_eq_bind, Option.bind_eq_some_iff] at h
    obtain ⟨b, hb, bs, hbs, heq⟩ := h
    cases heq
    exact .cons hb (ih hbs)

theorem mapM_option_of_forall {g : α → β} (h : ∀ a ∈ as, f a = some (g a)) :
    as.mapM f = some (as.map g) := by
  induction as with
  | nil => rfl
  | cons a as ih =>
    rw [List.forall_mem_cons] at h
    simp [h.1, ih h.2]

/-- What is known of every answer is known of all of them. -/
theorem map_of_mapM_option {γ : Type} {bs : List β} {part : β → γ} {told : α → γ}
    (h : as.mapM f = some bs) (hpart : ∀ a b, f a = some b → part b = told a) :
    bs.map part = as.map told := by
  have hanswers := forall₂_of_mapM_option h
  rw [← List.forall₂_eq_eq_eq, List.forall₂_map_left_iff, List.forall₂_map_right_iff]
  exact hanswers.flip.imp fun b a hb => hpart a b hb

end AccessBench
