import AccessBench.Action

/-!
How actions are performed step by step, and what actions that never halt end with.
-/

namespace AccessBench.Action

variable {σ α β : Type}

section

variable {ε ε' : Type} (f : ε → ε')

@[simp] theorem mapError_ok (a : α) : (.ok a : Except ε α).mapError f = .ok a := rfl

@[simp] theorem mapError_error (e : ε) : (.error e : Except ε α).mapError f = .error (f e) := rfl

end

@[simp] theorem perform_pure (a : α) (s : σ) : perform (pure a : Action σ α) s = (.ok a, s) := rfl

/-- A stop of the first action skips the second one. -/
theorem perform_bind (action : Action σ α) (next : α → Action σ β) (s : σ) :
    perform (action >>= next) s =
      match perform action s with
      | (.ok a, s) => perform (next a) s
      | (.error stop, s) => (.error stop, s) := by
  simp only [perform, ExceptT.run_bind, StateT.run_bind]
  cases StateT.run (ExceptT.run action) s with
  | mk answer s => cases answer <;> rfl

theorem fst_perform_bind (action : Action σ α) (next : α → Action σ β) (s : σ) :
    (perform (action >>= next) s).1 =
      match (perform action s).1 with
      | .ok a => (perform (next a) (perform action s).2).1
      | .error stop => .error stop := by
  rw [perform_bind]
  match perform action s with
  | (.ok a, t) => rfl
  | (.error stop, t) => rfl

@[simp] theorem perform_ofAnswer (answer : Except Stop α) (s : σ) :
    perform (ofAnswer answer) s = (answer, s) := rfl

@[simp] theorem perform_ofHalting (answer : Except Halt α) (s : σ) :
    perform (ofHalting answer) s = (answer.mapError .halted, s) := rfl

@[simp] theorem perform_ofResult (answer : Except BenchError α) (s : σ) :
    perform (ofResult answer) s = (answer.mapError .failed, s) := rfl

@[simp] theorem perform_ofStep (step : σ → Except BenchError α × σ) (s : σ) :
    perform (ofStep step) s = ((step s).1.mapError .failed, (step s).2) := rfl

@[simp] theorem perform_update (f : σ → α × σ) (s : σ) :
    perform (update f) s = (.ok (f s).1, (f s).2) := rfl

@[simp] theorem perform_finally (action : Action σ α) (cleanup : σ → σ) (s : σ) :
    perform (action.finally cleanup) s = ((perform action s).1, cleanup (perform action s).2) := rfl

theorem perform_unwinding (action : Action σ α) (cleanup : σ → σ) (s : σ) :
    perform (action.unwinding cleanup) s =
      match perform action s with
      | (.ok a, s) => (.ok a, cleanup s)
      | (.error stop, s) => (.error stop, if stop.aborts then s else cleanup s) := rfl

@[simp] theorem fst_perform_unwinding (action : Action σ α) (cleanup : σ → σ) (s : σ) :
    (perform (action.unwinding cleanup) s).1 = (perform action s).1 := by
  rw [perform_unwinding]
  match perform action s with
  | (.ok _, _) | (.error _, _) => rfl

/-- From every state the action ends with an error or with a value that has a property. It never
halts. -/
def Yields (post : α → Prop) (action : Action σ α) : Prop :=
  ∀ s, (∃ e, (perform action s).1 = .error (.failed e)) ∨ ∃ a, (perform action s).1 = .ok a ∧ post a

namespace Yields

variable {post : α → Prop}

theorem pure {a : α} (h : post a) : Yields post (Pure.pure a : Action σ α) :=
  fun _ => .inr ⟨a, rfl, h⟩

theorem update {f : σ → α × σ} (h : ∀ s, post (f s).1) : Yields post (update f) :=
  fun s => .inr ⟨_, rfl, h s⟩

theorem ofStep {step : σ → Except BenchError α × σ} (h : ∀ s a, (step s).1 = .ok a → post a) :
    Yields post (ofStep step) := by
  intro s
  rw [perform_ofStep]
  cases hstep : (step s).1 with
  | error e => exact .inl ⟨e, rfl⟩
  | ok a => exact .inr ⟨a, rfl, h s a hstep⟩

theorem bind {action : Action σ α} {next : α → Action σ β} {post' : β → Prop}
    (ha : Yields post action) (hnext : ∀ a, post a → Yields post' (next a)) :
    Yields post' (action >>= next) := by
  intro s
  rw [perform_bind]
  match perform action s, ha s with
  | (.ok a, t), h =>
    obtain ⟨e, he⟩ | ⟨a', heq, hpost⟩ := h
    · cases he
    · obtain rfl : a = a' := by simpa using heq
      exact hnext a hpost t
  | (.error stop, t), h =>
    obtain ⟨e, he⟩ | ⟨a', heq, -⟩ := h
    · obtain rfl : stop = .failed e := by simpa using he
      exact .inl ⟨e, rfl⟩
    · cases heq

end Yields

/-- From every state with a property the action reaches one with it, or stops for a reason that is
allowed. -/
def Keeps (inv : σ → Prop) (allowed : Stop → Prop) (action : Action σ α) : Prop :=
  ∀ s, inv s →
    match perform action s with
    | (.ok _, t) => inv t
    | (.error stop, _) => allowed stop

namespace Keeps

variable {inv : σ → Prop} {allowed : Stop → Prop}

theorem pure (a : α) : Keeps inv allowed (Pure.pure a : Action σ α) := fun _ hs => hs

theorem update {f : σ → α × σ} (h : ∀ s, inv s → inv (f s).2) :
    Keeps inv allowed (update f) := h

theorem bind {action : Action σ α} {next : α → Action σ β} (ha : Keeps inv allowed action)
    (hnext : ∀ a, Keeps inv allowed (next a)) : Keeps inv allowed (action >>= next) := by
  intro s hs
  have h := ha s hs
  rw [perform_bind]
  match perform action s, h with
  | (.ok a, t), h => exact hnext a t h
  | (.error stop, t), h => exact h

end Keeps

/-- From every state with a property the action reaches one with another property, however it
ends. -/
def Reaches (pre post : σ → Prop) (action : Action σ α) : Prop :=
  ∀ s, pre s → post (perform action s).2

theorem Reaches.bind {pre mid post : σ → Prop} {action : Action σ α} {next : α → Action σ β}
    (ha : Reaches pre mid action) (hstop : ∀ s, mid s → post s)
    (hnext : ∀ a, Reaches mid post (next a)) : Reaches pre post (action >>= next) := by
  intro s hs
  have h := ha s hs
  rw [perform_bind]
  match perform action s, h with
  | (.ok a, t), h => exact hnext a t h
  | (.error stop, t), h => exact hstop t h

def Preserves (inv : σ → Prop) (action : Action σ α) : Prop := Reaches inv inv action

namespace Preserves

variable {inv : σ → Prop}

theorem pure (a : α) : Preserves inv (Pure.pure a : Action σ α) := fun _ hs => hs

theorem ofAnswer (answer : Except Stop α) : Preserves inv (ofAnswer answer) := fun _ hs => hs

theorem update {f : σ → α × σ} (h : ∀ s, inv s → inv (f s).2) : Preserves inv (update f) := h

theorem bind {action : Action σ α} {next : α → Action σ β} (ha : Preserves inv action)
    (hnext : ∀ a, Preserves inv (next a)) : Preserves inv (action >>= next) :=
  Reaches.bind ha (fun _ hs => hs) hnext

theorem cleanUp {action : Action σ α} {cleanup : σ → σ} (h : Preserves inv action)
    (hcleanup : ∀ s, inv s → inv (cleanup s)) : Preserves inv (action.finally cleanup) :=
  fun s hs => hcleanup _ (h s hs)

theorem unwinding {action : Action σ α} {cleanup : σ → σ} (h : Preserves inv action)
    (hcleanup : ∀ s, inv s → inv (cleanup s)) : Preserves inv (action.unwinding cleanup) := by
  intro s hs
  have hend := h s hs
  rw [perform_unwinding]
  match perform action s, hend with
  | (.ok _, t), hend => exact hcleanup t hend
  | (.error stop, t), hend =>
    dsimp only
    split
    · exact hend
    · exact hcleanup t hend

end Preserves

/-- From every state with a property the action goes on with one property of the state, or stops
with another, which may depend on whether the program ends on the spot. -/
def Leads (pre mid : σ → Prop) (post : Bool → σ → Prop) (action : Action σ α) : Prop :=
  ∀ s, pre s →
    match perform action s with
    | (.ok _, t) => mid t
    | (.error stop, t) => post stop.aborts t

namespace Leads

variable {pre mid last : σ → Prop} {post : Bool → σ → Prop}

theorem bind {action : Action σ α} {next : α → Action σ β} (ha : Leads pre mid post action)
    (hnext : ∀ a, Leads mid last post (next a)) : Leads pre last post (action >>= next) := by
  intro s hs
  have h := ha s hs
  rw [perform_bind]
  match perform action s, h with
  | (.ok a, t), h => exact hnext a t h
  | (.error stop, t), h => exact h

/-- A property that is reached however the action ends. -/
theorem of_reaches {action : Action σ α} (h : Reaches pre mid action)
    (hstop : ∀ aborts s, mid s → post aborts s) : Leads pre mid post action := by
  intro s hs
  have hmid := h s hs
  match perform action s, hmid with
  | (.ok _, _), hmid => exact hmid
  | (.error stop, t), hmid => exact hstop stop.aborts t hmid

/-- The change of the state is skipped only when the program ends on the spot. -/
theorem unwinding {action : Action σ α} {cleanup : σ → σ} (h : Reaches pre mid action)
    (hcleaned : ∀ s, mid s → last (cleanup s)) (hstopped : ∀ s, mid s → post false (cleanup s))
    (hleft : ∀ s, mid s → post true s) : Leads pre last post (action.unwinding cleanup) := by
  intro s hs
  have hmid := h s hs
  rw [perform_unwinding]
  match perform action s, hmid with
  | (.ok _, t), hmid => exact hcleaned t hmid
  | (.error stop, t), hmid =>
    cases haborts : stop.aborts with
    | true =>
      simp only [haborts, if_true]
      exact hleft t hmid
    | false =>
      simp only [haborts, Bool.false_eq_true, if_false]
      exact hstopped t hmid

end Leads

/-- The second action does to the images of states what the first does to the states, and ends in
the same way. -/
def Projects {σ' : Type} (view : σ → σ') (action : Action σ α) (image : Action σ' α) : Prop :=
  ∀ s, perform image (view s) = ((perform action s).1, view (perform action s).2)

namespace Projects

variable {σ' : Type} {view : σ → σ'}

theorem pure (a : α) : Projects view (Pure.pure a : Action σ α) (Pure.pure a) := fun _ => rfl

theorem ofAnswer (answer : Except Stop α) :
    Projects view (ofAnswer answer) (ofAnswer answer) := fun _ => rfl

theorem update {f : σ → α × σ} {g : σ' → α × σ'} (h : ∀ s, g (view s) = ((f s).1, view (f s).2)) :
    Projects view (update f) (update g) := by
  intro s
  rw [perform_update, perform_update, h]

theorem bind {action : Action σ α} {image : Action σ' α} {next : α → Action σ β}
    {next' : α → Action σ' β} (ha : Projects view action image)
    (hnext : ∀ a, Projects view (next a) (next' a)) :
    Projects view (action >>= next) (image >>= next') := by
  intro s
  rw [perform_bind, perform_bind, ha s]
  rcases perform action s with ⟨stop | a, t⟩
  · rfl
  · exact hnext a t

theorem cleanUp {action : Action σ α} {image : Action σ' α} {cleanup : σ → σ} {cleanup' : σ' → σ'}
    (h : Projects view action image) (hcleanup : ∀ s, cleanup' (view s) = view (cleanup s)) :
    Projects view (action.finally cleanup) (image.finally cleanup') := by
  intro s
  rw [perform_finally, perform_finally, h s, hcleanup]

theorem unwinding {action : Action σ α} {image : Action σ' α} {cleanup : σ → σ}
    {cleanup' : σ' → σ'} (h : Projects view action image)
    (hcleanup : ∀ s, cleanup' (view s) = view (cleanup s)) :
    Projects view (action.unwinding cleanup) (image.unwinding cleanup') := by
  intro s
  rw [perform_unwinding, perform_unwinding, h s]
  rcases perform action s with ⟨stop | a, t⟩
  · dsimp only
    split
    · rfl
    · rw [hcleanup]
  · exact congrArg _ (hcleanup t)

end Projects

end AccessBench.Action
