import AccessBench.Cache
import AccessBench.Proofs.Store

/-!
Dropping pages writes to the knob, or to nothing at all.
-/

namespace AccessBench.CacheControl

theorem drop_cases (c : CacheControl) (fixture : Option String) (s : Store) :
    (c.drop fixture s).2 = s ∨
      ∃ place node, s.find c.knob = .ok (place, .file node) ∧
        (c.drop fixture s).2 = s.setBytes node fun bytes => overwrite bytes 0 "3".toUTF8 := by
  rw [drop]
  by_cases hsupported : c.supported = true
  · rw [if_pos hsupported, turnKnob, Store.openExisting]
    cases hfind : s.find c.knob with
    | error failure => exact .inl rfl
    | ok found =>
      obtain ⟨place, entry⟩ := found
      cases entry with
      | directory => exact .inl rfl
      | file node => exact .inr ⟨place, node, rfl, rfl⟩
  · rw [if_neg hsupported]
    exact .inl rfl

end AccessBench.CacheControl
