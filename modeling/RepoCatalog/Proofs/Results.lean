/-!
# Results that may be failures

What is read or computed in steps, of which each may fail, is good if all of its steps are.
-/
namespace RepoCatalog.Except

variable {ε δ α β : Type}

theorem bind_ok_iff {x : Except ε α} {f : α → Except ε β} {b : β} :
    x >>= f = .ok b ↔ ∃ a, x = .ok a ∧ f a = .ok b := by
  cases x with
  | error e =>
      constructor
      · intro h
        cases h
      · rintro ⟨a, h, -⟩
        cases h
  | ok a =>
      constructor
      · intro h
        exact ⟨a, rfl, h⟩
      · rintro ⟨a', h, hf⟩
        cases h
        exact hf

theorem mapError_ok_iff {x : Except ε α} {f : ε → δ} {a : α} :
    x.mapError f = .ok a ↔ x = .ok a := by
  cases x with
  | error e =>
      constructor <;>
      · intro h
        cases h
  | ok a' =>
      constructor <;>
      · intro h
        cases h
        rfl

end RepoCatalog.Except
