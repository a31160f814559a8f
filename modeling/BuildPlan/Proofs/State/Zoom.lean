import BuildPlan.Proofs.State.Keeps
import BuildPlan.Proofs.State.Result

/-!
# Operations on a part of a state

An operation on a part of a state is an operation on the whole: `zoom` says how, and the lemmas say how it ends.
`mapError` renames the errors of an operation.
-/

namespace BuildPlan

variable {ε σ ρ α : Type} {part : σ → ρ} {put : σ → ρ → σ}

/-- An operation on a part of the state. -/
def zoom (part : σ → ρ) (put : σ → ρ → σ) (operation : EStateM ε ρ α) : EStateM ε σ α := fun s =>
  match operation (part s) with
  | .ok a r => .ok a (put s r)
  | .error e r => .error e (put s r)

theorem zoom_eq_ok_iff {operation : EStateM ε ρ α} {s s' : σ} {a : α} :
    zoom part put operation s = .ok a s' ↔ ∃ r, operation (part s) = .ok a r ∧ s' = put s r := by
  unfold zoom
  cases operation (part s) with
  | error e r =>
    refine iff_of_false nofun ?_
    rintro ⟨_, h, -⟩
    cases h
  | ok b r =>
    constructor
    · intro h
      cases h
      exact ⟨r, rfl, rfl⟩
    · rintro ⟨_, h, rfl⟩
      cases h
      rfl

theorem zoom_eq_error_iff {operation : EStateM ε ρ α} {s s' : σ} {e : ε} :
    zoom part put operation s = .error e s' ↔ ∃ r, operation (part s) = .error e r ∧ s' = put s r := by
  unfold zoom
  cases operation (part s) with
  | ok b r =>
    refine iff_of_false nofun ?_
    rintro ⟨_, h, -⟩
    cases h
  | error e' r =>
    constructor
    · intro h
      cases h
      exact ⟨r, rfl, rfl⟩
    · rintro ⟨_, h, rfl⟩
      cases h
      rfl

theorem endState_zoom (operation : EStateM ε ρ α) (s : σ) :
    endState (zoom part put operation) s = put s (endState operation (part s)) := by
  unfold endState zoom
  cases operation (part s) <;> rfl

theorem discard_zoom (operation : EStateM ε ρ α) :
    discard (zoom part put operation) = zoom part put (discard operation) := by
  funext s
  change EStateM.map _ (zoom part put operation) s = zoom part put (EStateM.map _ operation) s
  cases hop : operation (part s) <;> simp only [EStateM.map, zoom, hop]

/-- An operation whose errors are renamed. -/
def mapError (f : ε → ε) (operation : EStateM ε σ α) : EStateM ε σ α := fun s =>
  match operation s with
  | .ok a s => .ok a s
  | .error e s => .error (f e) s

end BuildPlan
