/-!
# How operations end

An operation with a state ends with an answer or with an error, in a new state. The lemmas here say how a sequence of
two operations ends.
-/

namespace BuildPlan

variable {ε σ α β : Type}

/-- What an operation answers, without the state that it leaves. -/
def answer (operation : EStateM ε σ α) (s : σ) : Except ε α :=
  match operation s with
  | .ok a _ => .ok a
  | .error e _ => .error e

theorem answer_of_ok {operation : EStateM ε σ α} {s t : σ} {a : α} (h : operation s = .ok a t) :
    answer operation s = .ok a := by
  rw [answer, h]

theorem answer_of_error {operation : EStateM ε σ α} {s t : σ} {e : ε} (h : operation s = .error e t) :
    answer operation s = .error e := by
  rw [answer, h]

theorem answer_eq_ok_iff {operation : EStateM ε σ α} {s : σ} {a : α} :
    answer operation s = .ok a ↔ ∃ t, operation s = .ok a t := by
  unfold answer
  cases operation s <;> simp

theorem exists_of_answer {operation : EStateM ε σ α} {s : σ} {f : α → β} {b : β}
    (h : (answer operation s).toOption.map f = some b) : ∃ a t, operation s = .ok a t ∧ f a = b := by
  unfold answer at h
  cases hop : operation s with
  | ok a t =>
    rw [hop] at h
    exact ⟨a, t, rfl, Option.some.inj h⟩
  | error e t =>
    rw [hop] at h
    cases h

theorem answer_eq_error_iff {operation : EStateM ε σ α} {s : σ} {e : ε} :
    answer operation s = .error e ↔ ∃ t, operation s = .error e t := by
  unfold answer
  cases operation s <;> simp

theorem run_get_bind (f : σ → EStateM ε σ β) (s : σ) : (get >>= f) s = f s s := rfl

theorem answer_bind {x : EStateM ε σ α} {f : α → EStateM ε σ β} {s : σ} {g : α → Except ε β}
    (hf : ∀ a t, x s = .ok a t → answer (f a) t = g a) : answer (x >>= f) s = answer x s >>= g := by
  change answer (EStateM.bind x f) s = _
  unfold answer EStateM.bind at *
  cases hx : x s with
  | ok a t => exact hf a t hx
  | error e t => rfl

theorem bind_eq_ok_iff {x : EStateM ε σ α} {f : α → EStateM ε σ β} {s s' : σ} {b : β} :
    (x >>= f) s = .ok b s' ↔ ∃ a t, x s = .ok a t ∧ f a t = .ok b s' := by
  change EStateM.bind x f s = _ ↔ _
  unfold EStateM.bind
  cases x s with
  | ok a t =>
    constructor
    · exact fun h => ⟨a, t, rfl, h⟩
    · rintro ⟨_, _, h, hf⟩
      cases h
      exact hf
  | error e t =>
    constructor
    · exact fun h => nomatch h
    · rintro ⟨_, _, h, -⟩
      cases h

theorem bind_eq_error_iff {x : EStateM ε σ α} {f : α → EStateM ε σ β} {s s' : σ} {e : ε} :
    (x >>= f) s = .error e s' ↔ x s = .error e s' ∨ ∃ a t, x s = .ok a t ∧ f a t = .error e s' := by
  change EStateM.bind x f s = _ ↔ _
  unfold EStateM.bind
  cases x s with
  | ok a t =>
    constructor
    · exact fun h => .inr ⟨a, t, rfl, h⟩
    · rintro (h | ⟨_, _, h, hf⟩)
      · cases h
      · cases h
        exact hf
  | error e t =>
    constructor
    · intro h
      cases h
      exact .inl rfl
    · rintro (h | ⟨_, _, h, -⟩)
      · cases h
        rfl
      · cases h

theorem discard_eq (x : EStateM ε σ α) : discard x = x >>= fun _ => pure () := map_eq_pure_bind _ x

theorem discard_eq_ok_iff {x : EStateM ε σ α} {s s' : σ} :
    discard x s = .ok () s' ↔ ∃ a, x s = .ok a s' := by
  rw [discard_eq, bind_eq_ok_iff]
  constructor
  · rintro ⟨a, t, hx, h⟩
    cases h
    exact ⟨a, hx⟩
  · rintro ⟨a, hx⟩
    exact ⟨a, s', hx, rfl⟩

theorem discard_eq_error_iff {x : EStateM ε σ α} {s s' : σ} {e : ε} :
    discard x s = .error e s' ↔ x s = .error e s' := by
  rw [discard_eq, bind_eq_error_iff]
  constructor
  · rintro (h | ⟨_, _, -, h⟩)
    · exact h
    · cases h
  · exact .inl

end BuildPlan
