/-!
# What operations keep

`Keeps R operation` says that `R` holds between the state before an operation and the one in which it ends, whether or
not it fails. It is kept by putting operations together, if `R` goes on from one to the next.
-/

namespace BuildPlan

variable {ε σ α β : Type} {R : σ → σ → Prop}

/-- The state in which an operation ends, whether or not it fails. -/
def endState (operation : EStateM ε σ α) (s : σ) : σ :=
  match operation s with
  | .ok _ s => s
  | .error _ s => s

theorem endState_of_ok {operation : EStateM ε σ α} {s t : σ} {a : α} (h : operation s = .ok a t) :
    endState operation s = t := by
  rw [endState, h]

theorem endState_of_error {operation : EStateM ε σ α} {s t : σ} {e : ε} (h : operation s = .error e t) :
    endState operation s = t := by
  rw [endState, h]

theorem endState_bind_of_ok {x : EStateM ε σ α} {f : α → EStateM ε σ β} {s t : σ} {a : α} (h : x s = .ok a t) :
    endState (x >>= f) s = endState (f a) t := by
  change endState (EStateM.bind x f) s = _
  unfold endState EStateM.bind
  rw [h]

theorem endState_bind_of_error {x : EStateM ε σ α} {f : α → EStateM ε σ β} {s t : σ} {e : ε}
    (h : x s = .error e t) : endState (x >>= f) s = t := by
  change endState (EStateM.bind x f) s = _
  unfold endState EStateM.bind
  rw [h]

theorem endState_get_bind (f : σ → EStateM ε σ β) (s : σ) : endState (get >>= f) s = endState (f s) s := rfl

theorem endState_bind_quiet {x : EStateM ε σ α} {f : α → EStateM ε σ β} (hf : ∀ a s, endState (f a) s = s) (s : σ) :
    endState (x >>= f) s = endState x s := by
  cases hx : x s with
  | ok a t => rw [endState_bind_of_ok hx, endState_of_ok hx, hf]
  | error e t => rw [endState_bind_of_error hx, endState_of_error hx]

theorem endState_discard (x : EStateM ε σ α) (s : σ) : endState (discard x) s = endState x s := by
  change endState (EStateM.map _ x) s = _
  unfold endState EStateM.map
  cases x s <;> rfl

/-- A relation that goes on from one operation to the next. -/
structure Lasting (R : σ → σ → Prop) : Prop where
  refl : ∀ s, R s s
  trans : ∀ {s t u}, R s t → R t u → R s u

/-- The relation holds between the state before an operation and the one in which it ends. -/
def Keeps (R : σ → σ → Prop) (operation : EStateM ε σ α) : Prop := ∀ s, R s (endState operation s)

namespace Keeps

theorem ok {operation : EStateM ε σ α} (h : Keeps R operation) {s s' : σ} {a : α}
    (hop : operation s = .ok a s') : R s s' := by
  have := h s
  rwa [endState, hop] at this

theorem pure (hR : Lasting R) (a : α) : Keeps R (pure a : EStateM ε σ α) := hR.refl

theorem throw (hR : Lasting R) (e : ε) : Keeps R (throw e : EStateM ε σ α) := hR.refl

theorem bind (hR : Lasting R) {x : EStateM ε σ α} {f : α → EStateM ε σ β} (hx : Keeps R x)
    (hf : ∀ a, Keeps R (f a)) : Keeps R (x >>= f) := by
  intro s
  have h := hx s
  cases hxs : x s with
  | ok a s' =>
    rw [endState_of_ok hxs] at h
    rw [endState_bind_of_ok hxs]
    exact hR.trans h (hf a s')
  | error e s' =>
    rw [endState_of_error hxs] at h
    rw [endState_bind_of_error hxs]
    exact h

theorem map (hR : Lasting R) {x : EStateM ε σ α} (f : α → β) (hx : Keeps R x) : Keeps R (f <$> x) :=
  hx.bind hR fun a => .pure hR (f a)

theorem mapM (hR : Lasting R) {xs : List α} {f : α → EStateM ε σ β} (hf : ∀ x ∈ xs, Keeps R (f x)) :
    Keeps R (xs.mapM f) := by
  induction xs with
  | nil => exact .pure hR []
  | cons x rest ih =>
    obtain ⟨hx, hrest⟩ := List.forall_mem_cons.mp hf
    rw [List.mapM_cons]
    exact hx.bind hR fun _ => (ih hrest).bind hR fun _ => .pure hR _

theorem of_discard {x : EStateM ε σ α} (h : Keeps R (discard x)) : Keeps R x := by
  intro s
  rw [← endState_discard]
  exact h s

end Keeps

end BuildPlan
