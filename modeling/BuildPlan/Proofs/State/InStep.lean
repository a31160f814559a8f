import BuildPlan.Proofs.State.Keeps
import BuildPlan.Proofs.State.Zoom

/-!
# Two runs in step

Two runs of the same operations go in step if they give the same answers, and their states keep meeting: what that
means is up to a `Pace`. The second run is known to come after the first one, so a pace may use how the first run
ends: its states are those that lead there. `InStep` is what an operation has to satisfy, and it is kept by putting
operations together.
-/

namespace BuildPlan

/-- How the states of two runs go together. -/
structure Pace (σ : Type) where
  /-- A state of the first run and one of the second are as far as each other. -/
  Meets : σ → σ → Prop
  /-- What operations do to a state, in either run. -/
  Grows : σ → σ → Prop
  lasting : Lasting Grows
  /-- The first run gets from this state to its end. -/
  Leads : σ → Prop
  leads_of_grows : ∀ {s t}, Grows s t → Leads t → Leads s
  /-- An operation of the first run that gets to its end may fail in this state. -/
  Fails : σ → Prop
  leads_of_fails : ∀ {s}, Fails s → Leads s

variable {ε σ α β : Type} {P : Pace σ}

/-- Two runs stay in step over an operation. -/
structure InStep (P : Pace σ) (operation : EStateM ε σ α) : Prop where
  keeps : Keeps P.Grows operation
  ok : ∀ {s t s' a}, P.Meets s t → operation s = .ok a s' → P.Leads s' →
    ∃ t', operation t = .ok a t' ∧ P.Meets s' t'
  error : ∀ {s t s' e}, P.Meets s t → operation s = .error e s' → P.Fails s' →
    ∃ t', operation t = .error e t' ∧ P.Meets s' t'

/-- The pace of a run that nothing goes in step with. -/
def Pace.alone {R : σ → σ → Prop} (hR : Lasting R) : Pace σ where
  Meets _ _ := False
  Grows := R
  lasting := hR
  Leads _ := True
  leads_of_grows _ _ := trivial
  Fails _ := True
  leads_of_fails _ := trivial

/-- The pace of runs whose states are related, however the runs go on. -/
def Pace.related (R : σ → σ → Prop) : Pace σ where
  Meets := R
  Grows _ _ := True
  lasting := ⟨fun _ => trivial, fun _ _ => trivial⟩
  Leads _ := True
  leads_of_grows _ _ := trivial
  Fails _ := True
  leads_of_fails _ := trivial

theorem related_of_ok {R : σ → σ → Prop} {operation : EStateM ε σ α} {s t s' t' : σ} {a : α}
    (hs : operation s = .ok a s') (ht : operation t = .ok a t') (h : R s' t') :
    answer operation t = answer operation s ∧ R (endState operation s) (endState operation t) := by
  rw [answer_of_ok hs, answer_of_ok ht, endState_of_ok hs, endState_of_ok ht]
  exact ⟨rfl, h⟩

theorem related_of_error {R : σ → σ → Prop} {operation : EStateM ε σ α} {s t s' t' : σ} {e : ε}
    (hs : operation s = .error e s') (ht : operation t = .error e t') (h : R s' t') :
    answer operation t = answer operation s ∧ R (endState operation s) (endState operation t) := by
  rw [answer_of_error hs, answer_of_error ht, endState_of_error hs, endState_of_error ht]
  exact ⟨rfl, h⟩

theorem inStep_related_iff {R : σ → σ → Prop} {operation : EStateM ε σ α} :
    InStep (.related R) operation ↔ ∀ {s t}, R s t →
      answer operation t = answer operation s ∧ R (endState operation s) (endState operation t) := by
  constructor
  · intro h s t hmeets
    cases hs : operation s with
    | ok a s' =>
      obtain ⟨t', ht, hmeets'⟩ := h.ok hmeets hs trivial
      exact related_of_ok hs ht hmeets'
    | error e s' =>
      obtain ⟨t', ht, hmeets'⟩ := h.error hmeets hs trivial
      exact related_of_error hs ht hmeets'
  · intro h
    refine ⟨fun _ => trivial, fun {s t s' a} hmeets hs _ => ?_, fun {s t s' e} hmeets hs _ => ?_⟩
    · obtain ⟨hanswer, hstates⟩ := h hmeets
      rw [answer_of_ok hs] at hanswer
      obtain ⟨t', ht⟩ := answer_eq_ok_iff.mp hanswer
      rw [endState_of_ok hs, endState_of_ok ht] at hstates
      exact ⟨t', ht, hstates⟩
    · obtain ⟨hanswer, hstates⟩ := h hmeets
      rw [answer_of_error hs] at hanswer
      obtain ⟨t', ht⟩ := answer_eq_error_iff.mp hanswer
      rw [endState_of_error hs, endState_of_error ht] at hstates
      exact ⟨t', ht, hstates⟩

namespace InStep

/-- What an operation keeps, it keeps in a run on its own. -/
theorem alone {R : σ → σ → Prop} {hR : Lasting R} {operation : EStateM ε σ α} (h : Keeps R operation) :
    InStep (Pace.alone hR) operation where
  keeps := h
  ok hmeets := hmeets.elim
  error hmeets := hmeets.elim

theorem grows_of_error {operation : EStateM ε σ α} (h : InStep P operation) {s s' : σ} {e : ε}
    (hop : operation s = .error e s') : P.Grows s s' := by
  have := h.keeps s
  rwa [endState, hop] at this

theorem pure (a : α) : InStep P (pure a : EStateM ε σ α) where
  keeps := .pure P.lasting a
  ok hmeets h _ := by
    cases h
    exact ⟨_, rfl, hmeets⟩
  error _ h := nomatch h

theorem throw (e : ε) : InStep P (throw e : EStateM ε σ α) where
  keeps := .throw P.lasting e
  ok _ h := nomatch h
  error hmeets h _ := by
    cases h
    exact ⟨_, rfl, hmeets⟩

theorem bind {x : EStateM ε σ α} {f : α → EStateM ε σ β} (hx : InStep P x) (hf : ∀ a, InStep P (f a)) :
    InStep P (x >>= f) where
  keeps := hx.keeps.bind P.lasting fun a => (hf a).keeps
  ok hmeets h hleads := by
    obtain ⟨a, u, hxs, hfs⟩ := bind_eq_ok_iff.mp h
    obtain ⟨u', hxt, hmeets⟩ := hx.ok hmeets hxs (P.leads_of_grows ((hf a).keeps.ok hfs) hleads)
    obtain ⟨t', hft, hmeets⟩ := (hf a).ok hmeets hfs hleads
    exact ⟨t', bind_eq_ok_iff.mpr ⟨a, u', hxt, hft⟩, hmeets⟩
  error hmeets h hfails := by
    rcases bind_eq_error_iff.mp h with hxs | ⟨a, u, hxs, hfs⟩
    · obtain ⟨t', hxt, hmeets⟩ := hx.error hmeets hxs hfails
      exact ⟨t', bind_eq_error_iff.mpr (.inl hxt), hmeets⟩
    · have hleads := P.leads_of_grows ((hf a).grows_of_error hfs) (P.leads_of_fails hfails)
      obtain ⟨u', hxt, hmeets⟩ := hx.ok hmeets hxs hleads
      obtain ⟨t', hft, hmeets⟩ := (hf a).error hmeets hfs hfails
      exact ⟨t', bind_eq_error_iff.mpr (.inr ⟨a, u', hxt, hft⟩), hmeets⟩

theorem mapM {xs : List α} {f : α → EStateM ε σ β} (hf : ∀ x ∈ xs, InStep P (f x)) : InStep P (xs.mapM f) := by
  induction xs with
  | nil => exact .pure []
  | cons x rest ih =>
    obtain ⟨hx, hrest⟩ := List.forall_mem_cons.mp hf
    rw [List.mapM_cons]
    exact hx.bind fun _ => (ih hrest).bind fun _ => .pure _

theorem forM {xs : List α} {f : α → EStateM ε σ PUnit} (hf : ∀ x ∈ xs, InStep P (f x)) : InStep P (xs.forM f) := by
  induction xs with
  | nil => exact .pure ()
  | cons x rest ih =>
    obtain ⟨hx, hrest⟩ := List.forall_mem_cons.mp hf
    exact hx.bind fun _ => ih hrest

theorem foldlM {xs : List α} {f : β → α → EStateM ε σ β} (hf : ∀ x ∈ xs, ∀ b, InStep P (f b x)) (b : β) :
    InStep P (xs.foldlM f b) := by
  induction xs generalizing b with
  | nil => exact .pure b
  | cons x rest ih =>
    obtain ⟨hx, hrest⟩ := List.forall_mem_cons.mp hf
    rw [List.foldlM_cons]
    exact (hx b).bind fun b => ih hrest b

theorem read (f : σ → α) (h : ∀ {s t}, P.Meets s t → f s = f t) : InStep P (do return f (← get) : EStateM ε σ α) where
  keeps s := P.lasting.refl s
  ok hmeets hread _ := by
    cases hread
    exact ⟨_, by rw [h hmeets]; rfl, hmeets⟩
  error _ h := nomatch h

theorem get_bind {f : σ → EStateM ε σ β} (hkeeps : ∀ s, Keeps P.Grows (f s))
    (h : ∀ {s t}, P.Meets s t → f t = f s ∧ InStep P (f s)) : InStep P (get >>= f) where
  keeps s := hkeeps s s
  ok {s t s' a} hmeets hop hleads := by
    obtain ⟨hsame, hstep⟩ := h hmeets
    obtain ⟨t', ht, hmeets'⟩ := hstep.ok hmeets hop hleads
    exact ⟨t', (congrFun hsame t).trans ht, hmeets'⟩
  error {s t s' e} hmeets hop hfails := by
    obtain ⟨hsame, hstep⟩ := h hmeets
    obtain ⟨t', ht, hmeets'⟩ := hstep.error hmeets hop hfails
    exact ⟨t', (congrFun hsame t).trans ht, hmeets'⟩

theorem modify {f : σ → σ} (hgrows : ∀ s, P.Grows s (f s)) (h : ∀ {s t}, P.Meets s t → P.Meets (f s) (f t)) :
    InStep P (modify f : EStateM ε σ PUnit) where
  keeps s := hgrows s
  ok hmeets hmod _ := by
    cases hmod
    exact ⟨_, rfl, h hmeets⟩
  error _ h := nomatch h

/-- An operation whose answer is only noted in the state, where it makes no difference. -/
theorem bind_of_discard {x : EStateM ε σ α} {f : α → EStateM ε σ β} (hx : InStep P (discard x))
    (hkeeps : ∀ a, Keeps P.Grows (f a))
    (hf : ∀ a b {s t}, P.Meets s t → ∃ c s' t', f a s = .ok c s' ∧ f b t = .ok c t' ∧ P.Meets s' t') :
    InStep P (x >>= f) where
  keeps := (Keeps.of_discard hx.keeps).bind P.lasting hkeeps
  ok hmeets h hleads := by
    obtain ⟨a, u, hxs, hfs⟩ := bind_eq_ok_iff.mp h
    have hu := P.leads_of_grows ((hkeeps a).ok hfs) hleads
    obtain ⟨u', hxt, hmeets⟩ := hx.ok hmeets (discard_eq_ok_iff.mpr ⟨a, hxs⟩) hu
    obtain ⟨b, hxt⟩ := discard_eq_ok_iff.mp hxt
    obtain ⟨c, s', t', hfs', hft, hmeets⟩ := hf a b hmeets
    cases hfs.symm.trans hfs'
    exact ⟨t', bind_eq_ok_iff.mpr ⟨b, u', hxt, hft⟩, hmeets⟩
  error hmeets h hfails := by
    rcases bind_eq_error_iff.mp h with hxs | ⟨a, u, hxs, hfs⟩
    · obtain ⟨t', hxt, hmeets⟩ := hx.error hmeets (discard_eq_error_iff.mpr hxs) hfails
      exact ⟨t', bind_eq_error_iff.mpr (.inl (discard_eq_error_iff.mp hxt)), hmeets⟩
    · have hgrows := hkeeps a u
      rw [endState, hfs] at hgrows
      have hu := P.leads_of_grows hgrows (P.leads_of_fails hfails)
      obtain ⟨u', -, hmeets⟩ := hx.ok hmeets (discard_eq_ok_iff.mpr ⟨a, hxs⟩) hu
      obtain ⟨c, s', -, hfs', -⟩ := hf a a hmeets
      cases hfs.symm.trans hfs'

theorem mapError (f : ε → ε) {operation : EStateM ε σ α} (h : InStep P operation) :
    InStep P (BuildPlan.mapError f operation) where
  keeps s := by
    have hs := h.keeps s
    unfold endState BuildPlan.mapError at *
    cases hop : operation s <;> rw [hop] at hs <;> exact hs
  ok {s t s' a} hmeets hop hleads := by
    unfold BuildPlan.mapError at *
    cases hs : operation s with
    | error e u =>
      rw [hs] at hop
      cases hop
    | ok b u =>
      rw [hs] at hop
      cases hop
      obtain ⟨t', ht, hmeets'⟩ := h.ok hmeets hs hleads
      exact ⟨t', by rw [ht], hmeets'⟩
  error {s t s' e} hmeets hop hfails := by
    unfold BuildPlan.mapError at *
    cases hs : operation s with
    | ok b u =>
      rw [hs] at hop
      cases hop
    | error e' u =>
      rw [hs] at hop
      cases hop
      obtain ⟨t', ht, hmeets'⟩ := h.error hmeets hs hfails
      exact ⟨t', by rw [ht], hmeets'⟩

end InStep

/-! ### Parts of a state -/

section zoom

variable {ρ : Type} {part : σ → ρ} {put : σ → ρ → σ}

/-- An operation that is in step on a part of the state is in step on the whole of it. -/
theorem InStep.zoom {Q : Pace ρ} {operation : EStateM ε ρ α}
    (hgrows : ∀ {s r}, Q.Grows (part s) r → P.Grows s (put s r))
    (hpart : ∀ {s t}, P.Meets s t → Q.Meets (part s) (part t))
    (hput : ∀ {s t r r'}, P.Meets s t → Q.Meets r r' → P.Meets (put s r) (put t r'))
    (hleads : ∀ {s r}, P.Leads (put s r) → Q.Leads r) (hfails : ∀ {s r}, P.Fails (put s r) → Q.Fails r)
    (h : InStep Q operation) : InStep P (BuildPlan.zoom part put operation) where
  keeps s := by
    have hs := h.keeps (part s)
    unfold endState BuildPlan.zoom at *
    cases hop : operation (part s) <;> rw [hop] at hs <;> exact hgrows hs
  ok hmeets hop hl := by
    obtain ⟨r, hr, rfl⟩ := zoom_eq_ok_iff.mp hop
    obtain ⟨r', hr', hmeets'⟩ := h.ok (hpart hmeets) hr (hleads hl)
    exact ⟨_, zoom_eq_ok_iff.mpr ⟨r', hr', rfl⟩, hput hmeets hmeets'⟩
  error hmeets hop hf := by
    obtain ⟨r, hr, rfl⟩ := zoom_eq_error_iff.mp hop
    obtain ⟨r', hr', hmeets'⟩ := h.error (hpart hmeets) hr (hfails hf)
    exact ⟨_, zoom_eq_error_iff.mpr ⟨r', hr', rfl⟩, hput hmeets hmeets'⟩

theorem InStep.zoom_related {Q : ρ → ρ → Prop} {R : σ → σ → Prop} {operation : EStateM ε ρ α}
    (hpart : ∀ {s t}, R s t → Q (part s) (part t)) (hput : ∀ {s t r r'}, R s t → Q r r' → R (put s r) (put t r'))
    (h : InStep (.related Q) operation) : InStep (.related R) (BuildPlan.zoom part put operation) :=
  InStep.zoom (Q := .related Q) (fun _ => trivial) hpart hput (fun _ => trivial) (fun _ => trivial) h

end zoom

end BuildPlan
