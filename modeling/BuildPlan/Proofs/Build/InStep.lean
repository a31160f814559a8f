import BuildPlan.Generate
import BuildPlan.Proofs.Build.Effect
import BuildPlan.Proofs.Flag.Frozen
import BuildPlan.Proofs.Store.Payloads
import BuildPlan.Proofs.Target.InStep

/-!
# Builds in step

The second of two builds starts with the files that the first one leaves, and with flags that look the same. Every
operation that builds are made of keeps the two in step, and so does every program that writes files only by adding
steps.
-/

namespace BuildPlan

namespace Session

variable {α : Type} {data : Location} {final : Store}

/-- Two builds are as far as each other. -/
structure Meets (data : Location) (final : Store) (s t : Session) : Prop where
  registry : s.registry.LooksLike t.registry
  store : Store.Rejoins data final s.store t.store
  graph : t.graph = s.graph
  executables : t.executables = s.executables

/-- What a build does with its flags and its files. -/
structure Advances (data : Location) (s t : Session) : Prop where
  registry : s.registry.Stays t.registry
  store : s.store.Reaches data → s.store.Develops data t.store

theorem Advances.lasting : Lasting (Advances data) where
  refl s := ⟨Registry.Stays.lasting.refl _, fun _ => Store.Develops.lasting.refl _⟩
  trans hst htu := by
    refine ⟨Registry.Stays.lasting.trans hst.registry htu.registry, fun hreach => ?_⟩
    have h := hst.store hreach
    exact Store.Develops.lasting.trans h (htu.store (h.becomes.reaches hreach))

/-- Two builds, of which the second one starts with the store `final` that the first one ends with. -/
def building (data : Location) (final : Store) : Pace Session where
  Meets := Meets data final
  Grows := Advances data
  lasting := Advances.lasting
  Leads _ := True
  leads_of_grows _ _ := trivial
  Fails _ := True
  leads_of_fails _ := trivial

/-! ### Flags and files -/

theorem onRegistry_eq (operation : RegistryM α) :
    onRegistry operation = zoom (fun s : Session => s.registry) (fun s registry => { s with registry }) operation := by
  funext s
  unfold onRegistry onSettings Settings.onRegistry zoom
  cases operation s.registry <;> rfl

theorem inStep_onRegistry {operation : RegistryM α} (h : InStep Registry.frozen operation) :
    InStep (building data final) (onRegistry operation) := by
  rw [onRegistry_eq]
  exact .zoom (Q := Registry.frozen) (fun hgrows => ⟨hgrows, fun _ => Store.Develops.lasting.refl _⟩)
    (fun hmeets => hmeets.registry) (fun hmeets hregistry => { hmeets with registry := hregistry }) id id h

theorem onStore_eq (operation : Store → Except Failure α × Store) (s : Session) :
    onStore operation s =
      match (operation s.store).1 with
      | .ok a => .ok a { s with store := (operation s.store).2 }
      | .error e => .error e { s with store := (operation s.store).2 } := by
  unfold onStore onSettings Settings.onStore
  rcases operation s.store with ⟨_ | _, store⟩ <;> rfl

theorem inStep_onStore {operation : Store → Except Failure α × Store}
    (hdevelops : ∀ {s : Store}, s.Reaches data → s.Develops data (operation s).2)
    (hboth : ∀ {s t : Store}, Store.Rejoins data final s t →
      (operation t).1 = (operation s).1 ∧ Store.Rejoins data final (operation s).2 (operation t).2) :
    InStep (building data final) (onStore operation) where
  keeps s := by
    refine ⟨?_, fun hreach => ?_⟩
    · rw [endState, onStore_eq]
      cases (operation s.store).1 <;> exact Registry.Stays.lasting.refl _
    · rw [endState, onStore_eq]
      cases (operation s.store).1 <;> exact hdevelops hreach
  ok {s t s' a} hmeets hop _ := by
    obtain ⟨hsame, hstore⟩ := hboth hmeets.store
    rw [onStore_eq] at hop
    cases hresult : (operation s.store).1 with
    | error e =>
      rw [hresult] at hop
      cases hop
    | ok b =>
      rw [hresult] at hop hsame
      cases hop
      exact ⟨{ t with store := (operation t.store).2 }, by rw [onStore_eq, hsame], { hmeets with store := hstore }⟩
  error {s t s' e} hmeets hop _ := by
    obtain ⟨hsame, hstore⟩ := hboth hmeets.store
    rw [onStore_eq] at hop
    cases hresult : (operation s.store).1 with
    | ok b =>
      rw [hresult] at hop
      cases hop
    | error e' =>
      rw [hresult] at hop hsame
      cases hop
      exact ⟨{ t with store := (operation t.store).2 }, by rw [onStore_eq, hsame], { hmeets with store := hstore }⟩

theorem inStep_writePayload (w : Workspace) (payload : Option Payload) :
    InStep (building w.dataPlace final) (writePayload w payload) := by
  cases payload with
  | none => exact .pure ()
  | some payload =>
    change InStep _ (onStore fun store => keepPayload store w payload)
    refine inStep_onStore (fun hreach => ?_) fun h => ?_
    · exact Store.develops_keepPayload hreach payload
    · exact Store.keepPayload_inStep h payload

/-! ### The graph -/

theorem inStep_modify {f : Session → Session} (hsettings : ∀ s, (f s).toSettings = s.toSettings)
    (hgraph : ∀ {s t}, t.graph = s.graph → (f t).graph = (f s).graph)
    (hexecutables : ∀ {s t}, t.executables = s.executables → (f t).executables = (f s).executables) :
    InStep (building data final) (modify f : SessionM PUnit) := by
  refine .modify (fun s => ?_) fun {s t} h => ?_
  · have heq := hsettings s
    refine ⟨?_, fun _ => ?_⟩
    · rw [heq]
      exact Registry.Stays.lasting.refl _
    · rw [heq]
      exact Store.Develops.lasting.refl _
  · refine ⟨?_, ?_, hgraph h.graph, hexecutables h.executables⟩
    · rw [hsettings s, hsettings t]
      exact h.registry
    · rw [hsettings s, hsettings t]
      exact h.store

theorem inStep_changeGraph (change : Graph → Graph) : InStep (building data final) (changeGraph change) :=
  inStep_modify (fun _ => rfl) (fun h => congrArg change h) id

theorem inStep_currentGraph : InStep (building data final) currentGraph := .read Session.graph fun h => h.graph.symm

theorem inStep_onGraph (change : Graph → Except Cause Graph) : InStep (building data final) (onGraph change) := by
  change InStep _ (currentGraph >>= fun graph => ofExcept (change graph) >>= fun graph => changeGraph fun _ => graph)
  refine inStep_currentGraph.bind fun graph => InStep.bind ?_ fun graph => inStep_changeGraph _
  cases change graph with
  | ok graph => exact .pure graph
  | error cause => exact .throw _

/-! ### Operations around operations -/

theorem traced_eq (label : String) (x : SessionM α) :
    traced label x = zoom (fun s => s.push label) (fun _ s => s.pop) x := by
  funext s
  unfold traced zoom
  cases x (s.push label) <;> rfl

theorem inStep_traced (label : String) {x : SessionM α} (h : InStep (building data final) x) :
    InStep (building data final) (traced label x) := by
  rw [traced_eq]
  refine .zoom (Q := building data final) (fun hgrows => ⟨hgrows.registry, hgrows.store⟩) (fun hmeets => ?_)
    (fun _ hmeets => ?_) id id h
  · exact { hmeets with graph := by rw [push, push, hmeets.graph] }
  · exact { hmeets with graph := by rw [pop, pop, hmeets.graph] }

theorem during_eq (target : String) (operation : SessionM α) :
    during target operation = mapError (Failure.during target) operation := by
  funext s
  unfold during mapError
  cases operation s <;> rfl

theorem inStep_during (target : String) {x : SessionM α} (h : InStep (building data final) x) :
    InStep (building data final) (during target x) := by
  rw [during_eq]
  exact h.mapError _

theorem inStep_attempt {x : SessionM Unit} (h : InStep (building data final) x) :
    InStep (building data final) (attempt x) where
  keeps := keeps_attempt h.keeps
  ok {s t s' a} hmeets hop _ := by
    unfold attempt at *
    rcases hx : x s with ⟨b, u⟩ | ⟨_ | _, u⟩
    · rw [hx] at hop
      cases hop
      obtain ⟨t', hxt, hmeets'⟩ := h.ok hmeets hx trivial
      exact ⟨t', by rw [hxt], hmeets'⟩
    · rw [hx] at hop
      cases hop
      obtain ⟨t', hxt, hmeets'⟩ := h.error hmeets hx trivial
      exact ⟨t', by rw [hxt], hmeets'⟩
    · rw [hx] at hop
      cases hop
  error {s t s' e} hmeets hop _ := by
    unfold attempt at *
    rcases hx : x s with ⟨b, u⟩ | ⟨_ | _, u⟩
    · rw [hx] at hop
      cases hop
    · rw [hx] at hop
      cases hop
    · rw [hx] at hop
      cases hop
      obtain ⟨t', hxt, hmeets'⟩ := h.error hmeets hx trivial
      exact ⟨t', by rw [hxt], hmeets'⟩

theorem inStep_report {x : SessionM Reply} (h : InStep (building data final) (discard x)) :
    InStep (building data final) (x >>= report) := by
  refine h.bind_of_discard (fun reply s => ⟨Registry.Stays.lasting.refl _, fun _ => Store.Develops.lasting.refl _⟩)
    fun reply reply' s t hmeets => ?_
  exact ⟨(), _, _, rfl, rfl, { hmeets with }⟩

/-! ### Builds -/

theorem inStep_reading : Reading (InStep (building data final)) where
  pure := .pure
  throw := .throw
  bind := .bind
  graph := inStep_currentGraph
  executables := .read Session.executables fun h => h.executables.symm

/-- Everything that build programs are made of keeps two builds in step that keep their files in one place. -/
theorem inStep_closed (p : Project) : Closed p (InStep (building p.workspace.dataPlace final)) where
  toReading := inStep_reading
  check x := inStep_onRegistry (inStep_check x)
  step site s := inStep_onRegistry (inStep_step Registry.inStep_flagText_frozen site s)
  ruleStep site s := inStep_onRegistry (inStep_ruleStep Registry.inStep_flagText_frozen site s)
  register flag := inStep_onRegistry (Registry.inStep_register_frozen flag)
  flagValue name := by
    rw [onRegistry_eq, discard_zoom, ← onRegistry_eq]
    exact inStep_onRegistry (Registry.inStep_discard_read_frozen name)
  addStep := inStep_reading.addStep (inStep_writePayload p.workspace) fun _ _ _ => (inStep_onGraph _).bind fun _ => inStep_onGraph _
  report := inStep_report
  link number path := inStep_modify (fun _ => rfl) id fun h => congrArg (Assoc.insert · number path) h
  mark _ := inStep_changeGraph _
  dependency _ _ := inStep_changeGraph _
  targetRule _ _ := inStep_changeGraph _
  startTarget _ _ := inStep_changeGraph _
  finishTarget := inStep_changeGraph _
  traced := inStep_traced
  during := inStep_during
  attempt := inStep_attempt

end Session

/-- The action writes files only by adding steps, and so do the actions inside it. -/
inductive Action.WritesBySteps : Action → Prop
  | intro {a : Action} (hfile : ∀ directory fileName, a ≠ .writeBuildFile directory fileName)
      (hbody : ∀ b ∈ a.body, b.WritesBySteps) : a.WritesBySteps

/-- **Two builds of one project go in step**, if its programs write files only by adding steps. -/
theorem inStep_finalGraph {p : Project} (hp : p.RunsOnly Action.WritesBySteps) (final : Store) :
    InStep (Session.building p.workspace.dataPlace final) (finalGraph p) := by
  refine InStep.bind ?_ fun _ => Session.inStep_currentGraph
  refine (Session.inStep_closed p).perform hp (fun a ha => ?_) (fun directory fileName h => ?_) _ _ ?_
  · cases ha with
    | intro _ hbody => exact hbody
  · cases h with
    | intro hfile => exact absurd rfl (hfile directory fileName)
  · exact .intro nofun nofun

end BuildPlan
