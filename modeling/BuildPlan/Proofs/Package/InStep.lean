import BuildPlan.Package.Load
import BuildPlan.Proofs.Flag.Replay
import BuildPlan.Proofs.Target.InStep

/-!
# Loading in step

Build files make things, register flags and read them. Carrying out a build file is in step if these parts of it are
(`PartsInStep`). If a registry keeps two runs in step, so does loading the targets of a source tree in which both find
the same build files.
-/

namespace BuildPlan

namespace LoadState

theorem ofFile_eq {α : Type} (file : String) (operation : LoadM α) :
    ofFile file operation = mapError (loadFailure file) operation := by
  funext s
  unfold ofFile mapError
  cases operation s <;> rfl

/-! ### Build files -/

section parts

variable {Q : Pace LoadState}

/-- What is done on behalf of a build file is in step, part by part. -/
structure PartsInStep (Q : Pace LoadState) : Prop where
  names : ∀ {s t}, Q.Meets s t → s.names = t.names
  entities : ∀ {s t}, Q.Meets s t → s.entities = t.entities
  create : ∀ site names (thing : EntityExpr), InStep Q (onRegistry (thing.create site names))
  enter : ∀ entity name number, InStep Q (modify fun s : LoadState =>
    { s with entities := s.entities ++ [entity], names := Assoc.insert s.names name number } : LoadM Unit)
  register : ∀ site bindings source, InStep Q (execute site bindings (.register source))
  read : ∀ site bindings flag, InStep Q (execute site bindings (.read flag))

theorem PartsInStep.add (h : PartsInStep Q) (site : Site) (name : String) (thing : EntityExpr) :
    InStep Q (add site name thing) := by
  refine InStep.bind (.read LoadState.names h.names) fun names => ?_
  refine (h.create site names thing).bind fun entity => ?_
  refine InStep.bind (.read LoadState.entities h.entities) fun entities => ?_
  exact (h.enter entity name entities.length).bind fun _ => .pure _

theorem PartsInStep.execute (h : PartsInStep Q) (site : Site) (bindings : Bindings) (definition : Definition) :
    InStep Q (execute site bindings definition) := by
  cases definition with
  | define variableName name thing => exact (h.add site name thing).bind fun _ => .pure _
  | bind variableName name =>
    refine InStep.bind (.read LoadState.names h.names) fun names => ?_
    split
    · exact .pure _
    · exact .throw _
  | register source => exact h.register site bindings source
  | read flag => exact h.read site bindings flag
  | fail failure => exact .throw _

theorem PartsInStep.runFile (h : PartsInStep Q) (w : Workspace) (file : String) (package : Package)
    (definitions : List Definition) : InStep Q (runFile w file package definitions) := by
  refine InStep.bind ?_ fun bindings => InStep.bind (.read LoadState.entities h.entities) fun entities => .pure _
  rw [ofFile_eq]
  exact InStep.mapError _ (.foldlM (fun definition _ bindings => h.execute _ bindings definition) _)

end parts

/-! ### Registries -/

/-- Two runs have loaded the same things. -/
structure Meets (P : Pace Registry) (s t : LoadState) : Prop where
  entities : t.entities = s.entities
  names : t.names = s.names
  targets : t.targets = s.targets
  registry : P.Meets s.registry t.registry
  packages : ∀ root, buildDirectories t.store root = buildDirectories s.store root

/-- Loading goes on as the registry does, and leaves the files alone. -/
def loading (P : Pace Registry) : Pace LoadState where
  Meets := Meets P
  Grows s t := P.Grows s.registry t.registry ∧ t.store = s.store
  lasting := ⟨fun _ => ⟨P.lasting.refl _, rfl⟩, fun h h' => ⟨P.lasting.trans h.1 h'.1, h'.2.trans h.2⟩⟩
  Leads s := P.Leads s.registry
  leads_of_grows h := P.leads_of_grows h.1
  Fails s := P.Fails s.registry
  leads_of_fails := P.leads_of_fails

variable {P : Pace Registry} {α : Type}

theorem onRegistry_eq (operation : RegistryM α) :
    onRegistry operation =
      zoom (fun s : LoadState => s.registry) (fun s registry => { s with registry }) operation := by
  funext s
  unfold onRegistry onSettings Settings.onRegistry zoom
  cases operation s.registry <;> rfl

theorem inStep_onRegistry {operation : RegistryM α} (h : InStep P operation) :
    InStep (loading P) (onRegistry operation) := by
  rw [onRegistry_eq]
  exact h.zoom (fun hgrows => ⟨hgrows, rfl⟩) Meets.registry
    (fun hmeets hregistry => { hmeets with registry := hregistry })
    id id

/-- What the flags of a registry have to satisfy for loading to be in step. -/
structure FlagsInStep (P : Pace Registry) : Prop where
  text : ∀ name, InStep P (flagText name)
  adopt : ∀ source, InStep P (Registry.adopt source)
  register : ∀ flag, InStep P (Registry.register flag)
  read : ∀ name, InStep P (discard (Registry.read (.name name)))

theorem inStep_discard_onRegistry {operation : RegistryM α} (h : InStep P (discard operation)) :
    InStep (loading P) (discard (onRegistry operation)) := by
  rw [onRegistry_eq, discard_zoom, ← onRegistry_eq]
  exact inStep_onRegistry h

theorem partsInStep_loading (hflags : FlagsInStep P) : PartsInStep (loading P) where
  names h := h.names.symm
  entities h := h.entities.symm
  create site names thing := inStep_onRegistry (inStep_create hflags.text site names thing)
  enter entity name number := .modify (fun s => (loading P).lasting.refl s) fun h =>
    { h with entities := by rw [h.entities], names := by rw [h.names] }
  register site bindings source := by
    refine InStep.bind (inStep_onRegistry ?_) fun _ => .pure _
    exact (hflags.adopt source).bind fun flag => hflags.register flag
  read site bindings flag := by
    -- the values may differ where they are reported
    refine (inStep_discard_onRegistry (hflags.read flag)).bind_of_discard
      (fun value s => (loading P).lasting.refl s) fun value value' s t h => ?_
    exact ⟨bindings, _, _, rfl, rfl, { h with }⟩

theorem inStep_loadTargets (hflags : FlagsInStep P) (w : Workspace) (files : BuildFiles) :
    InStep (loading P) (loadTargets w files) := by
  have hpackages : InStep (loading P) (currentPackages (locate w.sourceDir)) :=
    .read (fun s : LoadState => buildDirectories s.store _) fun h => (h.packages _).symm
  refine hpackages.bind fun packages => .forM fun directory _ => ?_
  have hpackage := (partsInStep_loading hflags).runFile w (buildFile w.sourceDir directory)
  refine InStep.bind ((hpackage _ _).bind fun n => .pure _) fun found => ?_
  exact .modify (fun s => (loading P).lasting.refl s) fun h => { h with targets := by rw [h.targets] }

end LoadState

end BuildPlan
