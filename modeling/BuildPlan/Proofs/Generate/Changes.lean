import BuildPlan.Proofs.Build.Events
import BuildPlan.Proofs.Build.InStep
import BuildPlan.Proofs.Generate.Stages
import BuildPlan.Proofs.Package.InStep
import BuildPlan.Proofs.Store.Replacement

/-!
# What a run changes

However a run ends, it has changed no files but the one that remembers its flags, if they have been locked, and those
of payloads, provided that the programs of its build files write files only by adding steps.
-/

namespace BuildPlan

namespace Store

variable {s t : Store} {path text : String} {place : Location} {changed : Location → Prop}

theorem changesAt_put (s : Store) (place : Location) (node : Node) : s.ChangesAt (· = place) (s.put place node) := by
  intro other hother text mode
  have hsame : (s.put place node).find? other = s.find? other := by
    unfold find? put
    by_cases hroot : other = []
    · simp [hroot]
    · simp [hroot, Assoc.find?_insert, hother]
  rw [hsame]

theorem changesAt_writeText (h : s.writeText path text = .ok t) : s.ChangesAt (· = locate path) t := by
  obtain ⟨-, -, ⟨-, -, rfl⟩ | ⟨_, _, -, -, rfl⟩⟩ := writeText_ok h
  · exact changesAt_put s _ _
  · exact changesAt_put s _ _

theorem changesAt_keepText (h : Session.keepText s path text = .ok t) : s.ChangesAt (· = locate path) t := by
  obtain ⟨-, -, mode, rfl⟩ := keepText_ok h
  exact changesAt_put s _ _

theorem changesAt_setMode {mode : Nat} (h : s.setMode path mode = .ok t) : s.ChangesAt (· = locate path) t := by
  rcases checkName_cases path with hname | hbad
  case inr =>
    simp only [setMode, hbad, bind, Except.bind] at h
    cases h
  cases habove : s.checkAncestors path (locate path) with
  | error e =>
    simp only [setMode, hname, habove, bind, Except.bind] at h
    cases h
  | ok _ =>
    rw [setMode_eq hname (checkAncestors_eq_ok_iff.mp habove)] at h
    split at h
    · cases h
    split at h
    · cases h
    · cases h
      exact (ChangesAt.lasting _).refl s
    · cases h
      exact changesAt_put s _ _

theorem changesAt_keepPayload (s : Store) (w : Workspace) (payload : Payload) :
    s.ChangesAt (fun place => ∃ name, place = w.dataPlace ++ [name]) (Session.keepPayload s w payload).2 := by
  have hlasting := ChangesAt.lasting fun place => ∃ name, place = w.dataPlace ++ [name]
  have hplace : ∀ place, place = locate (tidyText (payload.file w)) → ∃ name, place = w.dataPlace ++ [name] := by
    intro place h
    exact ⟨payload.fileName, h.trans (locate_payload w payload)⟩
  unfold Session.keepPayload
  simp only
  cases hmake : s.makeDirectories (parentPath (tidyText (payload.file w))) with
  | error e => exact hlasting.refl s
  | ok s₁ =>
    have h₁ : s.ChangesAt (fun place => ∃ name, place = w.dataPlace ++ [name]) s₁ := changesAt_makeDirectories hmake
    simp only
    cases hkeep : Session.keepText s₁ (tidyText (payload.file w)) payload.text with
    | error e => exact h₁
    | ok s₂ =>
      have h₂ := hlasting.trans h₁ ((changesAt_keepText hkeep).mono hplace)
      simp only
      cases hmode : s₂.setMode (tidyText (payload.file w)) payload.mode with
      | error e => exact h₂
      | ok s₃ => exact hlasting.trans h₂ ((changesAt_setMode hmode).mono hplace)

end Store

/-! ### Locking -/

section lock

variable {s t : Settings} {locked : LockedFlags}

/-- The place where flags are remembered, if they are. -/
def flagsPlace (file : Option String) (place : Location) : Prop := ∃ path, file = some path ∧ place = locate path

theorem Settings.changesAt_lock_ok {file : Option String} (h : Settings.lock file s = .ok locked t) :
    s.store.ChangesAt (flagsPlace file) t.store := by
  cases hlocked : s.registry.locked with
  | some found =>
    rw [lock_of_locked hlocked] at h
    cases h
    exact (Store.ChangesAt.lasting _).refl _
  | none =>
    obtain ⟨registry, store, -, hremember, rfl⟩ := (lock_eq_ok_iff hlocked).mp h
    cases file with
    | none =>
      rw [remember_none] at hremember
      cases hremember
      exact (Store.ChangesAt.lasting _).refl _
    | some path =>
      rw [remember_some] at hremember
      obtain ⟨between, hmake, hwrite⟩ := saveFlags_eq_ok_iff.mp hremember
      refine (Store.ChangesAt.lasting _).trans (Store.changesAt_makeDirectories hmake) ?_
      refine (Store.changesAt_writeText hwrite).mono fun place hplace => ⟨path, rfl, ?_⟩
      rw [hplace, locate_tidyText]

theorem Settings.changesAt_lock_error {file : Option String} {e : Failure} {changed : Location → Prop}
    (h : Settings.lock file s = .error e t) : s.store.ChangesAt changed t.store := by
  cases hlocked : s.registry.locked with
  | some found =>
    rw [lock_of_locked hlocked] at h
    cases h
  | none =>
    obtain ⟨registry, -, rfl⟩ | ⟨locked, registry, store, -, hremember, rfl⟩ := (lock_eq_error_iff hlocked).mp h
    · exact (Store.ChangesAt.lasting _).refl _
    · cases file with
      | none =>
        rw [remember_none] at hremember
        cases hremember
      | some path =>
        rw [remember_some] at hremember
        obtain ⟨_, -, -, rfl⟩ | ⟨_, hmake, -, -⟩ := saveFlags_eq_error_iff.mp hremember
        · exact (Store.ChangesAt.lasting _).refl _
        · exact Store.changesAt_makeDirectories hmake

end lock

/-! ### Building -/

namespace Session

/-- The files change at certain places only. -/
def ChangesAt (changed : Location → Prop) (s t : Session) : Prop := s.store.ChangesAt changed t.store

variable {changed : Location → Prop}

theorem steady_changesAt (changed : Location → Prop) : Steady (ChangesAt changed) where
  refl s := (Store.ChangesAt.lasting changed).refl s.store
  trans := (Store.ChangesAt.lasting changed).trans
  registry s _ := (Store.ChangesAt.lasting changed).refl s.store
  reports s _ := (Store.ChangesAt.lasting changed).refl s.store
  executables s _ := (Store.ChangesAt.lasting changed).refl s.store
  built s _ := (Store.ChangesAt.lasting changed).refl s.store
  dependencies s _ := (Store.ChangesAt.lasting changed).refl s.store
  traced _ _ _ h := h

/-- Building changes nothing but payload files. -/
theorem changesAt_closed (p : Project) :
    Closed p (Keeps (ChangesAt fun place => ∃ name, place = p.workspace.dataPlace ++ [name])) := by
  have hsteady := steady_changesAt fun place => ∃ name, place = p.workspace.dataPlace ++ [name]
  have hgraph : ∀ change, Keeps (ChangesAt fun place => ∃ name, place = p.workspace.dataPlace ++ [name])
      (onGraph change) := fun _ => keeps_onGraph hsteady.toLasting fun s _ _ => hsteady.refl s
  have hpayload : ∀ payload, Keeps (ChangesAt fun place => ∃ name, place = p.workspace.dataPlace ++ [name])
      (writePayload p.workspace payload) := by
    intro payload
    cases payload with
    | none => exact .pure hsteady.toLasting ()
    | some payload =>
      change Keeps _ (onStore fun store => keepPayload store p.workspace payload)
      refine keeps_onStore fun s => ?_
      have hkeep := Store.changesAt_keepPayload s.store p.workspace payload
      generalize (keepPayload s.store p.workspace payload).2 = store at hkeep ⊢
      exact hkeep
  exact {
    toBuilding := Keeps.building hsteady ((Keeps.reading hsteady.toLasting).addStep hpayload
      fun _ _ _ => (hgraph _).bind hsteady.toLasting fun _ => hgraph _)
    targetRule := fun _ _ s => hsteady.refl s
    startTarget := fun _ _ s => hsteady.refl s
    finishTarget := fun s => hsteady.refl s
    during := fun target _ h => keeps_during target h }

end Session

theorem Action.WritesBySteps.body {a : Action} (h : a.WritesBySteps) : ∀ b ∈ a.body, b.WritesBySteps := by
  cases h with
  | intro _ hbody => exact hbody

theorem changesAt_finalGraph {p : Project} (hp : p.RunsOnly Action.WritesBySteps) :
    Keeps (Session.ChangesAt fun place => ∃ name, place = p.workspace.dataPlace ++ [name]) (finalGraph p) := by
  have hclosed := Session.changesAt_closed p
  refine hclosed.bind ?_ fun _ => hclosed.graph
  refine hclosed.perform hp (fun _ => Action.WritesBySteps.body) (fun directory fileName h => ?_) _ _ (.intro nofun nofun)
  cases h with
  | intro hfile => exact absurd rfl (hfile directory fileName)

/-! ### Loading -/

/-- All programs of things are of a certain sort. -/
def Entities.RunOnly (entities : Entities) (P : Action → Prop) : Prop :=
  ∀ c, .custom c ∈ entities → ∀ a ∈ c.actions, P a

/-- All programs in build files are of a certain sort. -/
def BuildFiles.RunOnly (files : BuildFiles) (P : Action → Prop) : Prop :=
  ∀ file definitions, (file, definitions) ∈ files →
    ∀ variableName name c, .define variableName name (.custom c) ∈ definitions → ∀ a ∈ c.actions, P a

theorem EntityOf.create_custom {site : Site} {names : EntityNames} {thing : EntityExpr} {c : Custom}
    {registry registry' : Registry} (h : thing.create site names registry = .ok (.custom c) registry') :
    ∃ program, thing = .custom program ∧ c.actions = program.actions := by
  cases thing with
  | custom program =>
    cases h
    exact ⟨program, rfl, rfl⟩
  | group members =>
    obtain ⟨_, _, -, h⟩ := bind_eq_ok_iff.mp h
    cases h
  | inert => cases h
  | objectFile o =>
    obtain ⟨_, _, -, h⟩ := bind_eq_ok_iff.mp h
    obtain ⟨_, _, -, h⟩ := bind_eq_ok_iff.mp h
    obtain ⟨_, _, -, h⟩ := bind_eq_ok_iff.mp h
    cases h
  | library l =>
    obtain ⟨_, _, -, h⟩ := bind_eq_ok_iff.mp h
    obtain ⟨_, _, -, h⟩ := bind_eq_ok_iff.mp h
    obtain ⟨_, _, -, h⟩ := bind_eq_ok_iff.mp h
    obtain ⟨_, _, -, h⟩ := bind_eq_ok_iff.mp h
    cases h
  | executable x =>
    obtain ⟨_, _, -, h⟩ := bind_eq_ok_iff.mp h
    obtain ⟨_, _, -, h⟩ := bind_eq_ok_iff.mp h
    obtain ⟨_, _, -, h⟩ := bind_eq_ok_iff.mp h
    obtain ⟨_, _, -, h⟩ := bind_eq_ok_iff.mp h
    cases h

namespace LoadState

variable {P : Action → Prop} {files : BuildFiles}

/-- The files stay, and all programs stay of a certain sort. -/
def Loads (P : Action → Prop) (s t : LoadState) : Prop :=
  t.store = s.store ∧ (s.entities.RunOnly P → t.entities.RunOnly P)

theorem Loads.lasting (P : Action → Prop) : Lasting (Loads P) where
  refl _ := ⟨rfl, id⟩
  trans hst htu := ⟨htu.1.trans hst.1, fun h => htu.2 (hst.2 h)⟩

theorem loads_onRegistry {α : Type} (operation : RegistryM α) : Keeps (Loads P) (onRegistry operation) := by
  intro s
  rw [onRegistry_eq, endState_zoom]
  exact ⟨rfl, id⟩

theorem loads_add (site : Site) (name : String) {thing : EntityExpr}
    (hthing : ∀ c, thing = .custom c → ∀ a ∈ c.actions, P a) : Keeps (Loads P) (add site name thing) := by
  intro s
  have hcreate := loads_onRegistry (P := P) (thing.create site s.names) s
  change Loads P s (endState (onRegistry (thing.create site s.names) >>= _) s)
  cases hop : onRegistry (thing.create site s.names) s with
  | error e t =>
    rw [endState_of_error hop] at hcreate
    rw [endState_bind_of_error hop]
    exact hcreate
  | ok entity t =>
    rw [endState_of_ok hop] at hcreate
    rw [endState_bind_of_ok hop]
    refine ⟨hcreate.1, fun hs c hc => ?_⟩
    rcases List.mem_append.mp hc with hc | hc
    · exact hcreate.2 hs c hc
    · rw [onRegistry_eq, zoom_eq_ok_iff] at hop
      obtain ⟨registry, hop, -⟩ := hop
      rw [← List.mem_singleton.mp hc] at hop
      obtain ⟨program, rfl, hactions⟩ := EntityOf.create_custom hop
      rw [hactions]
      exact hthing program rfl

theorem loads_execute (site : Site) (bindings : Bindings) {definition : Definition}
    (hdefinition : ∀ variableName name c, definition = .define variableName name (.custom c) → ∀ a ∈ c.actions, P a) :
    Keeps (Loads P) (execute site bindings definition) := by
  have hlasting := Loads.lasting P
  cases definition with
  | define variableName name thing =>
    refine (loads_add site name fun c hc => ?_).bind hlasting fun _ => .pure hlasting _
    rw [hc] at hdefinition
    exact hdefinition variableName name c rfl
  | bind variableName name =>
    refine Keeps.bind hlasting (fun s => hlasting.refl s) fun names => ?_
    split
    · exact .pure hlasting _
    · exact .throw hlasting _
  | register flag => exact (loads_onRegistry _).bind hlasting fun _ => .pure hlasting _
  | read flag => exact (loads_onRegistry _).bind hlasting fun _ s => ⟨rfl, id⟩
  | fail failure => exact .throw hlasting _

/-- Loading the targets of a source tree leaves its files alone, and finds only the programs of its build files. -/
theorem loads_loadTargets (hfiles : files.RunOnly P) (w : Workspace) : Keeps (Loads P) (loadTargets w files) := by
  have hlasting := Loads.lasting P
  suffices h : InStep (.alone hlasting) (loadTargets w files) from h.keeps
  refine InStep.bind (.alone fun s => hlasting.refl s) fun packages => .forM fun directory _ => ?_
  refine InStep.bind ?_ fun found => .alone fun s => ⟨rfl, id⟩
  refine InStep.bind ?_ fun n => .pure _
  refine InStep.bind ?_ fun bindings => .alone fun s => hlasting.refl s
  rw [ofFile_eq]
  refine InStep.mapError _ (.foldlM (fun definition hdefinition bindings => .alone ?_) _)
  refine loads_execute _ bindings fun variableName name c hdefine => ?_
  subst hdefine
  cases hfound : Assoc.find? files (locate w.sourceDir ++ directory ++ [buildFileName]) with
  | none =>
    rw [hfound] at hdefinition
    cases hdefinition
  | some definitions =>
    rw [hfound] at hdefinition
    exact hfiles _ definitions (Assoc.mem_of_find? hfound) variableName name c hdefinition

end LoadState

/-! ### The whole run -/

section run

variable {files : BuildFiles} {input : Input}

/-- The targets of a source tree are loaded, with the flags that are remembered. -/
def loadTree (files : BuildFiles) (input : Input) : LoadM Unit := do
  openRegistry input
  LoadState.loadTargets input.workspace files

theorem generateFromTree_eq (files : BuildFiles) (input : Input) :
    generateFromTree files input = (do loadTree files input; generate input) := by
  rw [generateFromTree, loadTree, bind_assoc]

/-- The run locks its flags and remembers them. -/
def LocksFlags (files : BuildFiles) (input : Input) (store : Store) : Prop :=
  input.persist = true ∧ ∃ loaded locked settings, loadTree files input { store } = .ok () loaded ∧
    Settings.lock (some input.workspace.flagsFile) loaded.toSettings = .ok locked settings

/-- Where the run may change files: where it remembers flags, and in the directory of payloads. -/
def MayChange (files : BuildFiles) (input : Input) (store : Store) (place : Location) : Prop :=
  (LocksFlags files input store ∧ place = locate input.workspace.flagsFile) ∨
    ∃ name, place = input.workspace.dataPlace ++ [name]

theorem loads_loadTree {P : Action → Prop} (hfiles : files.RunOnly P) (input : Input) :
    Keeps (LoadState.Loads P) (loadTree files input) := by
  have hlasting := LoadState.Loads.lasting P
  refine Keeps.bind hlasting ?_ fun _ => LoadState.loads_loadTargets hfiles _
  refine Keeps.bind hlasting (fun s => ?_) fun remembered s => ⟨rfl, id⟩
  rw [LoadState.onSettings_eq, endState_zoom]
  unfold Settings.load Settings.onStore endState
  simp only
  cases loadFlags s.store input.workspace.flagsFile <;> exact ⟨rfl, id⟩

theorem changesAt_generate_of_ok {s u : LoadState} {locked : LockedFlags}
    (hlock : LoadState.onSettings (Settings.lock (if input.persist then some input.workspace.flagsFile else none)) s =
      .ok locked u) (hs : u.entities.RunOnly Action.WritesBySteps) :
    u.store.ChangesAt (fun place => ∃ name, place = input.workspace.dataPlace ++ [name])
      (endState (generate input) s).store := by
  have hsame := (Store.ChangesAt.lasting fun place => ∃ name, place = input.workspace.dataPlace ++ [name]).refl u.store
  rw [generate, endState_bind_of_ok hlock, endState_get_bind]
  cases selectTargets u.targetEntities input with
  | error cause => exact hsame
  | ok targets =>
    by_cases hmode : input.mode.generates = true
    · simp only [pure_bind, hmode, if_true]
      rw [endState_get_bind, endState_bind_quiet fun _ _ => rfl, LoadState.onSession_eq, endState_zoom]
      exact changesAt_finalGraph (p := u.project input locked.hash) hs _
    · simp only [pure_bind, hmode]
      exact hsame

/-- **However a run ends, it changes no files but those that it may change.** -/
theorem changesAt_generateFromTree (hfiles : files.RunOnly Action.WritesBySteps) (input : Input) (store : Store) :
    store.ChangesAt (MayChange files input store) (endState (generateFromTree files input) { store }).store := by
  have hlasting := Store.ChangesAt.lasting (MayChange files input store)
  have hloads := loads_loadTree hfiles input { store }
  rw [generateFromTree_eq]
  cases hload : loadTree files input { store } with
  | error e s =>
    rw [endState_of_error hload] at hloads
    rw [endState_bind_of_error hload, hloads.1]
    exact hlasting.refl store
  | ok _ s =>
    rw [endState_of_ok hload] at hloads
    obtain ⟨hstore, hprograms⟩ := hloads
    rw [endState_bind_of_ok hload]
    change s.store = store at hstore
    cases hlock : LoadState.onSettings
        (Settings.lock (if input.persist then some input.workspace.flagsFile else none)) s with
    | error e u =>
      have hgenerate : endState (generate input) s = u := endState_bind_of_error hlock
      rw [LoadState.onSettings_eq, zoom_eq_error_iff] at hlock
      obtain ⟨settings, hlock, rfl⟩ := hlock
      rw [hgenerate, ← hstore]
      exact Settings.changesAt_lock_error hlock
    | ok locked u =>
      have hafter := changesAt_generate_of_ok hlock
      obtain ⟨settings, hsettings, rfl⟩ := LoadState.onSettings_eq_ok_iff.mp hlock
      have hbefore := Settings.changesAt_lock_ok hsettings
      change s.store.ChangesAt _ settings.store at hbefore
      rw [hstore] at hbefore
      refine hlasting.trans (hbefore.mono ?_) ((hafter (hprograms nofun)).mono fun place hplace => .inr hplace)
      rintro place ⟨path, hpath, rfl⟩
      cases hpersist : input.persist with
      | false =>
        rw [hpersist] at hpath
        cases hpath
      | true =>
        rw [hpersist, if_pos rfl] at hpath hsettings
        obtain rfl := Option.some.inj hpath
        have hlocks : LocksFlags files input store := ⟨hpersist, s, locked, settings, hload, hsettings⟩
        exact .inl ⟨hlocks, rfl⟩

end run

end BuildPlan
