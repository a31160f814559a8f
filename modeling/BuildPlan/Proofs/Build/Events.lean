import BuildPlan.Proofs.Build.Frontier
import BuildPlan.Proofs.Graph.Records

/-!
# What happens in a build

The build of a target runs an arbitrary program, which may fail anywhere and may go on after a failure. `Session.Emits`
follows its execution and collects the events that matter to the graph: the steps that have been taken and the
dependencies that have been added. `Session.Emits.shows` says that the session in which the build ends shows exactly
these events, whether or not it fails, and `Session.exists_emits_buildEntity` that every build has them.
-/

namespace BuildPlan

/-- Something that happens to the graph in a build. -/
inductive Event
  /-- A step with outputs has been taken, as a new edge or as a new trace of an old one. -/
  | step (step : AnyStep)
  /-- The current target needs a top-level name. -/
  | dependency (name : String)

namespace Event

/-- The steps among some events. -/
def steps : List Event → List AnyStep
  | [] => []
  | .step taken :: events => taken :: steps events
  | .dependency _ :: events => steps events

/-- The dependencies among some events. -/
def dependencies : List Event → List String
  | [] => []
  | .step _ :: events => dependencies events
  | .dependency name :: events => name :: dependencies events

theorem steps_append (events more : List Event) : steps (events ++ more) = steps events ++ steps more := by
  induction events with
  | nil => rfl
  | cons event rest ih => cases event <;> simp [steps, ih]

theorem dependencies_append (events more : List Event) :
    dependencies (events ++ more) = dependencies events ++ dependencies more := by
  induction events with
  | nil => rfl
  | cons event rest ih => cases event <;> simp [dependencies, ih]

end Event

namespace Session

/-- An operation that starts in a session comes through these events. Operations are followed through everything that
they are put together from, and what has happened before an error has happened. -/
inductive Emits (w : Workspace) : ∀ {α : Type}, SessionM α → Session → List Event → Prop
  | pure {α s} (a : α) : Emits w (pure a) s []
  | throw {α s} (e : Failure) : Emits w (throw e : SessionM α) s []
  | get {s} : Emits w get s []
  | onRegistry {α s} (operation : RegistryM α) : Emits w (onRegistry operation) s []
  | onStore {α s} (operation : Store → Except Failure α × Store) : Emits w (onStore operation) s []
  | link {s} (id : Nat) (path : Path) :
      Emits w (modify fun s => { s with executables := Assoc.insert s.executables id path } : SessionM PUnit) s []
  | mark {s} (name : String) : Emits w (changeGraph fun g => { g with built := g.built ++ [name] }) s []
  | dependency {s} (name : String) :
      Emits w (changeGraph fun g => { g with dependencies := g.dependencies ++ [name] }) s [.dependency name]
  | step {s t step} (houts : step.outs ≠ []) (h : addStep w step s = .ok () t) :
      Emits w (addStep w step) s [.step step]
  | ignored {s step} (houts : step.outs = []) : Emits w (addStep w step) s []
  | refused {s step e t} (h : addStep w step s = .error e t) : Emits w (addStep w step) s []
  | bind {α β s events a t more} {x : SessionM α} {f : α → SessionM β} (hx : Emits w x s events) (h : x s = .ok a t)
      (hf : Emits w (f a) t more) : Emits w (x >>= f) s (events ++ more)
  | stopped {α β s events e t} {x : SessionM α} {f : α → SessionM β} (hx : Emits w x s events) (h : x s = .error e t) :
      Emits w (x >>= f) s events
  | report {s events} {x : SessionM Reply} (hx : Emits w (discard x) s events) : Emits w (x >>= report) s events
  | traced {α s label events} {x : SessionM α} (hx : Emits w x (s.push label) events) :
      Emits w (traced label x) s events
  | attempt {s events} {x : SessionM Unit} (hx : Emits w x s events) : Emits w (attempt x) s events

/-- The second session shows these events and otherwise the same trace and the same rules of targets as the first. -/
structure Shows (w : Workspace) (s : Session) (events : List Event) (t : Session) : Prop where
  statements : ∀ statement, statement ∈ t.graph.statements ↔
    statement ∈ s.graph.statements ∨ ∃ step ∈ Event.steps events, step.signature w = statement
  dependencies : t.graph.dependencies = s.graph.dependencies ++ Event.dependencies events
  targetRules : t.graph.targetRules = s.graph.targetRules
  trace : t.graph.trace = s.graph.trace

variable {w : Workspace} {s t u : Session} {events more : List Event}

namespace Shows

theorem of_eq (hedges : t.graph.edges = s.graph.edges) (hdependencies : t.graph.dependencies = s.graph.dependencies)
    (hrules : t.graph.targetRules = s.graph.targetRules) (htrace : t.graph.trace = s.graph.trace) :
    Shows w s [] t where
  statements _ := by simp [Graph.statements, hedges, Event.steps]
  dependencies := by rw [hdependencies, Event.dependencies, List.append_nil]
  targetRules := hrules
  trace := htrace

theorem trans (h : Shows w s events t) (hmore : Shows w t more u) : Shows w s (events ++ more) u where
  statements statement := by
    rw [hmore.statements, h.statements, Event.steps_append]
    simp only [List.mem_append, or_and_right, exists_or, or_assoc]
  dependencies := by rw [hmore.dependencies, h.dependencies, Event.dependencies_append, List.append_assoc]
  targetRules := hmore.targetRules.trans h.targetRules
  trace := hmore.trace.trans h.trace

theorem pop {label : String} (h : Shows w (s.push label) events t) : Shows w s events t.pop where
  statements := h.statements
  dependencies := h.dependencies
  targetRules := h.targetRules
  trace := by
    show t.graph.trace.dropLast = s.graph.trace
    rw [h.trace]
    exact List.dropLast_concat

end Shows

/-- Adding a step has nothing to do with dependencies, the rules of targets and the trace, whether or not it fails. -/
def SameAside (s t : Session) : Prop :=
  t.graph.dependencies = s.graph.dependencies ∧ t.graph.targetRules = s.graph.targetRules ∧
    t.graph.trace = s.graph.trace

theorem SameAside.lasting : Lasting SameAside where
  refl _ := ⟨rfl, rfl, rfl⟩
  trans := by
    rintro s t u ⟨hneeds, hrules, htrace⟩ ⟨hneeds', hrules', htrace'⟩
    exact ⟨hneeds'.trans hneeds, hrules'.trans hrules, htrace'.trans htrace⟩

theorem keeps_onGraph {R : Session → Session → Prop} (hR : Lasting R) {change : Graph → Except Cause Graph}
    (h : ∀ (s : Session) (graph : Graph), change s.graph = .ok graph → R s { s with graph }) :
    Keeps R (onGraph change) := by
  intro s
  cases hop : onGraph change s with
  | ok _ t =>
    rw [endState_of_ok hop]
    obtain ⟨graph, hchange, rfl⟩ := onGraph_eq_ok_iff.mp hop
    exact h s graph hchange
  | error e t =>
    obtain ⟨_, -, -, rfl⟩ := onGraph_eq_error_iff.mp hop
    rw [endState_of_error hop]
    exact hR.refl _

theorem keeps_aside_addStep (w : Workspace) (step : AnyStep) : Keeps SameAside (addStep w step) := by
  refine (Keeps.reading SameAside.lasting).addStep (fun payload => ?_) (fun statement _ origin => ?_) step
  · cases payload with
    | none => exact .pure SameAside.lasting ()
    | some payload => exact keeps_onStore fun _ => ⟨rfl, rfl, rfl⟩
  · have hdeclare : Keeps SameAside (onGraph (·.declare statement.rule)) := by
      refine keeps_onGraph SameAside.lasting fun s graph h => ?_
      obtain ⟨rules, rfl⟩ := Graph.declare_eq h
      exact ⟨rfl, rfl, rfl⟩
    refine hdeclare.bind SameAside.lasting fun _ => keeps_onGraph SameAside.lasting fun s graph h => ?_
    rcases Graph.accept_cases h with ⟨_, _, -, -, -, rfl⟩ | ⟨-, rfl⟩ <;> exact ⟨rfl, rfl, rfl⟩

theorem shows_of_addStep {step : AnyStep} (houts : step.outs ≠ []) (h : addStep w step s = .ok () t) :
    Shows w s [.step step] t := by
  obtain ⟨hdependencies, hrules, htrace⟩ := (keeps_aside_addStep w step).ok h
  refine ⟨fun statement => ?_, by rw [hdependencies]; exact (List.append_nil _).symm, hrules, htrace⟩
  obtain ⟨-, -, g₁, g', hdeclare, haccept, rfl⟩ := (addStep_eq_ok_iff houts).mp h
  obtain ⟨rules, rfl⟩ := Graph.declare_eq hdeclare
  refine (Graph.mem_statements_of_accept haccept statement).trans ?_
  simp [Graph.statements, Event.steps]

theorem shows_of_addStep_error {step : AnyStep} {e : Failure} (h : addStep w step s = .error e t) :
    Shows w s [] t := by
  have haside := keeps_aside_addStep w step s
  rw [endState_of_error h] at haside
  exact .of_eq (sameRecords_of_addStep_error h).edges haside.1 haside.2.1 haside.2.2

theorem endState_traced {α : Type} (label : String) (operation : SessionM α) (s : Session) :
    endState (traced label operation) s = (endState operation (s.push label)).pop := by
  unfold endState traced
  cases operation (s.push label) <;> rfl

theorem endState_attempt (operation : SessionM Unit) (s : Session) :
    endState (attempt operation) s = endState operation s := by
  unfold endState attempt
  rcases operation s with ⟨_, _⟩ | ⟨_ | _, _⟩ <;> rfl

theorem Emits.shows {α : Type} {x : SessionM α} (h : Emits w x s events) : Shows w s events (endState x s) := by
  induction h with
  | pure | throw | get | link | mark => exact .of_eq rfl rfl rfl rfl
  | onRegistry operation =>
    have hgraph := keeps_graph_onRegistry operation
    exact .of_eq (congrArg _ (hgraph _)) (congrArg _ (hgraph _)) (congrArg _ (hgraph _)) (congrArg _ (hgraph _))
  | onStore operation =>
    have hgraph : Keeps SameGraph (Session.onStore operation) := keeps_onStore fun _ => rfl
    exact .of_eq (congrArg _ (hgraph _)) (congrArg _ (hgraph _)) (congrArg _ (hgraph _)) (congrArg _ (hgraph _))
  | dependency name => exact ⟨fun _ => by simp [Event.steps]; rfl, rfl, rfl, rfl⟩
  | step houts h =>
    rw [endState_of_ok h]
    exact shows_of_addStep houts h
  | ignored houts =>
    rw [endState_of_ok (addStep_of_outs_eq_nil houts _)]
    exact .of_eq rfl rfl rfl rfl
  | refused h =>
    rw [endState_of_error h]
    exact shows_of_addStep_error h
  | bind _ h _ ihx ihf =>
    rw [endState_bind_of_ok h]
    rw [endState_of_ok h] at ihx
    exact ihx.trans ihf
  | stopped _ h ihx =>
    rw [endState_bind_of_error h]
    rwa [endState_of_error h] at ihx
  | @report s events x hx ihx =>
    -- an answer is left out of account until it is reported
    rw [endState_discard] at ihx
    cases hop : x s with
    | ok reply t =>
      rw [endState_bind_of_ok hop]
      rw [endState_of_ok hop] at ihx
      exact ⟨ihx.statements, ihx.dependencies, ihx.targetRules, ihx.trace⟩
    | error e t =>
      rw [endState_bind_of_error hop]
      rwa [endState_of_error hop] at ihx
  | traced _ ihx =>
    rw [endState_traced]
    exact ihx.pop
  | attempt _ ihx => rwa [endState_attempt]

/-- The events of a build are found by following it through what it is put together from. -/
theorem building_emits (p : Project) : Building p fun x => ∀ s, ∃ events, Emits p.workspace x s events := by
  have bind : ∀ {α β : Type} {x : SessionM α} {f : α → SessionM β}, (∀ s, ∃ events, Emits p.workspace x s events) →
      (∀ a s, ∃ events, Emits p.workspace (f a) s events) → ∀ s, ∃ events, Emits p.workspace (x >>= f) s events := by
    intro α β x f hx hf s
    obtain ⟨events, hevents⟩ := hx s
    cases h : x s with
    | ok a t =>
      obtain ⟨more, hmore⟩ := hf a t
      exact ⟨_, hevents.bind h hmore⟩
    | error e t => exact ⟨_, hevents.stopped h⟩
  exact {
    pure := fun a s => ⟨_, .pure a⟩
    throw := fun e s => ⟨_, .throw e⟩
    bind := bind
    graph := bind (fun _ => ⟨_, .get⟩) fun s _ => ⟨_, .pure s.graph⟩
    executables := bind (fun _ => ⟨_, .get⟩) fun s _ => ⟨_, .pure s.executables⟩
    check := fun x s => ⟨_, .onRegistry _⟩
    step := fun site step s => ⟨_, .onRegistry _⟩
    ruleStep := fun site step s => ⟨_, .onRegistry _⟩
    register := fun source s => ⟨_, .onRegistry _⟩
    flagValue := fun name => by
      rw [discard_eq]
      exact bind (fun _ => ⟨_, .onRegistry _⟩) fun _ _ => ⟨_, .pure ()⟩
    addStep := fun step s => by
      by_cases houts : step.outs = []
      · exact ⟨_, .ignored houts⟩
      · cases h : Session.addStep p.workspace step s with
        | ok _ t => exact ⟨_, .step houts h⟩
        | error e t => exact ⟨_, .refused h⟩
    report := fun hx s => (hx s).imp fun _ => .report
    link := fun id path s => ⟨_, .link id path⟩
    mark := fun name s => ⟨_, .mark name⟩
    dependency := fun _ _ s => ⟨_, .dependency _⟩
    traced := fun label x hx s => (hx (s.push label)).imp fun _ => .traced
    attempt := fun hx s => (hx s).imp fun _ => .attempt }

theorem emits_writeBuildFile (p : Project) (directory fileName : String) (s : Session) :
    ∃ events, Emits p.workspace (writeBuildFile directory fileName) s events := by
  have hC := building_emits p
  exact hC.bind hC.graph (fun graph => hC.bind (fun s => ⟨_, .onStore _⟩) fun _ => hC.pure _) s

theorem exists_emits_buildEntity {p : Project} {id : Nat} (hhandles : p.HandlesNoTargets id) (depth : Nat)
    (s : Session) : ∃ events, Emits p.workspace (buildEntity p (reported (perform p depth)) id) s events :=
  (building_emits p).buildEntity_of_handlesNoTargets (emits_writeBuildFile p) hhandles depth s

end Session

end BuildPlan
