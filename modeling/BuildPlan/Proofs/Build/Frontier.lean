import BuildPlan.Proofs.Build.Refusal
import BuildPlan.Proofs.Build.Target
import BuildPlan.Proofs.Graph.Frontier

/-!
# What the rule of a target stands for

The rule of an exported target stands for the outputs that its steps have left over. `Session.Adds` says which steps a
build has added, in their order, and nothing else that a build does counts: not what it reads or marks, and not the steps
that were refused. From the steps alone follows what the rule of the target stands for.
-/

namespace BuildPlan

/-- The files that a step uses. -/
def AnyStep.uses : AnyStep → List Path
  | .plain s => s.allIns ++ s.orderOnly
  | .ruled s => s.ins ++ s.implicit ++ s.orderOnly

theorem AnyStep.uses_signature (step : AnyStep) (w : Workspace) : (step.signature w).uses = step.uses := by
  cases step with
  | plain s => simp [signature, statement, Step.statement, Statement.uses, uses]
  | ruled s => rfl

theorem leftOver_signatures_iff {steps : List AnyStep} {w : Workspace} {path : Path} :
    (∃ before s after, steps.map (·.signature w) = before ++ s :: after ∧ path ∈ s.outs ∧
      ∀ t ∈ s :: after, path ∉ t.uses) ↔
    ∃ before step after, steps = before ++ step :: after ∧ path ∈ step.outs ∧
      ∀ later ∈ step :: after, path ∉ later.uses := by
  constructor
  · rintro ⟨_, _, _, hsplit, hout, hlater⟩
    obtain ⟨before, rest, rfl, -, hrest⟩ := List.map_eq_append_iff.mp hsplit
    obtain ⟨step, after, rfl, rfl, rfl⟩ := List.map_eq_cons_iff.mp hrest
    refine ⟨before, step, after, rfl, by rwa [AnyStep.signature, AnyStep.outs_statement] at hout, fun later h => ?_⟩
    rw [← later.uses_signature w]
    exact hlater _ (List.mem_map_of_mem (f := (·.signature w)) h)
  · rintro ⟨before, step, after, rfl, hout, hlater⟩
    refine ⟨before.map (·.signature w), step.signature w, after.map (·.signature w), by simp,
      by rwa [AnyStep.signature, AnyStep.outs_statement], fun t ht => ?_⟩
    obtain ⟨later, hmem, rfl⟩ := List.mem_map.mp (List.map_cons ▸ ht : t ∈ (step :: after).map (·.signature w))
    rw [later.uses_signature]
    exact hlater later hmem

/-! ### Builds that handle no targets -/

/-- What carrying out some actions can come to: these actions and those inside of them, and the programs of the things
that they build or run in turn. -/
inductive Project.MayPerform (p : Project) (program : List Action) : Action → Prop
  | start {a} (ha : a ∈ program) : p.MayPerform program a
  | body {a b} (ha : p.MayPerform program a) (hb : b ∈ a.body) : p.MayPerform program b
  | build {name id c a} (hbuild : p.MayPerform program (.build name)) (hname : p.names.resolve name = .ok id)
    (hc : p.entities[id]? = some (.custom c)) (ha : a ∈ c.build) : p.MayPerform program a
  | run {name arguments id c own a} (hrun : p.MayPerform program (.run name arguments))
    (hname : p.names.resolve name = .ok id) (hc : p.entities[id]? = some (.custom c)) (hown : c.run = some own)
    (ha : a ∈ own.actions) : p.MayPerform program a

/-- The programs of the thing with a number handle no targets. -/
def Project.HandlesNoTargets (p : Project) (id : Nat) : Prop :=
  ∀ c, p.entities[id]? = some (.custom c) → ∀ a, p.MayPerform c.actions a →
    (∀ name other, a ≠ .handleTarget name other) ∧ a ≠ .processTargets

theorem Project.runs_mayPerform (p : Project) (program : List Action) : p.Runs (p.MayPerform program) where
  body ha _ hb := .body ha hb
  build hbuild hname hc _ ha := .build hbuild hname hc ha
  run hrun hname hc hown _ ha := .run hrun hname hc hown ha

theorem Project.handlesNoTargets_of_native {p : Project} {id : Nat} (h : ∀ c, p.entities[id]? ≠ some (.custom c)) :
    p.HandlesNoTargets id := fun c hc => absurd hc (h c)

theorem Project.handlesNoTargets_of_runsOnly {p : Project} {P : Action → Prop} (hP : p.RunsOnly P)
    (hbody : ∀ a, P a → ∀ b ∈ a.body, P b) (hhandle : ∀ name other, ¬P (.handleTarget name other))
    (hprocess : ¬P .processTargets) (id : Nat) : p.HandlesNoTargets id := by
  intro c hc a ha
  have hsort : P a := by
    induction ha with
    | start ha => exact hP.of_getElem? hc _ ha
    | body _ hb ih => exact hbody _ ih _ hb
    | build _ _ hc ha _ => exact hP.of_getElem? hc _ (Custom.mem_actions_of_build ha)
    | run _ _ hc hown ha _ => exact hP.of_getElem? hc _ (Custom.mem_actions_of_run hown ha)
  exact ⟨fun name other h => hhandle name other (h ▸ hsort), fun h => hprocess (h ▸ hsort)⟩

namespace Session

/-! ### The steps that are added -/

/-- The sessions have the same edges, the current target has asked for the same in both, and the same rules of targets
are known. -/
structure SameRecords (s t : Session) : Prop where
  edges : t.graph.edges = s.graph.edges
  outputs : t.graph.outputs = s.graph.outputs
  asked : t.graph.asked = s.graph.asked
  targetRules : t.graph.targetRules = s.graph.targetRules

/-- Some steps with outputs are added one after another, with nothing in between that leaves a record. -/
inductive Adds (w : Workspace) : Session → List AnyStep → Session → Prop
  | quiet {s t} (h : SameRecords s t) : Adds w s [] t
  | step {s step t} (houts : step.outs ≠ []) (h : addStep w step s = .ok () t) : Adds w s [step] t
  | append {s steps t more u} (h : Adds w s steps t) (hmore : Adds w t more u) : Adds w s (steps ++ more) u

variable {w : Workspace} {s t : Session} {steps : List AnyStep}

theorem addStep_asked {step : AnyStep} (houts : step.outs ≠ []) (h : addStep w step s = .ok () t) :
    t.graph.asked = s.graph.asked ++ [step.signature w] ∧ t.graph.targetRules = s.graph.targetRules := by
  obtain ⟨-, -, g₁, g', hdeclare, haccept, rfl⟩ := (addStep_eq_ok_iff houts).mp h
  obtain ⟨rules, rfl⟩ := Graph.declare_eq hdeclare
  rcases Graph.accept_cases haccept with ⟨_, _, -, -, -, rfl⟩ | ⟨-, rfl⟩ <;> exact ⟨rfl, rfl⟩

theorem Adds.asked (h : Adds w s steps t) :
    t.graph.asked = s.graph.asked ++ steps.map (·.signature w) ∧ t.graph.targetRules = s.graph.targetRules := by
  induction h with
  | quiet h => exact ⟨by simpa using h.asked, h.targetRules⟩
  | step houts h => exact addStep_asked houts h
  | append _ _ ih ih' =>
    obtain ⟨hasked, hrules⟩ := ih
    obtain ⟨hasked', hrules'⟩ := ih'
    exact ⟨by rw [hasked', hasked, List.map_append, List.append_assoc], hrules'.trans hrules⟩

theorem sameRecords_of_addStep_error {step : AnyStep} {e : Failure} (h : addStep w step s = .error e t) :
    SameRecords s t := by
  obtain ⟨store, rules, rfl⟩ := eq_of_addStep_error h
  exact ⟨rfl, rfl, rfl, rfl⟩

/-- The sessions before and after some steps. -/
def AddsSome (w : Workspace) (s t : Session) : Prop := ∃ steps, Adds w s steps t

namespace AddsSome

theorem of_eq (hedges : t.graph.edges = s.graph.edges) (houtputs : t.graph.outputs = s.graph.outputs)
    (hasked : t.graph.asked = s.graph.asked) (hrules : t.graph.targetRules = s.graph.targetRules) :
    AddsSome w s t := ⟨[], .quiet ⟨hedges, houtputs, hasked, hrules⟩⟩

theorem steady : Steady (AddsSome w) where
  refl _ := of_eq rfl rfl rfl rfl
  trans := by
    rintro s t u ⟨steps, h⟩ ⟨more, hmore⟩
    exact ⟨steps ++ more, h.append hmore⟩
  registry _ _ := of_eq rfl rfl rfl rfl
  reports _ _ := of_eq rfl rfl rfl rfl
  executables _ _ := of_eq rfl rfl rfl rfl
  built _ _ := of_eq rfl rfl rfl rfl
  dependencies _ _ := of_eq rfl rfl rfl rfl
  traced s label t := by
    rintro ⟨steps, h⟩
    have hpush : SameRecords s (s.push label) := ⟨rfl, rfl, rfl, rfl⟩
    have hpop : SameRecords t t.pop := ⟨rfl, rfl, rfl, rfl⟩
    exact ⟨[] ++ (steps ++ []), .append (.quiet hpush) (h.append (.quiet hpop))⟩

theorem keeps_addStep (step : AnyStep) : Keeps (AddsSome w) (addStep w step) := by
  intro s
  by_cases houts : step.outs = []
  · rw [endState_of_ok (addStep_of_outs_eq_nil houts s)]
    exact steady.refl s
  · cases h : addStep w step s with
    | ok _ t =>
      rw [endState_of_ok h]
      exact ⟨[step], .step houts h⟩
    | error e t =>
      rw [endState_of_error h]
      exact ⟨[], .quiet (sameRecords_of_addStep_error h)⟩

end AddsSome

section building

variable {p : Project} {id : Nat} {C : ∀ {α : Type}, SessionM α → Prop} (hC : Building p C)
variable (hfiles : ∀ directory fileName, C (writeBuildFile directory fileName)) (hhandles : p.HandlesNoTargets id)
variable (depth : Nat)
include hC hfiles hhandles

/-- What the operations of a build have in common, the programs of a thing have too if they handle no targets. Writing a
build file is nothing that a build needs, so the property is asked for of that. -/
theorem Building.programs_of_handlesNoTargets {c : Custom} (hc : p.entities[id]? = some (.custom c)) :
    ∀ a ∈ c.actions, C (Session.reported (Session.perform p depth) c.package a) := by
  intro a ha
  refine hC.reported (hC.perform (p.runs_mayPerform c.actions) (fun directory fileName _ => hfiles directory fileName)
    (fun name other h => ?_) (fun h => ?_) depth c.package (.start ha))
  · exact (hhandles c hc _ h).1 name other rfl
  · exact (hhandles c hc _ h).2 rfl

theorem Building.buildEntity_of_handlesNoTargets :
    C (Session.buildEntity p (Session.reported (Session.perform p depth)) id) :=
  hC.buildEntity fun _ hc a ha =>
    hC.programs_of_handlesNoTargets hfiles hhandles depth hc a (Custom.mem_actions_of_build ha)

variable {e : Entity} (he : p.entities[id]? = some e)
include he

theorem Building.shownFiles_of_handlesNoTargets (inputs : List Path) :
    C (Session.shownFiles p (Session.reported (Session.perform p depth)) e inputs) :=
  hC.shownFiles hC.check
    (fun _ hc => hC.programs_of_handlesNoTargets hfiles hhandles depth (he.trans (congrArg some hc))) inputs

theorem Building.makeRule_of_handlesNoTargets (name : String) :
    C (Session.targetRule p (Session.reported (Session.perform p depth)) name id e) :=
  hC.makeRule hC.check
    (fun _ hc => hC.programs_of_handlesNoTargets hfiles hhandles depth (he.trans (congrArg some hc))) name id

end building

section keeps

variable {p : Project} {id : Nat} {R : Session → Session → Prop} (hR : Steady R)
variable (haddStep : ∀ step, Keeps R (addStep p.workspace step)) (hstore : ∀ (s : Session) store, R s { s with store })
variable (hhandles : p.HandlesNoTargets id) (depth : Nat)
include hR haddStep hstore hhandles

theorem keeps_buildEntity : Keeps R (buildEntity p (reported (perform p depth)) id) :=
  (Keeps.building hR haddStep).buildEntity_of_handlesNoTargets
    (fun directory fileName => keeps_writeBuildFile hR.toLasting hstore directory fileName) hhandles depth

theorem keeps_targetRule {e : Entity} (he : p.entities[id]? = some e) (name : String) :
    Keeps R (targetRule p (reported (perform p depth)) name id e) :=
  (Keeps.building hR haddStep).makeRule_of_handlesNoTargets
    (fun directory fileName => keeps_writeBuildFile hR.toLasting hstore directory fileName) hhandles depth he name

end keeps

theorem addsSome_buildEntity {p : Project} {id : Nat} (hhandles : p.HandlesNoTargets id) (depth : Nat) :
    Keeps (AddsSome p.workspace) (buildEntity p (reported (perform p depth)) id) :=
  keeps_buildEntity AddsSome.steady AddsSome.keeps_addStep (fun _ _ => .of_eq rfl rfl rfl rfl) hhandles depth

theorem addsSome_targetRule {p : Project} {id : Nat} (hhandles : p.HandlesNoTargets id) (depth : Nat) {e : Entity}
    (he : p.entities[id]? = some e) (name : String) :
    Keeps (AddsSome p.workspace) (targetRule p (reported (perform p depth)) name id e) :=
  keeps_targetRule AddsSome.steady AddsSome.keeps_addStep (fun _ _ => .of_eq rfl rfl rfl rfl) hhandles depth he name

/-- The rule of an exported target stands for the frontier that its build has left. -/
theorem targetRules_of_exported {p : Project} {depth : Nat} {name : String} {id : Nat} {s s' : Session}
    (hexported : isExported name = true) (hhandles : p.HandlesNoTargets id)
    (h : handleTarget p (reported (perform p depth)) name id s = .ok () s') :
    ∃ reply t rule, buildEntity p (reported (perform p depth)) id (inTarget p name s) = .ok reply t ∧
      s'.graph.targetRules = t.graph.targetRules ++ [rule] ∧ rule.name = name ∧
      rule.inputs = t.graph.sortedFrontier := by
  obtain ⟨reply, t, hbuild, hrule, -⟩ := handleTarget_eq_ok h
  obtain ⟨e, rule, u, he, htarget, rfl⟩ := hrule hexported
  obtain ⟨hname, hinputs, -⟩ := targetRule_eq_ok htarget
  obtain ⟨_, hadds⟩ := (addsSome_targetRule hhandles depth he name).ok htarget
  exact ⟨reply, t, rule, hbuild, congrArg (· ++ [rule]) hadds.asked.2, hname, hinputs⟩

/-- **The rule of an exported target stands for exactly those outputs of its steps that are left over**: a path is among
its inputs if some step of the build makes it, and neither that step nor any later one uses it. The steps are those that
the build has added, with the ones that were merged with earlier edges and without the ones that were refused. The inputs
are in the order of their absolute paths, and none is there twice. -/
theorem handleTarget_inputs {p : Project} {depth : Nat} {name : String} {id : Nat} {s s' : Session}
    (hexported : isExported name = true) (hhandles : p.HandlesNoTargets id)
    (h : handleTarget p (reported (perform p depth)) name id s = .ok () s') :
    ∃ reply steps t rule,
      buildEntity p (reported (perform p depth)) id (inTarget p name s) = .ok reply t ∧
      Adds p.workspace (inTarget p name s) steps t ∧
      s'.graph.targetRules = s.graph.targetRules ++ [rule] ∧ rule.name = name ∧
      (∀ path, path ∈ rule.inputs ↔ ∃ before step after, steps = before ++ step :: after ∧ path ∈ step.outs ∧
        ∀ later ∈ step :: after, path ∉ later.uses) ∧
      rule.inputs.Pairwise (fun a b => a.absolute ≤ b.absolute) ∧ rule.inputs.Nodup := by
  obtain ⟨reply, t, rule, hbuild, hrule, hname, hinputs⟩ := targetRules_of_exported hexported hhandles h
  obtain ⟨steps, hsteps⟩ := (addsSome_buildEntity hhandles depth).ok hbuild
  obtain ⟨hasked, hrules⟩ := hsteps.asked
  refine ⟨reply, steps, t, rule, hbuild, hsteps, ?_, hname, fun path => ?_, ?_, ?_⟩
  · rw [hrule, hrules]
    rfl
  · have htasked : t.graph.asked = steps.map (·.signature p.workspace) := hasked
    rw [hinputs, Graph.mem_sortedFrontier, Graph.mem_frontier_iff]
    show (∃ before s after, t.graph.asked = before ++ s :: after ∧ _) ↔ _
    rw [htasked]
    exact leftOver_signatures_iff
  · rw [hinputs]
    exact Graph.pairwise_sortedFrontier _
  · rw [hinputs]
    exact Graph.nodup_sortedFrontier _

end Session

/-- A target that makes one file, makes another one from it, fails to make the first one in another way, and then makes it
once more as before. -/
def madeTwice : Project :=
  let first : StepExpr := { outs := [.out "a"], command := [.literal "make a"] }
  let second : StepExpr := { outs := [.out "b"], ins := [.out "a"], command := [.literal "make b"] }
  let other : StepExpr := { first with command := [.literal "touch a"] }
  { workspace := { sourceDir := "/src", buildRoot := "/out" }
    entities := [.custom { build := [.step first, .step second, .attempt [.step other], .step first] }]
    targets := [("All", 0)] }

theorem handlesNoTargets_madeTwice : madeTwice.HandlesNoTargets 0 := by
  refine Project.handlesNoTargets_of_runsOnly (P := fun a => (∃ s, a = .step s) ∨ ∃ s, a = .attempt [.step s])
    (fun c hc a ha => ?_) (fun a ha b hb => ?_) (fun name other => by simp) (by simp) 0
  · obtain rfl := EntityOf.custom.inj (List.mem_singleton.mp hc)
    simp only [Custom.actions, List.mem_append, List.mem_cons, List.not_mem_nil, or_false, Option.elim_none] at ha
    rcases ha with rfl | rfl | rfl | rfl <;> simp
  · rcases ha with ⟨s, rfl⟩ | ⟨s, rfl⟩
    · cases hb
    · exact .inl ⟨s, List.mem_singleton.mp hb⟩

theorem handleTarget_inputs_sample : isExported "All" = true ∧ madeTwice.HandlesNoTargets 0 ∧
    ∃ s, Session.handleTarget madeTwice (Session.reported (Session.perform madeTwice 2)) "All" 0 (madeTwice.start {}) =
        .ok () s ∧
      ∃ steps t rule, Session.Adds madeTwice.workspace (Session.inTarget madeTwice "All" (madeTwice.start {})) steps t ∧
        s.graph.targetRules = [rule] ∧
        ∀ path, path ∈ rule.inputs ↔ ∃ before step after, steps = before ++ step :: after ∧ path ∈ step.outs ∧
          ∀ later ∈ step :: after, path ∉ later.uses := by
  have hruns : Succeeds (Session.handleTarget madeTwice (Session.reported (Session.perform madeTwice 2)) "All" 0)
      (madeTwice.start {}) := by decide +kernel
  obtain ⟨_, s, hrun⟩ := hruns
  have hexported : isExported "All" = true := by decide +kernel
  obtain ⟨_, steps, t, rule, -, hsteps, hrules, -, hinputs, -, -⟩ :=
    Session.handleTarget_inputs hexported handlesNoTargets_madeTwice hrun
  exact ⟨hexported, handlesNoTargets_madeTwice, s, hrun, steps, t, rule, hsteps, hrules, hinputs⟩

end BuildPlan
