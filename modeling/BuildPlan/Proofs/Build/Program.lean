import BuildPlan.Build.Run
import BuildPlan.Proofs.State.Result

/-!
# What holds of every build program

A property of operations is `Building` if it holds of the operations that the build of one target begins with and passes
to whatever is made of them, and `Closed` if this goes for the handling of whole targets too. `Building.perform` and
`Closed.perform` carry such properties to every action of a build program, however deep it nests. What an action answers
is only ever reported, so a property may leave the answers out of account: it has to hold of an action with its answer
discarded.
-/

namespace BuildPlan

/-- The actions of all programs of a target. -/
def Custom.actions (c : Custom) : List Action :=
  c.build ++ c.outputs.elim [] (·.actions) ++ c.run.elim [] (·.actions) ++ c.test.elim [] (·.actions)

namespace Custom

variable {c : Custom} {a : Action} {program : CommandProgram}

theorem mem_actions_of_build (h : a ∈ c.build) : a ∈ c.actions := by simp [actions, h]

theorem mem_actions_of_outputs {program : OutputsProgram} (hprogram : c.outputs = some program)
    (h : a ∈ program.actions) : a ∈ c.actions := by simp [actions, hprogram, h]

theorem mem_actions_of_run (hprogram : c.run = some program) (h : a ∈ program.actions) : a ∈ c.actions := by
  simp [actions, hprogram, h]

theorem mem_actions_of_test (hprogram : c.test = some program) (h : a ∈ program.actions) : a ∈ c.actions := by
  simp [actions, hprogram, h]

end Custom

/-- Everything that the programs of a project do is of a certain sort. -/
def Project.RunsOnly (p : Project) (P : Action → Prop) : Prop := ∀ c, .custom c ∈ p.entities → ∀ a ∈ c.actions, P a

/-- The actions directly inside an action. -/
def Action.body : Action → List Action
  | .traced _ body | .tracedView _ body | .once _ body | .attempt body => body
  | _ => []

/-- Actions of a certain sort come to actions of this sort only: those inside of them, and those of the programs that
they make other things run. -/
structure Project.Runs (p : Project) (P : Action → Prop) : Prop where
  body : ∀ {a}, P a → ∀ b ∈ a.body, P b
  build : ∀ {name id c}, P (.build name) → p.names.resolve name = .ok id → p.entities[id]? = some (.custom c) →
    ∀ a ∈ c.build, P a
  run : ∀ {name arguments id c program}, P (.run name arguments) → p.names.resolve name = .ok id →
    p.entities[id]? = some (.custom c) → c.run = some program → ∀ a ∈ program.actions, P a

theorem Project.RunsOnly.of_getElem? {p : Project} {P : Action → Prop} (h : p.RunsOnly P) {id : Nat} {c : Custom}
    (hc : p.entities[id]? = some (.custom c)) : ∀ a ∈ c.actions, P a := h c (List.mem_of_getElem? hc)

theorem Project.RunsOnly.runs {p : Project} {P : Action → Prop} (h : p.RunsOnly P)
    (hbody : ∀ a, P a → ∀ b ∈ a.body, P b) : p.Runs P where
  body ha := hbody _ ha
  build _ _ hc a ha := h.of_getElem? hc a (Custom.mem_actions_of_build ha)
  run _ _ hc hprogram a ha := h.of_getElem? hc a (Custom.mem_actions_of_run hprogram ha)

namespace Session

/-- The property passes to operations that only look at the graph and at the executables. -/
structure Reading (C : ∀ {α : Type}, SessionM α → Prop) : Prop where
  pure : ∀ {α : Type} (a : α), C (pure a : SessionM α)
  throw : ∀ {α : Type} (e : Failure), C (throw e : SessionM α)
  bind : ∀ {α β : Type} {x : SessionM α} {f : α → SessionM β}, C x → (∀ a, C (f a)) → C (x >>= f)
  graph : C currentGraph
  executables : C knownExecutables

/-- The property passes to everything that the build of a target of a project is made of. -/
structure Building (p : Project) (C : ∀ {α : Type}, SessionM α → Prop) : Prop extends Reading C where
  check : ∀ {α : Type} (x : Except Failure α), C (onRegistry (.ofExcept x))
  step : ∀ (site : Site) (s : StepExpr), C (onRegistry (s.eval site))
  ruleStep : ∀ (site : Site) (s : RuleStepExpr), C (onRegistry (s.eval site))
  register : ∀ source : FlagSource, C (onRegistry (do Registry.register (← Registry.adopt source)))
  /-- The value of a flag is an answer. -/
  flagValue : ∀ name : String, C (discard (onRegistry (Registry.read (.name name))))
  addStep : ∀ step : AnyStep, C (addStep p.workspace step)
  report : ∀ {x : SessionM Reply}, C (discard x) → C (x >>= report)
  link : ∀ (id : Nat) (path : Path),
    C (modify fun s => { s with executables := Assoc.insert s.executables id path } : SessionM PUnit)
  mark : ∀ name, C (changeGraph fun g => { g with built := g.built ++ [name] })
  /-- Only names of exported targets are needed. -/
  dependency : ∀ {id name}, p.targetName? id = some name → isExported name = true →
    C (changeGraph fun g => { g with dependencies := g.dependencies ++ [name] })
  traced : ∀ {α : Type} (label : String) {x : SessionM α}, C x → C (traced label x)
  attempt : ∀ {x : SessionM Unit}, C x → C (attempt x)

/-- The property passes to everything that the programs of a project are made of. -/
structure Closed (p : Project) (C : ∀ {α : Type}, SessionM α → Prop) : Prop extends Building p C where
  /-- Only exported targets have rules. -/
  targetRule : ∀ rule, isExported rule.name = true →
    C (changeGraph fun g => { g with targetRules := g.targetRules ++ [rule] })
  startTarget : ∀ w name, C (changeGraph (·.startTarget w name))
  finishTarget : C (changeGraph Graph.finishTarget)
  during : ∀ {α : Type} (target : String) {x : SessionM α}, C x → C (during target x)

variable {C : ∀ {α : Type}, SessionM α → Prop} {α β : Type}

/-! ### Answers that are left out of account -/

theorem discard_bind (x : SessionM α) (f : α → SessionM β) : discard (x >>= f) = x >>= fun a => discard (f a) := by
  rw [discard_eq, bind_assoc]
  rfl

/-! ### Operations that only read -/

namespace Reading

variable (hC : Reading C)
include hC

theorem map (f : α → β) {x : SessionM α} (hx : C x) : C (f <$> x) := by
  rw [map_eq_pure_bind]
  exact hC.bind hx fun a => hC.pure (f a)

theorem discard {x : SessionM α} (hx : C x) : C (discard x) := hC.map _ hx

theorem discard_bind {x : SessionM α} {f : α → SessionM β} (hx : C x) (hf : ∀ a, C (Functor.discard (f a))) :
    C (Functor.discard (x >>= f)) := by
  rw [Session.discard_bind]
  exact hC.bind hx hf

theorem forM {xs : List α} {f : α → SessionM PUnit} (hf : ∀ x ∈ xs, C (f x)) : C (xs.forM f) := by
  induction xs with
  | nil => exact hC.pure ()
  | cons x rest ih =>
    obtain ⟨hx, hrest⟩ := List.forall_mem_cons.mp hf
    exact hC.bind hx fun _ => ih hrest

theorem mapM {xs : List α} {f : α → SessionM β} (hf : ∀ x ∈ xs, C (f x)) : C (xs.mapM f) := by
  induction xs with
  | nil => exact hC.pure []
  | cons x rest ih =>
    obtain ⟨hx, hrest⟩ := List.forall_mem_cons.mp hf
    rw [List.mapM_cons]
    exact hC.bind hx fun _ => hC.bind (ih hrest) fun _ => hC.pure _

theorem ofExcept (x : Except Cause α) : C (ofExcept x) := by
  cases x with
  | ok a => exact hC.pure a
  | error cause => exact hC.throw _

theorem site (p : Project) : C (site p) := hC.bind hC.graph fun _ => hC.pure _

theorem displayAll (w : Workspace) (paths : List Path) : C (displayAll w paths) := by
  refine hC.mapM fun path _ => ?_
  split
  · exact hC.pure _
  · exact hC.throw _

theorem executableCommand (id : Nat) (x : Executable) (arguments : List String) :
    C (executableCommand id x arguments) := by
  refine hC.bind hC.executables fun known => ?_
  split
  · exact hC.pure _
  · exact hC.throw _

theorem performAll {perform : Action → SessionM Unit} {program : List Action} (h : ∀ a ∈ program, C (perform a)) :
    C (performAll perform program) :=
  hC.forM h

section commands

variable {within : Option Package → Action → SessionM Unit} {entity : Entity}

theorem runCommand
    (h : ∀ c program, entity = .custom c → c.run = some program → ∀ a ∈ program.actions, C (within c.package a)) (id : Nat) (arguments : List String) : C (runCommand within id entity arguments) := by
  unfold Session.runCommand
  split
  · exact hC.executableCommand id _ arguments
  · exact hC.bind (hC.performAll (h _ _ rfl rfl)) fun _ => hC.pure _
  · exact hC.throw _

variable (h : ∀ c, entity = .custom c → ∀ a ∈ c.actions, C (within c.package a))
include h

theorem runCommand_of_actions (id : Nat) (arguments : List String) : C (Session.runCommand within id entity arguments) :=
  hC.runCommand (fun c _ hc hprogram a ha => h c hc a (Custom.mem_actions_of_run hprogram ha)) id arguments

theorem testCommand (id : Nat) (arguments : List String) : C (testCommand within id entity arguments) := by
  unfold Session.testCommand
  split
  · exact hC.bind (hC.performAll fun a ha => h _ rfl a (Custom.mem_actions_of_test rfl ha)) fun _ => hC.pure _
  · exact hC.runCommand_of_actions h id arguments

end commands

theorem commandIf (present : Bool) {command : SessionM String} (h : C command) : C (commandIf present command) := by
  unfold Session.commandIf
  split
  · exact hC.map _ h
  · exact hC.pure _

theorem entity_bind {p : Project} {id : Nat} {f : Entity → SessionM α}
    (h : ∀ e, p.entities[id]? = some e → C (f e)) : C (entity p id >>= f) := by
  unfold Session.entity
  split
  case h_1 e he => exact h e he
  case h_2 => exact hC.throw _

theorem numberOf_bind {p : Project} {name : String} {f : Nat → SessionM α}
    (h : ∀ id, p.names.resolve name = .ok id → C (f id)) : C (numberOf p name >>= f) := by
  unfold Session.numberOf
  split
  case h_1 id hid => exact h id hid
  case h_2 => exact hC.throw _

theorem addStep {w : Workspace} (hpayload : ∀ payload, C (writePayload w payload))
    (hadd : ∀ s : Statement, s.outs ≠ [] → ∀ origin, C (addStatement s origin)) (step : AnyStep) :
    C (addStep w step) := by
  unfold Session.addStep
  split
  · exact hC.pure ()
  case isFalse houts =>
    refine hC.bind (hC.ofExcept _) fun payload => ?_
    refine hC.bind (hpayload payload) fun _ => ?_
    exact hadd _ (by rwa [AnyStep.outs_statement]) _

section rules

variable {p : Project} {within : Option Package → Action → SessionM Unit} {entity : Entity}
variable (hcheck : ∀ {α : Type} (x : Except Failure α), C (onRegistry (.ofExcept x)))
variable (h : ∀ c, entity = .custom c → ∀ a ∈ c.actions, C (within c.package a))
include hcheck h

theorem shownFiles (inputs : List Path) : C (shownFiles p within entity inputs) := by
  unfold Session.shownFiles
  split
  · refine hC.bind (hC.performAll fun a ha => h _ rfl a (Custom.mem_actions_of_outputs rfl ha)) fun _ => ?_
    exact hC.bind (hC.site p) fun _ => hcheck _
  · exact hC.pure _

theorem makeRule_bind {name : String} {id : Nat} {f : TargetRule → SessionM α}
    (hf : ∀ rule, rule.name = name → C (f rule)) : C (Session.targetRule p within name id entity >>= f) := by
  unfold Session.targetRule
  simp only [bind_assoc, pure_bind]
  refine hC.bind hC.graph fun graph => ?_
  refine hC.bind (hC.shownFiles hcheck h _) fun shown => ?_
  refine hC.bind (hC.displayAll _ _) fun printed => hC.bind hC.graph fun graph => ?_
  refine hC.bind (hC.commandIf _ (hC.runCommand_of_actions h _ _)) fun run => ?_
  exact hC.bind (hC.commandIf _ (hC.testCommand h _ _)) fun test => hf _ rfl

theorem makeRule (name : String) (id : Nat) : C (Session.targetRule p within name id entity) := by
  rw [← bind_pure (Session.targetRule p within name id entity)]
  exact hC.makeRule_bind hcheck h fun rule _ => hC.pure rule

end rules

end Reading

/-! ### Operations that change something -/

namespace Building

variable {p : Project} (hC : Building p C)
include hC

theorem isBuilt (name : String) : C (isBuilt p name) := by
  refine hC.bind hC.graph fun g => ?_
  split
  · exact hC.pure true
  · exact hC.bind (hC.mark name) fun _ => hC.pure false

theorem depend (id : Nat) : C (depend p id) := by
  unfold Session.depend
  split
  case h_1 => exact hC.throw _
  case h_2 name hname =>
    split
    case isTrue hexported => exact hC.dependency hname hexported
    case isFalse => exact hC.throw _

theorem dependOn (target : String) : C (dependOn p target) := by
  unfold Session.dependOn
  split
  · exact hC.depend _
  · exact hC.throw _

/-! ### Object files, libraries and executables -/

theorem unlessBuilt (out : OutPath) {build : SessionM Unit} (h : C build) :
    C (unlessBuilt p out build) := by
  refine hC.bind (hC.isBuilt _) fun built => ?_
  split
  · exact hC.pure _
  · exact hC.bind h fun _ => hC.pure _

theorem buildObjectFile (o : ObjectFile) : C (buildObjectFile p o) :=
  hC.unlessBuilt _ (hC.traced _ (hC.addStep _))

theorem buildLibrary (id : Nat) (l : Library) : C (buildLibrary p id l) := by
  refine hC.bind hC.graph fun graph => ?_
  refine hC.unlessBuilt _ (hC.traced _ ?_)
  exact hC.bind (hC.mapM fun o _ => hC.buildObjectFile o) fun _ => hC.addStep _

theorem linkExecutable (id : Nat) (x : Executable) (objects archives : List OutPath) :
    C (linkExecutable p id x objects archives) := by
  refine hC.bind hC.graph fun graph => ?_
  exact hC.bind (hC.addStep _) fun _ => hC.link _ _

theorem buildExecutable (id : Nat) (x : Executable) : C (buildExecutable p id x) := by
  refine hC.bind (hC.mapM fun o _ => hC.buildObjectFile o) fun objects => ?_
  refine hC.bind (hC.mapM fun dep _ => hC.buildLibrary _ _) fun archives => ?_
  exact hC.linkExecutable id x objects archives

/-! ### Programs -/

theorem reported {perform : Option Package → Action → SessionM Reply} {package : Option Package} {a : Action}
    (h : C (discard (perform package a))) : C (reported perform package a) := by
  unfold Session.reported
  split
  · rwa [discard_eq] at h
  · exact hC.report h

section programs

variable {within : Option Package → Action → SessionM Unit}

theorem buildEntity {id : Nat} (h : ∀ c, p.entities[id]? = some (.custom c) → ∀ a ∈ c.build, C (within c.package a)) :
    C (buildEntity p within id) := by
  refine hC.entity_bind fun e he => ?_
  cases e with
  | custom c => exact hC.bind (hC.performAll (h c he)) fun _ => hC.pure _
  | group members => exact hC.bind (hC.forM fun id _ => hC.depend id) fun _ => hC.pure _
  | objectFile o => exact hC.bind (hC.buildObjectFile o) fun _ => hC.pure _
  | library l => exact hC.bind (hC.buildLibrary id l) fun _ => hC.pure _
  | executable x => exact hC.bind (hC.buildExecutable id x) fun _ => hC.pure _
  | inert => exact hC.throw _

variable {P : Action → Prop} (hrun : p.Runs P) (hwithin : ∀ package a, P a → C (within package a))
include hrun hwithin

/-- One action, where the property is asked for of what the build of a single target does not contain. -/
theorem act (hfiles : ∀ directory fileName, P (.writeBuildFile directory fileName) →
      C (writeBuildFile directory fileName))
    (hhandle : ∀ name other, P (.handleTarget name other) → ∀ id, C (handleTarget p within name id))
    (hprocess : P .processTargets → C (processTargets p within))
    (package : Option Package) {a : Action} (ha : P a) : C (discard (act p within package a)) := by
  have hprogram : ∀ body, (∀ b ∈ body, P b) → C (Session.performAll (within package) body) := fun body h =>
    hC.performAll fun b hb => hwithin _ b (h b hb)
  have hbody : ∀ b ∈ a.body, P b := hrun.body ha
  have hgraph : ∀ f : Graph → Reply, C (currentGraph >>= fun g => pure (f g)) := fun f =>
    hC.bind hC.graph fun _ => hC.pure _
  refine hC.discard_bind (hC.site p) fun site => ?_
  cases a with
  | step s =>
    refine hC.discard (hC.bind (hC.step _ s) fun s => ?_)
    exact hC.bind (hC.addStep _) fun _ => hC.pure _
  | ruleStep s =>
    refine hC.discard (hC.bind (hC.ruleStep _ s) fun s => ?_)
    exact hC.bind (hC.addStep _) fun _ => hC.pure _
  | traced label body => exact hC.discard (hC.bind (hC.traced _ (hprogram body hbody)) fun _ => hC.pure _)
  | tracedView label body =>
    exact hC.discard (hC.traced _ (hC.bind (hprogram body hbody) fun _ => hgraph fun g => .texts g.trace))
  | isBuilt name => exact hC.discard (hC.bind (hC.isBuilt name) fun _ => hC.pure _)
  | once name body =>
    refine hC.discard (hC.bind (hC.isBuilt name) fun built => ?_)
    split
    · exact hC.pure _
    · exact hC.bind (hprogram body hbody) fun _ => hC.pure _
  | depend other =>
    exact hC.discard (hC.numberOf_bind fun id _ => hC.bind (hC.depend id) fun _ => hC.pure _)
  | dependOn target => exact hC.discard (hC.bind (hC.dependOn target) fun _ => hC.pure _)
  | dependOnAll => exact hC.discard (hC.bind (hC.forM fun entry _ => hC.depend entry.2) fun _ => hC.pure _)
  | build other =>
    refine hC.discard (hC.numberOf_bind fun id hid => hC.buildEntity fun c hc b hb => ?_)
    exact hwithin _ b (hrun.build ha hid hc b hb)
  | run other arguments =>
    refine hC.discard (hC.numberOf_bind fun id hid => hC.entity_bind fun e he => ?_)
    refine hC.bind (hC.runCommand (fun c program hc hprogram b hb => ?_) id arguments) fun _ => hC.pure _
    exact hwithin _ b (hrun.run ha hid (he.trans (congrArg some hc)) hprogram b hb)
  | fail failure => exact hC.discard (hC.throw _)
  | attempt body => exact hC.discard (hC.attempt (hprogram body hbody))
  | targets => exact hC.discard (hC.pure _)
  | directory | trace | frontier | compdbRules | edges | edgeFor | targetRules | render => exact hC.discard (hgraph _)
  | renderTwice =>
    refine hC.discard (hC.bind hC.graph fun g => ?_)
    exact hgraph fun g' => .twice (Ninja.fileText g == Ninja.fileText g') (Ninja.fileText g)
  | outPath path | path path => exact hC.discard (hC.bind (hC.check _) fun _ => hC.pure _)
  | edgeOf path =>
    exact hC.discard (hC.bind (hC.check _) fun path => hgraph fun g => .edge (g.edgeFor? path.absolute))
  | handleTarget name other =>
    refine hC.discard (hC.numberOf_bind fun id _ => ?_)
    exact hC.bind (hhandle name other ha id) fun _ => hC.pure _
  | processTargets => exact hC.discard (hC.bind (hprocess ha) fun _ => hC.pure _)
  | writeBuildFile directory fileName => exact hC.discard (hfiles directory fileName ha)
  | register source => exact hC.discard (hC.bind (hC.register source) fun _ => hC.pure _)
  | flagValue name =>
    have hread := hC.flagValue name
    rw [discard_eq] at hread
    rw [Session.discard_bind]
    exact hread

end programs

/-- **The property holds of every action that building things comes to**, if none of these actions handles targets.
Writing a build file is nothing that a build needs, so the property is asked for where that is of the sort. -/
theorem perform {P : Action → Prop} (hrun : p.Runs P)
    (hfiles : ∀ directory fileName, P (.writeBuildFile directory fileName) → C (writeBuildFile directory fileName))
    (hhandle : ∀ name other, ¬P (.handleTarget name other)) (hprocess : ¬P .processTargets)
    (depth : Nat) (package : Option Package) {a : Action} (ha : P a) : C (discard (perform p depth package a)) := by
  induction depth generalizing package a with
  | zero => exact hC.discard (hC.throw _)
  | succ depth ih =>
    exact hC.act hrun (fun package a ha => hC.reported (ih package ha)) hfiles
      (fun name other h => absurd h (hhandle name other)) (fun h => absurd h hprocess) package ha

end Building

/-! ### Targets -/

namespace Closed

variable {p : Project} (hC : Closed p C)
include hC

section programs

variable {P : Action → Prop} {within : Option Package → Action → SessionM Unit}

theorem handleTarget {id : Nat}
    (h : ∀ c, p.entities[id]? = some (.custom c) → ∀ a ∈ c.actions, C (within c.package a)) (name : String) :
    C (handleTarget p within name id) := by
  refine hC.bind (hC.startTarget _ _) fun _ => hC.bind (hC.during name ?_) fun _ => hC.finishTarget
  refine hC.bind (hC.discard (hC.traced _ (hC.buildEntity fun c hc a ha => ?_))) fun _ => ?_
  · exact h c hc a (Custom.mem_actions_of_build ha)
  split
  case isTrue hexported =>
    refine hC.entity_bind fun e he => hC.makeRule_bind hC.check (fun c hc => h c (he.trans (congrArg some hc))) ?_
    exact fun rule hname => hC.targetRule rule (hname ▸ hexported)
  case isFalse => exact hC.pure _

variable (hP : p.RunsOnly P) (hwithin : ∀ package a, P a → C (within package a))
include hP hwithin

theorem handleTarget_of_runsOnly (name : String) (id : Nat) : C (Session.handleTarget p within name id) :=
  hC.handleTarget (fun _ hc a ha => hwithin _ a (hP.of_getElem? hc a ha)) name

theorem processTarget (name : String) : C (processTarget p within name) := by
  unfold Session.processTarget
  split
  · refine hC.entity_bind fun e _ => ?_
    split
    · exact hC.handleTarget_of_runsOnly hP hwithin _ _
    · exact hC.pure _
  · exact hC.pure _

theorem processTargets : C (processTargets p within) := hC.forM fun name _ => hC.processTarget hP hwithin name

end programs

/-- **A closed property holds of every action of a project whose programs are of a certain sort**, if that sort
contains what is inside of its members. Writing a build file is nothing that a build needs, so the property is asked
for where that is of the sort. -/
theorem perform {P : Action → Prop} (hP : p.RunsOnly P) (hbody : ∀ a, P a → ∀ b ∈ a.body, P b)
    (hfiles : ∀ directory fileName, P (.writeBuildFile directory fileName) → C (writeBuildFile directory fileName))
    (depth : Nat) (package : Option Package) {a : Action} (ha : P a) : C (discard (perform p depth package a)) := by
  have hrun := hP.runs hbody
  induction depth generalizing package a with
  | zero => exact hC.discard (hC.throw _)
  | succ depth ih =>
    have hwithin : ∀ package a, P a → C (Session.reported (Session.perform p depth) package a) :=
      fun package a ha => hC.reported (ih package ha)
    exact hC.act hrun hwithin hfiles (fun name _ _ id => hC.handleTarget_of_runsOnly hP hwithin name id)
      (fun _ => hC.processTargets hP hwithin) package ha

end Closed

end Session

end BuildPlan
