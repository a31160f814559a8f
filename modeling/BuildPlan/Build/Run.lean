import BuildPlan.Build.Compile
import BuildPlan.Ninja.File

/-!
# Running build programs

`Session.act` carries out one action of a build program, given how the actions inside it are carried out, and
`Session.handleTarget` builds a thing as a top-level target. Programs can build other things, which can build
others in turn, even themselves, so `Session.perform`, which ties the knot, takes a bound on how deep this goes.
-/

namespace BuildPlan

/-- A failure as it comes out of a target: a build error gets the name of the target, unless it has one. -/
def Failure.during (target : String) : Failure → Failure
  | .build e => .build (e.during target)
  | .fault f => .fault f

namespace Session

/-- What is shown of paths, from the working directory. -/
def displayAll (w : Workspace) (paths : List Path) : SessionM (List String) :=
  paths.mapM fun path =>
    match w.display? path with
    | some text => pure text
    | none => throw .noPath

/-! ### Things that are built -/

/-- The thing with a number. -/
def entity (p : Project) (id : Nat) : SessionM Entity :=
  match p.entities[id]? with
  | some entity => pure entity
  | none => throw (.fault (.absent ("nothing has the number " ++ toString id)))

/-- The number of the thing with a name. -/
def numberOf (p : Project) (name : String) : SessionM Nat :=
  match p.names.resolve name with
  | .ok id => pure id
  | .error e => throw e

/-- A program runs, and what its actions answer is reported. -/
def performAll (perform : Action → SessionM Unit) (program : List Action) : SessionM Unit :=
  program.forM perform

/-- A command that a target of its own gives, where `perform` carries out actions. -/
def customCommand (perform : Action → SessionM Unit) (program : CommandProgram) (arguments : List String) :
    SessionM String := do
  performAll perform program.actions
  return program.command arguments

/-- The command that runs a thing, where `perform` carries out the actions of a custom target. -/
def runCommand (perform : Option Package → Action → SessionM Unit) (id : Nat) (entity : Entity)
    (arguments : List String) : SessionM String :=
  match entity with
  | .executable x => executableCommand id x arguments
  | .custom { run := some program, package, .. } => customCommand (perform package) program arguments
  | entity => throw (.lacking entity.className "run")

/-- The command that tests a thing, where `perform` carries out the actions of a custom target. -/
def testCommand (perform : Option Package → Action → SessionM Unit) (id : Nat) (entity : Entity)
    (arguments : List String) : SessionM String :=
  match entity with
  | .custom { test := some program, package, .. } => customCommand (perform package) program arguments
  | entity => runCommand perform id entity arguments

/-- The files that a thing shows, which without a say of its own are those of the frontier. -/
def shownFiles (p : Project) (perform : Option Package → Action → SessionM Unit) (entity : Entity)
    (inputs : List Path) : SessionM (List Path) := do
  match entity with
  | .custom { outputs := some program, package, .. } =>
    performAll (perform package) program.actions
    let site ← site p
    onRegistry (evalPaths { site with package } program.files)
  | _ => return inputs

/-- A command, if there is one. -/
def commandIf (present : Bool) (command : SessionM String) : SessionM (Option String) :=
  if present then some <$> command else pure none

/-- What is printed when nothing is shown. -/
def noOutputs : String := "<no outputs produced>"

/-- The top-level name of a thing that has been built. What it needs is what it has been found to need by the time that
it has said which files to show. -/
def targetRule (p : Project) (perform : Option Package → Action → SessionM Unit) (name : String) (id : Nat)
    (entity : Entity) : SessionM TargetRule := do
  let inputs := (← currentGraph).sortedFrontier
  let printed := Text.sortTexts (← displayAll p.workspace (← shownFiles p perform entity inputs))
  let dependencies := (← currentGraph).dependencies
  let run ← commandIf entity.isRunnable (runCommand perform id entity p.runArguments)
  let test ← commandIf entity.isTestable (testCommand perform id entity p.testArguments)
  return {
    name, inputs, run, test, dependencies
    printed := if printed = [] then [noOutputs] else printed
    description := entity.description }

/-- A thing is built, where `perform` carries out the actions of a custom target. The answer is the file that
it is about, if there is one. -/
def buildEntity (p : Project) (perform : Option Package → Action → SessionM Unit) (id : Nat) :
    SessionM Reply := do
  match ← entity p id with
  | .custom c =>
    performAll (perform c.package) c.build
    return .nothing
  | .group members =>
    members.forM (depend p)
    return .nothing
  | .objectFile o => return .path (.out (← buildObjectFile p o))
  | .library l => return .path (.out (← buildLibrary p id l))
  | .executable x =>
    buildExecutable p id x
    return .nothing
  | .inert => throw (.fault (.absent "object has no attribute 'build'"))

/-- A failure that arises in an operation comes out of the target that is being processed. -/
def during {α : Type} (target : String) (operation : SessionM α) : SessionM α := fun s =>
  match operation s with
  | .error e s => .error (e.during target) s
  | result => result

/-- A thing is built as a top-level target. -/
def handleTarget (p : Project) (perform : Option Package → Action → SessionM Unit) (name : String) (id : Nat) :
    SessionM Unit := do
  changeGraph (·.startTarget p.workspace name)
  during name do
    discard (traced ("top:" ++ name) (buildEntity p perform id))
    if isExported name then
      let rule ← targetRule p perform name id (← entity p id)
      changeGraph fun g => { g with targetRules := g.targetRules ++ [rule] }
  changeGraph Graph.finishTarget

/-- The target with a name is built, unless the thing that the name stands for is no target. -/
def processTarget (p : Project) (perform : Option Package → Action → SessionM Unit) (name : String) :
    SessionM Unit := do
  match Assoc.find? p.targets name with
  | some id => if (← entity p id).isTarget then handleTarget p perform name id
  | none => return

/-- All targets are built, in the order of their names. -/
def processTargets (p : Project) (perform : Option Package → Action → SessionM Unit) : SessionM Unit :=
  p.targetNames.forM (processTarget p perform)

/-- The error of an operation as its answer. -/
def attempt (operation : SessionM Unit) : SessionM Reply := fun s =>
  match operation s with
  | .ok () s => .ok .nothing s
  | .error (.build e) s => .ok (.error e) s
  | .error (.fault f) s => .error (.fault f) s

/-- The Ninja file is written below a directory. The answer names the format, how its writer is shown, and the
file. -/
def writeBuildFile (directory fileName : String) : SessionM Reply := do
  let text := Ninja.fileText (← currentGraph)
  let path := tidyText (joinText directory fileName)
  onStore fun store =>
    match store.writeAtomically path text with
    | (.ok (), store) => (.ok (), store)
    | (.error e, store) => (.error (.ofFile (.unwritable path) e), store)
  return .texts ["ninja", "NinjaGenerator(filename=" ++ Text.quoted fileName ++ ")", path]

/-- The answers to these actions are not reported. -/
def isSilent : Action → Bool
  | .step _ | .ruleStep _ | .traced .. | .tracedView .. | .once .. | .depend _ | .dependOn _ | .dependOnAll | .fail _ =>
    true
  | _ => false

/-- An action inside another one is carried out, and what it answers is reported. -/
def reported (perform : Option Package → Action → SessionM Reply) (package : Option Package) (action : Action) :
    SessionM Unit := do
  let reply ← perform package action
  if isSilent action then return else report reply

/-- One action of a program of a package is carried out, where `within` carries out the actions inside it. -/
def act (p : Project) (within : Option Package → Action → SessionM Unit) (package : Option Package)
    (action : Action) : SessionM Reply := do
  let site : Site := { ← site p with package }
  match action with
  | .step s =>
    addStep p.workspace (.plain (← onRegistry (s.eval site)))
    return .nothing
  | .ruleStep s =>
    addStep p.workspace (.ruled (← onRegistry (s.eval site)))
    return .nothing
  | .traced label body =>
    traced label (performAll (within package) body)
    return .truth true
  | .tracedView label body =>
    traced label do
      performAll (within package) body
      return .texts (← currentGraph).trace
  | .isBuilt name => return .truth (← isBuilt p name)
  | .once name body =>
    if ← isBuilt p name then return .truth true
    performAll (within package) body
    return .truth false
  | .depend other =>
    depend p (← numberOf p other)
    return .nothing
  | .dependOn target =>
    dependOn p target
    return .nothing
  | .dependOnAll =>
    p.targets.forM fun (_, id) => depend p id
    return .nothing
  | .build other => do buildEntity p within (← numberOf p other)
  | .run other arguments =>
    let id ← numberOf p other
    return .text (← runCommand within id (← entity p id) arguments)
  | .fail failure => throw failure
  | .attempt body => attempt (performAll (within package) body)
  | .directory => return .path (.out (← currentGraph).directory)
  | .trace => return .texts (← currentGraph).trace
  | .frontier => return .paths (← currentGraph).sortedFrontier
  | .compdbRules => return .texts (← currentGraph).compdbRules
  | .outPath path => return .path (← onRegistry (.ofExcept ((PathExpr.counterpart path).eval site)))
  | .path path => return .path (← onRegistry (.ofExcept (path.eval site)))
  | .edges => return .edges (← currentGraph).sortedEdges
  | .edgeOf path =>
    let path ← onRegistry (.ofExcept (path.eval site))
    return .edge ((← currentGraph).edgeFor? path.absolute)
  | .edgeFor absolute => return .edge ((← currentGraph).edgeFor? absolute)
  | .targetRules => return .targetRules (← currentGraph).targetRules
  | .targets => return .texts (Assoc.keys p.targets)
  | .handleTarget name other =>
    handleTarget p within name (← numberOf p other)
    return .nothing
  | .processTargets =>
    processTargets p within
    return .nothing
  | .render => return .text (Ninja.fileText (← currentGraph))
  | .renderTwice =>
    let text := Ninja.fileText (← currentGraph)
    return .twice (text == Ninja.fileText (← currentGraph)) text
  | .writeBuildFile directory fileName => writeBuildFile directory fileName
  | .register source =>
    onRegistry (do Registry.register (← Registry.adopt source))
    return .nothing
  | .flagValue name => return .flag (← onRegistry (Registry.read (.name name)))

/-- One action of a program of a package is carried out; `depth` bounds how deep actions nest. -/
def perform (p : Project) : Nat → Option Package → Action → SessionM Reply
  | 0, _, _ => throw (.fault .tooDeep)
  | depth + 1, package, action => act p (reported (perform p depth)) package action

end Session

end BuildPlan
