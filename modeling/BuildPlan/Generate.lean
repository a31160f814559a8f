import BuildPlan.Build.Run
import BuildPlan.Document.Output
import BuildPlan.Package.Load
import BuildPlan.Selection

/-!
# Generating a build

A run loads the targets, locks the flags, which fixes the build directory, reports the exported targets, and,
where the mode asks for it, builds all targets and writes the Ninja file as a text. Nothing is put out unless all
of this succeeds.
-/

namespace BuildPlan

namespace LoadState

/-- What a run builds once its flags are locked. -/
def project (s : LoadState) (input : Input) (hash : String) : Project :=
  { workspace := input.workspace.withHash hash
    entities := s.entities
    names := s.names
    targets := s.targets
    runArguments := input.runArguments
    testArguments := input.testArguments }

/-- The targets that have been loaded. -/
def targetEntities (s : LoadState) : Assoc String Entity :=
  s.targets.filterMap fun (name, number) => s.entities[number]?.map (name, ·)

/-- An operation of a build that goes on from here. -/
def onSession {α : Type} (p : Project) (operation : SessionM α) : LoadM α := fun s =>
  match operation { p.start s.toSettings with reports := s.reports } with
  | .ok a session => .ok a { s with toSettings := session.toSettings, reports := session.reports }
  | .error e session => .error e { s with toSettings := session.toSettings, reports := session.reports }

end LoadState

/-- All targets of a project are built; the answer is the graph. -/
def finalGraph (p : Project) : SessionM Graph := do
  discard (Session.perform p nestingLimit none .processTargets)
  Session.currentGraph

/-- The result of a run whose targets and flags are there. -/
def generate (input : Input) : LoadM Output := do
  let file := if input.persist then some input.workspace.flagsFile else none
  let locked ← LoadState.onSettings (Settings.lock file)
  let targets ← match selectTargets (← get).targetEntities input with
    | .ok targets => pure targets
    | .error cause => throw (.of cause)
  let output : Output := { flags := locked.info, targets, selected := selectedNames targets }
  if input.mode.generates then
    let p := (← get).project input locked.hash
    let graph ← LoadState.onSession p (finalGraph p)
    return { output with ninjaFile := Ninja.fileText graph, compdbRules := graph.compdbRules }
  else return output

/-- A registry with the values of the command line and those that the last run remembers. -/
def openRegistry (input : Input) : LoadM Unit := do
  let remembered ← LoadState.onSettings (Settings.load input.workspace.flagsFile)
  modify fun s => { s with registry := { commandLine := input.flags, remembered } }

/-- The result of a run on a source tree. -/
def generateFromTree (files : BuildFiles) (input : Input) : LoadM Output := do
  openRegistry input
  LoadState.loadTargets input.workspace files
  generate input

end BuildPlan
