import BuildPlan.Flag.Memory
import BuildPlan.Target.Entity

/-!
# Build sessions

A `Project` is what a run builds, and a `Session` is how far the run has come: the flags, the files, the graph,
and what build programs have answered. Operations have the type `SessionM`; one that fails keeps the session as
it is then, except that `traced` always takes its label back.
-/

namespace BuildPlan

/-- What a run builds. -/
structure Project where
  workspace : Workspace
  entities : Entities := []
  /-- The names by which build programs know things. -/
  names : EntityNames := []
  /-- The numbers of the targets by their names. -/
  targets : Assoc String Nat := []
  /-- Arguments for targets that are run. -/
  runArguments : List String := []
  /-- Arguments for targets that are tested. -/
  testArguments : List String := []
  /-- What has been built is remembered, so that nothing is asked for twice. -/
  remembers : Bool := true

/-- How far a run has come. -/
structure Session extends Settings where
  graph : Graph
  /-- What build programs have answered, the first answer first. -/
  reports : List Reply := []
  /-- The executables that have been linked, by their numbers. -/
  executables : Assoc Nat Path := []

/-- Operations of a run. -/
abbrev SessionM := EStateM Failure Session

/-- The session before anything is built. -/
def Project.start (p : Project) (settings : Settings) : Session := { settings with graph := .empty p.workspace }

/-- The name of the target that a number stands for; of several the last. -/
def Project.targetName? (p : Project) (id : Nat) : Option String :=
  (p.targets.reverse.find? (·.2 = id)).map (·.1)

/-- The names of the targets in ascending order. -/
def Project.targetNames (p : Project) : List String := Text.sortTexts (Assoc.keys p.targets)

namespace Session

/-- A failure with a cause and no target. -/
def raise {α : Type} (cause : Cause) : SessionM α := throw (.of cause)

/-- The result of a check as an operation. -/
def ofExcept {α : Type} : Except Cause α → SessionM α
  | .ok a => pure a
  | .error cause => raise cause

/-- An operation on flags and files. -/
def onSettings {α : Type} (operation : SettingsM α) : SessionM α := fun s =>
  match operation s.toSettings with
  | .ok a settings => .ok a { s with toSettings := settings }
  | .error e settings => .error e { s with toSettings := settings }

/-- An operation on the flags. -/
def onRegistry {α : Type} (operation : RegistryM α) : SessionM α := onSettings (Settings.onRegistry operation)

/-- An operation on the files. -/
def onStore {α : Type} (operation : Store → Except Failure α × Store) : SessionM α :=
  onSettings (Settings.onStore operation)

/-- A change of the graph that may be refused. -/
def onGraph (change : Graph → Except Cause Graph) : SessionM Unit := do
  let graph ← ofExcept (change (← get).graph)
  modify fun s => { s with graph }

/-- A change of the graph. -/
def changeGraph (change : Graph → Graph) : SessionM Unit := modify fun s => { s with graph := change s.graph }

/-- An answer is added to the reports. -/
def report (reply : Reply) : SessionM Unit := modify fun s => { s with reports := s.reports ++ [reply] }

/-- The graph as it is now. -/
def currentGraph : SessionM Graph := do return (← get).graph

/-- The executables that are known by now. -/
def knownExecutables : SessionM (Assoc Nat Path) := do return (← get).executables

/-- The site of expressions outside packages. -/
def site (p : Project) : SessionM Site := do
  return { workspace := p.workspace, directory := some (← currentGraph).directory }

/-! ### Marks -/

/-- The session with one more label on the trace. -/
def push (s : Session) (label : String) : Session :=
  { s with graph := { s.graph with trace := s.graph.trace ++ [label] } }

/-- The session without the last label of the trace. -/
def pop (s : Session) : Session := { s with graph := { s.graph with trace := s.graph.trace.dropLast } }

/-- An operation runs with one more label on the trace, which goes away however it ends. -/
def traced {α : Type} (label : String) (operation : SessionM α) : SessionM α := fun s =>
  match operation (s.push label) with
  | .ok a s => .ok a s.pop
  | .error e s => .error e s.pop

/-- Whether a name has been marked as built. It is marked from now on. -/
def isBuilt (p : Project) (name : String) : SessionM Bool := do
  if p.remembers && name ∈ (← currentGraph).built then return true
  changeGraph fun g => { g with built := g.built ++ [name] }
  return false

/-- The current target needs the target that a number stands for, which must be exported. -/
def depend (p : Project) (id : Nat) : SessionM Unit := do
  match p.targetName? id with
  | none => raise .notTarget
  | some name =>
    if isExported name then changeGraph fun g => { g with dependencies := g.dependencies ++ [name] }
    else raise (.notExported name)

/-- The current target needs the target with a name. -/
def dependOn (p : Project) (target : String) : SessionM Unit :=
  match Assoc.find? p.targets target with
  | some id => depend p id
  | none => raise .notTarget

/-! ### Steps -/

/-- The store in which a file has the text, which is written unless it is there already. -/
def keepText (store : Store) (file text : String) : Store.Outcome Store := do
  if store.hasEntry file then
    if (← store.readText file) = text then return store
  store.writeText file text

/-- The payload file is written unless it has the right contents already, and gets its mode. -/
def keepPayload (store : Store) (w : Workspace) (payload : Payload) : Except Failure Unit × Store :=
  let file := tidyText (payload.file w)
  let failure := Failure.ofFile (.payloadUnwritable file)
  match store.makeDirectories (Store.parentPath file) with
  | .error e => (.error (failure e), store)
  | .ok store =>
    match keepText store file payload.text with
    | .error e => (.error (failure e), store)
    | .ok store =>
      match store.setMode file payload.mode with
      | .error e => (.error (failure e), store)
      | .ok store => (.ok (), store)

/-- The payload file of a step is written, if the step has a payload. -/
def writePayload (w : Workspace) : Option Payload → SessionM Unit
  | some payload => onStore fun store => keepPayload store w payload
  | none => pure ()

/-- The rule of a statement is made known, and the statement is taken into the graph. -/
def addStatement (s : Statement) (origin : RuleOrigin) : SessionM Unit := do
  onGraph (·.declare s.rule)
  onGraph (·.accept s origin)

/-- A step is added. One without outputs is ignored. -/
def addStep (w : Workspace) (step : AnyStep) : SessionM Unit := do
  if step.outs = [] then return
  let payload ← ofExcept step.payload?
  writePayload w payload
  addStatement (step.statement w payload) step.origin

end Session

end BuildPlan
