import BuildPlan.Build.Session
import BuildPlan.Package.Discovery

/-!
# Loading packages

A build file is a list of `Definition`s, which bind variables to things, register flags and read them. Loading a
package carries them out and makes targets of its variables, and `loadTargets` does so for all packages of a
source tree.
-/

namespace BuildPlan

/-- A part of a build file. -/
inductive Definition where
  /-- A variable is bound to a new thing, which gets a name. -/
  | define (variableName name : String) (thing : EntityExpr)
  /-- A variable is bound to a thing that has a name. -/
  | bind (variableName name : String)
  | register (source : FlagSource)
  /-- The value of a flag is reported. -/
  | read (flag : String)
  | fail (failure : Failure)

/-- The build files of a source tree by their places. -/
abbrev BuildFiles := Assoc Location (List Definition)

/-- How far loading has come. -/
structure LoadState extends Settings where
  entities : Entities := []
  names : EntityNames := []
  targets : Assoc String Nat := []
  /-- What has been reported, the first report first. -/
  reports : List Reply := []

/-- Operations of loading. -/
abbrev LoadM := EStateM Failure LoadState

/-- The variables of a build file, in the order in which they were first bound. A variable that is bound to no
thing of its own has no number. -/
abbrev Bindings := Assoc String (Option Nat)

/-- What a build file leaves behind: its variables, and the things that there are by then. -/
structure Namespace where
  bindings : Bindings
  entities : Entities

/-- The target that a variable stands for: it is public, and bound to something that can be built and is no
module. -/
def Namespace.target? (n : Namespace) (package : Package) (variableName : String) (bound : Option Nat) :
    Option (String × Nat) := do
  let number ← bound
  let entity ← n.entities[number]?
  if variableName.toList.head? ≠ some '_' ∧ ¬entity.isModule ∧ entity.isTarget then
    some (package.targetName variableName, number)
  else none

/-- The targets of a package. -/
def Namespace.targets (n : Namespace) (package : Package) : Assoc String Nat :=
  n.bindings.filterMap fun (variableName, bound) => n.target? package variableName bound

/-- The variables that every build file starts with. -/
def initialBindings : Bindings := [("package", none), ("flags", none)]

namespace LoadState

/-- An operation on flags and files. -/
def onSettings {α : Type} (operation : SettingsM α) : LoadM α := fun s =>
  match operation s.toSettings with
  | .ok a settings => .ok a { s with toSettings := settings }
  | .error e settings => .error e { s with toSettings := settings }

/-- An operation on the flags. -/
def onRegistry {α : Type} (operation : RegistryM α) : LoadM α := onSettings (Settings.onRegistry operation)

/-- The things that there are now. -/
def currentEntities : LoadM Entities := do return (← get).entities

/-- The names that things have now. -/
def currentNames : LoadM EntityNames := do return (← get).names

/-- The packages that there are now below a root. -/
def currentPackages (root : Location) : LoadM (List Location) := do return buildDirectories (← get).store root

/-- A new thing gets the next number, and its name from now on stands for it. -/
def add (site : Site) (name : String) (thing : EntityExpr) : LoadM Nat := do
  let entity ← onRegistry (thing.create site (← currentNames))
  let number := (← currentEntities).length
  modify fun s => { s with entities := s.entities ++ [entity], names := Assoc.insert s.names name number }
  return number

/-- One definition is carried out. -/
def execute (site : Site) (bindings : Bindings) : Definition → LoadM Bindings
  | .define variableName name thing => do
    return Assoc.insert bindings variableName (some (← add site name thing))
  | .bind variableName name => do
    match (← currentNames).resolve name with
    | .ok number => return Assoc.insert bindings variableName (some number)
    | .error e => throw e
  | .register source => do
    onRegistry (do Registry.register (← Registry.adopt source))
    return bindings
  | .read flag => do
    let value ← onRegistry (Registry.read (.name flag))
    modify fun s => { s with reports := s.reports ++ [.flag value] }
    return bindings
  | .fail failure => throw failure

/-- A failure while a file is loaded: errors of the build stay as they are, and anything else is an error of
the file. -/
def loadFailure (file : String) : Failure → Failure
  | .build e => .build e
  | .fault f => .of (.loadFailed file f.message)

/-- An operation on behalf of a build file. -/
def ofFile {α : Type} (file : String) (operation : LoadM α) : LoadM α := fun s =>
  match operation s with
  | .error e s => .error (loadFailure file e) s
  | result => result

/-- A build file is carried out on behalf of its package. -/
def runFile (w : Workspace) (file : String) (package : Package) (definitions : List Definition) : LoadM Namespace := do
  let site : Site := { workspace := w, package := some package }
  let bindings ← ofFile file (definitions.foldlM (execute site) initialBindings)
  return { bindings, entities := ← currentEntities }

/-- The build file of a package is carried out for its targets. -/
def loadPackage (w : Workspace) (file : String) (package : Package) (definitions : List Definition) :
    LoadM (Assoc String Nat) := do
  return (← runFile w file package definitions).targets package

/-- The targets of the package in a directory are loaded. -/
def addPackage (w : Workspace) (files : BuildFiles) (directory : Location) : LoadM Unit := do
  let definitions := (Assoc.find? files (locate w.sourceDir ++ directory ++ [buildFileName])).getD []
  let package := packageOf w.sourceDir directory
  let found ← loadPackage w (buildFile w.sourceDir directory) package definitions
  modify fun s => { s with targets := Assoc.insertAll s.targets found }

/-- The targets of all packages of a source tree are loaded. -/
def loadTargets (w : Workspace) (files : BuildFiles) : LoadM Unit := do
  (← currentPackages (locate w.sourceDir)).forM (addPackage w files)

end LoadState

end BuildPlan
