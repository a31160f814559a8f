import BuildPlan.Target.Closure
import BuildPlan.Target.Program
import BuildPlan.Target.Toolchain
import BuildPlan.Text.Uppercase

/-!
# Things that can be built

An `Entity` is a thing that a build description defines: a program of its own, a group of targets, or an object
file, a library or an executable of C or C++ files. Things are known by their numbers in an `Entities` list. A
description gives an `EntityExpr`, which knows other things by names and whose paths and texts are expressions.
-/

namespace BuildPlan

/-- How a target of its own gives the command that runs or tests it: it carries out actions, and then the command
for some arguments is a text. -/
structure CommandProgram where
  actions : List Action := []
  command : List String → String

/-- How a target of its own says which files to show: it carries out actions, and then gives the files. -/
structure OutputsProgram where
  actions : List Action := []
  files : List PathExpr

/-- A command that starts with a text, which the arguments follow. -/
def CommandProgram.starting (text : String) : CommandProgram :=
  { command := fun arguments => " ".intercalate (text :: arguments) }

/-- No command, but a failure. -/
def CommandProgram.failing (failure : Failure) : CommandProgram :=
  { actions := [.fail failure], command := fun _ => "" }

/-- A target with a build program of its own, and with what else it can do. A module that has these functions can
be built like any other target. -/
structure Custom where
  build : List Action := []
  description : Option String := none
  run : Option CommandProgram := none
  test : Option CommandProgram := none
  /-- The files to show when the target has been built. -/
  outputs : Option OutputsProgram := none
  /-- The package that defines it. -/
  package : Option Package := none
  /-- The operations are functions of a module. -/
  isModule : Bool := false

/-- An object file of one source file. -/
structure ObjectFileOf (π τ : Type) where
  src : π
  includes : List π := []
  flags : List τ := []
  toolchain : Toolchain := {}
  deriving DecidableEq, Repr

/-- A static library. -/
structure LibraryOf (π τ ι : Type) where
  name : String
  srcs : List π := []
  includes : List π := []
  compilerFlags : List τ := []
  deps : List ι := []
  toolchain : Toolchain := {}
  deriving DecidableEq, Repr

/-- An executable, which may be a test. -/
structure ExecutableOf (π τ ι : Type) where
  name : String
  srcs : List π := []
  compilerFlags : List τ := []
  linkerFlags : List τ := []
  deps : List ι := []
  toolchain : Toolchain := {}
  isTest : Bool := false
  deriving DecidableEq, Repr

/-- An object file whose paths and texts are known. -/
abbrev ObjectFile := ObjectFileOf Path String

/-- A library whose paths and texts are known. -/
abbrev Library := LibraryOf Path String Nat

/-- An executable whose paths and texts are known. -/
abbrev Executable := ExecutableOf Path String Nat

/-- A thing that a build description defines. -/
inductive EntityOf (π τ ι : Type) where
  | custom (custom : Custom)
  | group (members : List ι)
  | objectFile (objectFile : ObjectFileOf π τ)
  | library (library : LibraryOf π τ ι)
  | executable (executable : ExecutableOf π τ ι)
  /-- Something that is no target: a class, a value, or a module that has nothing to build. -/
  | inert

/-- A thing whose paths and texts are known. -/
abbrev Entity := EntityOf Path String Nat

/-- A thing as a build description gives it. -/
abbrev EntityExpr := EntityOf PathExpr TextExpr String

/-- Things by their numbers. -/
abbrev Entities := List Entity

/-- The numbers of things by their names. -/
abbrev EntityNames := Assoc String Nat

/-- The number of the thing with a name. -/
def EntityNames.resolve (names : EntityNames) (name : String) : Except Failure Nat :=
  match Assoc.find? names name with
  | some number => .ok number
  | none => .error (.fault (.absent (Text.quoted name)))

/-- The numbers of things with names. -/
def evalNames (names : EntityNames) (wanted : List String) : RegistryM (List Nat) :=
  RegistryM.ofExcept (wanted.mapM names.resolve)

/-- The thing that a description means where it is given. The paths of a custom target wait until they are
used. -/
def EntityOf.create (site : Site) (names : EntityNames) : EntityExpr → RegistryM Entity
  | .custom c => return .custom { c with package := site.package }
  | .group members => do return .group (← evalNames names members)
  | .inert => return .inert
  | .objectFile o => do
    return .objectFile {
      src := ← RegistryM.ofExcept (o.src.eval site)
      includes := ← evalPaths site o.includes
      flags := ← o.flags.mapM (evalText site)
      toolchain := o.toolchain }
  | .library l => do
    return .library {
      name := l.name
      srcs := ← evalPaths site l.srcs
      includes := ← evalPaths site l.includes
      compilerFlags := ← l.compilerFlags.mapM (evalText site)
      deps := ← evalNames names l.deps
      toolchain := l.toolchain }
  | .executable x => do
    return .executable {
      name := x.name
      srcs := ← evalPaths site x.srcs
      compilerFlags := ← x.compilerFlags.mapM (evalText site)
      linkerFlags := ← x.linkerFlags.mapM (evalText site)
      deps := ← evalNames names x.deps
      toolchain := x.toolchain
      isTest := x.isTest }

namespace EntityOf

variable {π τ ι : Type}

/-- The thing can be built. -/
def isTarget : EntityOf π τ ι → Bool
  | .inert => false
  | _ => true

/-- The thing is a module that could be built. -/
def isModule : EntityOf π τ ι → Bool
  | .custom c => c.isModule
  | _ => false

/-- The thing has a command that runs it. -/
def isRunnable : EntityOf π τ ι → Bool
  | .custom c => c.run.isSome
  | .executable _ => true
  | _ => false

/-- The thing has a command that tests it. -/
def isTestable : EntityOf π τ ι → Bool
  | .custom c => c.test.isSome
  | .executable x => x.isTest
  | _ => false

/-- The thing says itself which files to show. -/
def hasOutputs : EntityOf π τ ι → Bool
  | .custom c => c.outputs.isSome
  | _ => false

/-- What the thing says of itself. -/
def description : EntityOf π τ ι → String
  | .custom c => c.description.getD ""
  | .executable x => (if x.isTest then "C++ test " else "C++ binary ") ++ x.name
  | _ => ""

/-- The name of the sort of thing. -/
def className : EntityOf π τ ι → String
  | .custom _ => "Custom"
  | .group _ => "TargetGroup"
  | .objectFile _ => "ObjectFile"
  | .library _ => "Library"
  | .executable x => if x.isTest then "Test" else "Binary"
  | .inert => "object"

/-- How a group is shown. -/
def shownGroup? : EntityOf π τ ι → Option String
  | .group members => some ("TargetGroup(" ++ toString members.length ++ " targets)")
  | _ => none

end EntityOf

/-- The name is that of an exported target: its last component starts with an upper-case letter. -/
def isExported (targetName : String) : Bool :=
  ((lastComponent targetName).toList.head?.map Text.isUppercase).getD false

/-- What is reported of a target. -/
structure TargetInfo where
  description : String := ""
  runnable : Bool := false
  testable : Bool := false
  selected : Bool := false
  deriving DecidableEq, Repr

/-- What is reported of a thing that has not been selected. -/
def TargetInfo.of (entity : Entity) : TargetInfo :=
  { description := entity.description, runnable := entity.isRunnable, testable := entity.isTestable }

namespace Entities

/-- A library by its number. -/
def library? (entities : Entities) (id : Nat) : Option Library :=
  match entities[id]? with
  | some (.library l) => some l
  | _ => none

/-- The numbers of the libraries that a library depends on directly. -/
def libraryDeps (entities : Entities) (id : Nat) : List Nat := ((entities.library? id).map (·.deps)).getD []

/-- The libraries that some numbers reach, with their numbers, each before its dependencies. -/
def libraryClosure (entities : Entities) (ids : List Nat) : List (Nat × Library) :=
  (closure entities.libraryDeps entities.length ids).filterMap fun id => (entities.library? id).map (id, ·)

end Entities

end BuildPlan
