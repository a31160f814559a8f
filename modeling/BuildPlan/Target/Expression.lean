import BuildPlan.Flag.Registry
import BuildPlan.Package.Basic
import BuildPlan.Workspace

/-!
# Paths and texts of build programs

Build programs name files and texts by expressions, whose meaning depends on the `Site` where they are used: the
workspace, the package that the program belongs to, and the build directory of the current target.
-/

namespace BuildPlan

/-- Where an expression is used. -/
structure Site where
  workspace : Workspace
  /-- The build directory of the current target. Where nothing is built there is none. -/
  directory : Option OutPath := none
  package : Option Package := none

/-- A path as build programs name it. -/
inductive PathExpr where
  | source (rel : String)
  | out (rel : String)
  | exact (path : Path)
  /-- A file of the package. -/
  | package (rel : String)
  /-- A file below the build directory of the current target. -/
  | current (rel : String)
  /-- The build path that belongs to a path. -/
  | counterpart (path : PathExpr)
  | derived (derivation : Derivation) (path : PathExpr) (text : String)
  deriving DecidableEq, Repr

/-- The name of the operation of paths that makes a derivation. -/
def Derivation.method : Derivation → String
  | .extension => "with_ext"
  | .suffix => "with_suffix"
  | .fileName => "with_filename"
  | .join => "join"
  | .nest => "with_prefix"

/-- The name of the sort of path. -/
def Path.className : Path → String
  | .source .. => "SourcePath"
  | .out _ => "OutPath"
  | .elsewhere _ => "GlobalPath"

/-- The path that an expression means. Only build paths have derivations, only packages have files, and build
directories and counterparts are only known while something is built. -/
def PathExpr.eval (site : Site) : PathExpr → Except Failure Path
  | .source rel => .ok (site.workspace.source rel)
  | .out rel => .ok (.out (site.workspace.out rel))
  | .exact path => .ok path
  | .package rel =>
    match site.package with
    | some p => .ok (p.source rel)
    | none => .error (.lacking "NoneType" "source")
  | .current rel =>
    match site.directory with
    | some directory => .ok (.out (directory.join rel))
    | none => .error (.lacking "NoneType" "cwd")
  | .counterpart base => do
    if site.directory.isNone then throw (.lacking "NoneType" "out_path")
    return .out (site.workspace.outPath (← base.eval site))
  | .derived derivation base text => do
    match ← base.eval site with
    | .out p => return .out (p.derive derivation text)
    | path => throw (.lacking path.className derivation.method)

/-- A part of a text. -/
inductive TextPart where
  | literal (text : String)
  | repeated (text : String) (times : Nat)
  /-- The absolute path. -/
  | path (path : PathExpr)
  /-- The value of a registered flag. -/
  | flag (name : String)
  deriving DecidableEq, Repr

/-- A text as build programs name it: its parts in their order. -/
abbrev TextExpr := List TextPart

/-- A check as an operation on the flags. -/
def RegistryM.ofExcept {α : Type} : Except Failure α → RegistryM α
  | .ok a => pure a
  | .error e => throw e

/-- The text of the value of a registered flag. -/
def flagText (name : String) : RegistryM String := do
  let value ← Registry.read (.name name)
  match Assoc.find? (← get).flags name with
  | some flag =>
    Registry.checkLengths flag [value]
    return flag.format value
  | none => return value.text

/-- The text that a part means. -/
def TextPart.eval (site : Site) : TextPart → RegistryM String
  | .literal text => return text
  | .repeated text times => return String.join (List.replicate times text)
  | .path p => do return (← RegistryM.ofExcept (p.eval site)).absolute
  | .flag name => flagText name

/-- The text that an expression means. -/
def evalText (site : Site) (text : TextExpr) : RegistryM String := do
  return String.join (← text.mapM (TextPart.eval site))

end BuildPlan
