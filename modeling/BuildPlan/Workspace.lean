import BuildPlan.Path.Basic

/-!
# Workspaces

A `Workspace` says where the source tree and the build trees are, which configuration is built, and from where
the user looks at the files.
-/

namespace BuildPlan

/-- The directories of one run. -/
structure Workspace where
  /-- The root of the source tree. -/
  sourceDir : String
  /-- The build directory before the hash of the configuration. -/
  buildRoot : String
  /-- The directory from which paths are shown; when it is empty they are shown as they are. -/
  workingDir : String := ""
  /-- The hash of the configuration. -/
  hash : String := ""
  deriving DecidableEq, Repr

namespace Workspace

/-- The build directory of the configuration. -/
def buildDir (w : Workspace) : String := buildDirectory w.buildRoot w.hash

/-- The directory that holds all build directories. -/
def outputRoot (w : Workspace) : String := directoryOf w.buildRoot

/-- The directory of payload files. -/
def dataDir (w : Workspace) : String := joinText w.outputRoot "DATA"

/-- The file that remembers flag values. -/
def flagsFile (w : Workspace) : String := joinText w.outputRoot "FLAGS.json"

/-- A file of the source tree. -/
def source (w : Workspace) (rel : String) : Path := .source w.sourceDir rel

/-- A file of the build tree. -/
def out (w : Workspace) (rel : String) : OutPath := ⟨w.buildRoot, w.hash, rel⟩

/-- The workspace of another configuration. -/
def withHash (w : Workspace) (hash : String) : Workspace := { w with hash }

/-- The build path that belongs to a path: itself, or the same relative path in the build tree. -/
def outPath (w : Workspace) : Path → OutPath
  | .out path => path
  | path => w.out path.relative

/-- The path as the user sees it from the working directory; nothing leads to an empty path. -/
def display? (w : Workspace) (path : Path) : Option String :=
  let absolute := path.absolute
  if w.workingDir = "" then some absolute
  else if absolute = "" then none
  else some (String.ofList (Lexical.relative w.workingDir.toList absolute.toList))

end Workspace

end BuildPlan
