import BuildPlan.Package.Basic
import BuildPlan.Store.Operations
import BuildPlan.Text.Order

/-!
# Finding packages

A package is a directory of the source tree with a build file, unless the directory or one on the way to it is
hidden. `buildDirectories` lists the packages of a tree, component by component in ascending order.
-/

namespace BuildPlan

/-- The name of the files that define packages. -/
def buildFileName : String := "BUILD.py"

/-- A directory in which packages are looked for. -/
def isVisible (component : String) : Bool := component.toList.head? ≠ some '.' && component ≠ "__pycache__"

/-- The directory of a package below a root, if there is a build file at this place. -/
def packageAt? (root place : Location) (node : Node) : Option Location :=
  match node with
  | .directory => none
  | .file _ _ =>
    let directory := (place.drop root.length).dropLast
    if place = root ++ directory ++ [buildFileName] ∧ directory.all isVisible then some directory else none

/-- The build file of one directory comes before that of another, component by component. -/
def precedes (a b : Location) : Bool := Text.isAtMost (a ++ [buildFileName]) (b ++ [buildFileName])

/-- The directories of the packages below a root, in the order of their build files. -/
def buildDirectories (s : Store) (root : Location) : List Location :=
  Text.sortBy precedes (s.entries.filterMap fun (place, node) => packageAt? root place node)

/-- The build file of a package. -/
def buildFile (sourceDir : String) (directory : Location) : String :=
  tidyText (joinText sourceDir ("/".intercalate (directory ++ [buildFileName])))

/-- A path from the root, as it is shown. -/
def absoluteText (path : String) : String := tidyText (joinText "/" path)

/-- The package of a directory below the root of the source tree. -/
def packageOf (sourceDir : String) (directory : Location) : Package :=
  { sourceDir := absoluteText sourceDir, name := "/".intercalate directory }

/-- The build files of a source tree. -/
def findBuildFiles (s : Store) (sourceDir : String) : List String :=
  (buildDirectories s (locate sourceDir)).map (buildFile sourceDir)

end BuildPlan
