import BuildPlan.Path.Basic

/-!
# Packages

A `Package` is a directory of the source tree that defines targets. Its name is the directory below the root of
the tree.
-/

namespace BuildPlan

/-- A directory that defines targets. -/
structure Package where
  /-- The root of the source tree. -/
  sourceDir : String
  /-- The directory below the root; it is empty for the root itself. -/
  name : String
  deriving DecidableEq, Repr

namespace Package

/-- A file of the package. -/
def source (p : Package) (rel : String) : Path := .source p.sourceDir (joinText p.name rel)

/-- The name of the target that the package calls `variable`. -/
def targetName (p : Package) (variableName : String) : String :=
  if p.name = "" then variableName else joinText p.name variableName

end Package

end BuildPlan
