import BuildPlan.Build.Run

/-!
# Generators

A `Generator` is a format of build files. `Generator.generate` makes the text of the build file of a graph and only then
writes it, by way of `Store.replaceFile`. `Generator.ninja` is the format of `Session.writeBuildFile`.
-/

namespace BuildPlan

/-- The file at a path is replaced by one with the text. -/
def Store.replaceFile (path text : String) (s : Store) : Except Failure Unit × Store :=
  match s.writeAtomically path text with
  | (.ok (), s) => (.ok (), s)
  | (.error e, s) => (.error (.ofFile (.unwritable path) e), s)

/-- A format of build files. -/
structure Generator where
  name : String
  fileName : String
  /-- The text of the build file of a graph, unless it cannot be made. -/
  render : Graph → Except Failure String

namespace Generator

/-- The build file in a directory. -/
def file (g : Generator) (directory : String) : String := tidyText (joinText directory g.fileName)

/-- The build file is written into a directory. The answer is the file. -/
def generate (g : Generator) (directory : String) : SessionM String := do
  match g.render (← Session.currentGraph) with
  | .error e => throw e
  | .ok text =>
    Session.onStore (Store.replaceFile (g.file directory) text)
    return g.file directory

/-- The format that Ninja reads. -/
def ninja (fileName : String) : Generator :=
  { name := "ninja", fileName, render := fun graph => .ok (Ninja.fileText graph) }

end Generator

attribute [local irreducible] Store.writeAtomically in
theorem Session.writeBuildFile_eq (directory fileName : String) :
    writeBuildFile directory fileName =
      (fun file => .texts ["ninja", "NinjaGenerator(filename=" ++ Text.quoted fileName ++ ")", file]) <$>
        (Generator.ninja fileName).generate directory := by
  rw [writeBuildFile, Generator.generate, map_eq_pure_bind, bind_assoc]
  refine bind_congr fun graph => ?_
  conv => rhs; rw [Generator.ninja, bind_assoc]
  simp only [pure_bind]
  rfl

end BuildPlan
