import BuildPlan.Path.Lexical

/-!
# Paths of a build

A `Path` names an input or an output of a build step: a file of the source tree, a file of the build tree of one
configuration, or a file anywhere else. A build path carries the hash of its configuration, so outputs of
different configurations lie in different directories.
-/

namespace BuildPlan

/-- The build directory of a configuration; without a hash it is the root itself. -/
def buildDirectory (root hash : String) : String := if hash = "" then root else root ++ "-" ++ hash

/-- A file of the build tree. -/
structure OutPath where
  /-- The build directory before the hash. -/
  root : String
  /-- The hash of the configuration. -/
  hash : String
  /-- The file below the build directory. -/
  rel : String
  deriving DecidableEq, Repr

/-- A file that build steps read or write. Two paths are equal only when they are of the same sort, even if they
lead to the same file. -/
inductive Path where
  /-- A file of the source tree. -/
  | source (root rel : String)
  /-- A file of the build tree. -/
  | out (path : OutPath)
  /-- A file elsewhere. -/
  | elsewhere (text : String)
  deriving DecidableEq, Repr

/-- `join` on strings. -/
def joinText (a b : String) : String := String.ofList (Lexical.join a.toList b.toList)

/-- `Lexical.tidy` on strings. -/
def tidyText (path : String) : String := String.ofList (Lexical.tidy path.toList)

/-- `Lexical.basename` on strings. -/
def lastComponent (path : String) : String := String.ofList (Lexical.basename path.toList)

/-- `Lexical.dirname` on strings. -/
def directoryOf (path : String) : String := String.ofList (Lexical.dirname path.toList)

namespace OutPath

/-- The directory that the path lies below. -/
def directory (p : OutPath) : String := buildDirectory p.root p.hash

/-- The path as build files and commands have it. -/
def absolute (p : OutPath) : String := joinText p.directory p.rel

/-- The path with another extension, written with or without dots in front. -/
def withExtension (p : OutPath) (extension : String) : OutPath :=
  { p with
    rel := String.ofList (Lexical.stem p.rel.toList ++ '.' :: extension.toList.dropWhile (· = '.')) }

/-- The path with another last component. -/
def withFileName (p : OutPath) (name : String) : OutPath :=
  { p with rel := String.ofList (Lexical.join (Lexical.dirname p.rel.toList) name.toList) }

/-- The path with more text at its end. -/
def withSuffix (p : OutPath) (suffix : String) : OutPath := { p with rel := p.rel ++ suffix }

/-- A path below this one. -/
def join (p : OutPath) (rel : String) : OutPath := { p with rel := joinText p.rel rel }

/-- The path below one more directory. -/
def nest (p : OutPath) (directory : String) : OutPath := { p with rel := joinText directory p.rel }

end OutPath

namespace Path

/-- The path as build files and commands have it. -/
def absolute : Path → String
  | .source root rel => joinText root rel
  | .out path => path.absolute
  | .elsewhere text => text

/-- The path below its tree, or the whole path when it is in neither. -/
def relative : Path → String
  | .source _ rel => rel
  | .out path => path.rel
  | .elsewhere text => text

end Path

/-- The ways to make one build path from another. -/
inductive Derivation where
  | extension
  | suffix
  | fileName
  | join
  | nest
  deriving DecidableEq, Repr

/-- The build path that a derivation makes with a text. -/
def OutPath.derive (p : OutPath) (derivation : Derivation) (text : String) : OutPath :=
  match derivation with
  | .extension => p.withExtension text
  | .suffix => p.withSuffix text
  | .fileName => p.withFileName text
  | .join => p.join text
  | .nest => p.nest text

end BuildPlan
