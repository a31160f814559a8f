import BuildPlan.Graph.Rule
import BuildPlan.Path.Basic

/-!
# Toolchains

A `Toolchain` gives the rules that compile C and C++ files, pack object files into an archive and link an
executable. Flags come from the variables of an edge, so all edges of a toolchain share its rules.
-/

namespace BuildPlan

/-- Programs and flags that builds of C and C++ use. -/
structure Toolchain where
  /-- What the names of the rules start with. -/
  name : String := "gcc"
  /-- The compiler of C files. -/
  cc : String := "gcc"
  /-- The compiler of all other files, which links too. -/
  cxx : String := "g++"
  /-- The archiver. -/
  ar : String := "ar"
  /-- Flags of every compilation. -/
  compilerFlags : List String := ["-O2"]
  /-- Flags of every link. -/
  linkerFlags : List String := []
  deriving DecidableEq, Repr

namespace Toolchain

/-- A C file, by its extension. -/
def isC (src : Path) : Bool := ['.', 'c'].isSuffixOf src.relative.toList

/-- The rule that compiles a file. -/
def compileRule (t : Toolchain) (src : Path) : Rule :=
  { name := t.name ++ if isC src then "_cc" else "_cxx"
    command := (if isC src then t.cc else t.cxx) ++ " $flags -MD -MF $out.d -c $in -o $out"
    description := (if isC src then "CC" else "CXX") ++ " $out"
    depfile := "$out.d"
    deps := "gcc"
    compdb := true }

/-- The rule that packs object files. -/
def archiveRule (t : Toolchain) : Rule :=
  { name := t.name ++ "_ar"
    command := "rm -f $out && " ++ t.ar ++ " rcs $out $in"
    description := "AR $out" }

/-- The rule that links an executable. -/
def linkRule (t : Toolchain) : Rule :=
  { name := t.name ++ "_ld"
    command := t.cxx ++ " $flags -o $out $in $libs"
    description := "LD $out" }

end Toolchain

end BuildPlan
