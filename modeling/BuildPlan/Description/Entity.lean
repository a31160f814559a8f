import BuildPlan.Description.Program
import BuildPlan.Json.Reader
import BuildPlan.Package.Load

/-!
# Things and build files in descriptions

A thing is an object whose field `type` says what it is. A build file is a list of definitions; `buildFileOf`
reads its text, and a text that is none fails as soon as the file is loaded.
-/

namespace BuildPlan.Description

/-- A toolchain; what is not given is as in the standard one. -/
def toolchain (j : Json) : Option Toolchain := do
  let standard : Toolchain := {}
  return {
    name := ← withDefault standard.name Json.string? j "name"
    cc := ← withDefault standard.cc Json.string? j "cc"
    cxx := ← withDefault standard.cxx Json.string? j "cxx"
    ar := ← withDefault standard.ar Json.string? j "ar"
    compilerFlags := ← withDefault standard.compilerFlags Json.stringList? j "compiler_flags"
    linkerFlags := ← withDefault standard.linkerFlags Json.stringList? j "linker_flags" }

/-- How a custom target gives a command. -/
def commandProgram (j : Json) : Option CommandProgram := do
  match ← optional Json.string? j "error" with
  | some message => return .failing (.of (.reported .generate message))
  | none => return .starting (← required Json.string? j "prefix")

/-- A custom target. -/
def custom (words : Vocabulary) (j : Json) : Option Custom := do
  return {
    build := ← withDefault [] (listOf (action words)) j "build"
    description := ← optional Json.string? j "description"
    run := ← optional commandProgram j "run"
    test := ← optional commandProgram j "test"
    outputs := (← optional (listOf path) j "outputs").map fun files => { files } }

/-- Flags of a compiler or linker. -/
def flagTexts (j : Json) (name : String) : Option (List TextExpr) := withDefault [] (listOf textExpr) j name

/-- An executable. -/
def executable (isTest : Bool) (j : Json) : Option EntityExpr := do
  return .executable {
    name := ← required Json.string? j "name"
    srcs := ← paths j "srcs"
    compilerFlags := ← flagTexts j "compiler_flags"
    linkerFlags := ← flagTexts j "linker_flags"
    deps := ← texts j "deps"
    toolchain := ← withDefault {} toolchain j "toolchain"
    isTest }

/-- A thing. -/
def entity (words : Vocabulary) (j : Json) : Option EntityExpr := do
  match ← required Json.string? j "type" with
  | "custom" => return .custom (← custom words j)
  | "group" => return .group (← texts j "members")
  | "object" =>
    return .objectFile {
      src := ← required path j "src"
      includes := ← paths j "includes"
      flags := ← flagTexts j "flags"
      toolchain := ← withDefault {} toolchain j "toolchain" }
  | "library" =>
    return .library {
      name := ← required Json.string? j "name"
      srcs := ← paths j "srcs"
      includes := ← paths j "includes"
      compilerFlags := ← flagTexts j "compiler_flags"
      deps := ← texts j "deps"
      toolchain := ← withDefault {} toolchain j "toolchain" }
  | "binary" => executable false j
  | "test" => executable true j
  | "class" | "value" | "module" => return .inert
  | _ => none

/-- A definition of a build file. -/
def definition (words : Vocabulary) (j : Json) : Option Definition := do
  match ← optional Json.string? j "var" with
  | some variableName =>
    match ← optional Json.string? j "alias" with
    | some name => return .bind variableName name
    | none =>
      return .define variableName (← withDefault variableName Json.string? j "id") (← required (entity words) j "spec")
  | none =>
    match given? j "register", given? j "value", given? j "raise" with
    | some value, _, _ => return .register (← flag value)
    | none, some (.string name), _ => return .read name
    | none, none, some value => return .fail (← failure words value)
    | _, _, _ => none

/-- The definitions of a build file. -/
def definitions (words : Vocabulary) (j : Json) : Option (List Definition) := listOf (definition words) j

/-- The definitions in the text of a build file. -/
def buildFileOf (text : String) : List Definition :=
  ((Json.read text).toOption.bind (definitions {})).getD [.fail (.fault (.value detail))]

end BuildPlan.Description
