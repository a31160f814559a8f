import BuildPlan.Description.Field
import BuildPlan.Target.Expression

/-!
# Paths, texts and flags in descriptions

A path is an object whose only field says how it is meant, and so is a part of a text that is not literal and the
value of a flag.
-/

namespace BuildPlan.Description

/-- The derivation with a name. -/
def derivation? : String → Option Derivation
  | "ext" => some .extension
  | "suffix" => some .suffix
  | "filename" => some .fileName
  | "join" => some .join
  | "prefix" => some .nest
  | _ => none

/-- A path that is written out in full. -/
def exactPath? (name : String) (value : Json) : Option Path :=
  match name, value with
  | "abs", .string text => some (.elsewhere text)
  | "srcpath", .array [.string root, .string rel] => some (.source root rel)
  | "outpath", .array [.string root, .string hash, .string rel] => some (.out ⟨root, hash, rel⟩)
  | _, _ => none

/-- A path; `depth` bounds how many derivations stand around each other. -/
def pathWithin : Nat → Json → Option PathExpr
  | 0, _ => none
  | depth + 1, j => do
    let (name, value) ← tagged? j
    match name, value with
    | "src", .string rel => some (.source rel)
    | "out", .string rel => some (.out rel)
    | "pkg", .string rel => some (.package rel)
    | "cwd", .string rel => some (.current rel)
    | "mirror", path => (pathWithin depth path).map .counterpart
    | name, .array [path, .string text] =>
      match derivation? name with
      | some d => do return .derived d (← pathWithin depth path) text
      | none => (exactPath? name value).map .exact
    | name, value => (exactPath? name value).map .exact

/-- A path. -/
def path (j : Json) : Option PathExpr := pathWithin nestingLimit j

/-- A text; `depth` bounds how many joins stand around each other. -/
def textWithin : Nat → Json → Option TextExpr
  | 0, _ => none
  | _, .string s => some [.literal s]
  | depth + 1, j => do
    let (name, value) ← tagged? j
    match name, value with
    | "concat", .array parts => (parts.mapM (textWithin depth)).map List.flatten
    | "repeat", .array [.string text, times] => do return [.repeated text (← nat? times)]
    | "path", value => do return [.path (← path value)]
    | "flag", .string flag => some [.flag flag]
    | _, _ => none

/-- A text. -/
def textExpr (j : Json) : Option TextExpr := textWithin nestingLimit j

/-- The value of a flag. -/
def flagValue (j : Json) : Option FlagValue := do
  match ← tagged? j with
  | ("string", .string s) => some (.string s)
  | ("bool", .bool b) => some (.bool b)
  | ("int", .string s) => (Numeral.readInteger s).toOption.map .int
  | ("float", .string s) => (Numeral.readDecimal s).map .float
  | _ => none

/-- The type of flags with a name. -/
def flagKind (j : Json) : Option FlagKind := do
  let name ← j.string?
  [FlagKind.string, .bool, .int, .float].find? (·.name = name)

/-- A factory of defaults: its id, and what each call of it comes to. -/
def factory (j : Json) : Option (String × FactoryProgram) := do
  let id ← required Json.string? j "id"
  match given? j "error" with
  | some (.string message) => return (id, .fails (.of (.reported .config message)))
  | some _ => none
  | none => return (id, .gives (← optional flagValue j "value"))

/-- The definition of a flag. -/
def flag (j : Json) : Option FlagSource := do
  let factory ← optional factory j "default_factory"
  let flag : Flag := {
    kind := ← required flagKind j "type"
    name := ← required Json.string? j "name"
    description := ← text j "description"
    allowed := ← withDefault [] (listOf flagValue) j "allowed_values"
    default := ← optional flagValue j "default"
    factory := factory.map (·.1) }
  return { flag, behavior := fun _ => (factory.map (·.2)).getD (.gives none) }

end BuildPlan.Description
