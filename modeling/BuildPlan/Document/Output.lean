import BuildPlan.Flag.Definition
import BuildPlan.Json.Writer
import BuildPlan.Target.Entity

/-!
# Output documents

An `Output` is the result of a run, and `Output.text` writes it as a JSON document.
-/

namespace BuildPlan

/-- The result of a run. -/
structure Output where
  /-- The text of the Ninja file; it is empty when none is needed. -/
  ninjaFile : String := ""
  /-- The exported targets. -/
  targets : Assoc String TargetInfo := []
  flags : Assoc String FlagInfo := []
  /-- The rules for a compilation database. -/
  compdbRules : List String := []
  /-- The names of the selected targets. -/
  selected : List String := []
  deriving DecidableEq, Repr

/-- Texts as a JSON value. -/
def Json.ofTexts (texts : List String) : Json := .array (texts.map .string)

/-- What is known of a flag as a JSON value. -/
def FlagInfo.toJson (i : FlagInfo) : Json :=
  .object [
    ("description", .string i.description),
    ("type", .string i.type),
    ("allowed_values", .ofTexts i.allowed),
    ("value", .string i.value)]

/-- What is reported of a target as a JSON value. -/
def TargetInfo.toJson (i : TargetInfo) : Json :=
  .object [
    ("description", .string i.description),
    ("runnable", .bool i.runnable),
    ("testable", .bool i.testable),
    ("selected", .bool i.selected)]

namespace Output

/-- A table as a JSON value, in the order of its keys. -/
def sortedObject {α : Type} (table : Assoc String α) (toJson : α → Json) : Json :=
  .object ((Text.sortOn (·.1) table).map fun (name, value) => (name, toJson value))

/-- The result as a JSON value. -/
def toJson (o : Output) : Json :=
  .object [
    ("version", .integer documentVersion),
    ("ninja_file", .string o.ninjaFile),
    ("targets", sortedObject o.targets TargetInfo.toJson),
    ("flags", sortedObject o.flags FlagInfo.toJson),
    ("compdb_rules", .ofTexts o.compdbRules),
    ("selected_targets", .ofTexts o.selected)]

/-- The result as a document. -/
def text (o : Output) : String := o.toJson.pretty ++ "\n"

end Output

end BuildPlan
