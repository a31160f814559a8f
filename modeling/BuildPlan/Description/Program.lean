import BuildPlan.Description.Value
import BuildPlan.Ninja.File
import BuildPlan.Target.Program

/-!
# Build programs in descriptions

An action is an object whose field `do` names it. Rules may be shared: `{"ref": name}` stands for one of the rules
that the `Vocabulary` of the description has, and failures are raised under its names.
-/

namespace BuildPlan.Description

/-- The sorts of failures that programs can raise. -/
inductive FailureKind where
  | error (kind : ErrorKind)
  | value
  | state
  deriving DecidableEq, Repr

/-- The usual names of failures. -/
def usualFailures : Assoc String FailureKind := [
  ("general", .error .general), ("config", .error .config), ("generate", .error .generate),
  ("build step", .error .buildStep), ("target reference", .error .targetReference), ("input", .error .input),
  ("load", .error .load), ("template", .error .template), ("value", .value), ("state", .state)]

/-- What a description can refer to by name. -/
structure Vocabulary where
  rules : Assoc String Rule := []
  failures : Assoc String FailureKind := usualFailures

/-- A rule. -/
def rule (j : Json) : Option Rule := do
  let plain : Rule := {
    name := ← text j "name"
    command := ← text j "command"
    description := ← text j "description"
    depfile := ← text j "depfile"
    deps := ← text j "deps"
    pool := ← text j "pool"
    restat := ← bool j "restat"
    generator := ← bool j "generator"
    compdb := ← bool j "compdb" }
  return plain.withBindings (← withDefault [] Json.stringMap? j "variables")

/-- The rule of a step, with where it comes from. -/
def ruleReference (words : Vocabulary) (j : Json) : Option (Rule × RuleOrigin) :=
  match given? j "ref" with
  | some (.string name) => (Assoc.find? words.rules name).map (·, .shared name)
  | _ => (rule j).map (·, .own)

/-- A failure that a program raises. Without a kind it is an error of generation. -/
def failure (words : Vocabulary) (j : Json) : Option Failure := do
  let message ← text j "message"
  let kind ← match ← optional Json.string? j "kind" with
    | some name => Assoc.find? words.failures name
    | none => some (.error .generate)
  match kind with
  | .value => return .fault (.value message)
  | .state => return .fault (.state message)
  | .error kind => return .build { cause := .reported kind message, target := ← optional Json.string? j "target" }

/-- Paths of a step. -/
def paths (j : Json) (name : String) : Option (List PathExpr) := withDefault [] (listOf path) j name

/-- A text of a step. -/
def stepText (j : Json) (name : String) : Option TextExpr := withDefault [] textExpr j name

/-- A build step. -/
def step (j : Json) : Option StepExpr := do
  return {
    out := ← optional path j "out"
    outs := ← paths j "outs"
    input := ← optional path j "in"
    ins := ← paths j "ins"
    orderOnly := ← paths j "order_only"
    depfile := ← optional path j "depfile"
    command := ← stepText j "cmd"
    script := ← stepText j "script"
    data := ← stepText j "data"
    dataMode := ← withDefault 0 nat? j "data_file_mode"
    description := ← stepText j "descr" }

/-- A build step with a rule. -/
def ruleStep (words : Vocabulary) (j : Json) : Option RuleStepExpr := do
  let (rule, origin) ← required (ruleReference words) j "rule"
  return {
    rule, origin
    outs := ← paths j "outs"
    ins := ← paths j "ins"
    implicit := ← paths j "implicit"
    orderOnly := ← paths j "order_only"
    depfile := ← optional path j "depfile"
    bindings := ← withDefault [] (tableOf textExpr) j "variables" }

/-- An action without a body. -/
def simpleAction (words : Vocabulary) (name : String) (j : Json) : Option Action := do
  match name with
  | "step" => return .step (← step j)
  | "rule_step" => return .ruleStep (← ruleStep words j)
  | "built" => return .isBuilt (← required Json.string? j "id")
  | "depend" => return .depend (← required Json.string? j "on")
  | "build" => return .build (← required Json.string? j "obj")
  | "run" => return .run (← required Json.string? j "obj") (← texts j "args")
  | "raise" => return .fail (← failure words j)
  | "cwd" => return .directory
  | "trace" => return .trace
  | "frontier" => return .frontier
  | "compdb" => return .compdbRules
  | "out_path" => return .outPath (← required path j "path")
  | "path" => return .path (← required path j "path")
  | "edges" => return .edges
  | "edge_for" =>
    match ← optional path j "path" with
    | some path => return .edgeOf path
    | none => return .edgeFor (← required Json.string? j "key")
  | "target_rules" => return .targetRules
  | "handle_target" => return .handleTarget (← required Json.string? j "name") (← required Json.string? j "obj")
  | "process" => return .processTargets
  | "render" => return .render
  | "render_twice" => return .renderTwice
  | "generate" =>
    return .writeBuildFile (← required Json.string? j "dir")
      (← withDefault Ninja.defaultFileName Json.string? j "filename")
  | "register" => return .register (← required flag j "flag")
  | "flag_value" => return .flagValue (← required Json.string? j "name")
  | _ => none

/-- An action; `depth` bounds how deep bodies nest. -/
def actionWithin (words : Vocabulary) : Nat → Json → Option Action
  | 0, _ => none
  | depth + 1, j => do
    let body : Option (List Action) := withDefault [] (listOf (actionWithin words depth)) j "ops"
    match ← required Json.string? j "do" with
    | "traced" => return .traced (← text j "label") (← body)
    | "with_trace" => return .tracedView (← text j "label") (← body)
    | "once" => return .once (← required Json.string? j "id") (← body)
    | "try" => return .attempt (← body)
    | name => simpleAction words name j

/-- An action. -/
def action (words : Vocabulary) (j : Json) : Option Action := actionWithin words nestingLimit j

end BuildPlan.Description
