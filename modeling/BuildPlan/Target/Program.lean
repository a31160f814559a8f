import BuildPlan.Graph.Basic
import BuildPlan.Target.Expression

/-!
# Build programs

What a target does when it is built is a list of `Action`s: it adds steps, marks what it is doing, builds other
things, looks at the graph, or fails.
-/

namespace BuildPlan

/-- A build step as programs give it. -/
structure StepExpr where
  out : Option PathExpr := none
  outs : List PathExpr := []
  input : Option PathExpr := none
  ins : List PathExpr := []
  orderOnly : List PathExpr := []
  depfile : Option PathExpr := none
  command : TextExpr := []
  script : TextExpr := []
  data : TextExpr := []
  dataMode : Nat := 0
  description : TextExpr := []
  deriving DecidableEq, Repr

/-- A build step with a rule as programs give it. -/
structure RuleStepExpr where
  rule : Rule
  origin : RuleOrigin := .own
  outs : List PathExpr := []
  ins : List PathExpr := []
  implicit : List PathExpr := []
  orderOnly : List PathExpr := []
  depfile : Option PathExpr := none
  bindings : List (String × TextExpr) := []
  deriving DecidableEq, Repr

/-- The paths that expressions mean. -/
def evalPaths (site : Site) (paths : List PathExpr) : RegistryM (List Path) :=
  RegistryM.ofExcept (paths.mapM (PathExpr.eval site))

/-- The path that an expression means, where there is one. -/
def evalPath? (site : Site) : Option PathExpr → RegistryM (Option Path)
  | none => return none
  | some path => do return some (← RegistryM.ofExcept (path.eval site))

/-- The step that a program gives. -/
def StepExpr.eval (site : Site) (s : StepExpr) : RegistryM Step := do
  return {
    out := ← evalPath? site s.out
    outs := ← evalPaths site s.outs
    input := ← evalPath? site s.input
    ins := ← evalPaths site s.ins
    orderOnly := ← evalPaths site s.orderOnly
    depfile := ← evalPath? site s.depfile
    command := ← evalText site s.command
    script := ← evalText site s.script
    data := ← evalText site s.data
    dataMode := s.dataMode
    description := ← evalText site s.description }

/-- The step with a rule that a program gives. -/
def RuleStepExpr.eval (site : Site) (s : RuleStepExpr) : RegistryM RuleStep := do
  return {
    rule := s.rule
    origin := s.origin
    outs := ← evalPaths site s.outs
    ins := ← evalPaths site s.ins
    implicit := ← evalPaths site s.implicit
    orderOnly := ← evalPaths site s.orderOnly
    depfile := ← evalPath? site s.depfile
    bindings := ← s.bindings.mapM fun (name, text) => do return (name, ← evalText site text) }

/-- What a build program can do. Things that can be built are named by their ids. -/
inductive Action where
  | step (step : StepExpr)
  | ruleStep (step : RuleStepExpr)
  /-- The body runs with a label on the trace. -/
  | traced (label : String) (body : List Action)
  /-- The same; the answer is the trace inside. -/
  | tracedView (label : String) (body : List Action)
  /-- Whether the name has been marked as built; it is from now on. -/
  | isBuilt (name : String)
  /-- The body runs unless the name has been marked as built. -/
  | once (name : String) (body : List Action)
  /-- The current target needs another one. -/
  | depend (entity : String)
  /-- The current target needs the target with a name. -/
  | dependOn (target : String)
  /-- The current target needs all targets, in the order in which they were given. -/
  | dependOnAll
  | build (entity : String)
  /-- The command that runs something that has been built. -/
  | run (entity : String) (arguments : List String)
  | fail (failure : Failure)
  /-- The body runs, and its error is the answer instead of a failure. -/
  | attempt (body : List Action)
  | directory
  | trace
  | frontier
  | compdbRules
  | outPath (path : PathExpr)
  | path (path : PathExpr)
  | edges
  | edgeOf (path : PathExpr)
  | edgeFor (absolute : String)
  | targetRules
  /-- The names of the targets, in the order in which they were given. -/
  | targets
  /-- A thing is built as a top-level target. -/
  | handleTarget (name : String) (entity : String)
  /-- All top-level targets are built. -/
  | processTargets
  | render
  | renderTwice
  | writeBuildFile (directory fileName : String)
  | register (source : FlagSource)
  | flagValue (name : String)

/-- What an action answers. -/
inductive Reply where
  | nothing
  | truth (value : Bool)
  | text (value : String)
  | texts (values : List String)
  | path (path : Path)
  | paths (paths : List Path)
  | edge (edge : Option Edge)
  | edges (edges : List Edge)
  | targetRules (rules : List TargetRule)
  | error (error : BuildError)
  | flag (value : FlagValue)
  /-- A text that was made twice, and whether it was the same. -/
  | twice (same : Bool) (text : String)

end BuildPlan
