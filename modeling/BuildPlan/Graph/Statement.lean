import BuildPlan.Graph.Rule
import BuildPlan.Path.Basic

/-!
# Build statements

A `Statement` says how a rule makes outputs from inputs. An `Edge` is a statement of a graph, with the places
that it was asked for from and with the rule object behind it: rules without a name are told apart by that.
-/

namespace BuildPlan

/-- How outputs are made. -/
structure Statement where
  rule : Rule
  outs : List Path
  /-- The inputs that the command names. -/
  ins : List Path := []
  /-- Inputs that the command does not name. -/
  implicit : List Path := []
  /-- Files that must be there first, but whose changes do not count. -/
  orderOnly : List Path := []
  depfile : Option Path := none
  /-- Variables for the command, in the order of their names. -/
  bindings : List (String × String) := []
  deriving DecidableEq, Repr

/-- The files that a statement uses. -/
def Statement.uses (s : Statement) : List Path := s.ins ++ s.implicit ++ s.orderOnly

/-- Where the rule of an edge comes from. -/
inductive RuleOrigin where
  /-- It was made for this edge. -/
  | own
  /-- It is an object that several edges may share. -/
  | shared (id : String)
  deriving DecidableEq, Repr

/-- A statement of a graph. -/
structure Edge extends Statement where
  origin : RuleOrigin
  /-- The trace of each step that asked for the statement. -/
  traces : List String
  deriving DecidableEq, Repr

namespace Edge

/-- The edge makes the file with this absolute path. -/
def makes (e : Edge) (absolute : String) : Bool := e.outs.any (·.absolute = absolute)

/-- The absolute path of the first output. -/
def sortKey (e : Edge) : String := (e.outs.head?.map Path.absolute).getD ""

/-- The edge with one more trace. -/
def addTrace (e : Edge) (trace : String) : Edge := { e with traces := e.traces ++ [trace] }

end Edge

end BuildPlan
