import BuildPlan.Graph.Step

/-!
# Build graphs

A `Graph` collects what the targets of a run ask for. `Graph.accept` takes a statement: each output has one edge,
so a statement that claims an output of another edge must say the same and is merged with it. The frontier
holds the outputs of the current target that none of its steps has used yet, and the trace says what is being
built at the moment.
-/

namespace BuildPlan

/-- The top-level name of an exported target. -/
structure TargetRule where
  name : String
  /-- The files that the name stands for. -/
  inputs : List Path
  /-- Other top-level names that it needs. -/
  dependencies : List String
  /-- What is shown when the target has been built. -/
  printed : List String
  description : String
  /-- The command that runs the target. -/
  run : Option String
  /-- The command that tests the target. -/
  test : Option String
  deriving DecidableEq, Repr

/-- What has been asked for so far. -/
structure Graph where
  /-- The edges, in the order in which they came. -/
  edges : List Edge := []
  /-- Where among the edges the one stands that makes a file, by the absolute path of the file. -/
  outputs : Assoc String Nat := []
  /-- The rules that have a name. -/
  rules : Assoc String Rule := []
  /-- What the steps of the current target have asked for, in their order. -/
  asked : List Statement := []
  /-- What is being built, innermost last. -/
  trace : List String := []
  /-- What has been built, by any names. -/
  built : List String := []
  /-- The top-level names that the current target needs. -/
  dependencies : List String := []
  /-- The top-level names, in the order in which the targets were built. -/
  targetRules : List TargetRule := []
  /-- The target that is being processed, or at which the run stopped. -/
  current : Option String := none
  /-- The build directory of the current target. -/
  directory : OutPath
  deriving DecidableEq, Repr

namespace Graph

/-- The graph of a run before its first target. -/
def empty (w : Workspace) : Graph := { directory := w.out "" }

/-- The edge that makes the file with this absolute path. -/
def edgeFor? (g : Graph) (absolute : String) : Option Edge :=
  (Assoc.find? g.outputs absolute).bind (g.edges[·]?)

/-- The edges in the order of their first outputs. -/
def sortedEdges (g : Graph) : List Edge := Text.sortOn Edge.sortKey g.edges

/-- A frontier with one more path. -/
def addPath (frontier : List Path) (path : Path) : List Path :=
  if path ∈ frontier then frontier else frontier ++ [path]

/-- The frontier after a statement: its outputs come in, and what it uses goes out. -/
def updateFrontier (frontier : List Path) (s : Statement) : List Path :=
  (s.outs.foldl addPath frontier).filter (· ∉ s.uses)

/-- The outputs of the current target that none of its steps has used since, in the order in which they came. -/
def frontier (g : Graph) : List Path := g.asked.foldl updateFrontier []

/-- The frontier in the order of absolute paths. -/
def sortedFrontier (g : Graph) : List Path := Text.sortOn Path.absolute g.frontier

/-- The trace as one text. -/
def traceLabel (g : Graph) : String := " // ".intercalate g.trace

/-- The names of the rules for a compilation database. -/
def compdbRules (g : Graph) : List String :=
  Text.sortTexts (Assoc.keys (g.rules.filter fun entry => entry.2.compdb))

/-! ### Rules -/

/-- A rule is made known. All rules of one name must be equal. -/
def declare (g : Graph) (rule : Rule) : Except Cause Graph :=
  if rule.name = "" then .ok g
  else if isReservedRuleName rule.name then .error (.reservedRule rule.name)
  else
    match Assoc.find? g.rules rule.name with
    | none => .ok { g with rules := Assoc.insert g.rules rule.name rule }
    | some known => if known = rule then .ok g else .error (.ruleConflict rule.name)

/-! ### Statements -/

/-- One output of a statement is looked up, where `found` is the place of the edge that the outputs before it
have led to. An edge that makes the output already has to say the same. -/
def claim (g : Graph) (s : Statement) (found : Option Nat) (out : Path) : Except Cause (Option Nat) :=
  match Assoc.find? g.outputs out.absolute, g.edgeFor? out.absolute with
  | some place, some e =>
    if e.toStatement = s then .ok (some place) else .error (.redefinition out.absolute e.traces g.traceLabel)
  | _, _ => .ok found

/-- The graph with one more trace of the edge at a place. -/
def retrace (g : Graph) (place : Nat) : Graph :=
  { g with edges := g.edges.modify place (·.addTrace g.traceLabel) }

/-- The graph with one more edge, which makes its outputs from now on. -/
def addEdge (g : Graph) (s : Statement) (origin : RuleOrigin) : Graph :=
  { g with
    edges := g.edges ++ [{ s with origin, traces := [g.traceLabel] }]
    outputs := s.outs.foldl (fun table out => Assoc.insert table out.absolute g.edges.length) g.outputs }

/-- A statement is taken into the graph: as a new trace of the edge that says the same, or else as a new edge. -/
def accept (g : Graph) (s : Statement) (origin : RuleOrigin) : Except Cause Graph := do
  let taken :=
    match ← s.outs.foldlM (g.claim s) none with
    | some place => g.retrace place
    | none => g.addEdge s origin
  return { taken with asked := g.asked ++ [s] }

/-! ### Targets -/

/-- The graph at the beginning of a target. -/
def startTarget (g : Graph) (w : Workspace) (name : String) : Graph :=
  { g with current := some name, directory := w.out (directoryOf name), asked := [], dependencies := [] }

/-- The graph at the end of a target. -/
def finishTarget (g : Graph) : Graph := { g with current := none }

end Graph

end BuildPlan
