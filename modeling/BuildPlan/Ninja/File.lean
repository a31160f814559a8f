import BuildPlan.Graph.Basic

/-!
# Ninja files

A Ninja file is a list of `Block`s. `Graph.blocks` gives those of a graph: an anchor that is never up to date,
the rules in the order in which the sorted edges first need them, the edges, and for each top-level name a rule
and a build line that shows what was made, with further ones that run and test the target. `render` writes them.

Rules without a name get made-up names in the order in which they are declared.
-/

namespace BuildPlan.Ninja

/-- A build line, with the comments above it and the variables below it. Paths are not escaped yet. -/
structure BuildLine where
  comments : List String := []
  outs : List String
  rule : String
  ins : List String := []
  implicit : List String := []
  orderOnly : List String := []
  bindings : List (String × String) := []
  deriving DecidableEq, Repr

/-- A part of a Ninja file. -/
inductive Block where
  | rule (name : String) (bindings : List (String × String))
  | build (line : BuildLine)
  deriving DecidableEq, Repr

/-! ### Text -/

/-- Variables below a rule or a build line. -/
def bindingLines (bindings : List (String × String)) : String :=
  String.join (bindings.map fun (name, value) => "  " ++ name ++ " = " ++ value ++ "\n")

/-- Paths of a build line. -/
def pathList (paths : List String) : String := " ".intercalate (paths.map escapePath)

/-- A part of a build line that is left out when it has no paths. -/
def optionalPart (mark : String) (paths : List String) : String :=
  if paths = [] then "" else mark ++ pathList paths

/-- A build line by itself. -/
def BuildLine.head (b : BuildLine) : String :=
  "build " ++ pathList b.outs ++ ": " ++ b.rule ++ optionalPart " " b.ins ++ optionalPart " | " b.implicit ++
    optionalPart " || " b.orderOnly

/-- The text of a block; an empty line ends it. -/
def Block.text : Block → String
  | .rule name bindings => "rule " ++ name ++ "\n" ++ bindingLines bindings ++ "\n"
  | .build b =>
    String.join (b.comments.map fun comment => "# " ++ comment ++ "\n") ++ b.head ++ "\n" ++
      bindingLines b.bindings ++ "\n"

/-- The text of a file. -/
def render (blocks : List Block) : String := String.join (blocks.map Block.text)

/-! ### Names of rules -/

/-- What tells apart the rules that edges share: their names, or else the rule objects, each an id with a rule. -/
inductive RuleKey where
  | named (name : String)
  | object (id : String) (rule : Rule)
  deriving DecidableEq, Repr

/-- The key of the rule of an edge, unless the rule belongs to the edge alone. -/
def ruleKey? (e : Edge) : Option RuleKey :=
  if e.rule.name ≠ "" then some (.named e.rule.name)
  else
    match e.origin with
    | .own => none
    | .shared id => some (.object id e.rule)

/-- The rules that have been declared, and how many names have been made up. -/
structure Naming where
  known : Assoc RuleKey String := []
  next : Nat := 0

/-- An edge with the name of its rule, and whether the rule is declared for it. -/
structure NamedEdge where
  edge : Edge
  ruleName : String
  declares : Bool

/-- A name for the rule of an edge: its own one or a made-up one. -/
def Naming.fresh (n : Naming) (rule : Rule) : Naming × String :=
  if rule.name ≠ "" then (n, rule.name) else ({ n with next := n.next + 1 }, anonymousRuleName n.next)

/-- The rule of one edge gets its name. -/
def Naming.nameEdge (n : Naming) (e : Edge) : Naming × NamedEdge :=
  match ruleKey? e with
  | none =>
    let (n, name) := n.fresh e.rule
    (n, ⟨e, name, true⟩)
  | some key =>
    match Assoc.find? n.known key with
    | some name => (n, ⟨e, name, false⟩)
    | none =>
      let (n, name) := n.fresh e.rule
      ({ n with known := Assoc.insert n.known key name }, ⟨e, name, true⟩)

/-- The rules of edges get their names, one edge after the other. -/
def Naming.nameEdges (n : Naming) : List Edge → Naming × List NamedEdge
  | [] => (n, [])
  | e :: rest =>
    let (n, named) := n.nameEdge e
    let (n, others) := n.nameEdges rest
    (n, named :: others)

/-! ### Blocks -/

/-- The path that is never up to date. -/
def anchor : String := "__phony__"

/-- The number of traces that are written for an edge. -/
def maxTraces : Nat := 10

/-- The comments for the traces of an edge. -/
def traceComments (traces : List String) : List String :=
  (traces.take maxTraces).map ("trace: " ++ ·) ++
    if maxTraces < traces.length then
      ["... and " ++ toString (traces.length - maxTraces) ++ " more traces"]
    else []

/-- The rule block of an edge, if its rule is declared for it. -/
def NamedEdge.ruleBlock? (n : NamedEdge) : Option Block :=
  if n.declares then some (.rule n.ruleName n.edge.rule.block) else none

/-- The build block of an edge. -/
def NamedEdge.buildBlock (n : NamedEdge) : Block :=
  let e := n.edge
  .build
    { comments := traceComments e.traces
      outs := e.outs.map Path.absolute
      rule := n.ruleName
      ins := e.ins.map Path.absolute
      implicit := e.implicit.map Path.absolute
      orderOnly := e.orderOnly.map Path.absolute
      bindings :=
        (e.depfile.map fun path => ("depfile", escapePath path.absolute)).toList ++ e.bindings }

/-- A text between double quotation marks on the command line of an `echo`. -/
def escapeEcho (text : String) : String :=
  String.ofList ((escapeValue text).toList.flatMap fun c => if c = '"' then ['\\', '"'] else [c])

/-- The command that shows the given lines. -/
def echoCommand (lines : List String) : String := "echo \"" ++ "\\n".intercalate (lines.map escapeEcho) ++ "\""

/-- The rule and the build line of a further name of a target, with what it does to the target. -/
def extraBlocks (name extra verb command ruleName : String) : List Block :=
  [.rule ruleName
      [("command", command), ("description", verb ++ " " ++ name ++ ":"), ("pool", "console")],
    .build { outs := [name ++ "#" ++ extra], rule := ruleName, ins := [name, anchor] }]

/-- The blocks of a top-level name, where `next` names have been made up before. -/
def targetBlocks (t : TargetRule) (next : Nat) : List Block :=
  let shown := anonymousRuleName next
  let first :=
    [.rule shown [("command", echoCommand t.printed), ("description", "Created " ++ t.name ++ ":")],
      .build
        { outs := [t.name], rule := shown
          ins := t.inputs.map Path.absolute ++ t.dependencies ++ [anchor] }]
  let run := (t.run.map fun command =>
    extraBlocks t.name "run" "Running" command (anonymousRuleName (next + 1))).getD []
  let test := (t.test.map fun command =>
    extraBlocks t.name "test" "Testing" command
      (anonymousRuleName (next + 1 + if t.run.isSome then 1 else 0))).getD []
  first ++ run ++ test

/-- The number of names that are made up for a top-level name. -/
def ruleCount (t : TargetRule) : Nat :=
  1 + (if t.run.isSome then 1 else 0) + if t.test.isSome then 1 else 0

/-- The blocks of the top-level names. -/
def targetsBlocks : List TargetRule → Nat → List Block
  | [], _ => []
  | t :: rest, next => targetBlocks t next ++ targetsBlocks rest (next + ruleCount t)

/-- The blocks of a graph. -/
def blocks (g : Graph) : List Block :=
  let (naming, named) := ({} : Naming).nameEdges g.sortedEdges
  .build { outs := [anchor], rule := "phony" } :: named.filterMap NamedEdge.ruleBlock? ++
    named.map NamedEdge.buildBlock ++ targetsBlocks g.targetRules naming.next

/-- The Ninja file of a graph. -/
def fileText (g : Graph) : String := render (blocks g)

/-- The name under which Ninja looks for its file. -/
def defaultFileName : String := "build.ninja"

end BuildPlan.Ninja
