import BuildPlan.Proofs.Ninja.RuleNames

/-!
# The last section of a Ninja file

The build lines for top-level names come last, each below a rule of its own, and what such a line is for is what the
description of this rule says. `describedLines` reads the section back in these terms. The numbers in the names of the
rules make no difference to that, so each target contributes the same lines wherever it stands, and if no two targets
have the same name, each line can be told by its caption.
-/

namespace BuildPlan.Ninja

/-- A build line with the description of its rule. -/
structure DescribedLine where
  description : Option String
  outs : List String
  ins : List String
  deriving DecidableEq, Repr

/-- The build lines of some blocks that have the block of their rule right above them. -/
def describedLines : List Block → List DescribedLine
  | .rule name bindings :: .build line :: rest =>
    if line.rule = name then ⟨Assoc.find? bindings "description", line.outs, line.ins⟩ :: describedLines rest
    else describedLines rest
  | _ :: rest => describedLines rest
  | [] => []

/-! ### Captions -/

/-- The description of a rule that does something to a target. -/
def caption (verb name : String) : String := verb ++ " " ++ name ++ ":"

/-- The aggregation line: the name of a target stands for the files that are left over and for the names that it
needs. -/
def createdLine (t : TargetRule) : DescribedLine :=
  ⟨some (caption "Created" t.name), [t.name], t.inputs.map Path.absolute ++ t.dependencies ++ [anchor]⟩

/-- The lines that do something to the target with a name. -/
def captioned (lines : List DescribedLine) (verb name : String) : List DescribedLine :=
  lines.filter (·.description = some (caption verb name))

section captioned

variable {targets : List TargetRule} {t : TargetRule}

end captioned

section targetLines

variable (t : TargetRule)

end targetLines

/-- The lines of the last section of a graph. -/
def lastLines (g : Graph) : List DescribedLine := describedLines (lastBlocks g)

/-- In the last section of a graph there is exactly one line that does something to the target with a name, and it makes
the given output. -/
def HasLine (g : Graph) (verb name out : String) : Prop :=
  ∃ line, captioned (lastLines g) verb name = [line] ∧ line.outs = [out]

section graph

variable {g : Graph} {t : TargetRule} (hnodup : (g.targetRules.map (·.name)).Nodup) (ht : t ∈ g.targetRules)
include hnodup ht

end graph

end BuildPlan.Ninja
