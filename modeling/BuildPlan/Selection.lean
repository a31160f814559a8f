import BuildPlan.Document.Input
import BuildPlan.Pattern.Matching
import BuildPlan.Pattern.Reader
import BuildPlan.Target.Entity

/-!
# Selection of targets

A run reports its exported targets, of which those are selected that match one of the positive patterns and none
of the negative ones. Where targets are to be run or tested, only those that can be are reported.
-/

namespace BuildPlan

/-- The patterns that texts stand for; the first that stands for none is an error. -/
def readPatterns (texts : List String) : Except Cause (List Pattern) :=
  texts.mapM fun text =>
    match Pattern.read? text with
    | some pattern => .ok pattern
    | none => .error (.invalidPattern text)

/-- A target counts in a mode. -/
def Mode.reports (mode : Mode) (info : TargetInfo) : Bool :=
  match mode with
  | .run => info.runnable
  | .test => info.testable
  | _ => true

/-- The name matches a positive pattern and no negative one. -/
def isSelected (positive negative : List Pattern) (name : String) : Bool :=
  positive.any (·.matchesAll name) && !negative.any (·.matchesAll name)

/-- The exported targets that count in a mode, in the order of their names. -/
def reportTargets (mode : Mode) (positive negative : List Pattern) (targets : Assoc String Entity) :
    Assoc String TargetInfo :=
  ((Text.sortOn (·.1) targets).filter fun (name, _) => isExported name).filterMap fun (name, entity) =>
    let info := TargetInfo.of entity
    if mode.reports info then some (name, { info with selected := isSelected positive negative name }) else none

/-- The names of the selected targets of a report. -/
def selectedNames (report : Assoc String TargetInfo) : List String :=
  (report.filter fun (_, info) => info.selected).map (·.1)

/-- The report on the targets of a run. -/
def selectTargets (targets : Assoc String Entity) (input : Input) : Except Cause (Assoc String TargetInfo) := do
  let positive ← readPatterns input.positive
  let negative ← readPatterns input.negative
  return reportTargets input.mode positive negative targets

end BuildPlan
