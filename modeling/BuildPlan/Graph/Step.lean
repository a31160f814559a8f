import BuildPlan.Error
import BuildPlan.Flag.Digest
import BuildPlan.Graph.Statement
import BuildPlan.Ninja.Escape
import BuildPlan.Shell.Word
import BuildPlan.Store.Basic
import BuildPlan.Workspace

/-!
# Build steps

A `Step` asks for outputs with a command of its own, or with a payload: a script that becomes the command, or
data that becomes the output. Payloads lie in files that are named for their contents. A `RuleStep` asks for
outputs with a rule. Both become a `Statement`.
-/

namespace BuildPlan

/-- A step with a command or a payload of its own. -/
structure Step where
  /-- An output that is added after `outs`. -/
  out : Option Path := none
  outs : List Path := []
  /-- An input that is added after `ins`. -/
  input : Option Path := none
  ins : List Path := []
  orderOnly : List Path := []
  depfile : Option Path := none
  command : String := ""
  script : String := ""
  data : String := ""
  /-- The mode of the data file; zero stands for the plain mode. -/
  dataMode : Nat := 0
  description : String := ""
  deriving DecidableEq, Repr

/-- A step with a rule. -/
structure RuleStep where
  rule : Rule
  origin : RuleOrigin := .own
  outs : List Path := []
  ins : List Path := []
  implicit : List Path := []
  orderOnly : List Path := []
  depfile : Option Path := none
  bindings : Assoc String String := []
  deriving DecidableEq, Repr

/-- A step of either sort. -/
inductive AnyStep where
  | plain (step : Step)
  | ruled (step : RuleStep)
  deriving DecidableEq, Repr

/-- What a step has instead of a command. -/
inductive Payload where
  | script (text : String)
  | data (text : String) (mode : Nat) (out : Path)
  deriving DecidableEq, Repr

namespace Payload

/-- The contents of the payload file. -/
def text : Payload → String
  | .script text => text
  | .data text _ _ => text

/-- The mode of the payload file. -/
def mode : Payload → Nat
  | .script _ => scriptMode
  | .data _ mode _ => mode

/-- The name of the payload file. -/
def fileName (p : Payload) : String := hexChecksum p.text

/-- The payload file. -/
def file (p : Payload) (w : Workspace) : String := joinText w.dataDir p.fileName

/-- The words of the command for the payload. -/
def words (p : Payload) (w : Workspace) : List String :=
  match p with
  | .script _ => [p.file w]
  | .data _ _ out => ["cp", p.file w, out.absolute]

/-- The command for the payload. -/
def command (p : Payload) (w : Workspace) : String := Ninja.escapeValue (Shell.joinWords (p.words w))

end Payload

namespace Step

/-- All outputs. -/
def allOuts (s : Step) : List Path := s.outs ++ s.out.toList

/-- All inputs. -/
def allIns (s : Step) : List Path := s.ins ++ s.input.toList

/-- The payload, if the step has one. A command excludes it, and data goes to a single output. -/
def payload? (s : Step) : Except Cause (Option Payload) :=
  if s.script ≠ "" then
    if s.command ≠ "" then .error .commandAndScript else .ok (some (.script s.script))
  else if s.data ≠ "" then
    if s.command ≠ "" then .error .commandAndData
    else
      match s.out, s.outs with
      | some out, [] => .ok (some (.data s.data (if s.dataMode = 0 then plainMode else s.dataMode) out))
      | _, _ => .error .dataWithoutSingleOutput
  else .ok none

/-- The statement of a step with a given payload. -/
def statement (s : Step) (w : Workspace) (payload : Option Payload) : Statement :=
  { rule := { command := (payload.map (·.command w)).getD s.command, description := s.description }
    outs := s.allOuts
    ins := s.allIns
    orderOnly := s.orderOnly
    depfile := s.depfile }

end Step

/-- The statement of a step with a rule. -/
def RuleStep.statement (s : RuleStep) : Statement :=
  { rule := s.rule
    outs := s.outs
    ins := s.ins
    implicit := s.implicit
    orderOnly := s.orderOnly
    depfile := s.depfile
    bindings := Text.sortOn (·.1) s.bindings }

namespace AnyStep

/-- All outputs. -/
def outs : AnyStep → List Path
  | .plain s => s.allOuts
  | .ruled s => s.outs

/-- The payload, if the step has one. -/
def payload? : AnyStep → Except Cause (Option Payload)
  | .plain s => s.payload?
  | .ruled _ => .ok none

/-- The statement of a step with a given payload. -/
def statement (s : AnyStep) (w : Workspace) (payload : Option Payload) : Statement :=
  match s with
  | .plain s => s.statement w payload
  | .ruled s => s.statement

@[simp] theorem outs_statement (s : AnyStep) (w : Workspace) (payload : Option Payload) :
    (s.statement w payload).outs = s.outs := by
  cases s <;> rfl

/-- Where the rule of the step comes from. -/
def origin : AnyStep → RuleOrigin
  | .plain _ => .own
  | .ruled s => s.origin

end AnyStep

end BuildPlan
