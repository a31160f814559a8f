import BuildPlan.Proofs.State.InStep
import BuildPlan.Target.Entity

/-!
# Expressions in step

Where the texts of flags keep two runs in step, so do all expressions of build programs, and the things that
descriptions make of them.
-/

namespace BuildPlan

variable {P : Pace Registry} {α : Type}

theorem inStep_check (x : Except Failure α) : InStep P (RegistryM.ofExcept x) := by
  cases x with
  | ok a => exact .pure a
  | error e => exact .throw e

theorem inStep_evalPaths (site : Site) (paths : List PathExpr) : InStep P (evalPaths site paths) := inStep_check _

theorem inStep_evalPath? (site : Site) (path : Option PathExpr) : InStep P (evalPath? site path) := by
  cases path with
  | none => exact .pure none
  | some path => exact (inStep_check _).bind fun _ => .pure _

variable (hflag : ∀ name, InStep P (flagText name))
include hflag

theorem inStep_evalText (site : Site) (text : TextExpr) : InStep P (evalText site text) := by
  refine InStep.bind (.mapM fun part _ => ?_) fun _ => .pure _
  cases part with
  | literal text => exact .pure text
  | repeated text times => exact .pure _
  | path p => exact (inStep_check _).bind fun _ => .pure _
  | flag name => exact hflag name

theorem inStep_step (site : Site) (s : StepExpr) : InStep P (s.eval site) := by
  refine (inStep_evalPath? site _).bind fun _ => (inStep_evalPaths site _).bind fun _ => ?_
  refine (inStep_evalPath? site _).bind fun _ => (inStep_evalPaths site _).bind fun _ => ?_
  refine (inStep_evalPaths site _).bind fun _ => (inStep_evalPath? site _).bind fun _ => ?_
  refine (inStep_evalText hflag site _).bind fun _ => (inStep_evalText hflag site _).bind fun _ => ?_
  exact (inStep_evalText hflag site _).bind fun _ => (inStep_evalText hflag site _).bind fun _ => .pure _

theorem inStep_ruleStep (site : Site) (s : RuleStepExpr) : InStep P (s.eval site) := by
  refine (inStep_evalPaths site _).bind fun _ => (inStep_evalPaths site _).bind fun _ => ?_
  refine (inStep_evalPaths site _).bind fun _ => (inStep_evalPaths site _).bind fun _ => ?_
  refine (inStep_evalPath? site _).bind fun _ => InStep.bind (.mapM fun binding _ => ?_) fun _ => .pure _
  exact (inStep_evalText hflag site _).bind fun _ => .pure _

theorem inStep_create (site : Site) (names : EntityNames) (e : EntityExpr) : InStep P (e.create site names) := by
  have htexts : ∀ texts : List TextExpr, InStep P (texts.mapM (evalText site)) := fun texts =>
    .mapM fun text _ => inStep_evalText hflag site text
  cases e with
  | custom c => exact .pure _
  | group members => exact (inStep_check _).bind fun _ => .pure _
  | inert => exact .pure _
  | objectFile o =>
    refine (inStep_check _).bind fun _ => (inStep_evalPaths site _).bind fun _ => ?_
    exact (htexts _).bind fun _ => .pure _
  | library l =>
    refine (inStep_evalPaths site _).bind fun _ => (inStep_evalPaths site _).bind fun _ => ?_
    exact (htexts _).bind fun _ => (inStep_check _).bind fun _ => .pure _
  | executable x =>
    refine (inStep_evalPaths site _).bind fun _ => (htexts _).bind fun _ => ?_
    exact (htexts _).bind fun _ => (inStep_check _).bind fun _ => .pure _

end BuildPlan
