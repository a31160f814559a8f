import BuildPlan.Proofs.Build.Following
import BuildPlan.Proofs.Build.Operation
import BuildPlan.Proofs.Build.Refusal

/-!
# Where the rules of the rule table come from

The rule of a step is made known before the outputs of the step are compared with those of others, so a step that is
refused for its outputs leaves its rule behind. `Session.Tries` follows an execution, which may go on after a step has
been refused, and collects the attempts to add steps. The main result, `operations_ruleTable`, is that the rule table
has the rules of all attempts, and says what this comes to: which rules go into a compilation database, which further
rules are refused, and when the table has the rules of edges only. It need not: `rule_can_outlive_its_step`.
-/

namespace BuildPlan

/-- A step with outputs whose rule has been made known. Either it has been taken then, or else it has been refused for
its outputs. -/
structure Attempt where
  statement : Statement
  label : String
  taken : Bool

namespace Attempt

/-- What has been attempted. -/
def log (attempts : List Attempt) : Log := attempts.map fun a => (a.statement, a.label)

/-- What has been taken. -/
def takenLog (attempts : List Attempt) : Log := log (attempts.filter (·.taken))

theorem log_append (attempts more : List Attempt) : log (attempts ++ more) = log attempts ++ log more :=
  List.map_append

theorem takenLog_append (attempts more : List Attempt) :
    takenLog (attempts ++ more) = takenLog attempts ++ takenLog more := by
  rw [takenLog, List.filter_append, log_append]
  rfl

theorem mem_statements_log {attempts : List Attempt} {s : Statement} :
    s ∈ (log attempts).statements ↔ ∃ a ∈ attempts, a.statement = s := by
  simp [log, Log.statements]

theorem exists_rule_iff {attempts : List Attempt} {rule : Rule} :
    (∃ s ∈ (log attempts).statements, s.rule = rule) ↔ ∃ a ∈ attempts, a.statement.rule = rule := by
  constructor
  · rintro ⟨s, hs, rfl⟩
    obtain ⟨a, ha, rfl⟩ := mem_statements_log.mp hs
    exact ⟨a, ha, rfl⟩
  · rintro ⟨a, ha, rfl⟩
    exact ⟨a.statement, mem_statements_log.mpr ⟨a, ha, rfl⟩, rfl⟩

theorem mem_statements_takenLog {attempts : List Attempt} {s : Statement} :
    s ∈ (takenLog attempts).statements ↔ ∃ a ∈ attempts, a.taken = true ∧ a.statement = s := by
  simp [takenLog, mem_statements_log, and_assoc]

end Attempt

namespace Graph

variable {g g₁ g' : Graph} {attempts : List Attempt} {s : Statement} {origin : RuleOrigin}

/-- The edges come from the attempts that were taken, and the rules from all attempts. -/
structure Remembers (g : Graph) (attempts : List Attempt) : Prop where
  edges : g.RecordsEdges (Attempt.takenLog attempts)
  rules : g.RecordsRules (Attempt.log attempts)
  nodup : (Assoc.keys g.rules).Nodup

/-- What the rule table of a graph has to do with attempts. -/
structure ShowsRules (g : Graph) (attempts : List Attempt) : Prop where
  /-- The edges are the attempts that were taken. -/
  edges : ∀ s, s ∈ g.statements ↔ ∃ a ∈ attempts, a.taken = true ∧ a.statement = s
  /-- The table has the named rules of all attempts. -/
  rules : ∀ name rule, Assoc.find? g.rules name = some rule ↔
    name ≠ "" ∧ rule.name = name ∧ ∃ a ∈ attempts, a.statement.rule = rule
  /-- It has no other rules than those of edges exactly if the named rule of each refused attempt is that of an edge. -/
  onlyEdges : (∀ name rule, Assoc.find? g.rules name = some rule → ∃ e ∈ g.edges, e.rule = rule) ↔
    ∀ a ∈ attempts, a.taken = false → a.statement.rule.name ≠ "" → ∃ e ∈ g.edges, e.rule = a.statement.rule
  /-- The names for a compilation database are those of rules of attempts. -/
  compdb : ∀ name, name ∈ g.compdbRules ↔
    name ≠ "" ∧ ∃ a ∈ attempts, a.statement.rule.name = name ∧ a.statement.rule.compdb = true
  ascending : g.compdbRules.Pairwise (· < ·)
  /-- A rule is in conflict with the others of its name that any attempt has had. -/
  conflicts : ∀ rule, g.HasOtherRule rule ↔
    rule.name ≠ "" ∧ ∃ a ∈ attempts, a.statement.rule.name = rule.name ∧ a.statement.rule ≠ rule

/-! ### Tables -/

theorem nodup_keys_declare {rule : Rule} (h : (Assoc.keys g.rules).Nodup) (hdeclare : g.declare rule = .ok g') :
    (Assoc.keys g'.rules).Nodup := by
  rcases declare_cases hdeclare with ⟨-, rfl⟩ | ⟨-, -, rfl⟩ | ⟨-, -, -, rfl⟩
  · exact h
  · exact h
  · exact Assoc.nodup_keys_insert h _ _

theorem rules_of_accept (h : g.accept s origin = .ok g') : g'.rules = g.rules := by
  rcases accept_cases h with ⟨_, _, -, -, -, rfl⟩ | ⟨-, rfl⟩ <;> rfl

namespace Remembers

theorem empty (w : Workspace) : (Graph.empty w).Remembers [] :=
  ⟨(Records.empty w).edges, (Records.empty w).rules, List.nodup_nil⟩

theorem of_eq (h : g.Remembers attempts) (hedges : g'.edges = g.edges) (houtputs : g'.outputs = g.outputs)
    (hrules : g'.rules = g.rules) : g'.Remembers attempts :=
  ⟨h.edges.of_eq hedges houtputs, by simpa only [RecordsRules, hrules] using h.rules, hrules ▸ h.nodup⟩

theorem refused (h : g.Remembers attempts) (hdeclare : g.declare s.rule = .ok g') (label : String) :
    g'.Remembers (attempts ++ [⟨s, label, false⟩]) := by
  refine ⟨?_, ?_, nodup_keys_declare h.nodup hdeclare⟩
  · obtain ⟨rules, rfl⟩ := declare_eq hdeclare
    have hnone : Attempt.takenLog [⟨s, label, false⟩] = [] := rfl
    rw [Attempt.takenLog_append, hnone, List.append_nil]
    exact h.edges.of_eq rfl rfl
  · rw [Attempt.log_append]
    exact h.rules.declare hdeclare label

theorem taken (h : g.Remembers attempts) (houts : s.outs ≠ []) (hdeclare : g.declare s.rule = .ok g₁)
    (haccept : g₁.accept s origin = .ok g') : g'.Remembers (attempts ++ [⟨s, g.traceLabel, true⟩]) := by
  have hrules := rules_of_accept haccept
  refine ⟨?_, ?_, hrules ▸ nodup_keys_declare h.nodup hdeclare⟩
  · obtain ⟨rules, rfl⟩ := declare_eq hdeclare
    rw [Attempt.takenLog_append]
    exact (h.edges.of_eq rfl rfl : { g with rules }.RecordsEdges _).accept houts haccept
  · have hdeclared := h.rules.declare hdeclare g.traceLabel
    rw [Attempt.log_append]
    intro name rule
    rw [hrules]
    exact hdeclared name rule

theorem showsRules (h : g.Remembers attempts) : g.ShowsRules attempts := by
  have hrules : ∀ name rule, Assoc.find? g.rules name = some rule ↔
      name ≠ "" ∧ rule.name = name ∧ ∃ a ∈ attempts, a.statement.rule = rule := by
    intro name rule
    rw [h.rules, Attempt.exists_rule_iff]
  have hedges : ∀ s, s ∈ g.statements ↔ ∃ a ∈ attempts, a.taken = true ∧ a.statement = s := by
    intro s
    rw [h.edges.mem_statements, Attempt.mem_statements_takenLog]
  constructor
  case edges => exact hedges
  case rules => exact hrules
  case onlyEdges =>
    constructor
    · intro honly a ha _ hname
      exact honly _ _ ((hrules _ _).mpr ⟨hname, rfl, a, ha, rfl⟩)
    · intro hrefused name rule hfound
      obtain ⟨hname, rfl, a, ha, rfl⟩ := (hrules name rule).mp hfound
      cases htaken : a.taken with
      | true =>
        obtain ⟨e, he, hstatement⟩ := List.mem_map.mp ((hedges _).mpr ⟨a, ha, htaken, rfl⟩)
        exact ⟨e, he, congrArg Statement.rule hstatement⟩
      | false => exact hrefused a ha htaken hname
  case compdb =>
    intro name
    rw [compdbRules, Text.sortTexts, Text.mem_sortOn, Assoc.keys, List.mem_map]
    constructor
    · rintro ⟨⟨name, rule⟩, hmem, rfl⟩
      obtain ⟨hmem, hcompdb⟩ := List.mem_filter.mp hmem
      obtain ⟨hname, heq, a, ha, rfl⟩ := (hrules name rule).mp (Assoc.find?_of_mem hmem h.nodup)
      exact ⟨hname, a, ha, heq, hcompdb⟩
    · rintro ⟨hname, a, ha, heq, hcompdb⟩
      have hfound := (hrules name a.statement.rule).mpr ⟨hname, heq, a, ha, rfl⟩
      exact ⟨(name, a.statement.rule), List.mem_filter.mpr ⟨Assoc.mem_of_find? hfound, hcompdb⟩, rfl⟩
  case ascending => exact Text.pairwise_lt_sortTexts (h.nodup.sublist (List.filter_sublist.map _))
  case conflicts =>
    intro rule
    refine and_congr_right fun hname => ⟨?_, ?_⟩
    · rintro ⟨known, hfound, hne⟩
      obtain ⟨-, heq, a, ha, rfl⟩ := (hrules _ known).mp hfound
      exact ⟨a, ha, heq, hne⟩
    · rintro ⟨a, ha, heq, hne⟩
      exact ⟨a.statement.rule, (hrules _ _).mpr ⟨hname, heq, a, ha, rfl⟩, hne⟩

end Remembers

end Graph

namespace Session

/-! ### Steps that are refused for their outputs -/

section refusals

variable {w : Workspace} {s t : Session} {step : AnyStep} {e : Failure}

/-- A failure for an output that another statement makes. -/
def IsRedefinition (e : Failure) : Prop := ∃ out traces label, e = .of (.redefinition out traces label)

theorem not_isRedefinition_of_writePayload {payload : Option Payload} (h : writePayload w payload s = .error e t) :
    ¬IsRedefinition e := by
  have hfile : ∀ (file : String) (failure : FileFailure),
      ¬IsRedefinition (Failure.ofFile (.payloadUnwritable file) failure) := by
    rintro file failure ⟨out, traces, label, heq⟩
    cases failure <;> cases heq
  cases payload with
  | none => cases h
  | some payload =>
    unfold writePayload onStore onSettings Settings.onStore keepPayload at h
    cases hmake : s.store.makeDirectories (Store.parentPath (tidyText (payload.file w))) with
    | error failure =>
      simp only [hmake] at h
      cases h
      exact hfile _ _
    | ok made =>
      cases hkeep : keepText made (tidyText (payload.file w)) payload.text with
      | error failure =>
        simp only [hmake, hkeep] at h
        cases h
        exact hfile _ _
      | ok kept =>
        cases hmode : kept.setMode (tidyText (payload.file w)) payload.mode with
        | error failure =>
          simp only [hmake, hkeep, hmode] at h
          cases h
          exact hfile _ _
        | ok _ =>
          simp only [hmake, hkeep, hmode] at h
          cases h

theorem addStep_error_cases (houts : step.outs ≠ []) (h : addStep w step s = .error e t) :
    IsRedefinition e ∧ s.graph.declare (step.signature w).rule = .ok t.graph ∨
      ¬IsRedefinition e ∧ t.graph = s.graph := by
  rcases (addStep_eq_error_iff houts).mp h with ⟨cause, hclash, rfl, rfl⟩ | ⟨-, hwrite⟩ | ⟨-, -, hadd⟩
  · refine .inr ⟨?_, rfl⟩
    rintro ⟨out, traces, label, heq⟩
    cases heq
    cases step with
    | plain step => cases hclash
    | ruled step => exact hclash
  · obtain ⟨store, rfl⟩ := eq_of_writePayload_error hwrite
    exact .inr ⟨not_isRedefinition_of_writePayload hwrite, rfl⟩
  · rcases addStatement_eq_error_iff.mp hadd with ⟨cause, hdeclare, rfl, rfl⟩ | ⟨g₁, cause, hdeclare, haccept, rfl, rfl⟩
    · refine .inr ⟨?_, rfl⟩
      rintro ⟨out, traces, label, heq⟩
      rcases Graph.declare_eq_error_iff.mp hdeclare with ⟨-, rfl⟩ | ⟨-, -, rfl⟩ <;> cases heq
    · obtain ⟨out, edge, -, rfl⟩ := Graph.accept_eq_error_iff.mp haccept
      exact .inl ⟨⟨_, _, _, rfl⟩, hdeclare⟩

end refusals

/-! ### Executions -/

/-- The sessions have the same edges and rules. -/
def SameTables (s t : Session) : Prop :=
  t.graph.edges = s.graph.edges ∧ t.graph.outputs = s.graph.outputs ∧ t.graph.rules = s.graph.rules

theorem SameTables.quiet : Quiet SameTables where
  refl _ := ⟨rfl, rfl, rfl⟩
  trans := by
    rintro s t u ⟨hedges, houtputs, hrules⟩ ⟨hedges', houtputs', hrules'⟩
    exact ⟨hedges'.trans hedges, houtputs'.trans houtputs, hrules'.trans hrules⟩
  registry _ _ := ⟨rfl, rfl, rfl⟩
  reports _ _ := ⟨rfl, rfl, rfl⟩
  executables _ _ := ⟨rfl, rfl, rfl⟩
  built _ _ := ⟨rfl, rfl, rfl⟩
  dependencies _ _ := ⟨rfl, rfl, rfl⟩
  traced _ _ _ h := h
  targetRules _ _ := ⟨rfl, rfl, rfl⟩
  startTarget _ _ _ := ⟨rfl, rfl, rfl⟩
  finishTarget _ := ⟨rfl, rfl, rfl⟩
  store _ _ := ⟨rfl, rfl, rfl⟩

/-- An operation that starts in a session comes to these attempts to add steps. Operations are followed through
everything that they are put together from, and what has been attempted before an error has been attempted. -/
inductive Tries (w : Workspace) : ∀ {α : Type}, SessionM α → Session → List Attempt → Prop
  | aside {α s} {x : SessionM α} (h : Keeps SameTables x) : Tries w x s []
  | taken {s t step} (houts : step.outs ≠ []) (h : addStep w step s = .ok () t) :
      Tries w (addStep w step) s [⟨step.signature w, s.graph.traceLabel, true⟩]
  | refused {s t step e} (houts : step.outs ≠ []) (h : addStep w step s = .error e t) (he : IsRedefinition e) :
      Tries w (addStep w step) s [⟨step.signature w, s.graph.traceLabel, false⟩]
  | barred {s t step e} (houts : step.outs ≠ []) (h : addStep w step s = .error e t) (he : ¬IsRedefinition e) :
      Tries w (addStep w step) s []
  | bind {α β s attempts a t more} {x : SessionM α} {f : α → SessionM β} (hx : Tries w x s attempts)
      (h : x s = .ok a t) (hf : Tries w (f a) t more) : Tries w (x >>= f) s (attempts ++ more)
  | stopped {α β s attempts e t} {x : SessionM α} {f : α → SessionM β} (hx : Tries w x s attempts)
      (h : x s = .error e t) : Tries w (x >>= f) s attempts
  | report {s attempts} {x : SessionM Reply} (hx : Tries w (discard x) s attempts) : Tries w (x >>= report) s attempts
  | traced {α s label attempts} {x : SessionM α} (hx : Tries w x (s.push label) attempts) :
      Tries w (traced label x) s attempts
  | attempt {s attempts} {x : SessionM Unit} (hx : Tries w x s attempts) : Tries w (attempt x) s attempts
  | during {α s target attempts} {x : SessionM α} (hx : Tries w x s attempts) :
      Tries w (during target x) s attempts

theorem Tries.remembers {w : Workspace} {α : Type} {x : SessionM α} {s : Session} {more : List Attempt}
    (h : Tries w x s more) :
    ∀ {attempts}, s.graph.Remembers attempts → (endState x s).graph.Remembers (attempts ++ more) := by
  -- on the execution; what follows in a sequence starts with the attempts of what came first
  induction h with
  | aside h =>
    intro attempts hs
    obtain ⟨hedges, houtputs, hrules⟩ := h _
    rw [List.append_nil]
    exact hs.of_eq hedges houtputs hrules
  | @taken s t step houts h =>
    intro attempts hs
    rw [endState_of_ok h]
    obtain ⟨-, -, g₁, g', hdeclare, haccept, rfl⟩ := (addStep_eq_ok_iff houts).mp h
    exact hs.taken (by rwa [AnyStep.signature, AnyStep.outs_statement]) hdeclare haccept
  | refused houts h he =>
    intro attempts hs
    rw [endState_of_error h]
    rcases addStep_error_cases houts h with ⟨-, hdeclare⟩ | ⟨hnot, -⟩
    · exact hs.refused hdeclare _
    · exact absurd he hnot
  | barred houts h he =>
    intro attempts hs
    rw [endState_of_error h, List.append_nil]
    rcases addStep_error_cases houts h with ⟨hredefinition, -⟩ | ⟨-, hgraph⟩
    · exact absurd hredefinition he
    · rwa [hgraph]
  | bind _ h _ ihx ihf =>
    intro attempts hs
    have ht := ihx hs
    rw [endState_of_ok h] at ht
    rw [endState_bind_of_ok h, ← List.append_assoc]
    exact ihf ht
  | stopped _ h ihx =>
    intro attempts hs
    have ht := ihx hs
    rw [endState_of_error h] at ht
    rwa [endState_bind_of_error h]
  | report _ ihx =>
    intro attempts hs
    rw [graph_endState_report, ← endState_discard]
    exact ihx hs
  | traced _ ihx =>
    intro attempts hs
    rw [endState_traced]
    exact (ihx (hs.of_eq rfl rfl rfl)).of_eq rfl rfl rfl
  | attempt _ ihx =>
    intro attempts hs
    rw [endState_attempt]
    exact ihx hs
  | during _ ihx =>
    intro attempts hs
    rw [endState_during]
    exact ihx hs

/-- The attempts of an operation are found by following it through what it is put together from. -/
theorem follows_tries (p : Project) : Follows p SameTables fun x s => ∃ attempts, Tries p.workspace x s attempts where
  aside h s := ⟨_, .aside h⟩
  addStep {step} houts s := by
    cases h : Session.addStep p.workspace step s with
    | ok _ t => exact ⟨_, .taken houts h⟩
    | error e t =>
      by_cases he : IsRedefinition e
      · exact ⟨_, .refused houts h he⟩
      · exact ⟨_, .barred houts h he⟩
  bind := by
    rintro α β x f s t a ⟨attempts, hattempts⟩ h ⟨more, hmore⟩
    exact ⟨_, hattempts.bind h hmore⟩
  stopped hx h := hx.imp fun _ hattempts => hattempts.stopped h
  report hx := hx.imp fun _ => .report
  traced hx := hx.imp fun _ => .traced
  attempt hx := hx.imp fun _ => .attempt
  during hx := hx.imp fun _ => .during

theorem exists_tries_perform (p : Project) (depth : Nat) (package : Option Package) (action : Action) (s : Session) :
    ∃ attempts, Tries p.workspace (discard (perform p depth package action)) s attempts :=
  (follows_tries p).perform SameTables.quiet depth package action s

end Session

/-! ### Operations -/

namespace Operation

/-- An operation that starts in a session comes to these attempts. Actions alone add steps. -/
def Tries (p : Project) (s : Session) (attempts : List Attempt) : Operation → Prop
  | .perform depth package action =>
    Session.Tries p.workspace (discard (Session.perform p depth package action)) s attempts
  | .enterBlock _ | .leaveBlock | .enterTarget _ | .leaveTarget => attempts = []

/-- Operations come to these attempts, one operation after another. -/
inductive TriesAll (p : Project) : Session → List Operation → List Attempt → Prop
  | nil {s} : TriesAll p s [] []
  | cons {s operation rest attempts more} (h : operation.Tries p s attempts)
      (hrest : TriesAll p (operation.apply p s) rest more) : TriesAll p s (operation :: rest) (attempts ++ more)

variable {p : Project} {s : Session} {attempts more : List Attempt} {operations : List Operation}

theorem exists_tries (p : Project) (s : Session) (operation : Operation) :
    ∃ attempts, operation.Tries p s attempts := by
  cases operation with
  | perform depth package action => exact Session.exists_tries_perform p depth package action s
  | enterBlock | leaveBlock | enterTarget | leaveTarget => exact ⟨[], rfl⟩

theorem exists_triesAll (p : Project) (s : Session) (operations : List Operation) :
    ∃ attempts, TriesAll p s operations attempts := by
  induction operations generalizing s with
  | nil => exact ⟨[], .nil⟩
  | cons operation rest ih =>
    obtain ⟨attempts, h⟩ := exists_tries p s operation
    obtain ⟨more, hrest⟩ := ih (operation.apply p s)
    exact ⟨attempts ++ more, .cons h hrest⟩

theorem Tries.remembers {operation : Operation} (h : operation.Tries p s more) (hs : s.graph.Remembers attempts) :
    (operation.apply p s).graph.Remembers (attempts ++ more) := by
  cases operation with
  | perform depth package action =>
    have hend := Session.Tries.remembers h hs
    rwa [endState_discard] at hend
  | enterBlock | leaveBlock | enterTarget | leaveTarget =>
    cases h
    rw [List.append_nil]
    exact hs.of_eq rfl rfl rfl

theorem TriesAll.remembers (h : TriesAll p s operations more) (hs : s.graph.Remembers attempts) :
    (applyAll p s operations).graph.Remembers (attempts ++ more) := by
  induction h generalizing attempts with
  | nil =>
    rw [List.append_nil]
    exact hs
  | cons h _ ih =>
    rw [← List.append_assoc]
    exact ih (h.remembers hs)

end Operation

/-- A step with a named rule is refused for it exactly if another rule is known by that name. -/
theorem Session.failsWith_ruleConflict_iff {w : Workspace} {s : Session} {step : RuleStep} (houts : step.outs ≠ [])
    (hfree : isReservedRuleName step.rule.name = false) :
    FailsWith (addStep w (.ruled step)) s (.of (.ruleConflict step.rule.name)) ↔ s.graph.HasOtherRule step.rule := by
  have houts' : (AnyStep.ruled step).outs ≠ [] := houts
  rw [addStep_failsWith_iff houts' trivial]
  constructor
  · rintro ⟨cause, hcause, hclash | ⟨-, hrefuses⟩⟩
    · exact hclash.elim
    · cases hcause
      cases hrefuses with
      | ruleConflict _ hother => exact hother
  · intro hother
    exact ⟨_, rfl, .inr ⟨id, .ruleConflict hfree hother⟩⟩

/-- **The rule table has the named rules of all steps that have been attempted**, also of those that were refused for
their outputs while the build went on. So it describes the edges alone exactly if the rule of each refused step is that
of some edge; the names for a compilation database are those of all attempts; and a step is refused for its rule exactly
if some attempt had another rule of its name. -/
theorem operations_ruleTable (p : Project) (settings : Settings) (operations : List Operation) :
    let s := Operation.applyAll p (p.start settings) operations
    (∃ attempts, Operation.TriesAll p (p.start settings) operations attempts) ∧
    ∀ attempts, Operation.TriesAll p (p.start settings) operations attempts →
      s.graph.ShowsRules attempts ∧
      ∀ step : RuleStep, step.outs ≠ [] → isReservedRuleName step.rule.name = false →
        (FailsWith (Session.addStep p.workspace (.ruled step)) s (.of (.ruleConflict step.rule.name)) ↔
          step.rule.name ≠ "" ∧
            ∃ a ∈ attempts, a.statement.rule.name = step.rule.name ∧ a.statement.rule ≠ step.rule) := by
  intro s
  refine ⟨Operation.exists_triesAll p _ operations, fun attempts h => ?_⟩
  have hshows := (h.remembers (.empty p.workspace)).showsRules
  refine ⟨hshows, fun step houts hfree => ?_⟩
  rw [Session.failsWith_ruleConflict_iff houts hfree]
  exact hshows.conflicts step.rule

/-- A rule that no edge of the project below uses. -/
def strayRule : Rule := { name := "cxx", command := "g++", compdb := true }

/-- A target that makes a file, fails to make it in another way with a rule that has a name, and goes on. -/
def strayProject : Project :=
  let made : StepExpr := { outs := [.out "a"], command := [.literal "make a"] }
  let again : RuleStepExpr := { rule := strayRule, outs := [.out "a"] }
  { workspace := { sourceDir := "/src", buildRoot := "/out" }
    entities := [.custom { build := [.step made, .attempt [.ruleStep again]] }]
    targets := [("All", 0)] }

/-- The session in which the project has been processed. -/
def straySession : Session :=
  Operation.applyAll strayProject (strayProject.start {}) [.perform 3 none .processTargets]

theorem operations_ruleTable_sample : ∃ attempts,
    Operation.TriesAll strayProject (strayProject.start {}) [.perform 3 none .processTargets] attempts ∧
      ∃ a ∈ attempts, a.taken = false ∧ a.statement.rule = strayRule := by
  obtain ⟨⟨attempts, htries⟩, hall⟩ := operations_ruleTable strayProject {} [.perform 3 none .processTargets]
  have hshows : straySession.graph.ShowsRules attempts := (hall attempts htries).1
  have hfound : Assoc.find? straySession.graph.rules "cxx" = some strayRule := by decide +kernel
  have hedges : ∀ e ∈ straySession.graph.edges, e.rule ≠ strayRule := by decide +kernel
  obtain ⟨-, -, a, ha, hrule⟩ := (hshows.rules _ _).mp hfound
  refine ⟨attempts, htries, a, ha, Bool.eq_false_iff.mpr fun htaken => ?_, hrule⟩
  have hstatement : a.statement ∈ straySession.graph.statements := (hshows.edges _).mpr ⟨a, ha, htaken, rfl⟩
  obtain ⟨e, he, heq⟩ := List.mem_map.mp hstatement
  exact hedges e he ((congrArg Statement.rule heq).trans hrule)

/-- The rule of a refused step is listed for the compilation database though no edge uses it, and no step can have
another rule of its name. -/
theorem rule_can_outlive_its_step :
    straySession.graph.compdbRules = ["cxx"] ∧ (∀ e ∈ straySession.graph.edges, e.rule.name ≠ "cxx") ∧
      FailsWith
        (Session.addStep strayProject.workspace
          (.ruled { rule := { name := "cxx", command := "clang++" }, outs := [.out (strayProject.workspace.out "b")] }))
        straySession (.of (.ruleConflict "cxx")) := by
  decide +kernel

end BuildPlan
