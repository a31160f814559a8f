import BuildPlan.Proofs.Build.AddSteps

/-!
# Steps that are refused

A step can be wrong in itself, have a rule that does not fit the rules that are known, or claim an output that another
statement makes already. `Step.Clash` and `Graph.Refuses` list these reasons in the order in which they count, each with
the cause that is reported. The main result, `Session.addStep_refusals`, is that a step is refused for exactly these
reasons, and that a refused step changes nothing but the payload files and the table of rules.
-/

namespace BuildPlan

/-- An operation fails with a certain failure. -/
def FailsWith {α : Type} (operation : SessionM α) (s : Session) (e : Failure) : Prop := ∃ t, operation s = .error e t

instance {α : Type} (operation : SessionM α) (s : Session) (e : Failure) : Decidable (FailsWith operation s e) :=
  match h : operation s with
  | .ok _ _ => isFalse fun ⟨_, h'⟩ => nomatch h.symm.trans h'
  | .error e' t =>
    if he : e' = e then isTrue ⟨t, he ▸ h⟩
    else isFalse fun ⟨_, h'⟩ => he (by cases h.symm.trans h'; rfl)

namespace Graph

variable {g : Graph} {s : Statement} {origin : RuleOrigin} {cause : Cause}

/-! ### Rules and statements that are refused -/

/-- Another rule is known by the name of this one. -/
def HasOtherRule (g : Graph) (rule : Rule) : Prop :=
  rule.name ≠ "" ∧ ∃ known, Assoc.find? g.rules rule.name = some known ∧ known ≠ rule

/-- The first of some outputs that another statement makes already, with the edge that makes it. -/
def FirstTaken (g : Graph) (s : Statement) (outs : List Path) (out : Path) (e : Edge) : Prop :=
  ∃ before after, outs = before ++ out :: after ∧
    (∀ earlier ∈ before, ∀ e, g.edgeFor? earlier.absolute = some e → e.toStatement = s) ∧
    g.edgeFor? out.absolute = some e ∧ e.toStatement ≠ s

theorem declare_eq_error_iff {rule : Rule} :
    g.declare rule = .error cause ↔
      isReservedRuleName rule.name = true ∧ cause = .reservedRule rule.name ∨
      isReservedRuleName rule.name = false ∧ g.HasOtherRule rule ∧ cause = .ruleConflict rule.name := by
  unfold declare HasOtherRule
  by_cases hname : rule.name = ""
  · have hfree : isReservedRuleName "" = false := by decide
    simp [hname, hfree]
  · cases hreserved : isReservedRuleName rule.name with
    | true => simp [hname, eq_comm (a := cause)]
    | false =>
      cases hfind : Assoc.find? g.rules rule.name with
      | none => simp [hname]
      | some known => by_cases hknown : known = rule <;> simp [hname, hknown, eq_comm (a := cause)]

theorem exists_declare_iff {rule : Rule} :
    (∃ g', g.declare rule = .ok g') ↔ isReservedRuleName rule.name = false ∧ ¬g.HasOtherRule rule := by
  cases hdeclare : g.declare rule with
  | ok g' =>
    refine iff_of_true ⟨g', rfl⟩ ?_
    have hall : ∀ cause, g.declare rule ≠ .error cause := fun cause h => by rw [hdeclare] at h; cases h
    constructor
    · exact Bool.eq_false_iff.mpr fun h => hall _ (declare_eq_error_iff.mpr (.inl ⟨h, rfl⟩))
    · intro hother
      cases hfree : isReservedRuleName rule.name with
      | true => exact hall _ (declare_eq_error_iff.mpr (.inl ⟨hfree, rfl⟩))
      | false => exact hall _ (declare_eq_error_iff.mpr (.inr ⟨hfree, hother, rfl⟩))
  | error cause =>
    refine iff_of_false nofun ?_
    rintro ⟨hfree, hsame⟩
    rcases declare_eq_error_iff.mp hdeclare with ⟨hreserved, -⟩ | ⟨-, hother, -⟩
    · rw [hfree] at hreserved
      cases hreserved
    · exact hsame hother

theorem claim_eq_error_iff {found : Option Nat} {out : Path} :
    g.claim s found out = .error cause ↔ ∃ e, g.edgeFor? out.absolute = some e ∧ e.toStatement ≠ s ∧
      cause = .redefinition out.absolute e.traces g.traceLabel := by
  unfold claim
  split
  case h_1 place e hplace he => by_cases hs : e.toStatement = s <;> simp [he, hs, eq_comm (a := cause)]
  case h_2 hnot =>
    constructor
    · exact fun h => nomatch h
    · rintro ⟨e, he, -⟩
      obtain ⟨place, hplace, -⟩ := edgeFor?_eq_some_iff.mp he
      exact (hnot place e hplace he).elim

theorem foldlM_claim_eq_error_iff {outs : List Path} {found : Option Nat} :
    outs.foldlM (g.claim s) found = .error cause ↔
      ∃ out e, g.FirstTaken s outs out e ∧ cause = .redefinition out.absolute e.traces g.traceLabel := by
  induction outs generalizing found with
  | nil => simp [FirstTaken, pure, Except.pure]
  | cons first rest ih =>
    rw [List.foldlM_cons]
    cases hclaim : g.claim s found first with
    | error cause' =>
      obtain ⟨e, he, hne, rfl⟩ := claim_eq_error_iff.mp hclaim
      constructor
      · intro h
        cases h
        exact ⟨first, e, ⟨[], rest, rfl, by simp, he, hne⟩, rfl⟩
      · rintro ⟨out, e', ⟨before, after, hsplit, hbefore, he', hne'⟩, rfl⟩
        cases before with
        | nil =>
          obtain ⟨rfl, rfl⟩ := List.cons.inj hsplit
          rw [he] at he'
          cases he'
          rfl
        | cons earlier before =>
          obtain ⟨rfl, -⟩ := List.cons.inj hsplit
          exact absurd (hbefore first List.mem_cons_self e he) hne
    | ok found' =>
      have hfirst : ∀ e, g.edgeFor? first.absolute = some e → e.toStatement = s := by
        intro e he
        refine Decidable.byContradiction fun hne => ?_
        have hrefused : g.claim s found first = .error _ := claim_eq_error_iff.mpr ⟨e, he, hne, rfl⟩
        rw [hclaim] at hrefused
        cases hrefused
      refine Iff.trans ih ⟨?_, ?_⟩
      · rintro ⟨out, e, ⟨before, after, rfl, hbefore, hrest⟩, hcause⟩
        exact ⟨out, e, ⟨first :: before, after, rfl, List.forall_mem_cons.mpr ⟨hfirst, hbefore⟩, hrest⟩, hcause⟩
      · rintro ⟨out, e, ⟨before, after, hsplit, hbefore, he, hne⟩, hcause⟩
        cases before with
        | nil =>
          obtain ⟨rfl, rfl⟩ := List.cons.inj hsplit
          exact absurd (hfirst e he) hne
        | cons earlier before =>
          obtain ⟨rfl, rfl⟩ := List.cons.inj hsplit
          exact ⟨out, e, ⟨before, after, rfl, (List.forall_mem_cons.mp hbefore).2, he, hne⟩, hcause⟩

theorem exists_firstTaken_iff {outs : List Path} :
    (∃ out e, g.FirstTaken s outs out e) ↔
      ∃ out ∈ outs, ∃ e, g.edgeFor? out.absolute = some e ∧ e.toStatement ≠ s := by
  constructor
  · rintro ⟨out, e, before, after, rfl, -, he, hne⟩
    exact ⟨out, by simp, e, he, hne⟩
  · rintro ⟨out, hout, e, he, hne⟩
    cases hclaim : outs.foldlM (g.claim s) none with
    | ok found => exact absurd ((foldlM_claim_cases hclaim).1 out hout e he) hne
    | error cause =>
      obtain ⟨first, e, htaken, -⟩ := foldlM_claim_eq_error_iff.mp hclaim
      exact ⟨first, e, htaken⟩

theorem accept_eq_error_iff :
    g.accept s origin = .error cause ↔
      ∃ out e, g.FirstTaken s s.outs out e ∧ cause = .redefinition out.absolute e.traces g.traceLabel := by
  rw [← foldlM_claim_eq_error_iff]
  unfold accept
  cases s.outs.foldlM (g.claim s) none with
  | error cause' =>
    constructor <;> intro h <;> cases h <;> rfl
  | ok found => exact ⟨nofun, nofun⟩

/-- Why a graph refuses a statement. Each reason counts only where the ones before it do not hold. -/
inductive Refuses (g : Graph) (s : Statement) : Cause → Prop
  | reservedRule (hreserved : isReservedRuleName s.rule.name = true) : g.Refuses s (.reservedRule s.rule.name)
  | ruleConflict (hfree : isReservedRuleName s.rule.name = false) (hother : g.HasOtherRule s.rule) :
      g.Refuses s (.ruleConflict s.rule.name)
  | redefinition {out : Path} {e : Edge} (hfree : isReservedRuleName s.rule.name = false)
      (hsame : ¬g.HasOtherRule s.rule) (htaken : g.FirstTaken s s.outs out e) :
      g.Refuses s (.redefinition out.absolute e.traces g.traceLabel)

theorem exists_refuses_iff :
    (∃ cause, g.Refuses s cause) ↔
      isReservedRuleName s.rule.name = true ∨ g.HasOtherRule s.rule ∨
      ∃ out ∈ s.outs, ∃ e, g.edgeFor? out.absolute = some e ∧ e.toStatement ≠ s := by
  rw [← exists_firstTaken_iff]
  constructor
  · rintro ⟨cause, h⟩
    cases h with
    | reservedRule hreserved => exact .inl hreserved
    | ruleConflict _ hother => exact .inr (.inl hother)
    | redefinition _ _ htaken => exact .inr (.inr ⟨_, _, htaken⟩)
  · intro h
    cases hfree : isReservedRuleName s.rule.name with
    | true => exact ⟨_, .reservedRule hfree⟩
    | false =>
      by_cases hother : g.HasOtherRule s.rule
      · exact ⟨_, .ruleConflict hfree hother⟩
      · rcases h with h | h | ⟨out, e, htaken⟩
        · rw [hfree] at h
          cases h
        · exact absurd h hother
        · exact ⟨_, .redefinition hfree hother htaken⟩

/-- The second graph shows what the first one shows, its rules apart: the edges with their traces and in their order,
which edge makes a file, the frontier, the top-level names, the trace, and what has been built. -/
structure ShowsSame (g g' : Graph) : Prop where
  edges : g'.edges = g.edges
  sortedEdges : g'.sortedEdges = g.sortedEdges
  edgeFor? : ∀ absolute, g'.edgeFor? absolute = g.edgeFor? absolute
  frontier : g'.sortedFrontier = g.sortedFrontier
  targetRules : g'.targetRules = g.targetRules
  trace : g'.trace = g.trace
  built : g'.built = g.built

theorem showsSame_rules (g : Graph) (rules : Assoc String Rule) : g.ShowsSame { g with rules } :=
  ⟨rfl, rfl, fun _ => rfl, rfl, rfl, rfl, rfl⟩

end Graph

/-! ### Payloads that are refused -/

/-- Why the payload of a step is refused. -/
inductive Step.Clash (s : Step) : Cause → Prop
  | commandAndScript (hscript : s.script ≠ "") (hcommand : s.command ≠ "") : s.Clash .commandAndScript
  | commandAndData (hscript : s.script = "") (hdata : s.data ≠ "") (hcommand : s.command ≠ "") :
      s.Clash .commandAndData
  | dataWithoutSingleOutput (hscript : s.script = "") (hdata : s.data ≠ "") (hcommand : s.command = "")
      (hout : s.out = none ∨ s.outs ≠ []) : s.Clash .dataWithoutSingleOutput

theorem Step.payload?_eq_error_iff {s : Step} {cause : Cause} : s.payload? = .error cause ↔ s.Clash cause := by
  constructor
  · intro h
    unfold payload? at h
    split at h
    case isTrue hscript =>
      split at h
      case isTrue hcommand =>
        cases h
        exact .commandAndScript hscript hcommand
      case isFalse => cases h
    case isFalse hscript =>
      have hscript : s.script = "" := Decidable.not_not.mp hscript
      split at h
      case isTrue hdata =>
        split at h
        case isTrue hcommand =>
          cases h
          exact .commandAndData hscript hdata hcommand
        case isFalse hcommand =>
          split at h
          case h_1 => cases h
          case h_2 hout =>
            cases h
            refine .dataWithoutSingleOutput hscript hdata (Decidable.not_not.mp hcommand) ?_
            cases hfirst : s.out with
            | none => exact .inl rfl
            | some out => exact .inr fun houts => hout out hfirst houts
      case isFalse => cases h
  · intro h
    cases h with
    | commandAndScript hscript hcommand => simp [payload?, hscript, hcommand]
    | commandAndData hscript hdata hcommand => simp [payload?, hscript, hdata, hcommand]
    | dataWithoutSingleOutput hscript hdata hcommand hout =>
      rcases hout with hout | houts
      · simp [payload?, hscript, hdata, hcommand, hout]
      · obtain ⟨out, rest, houts⟩ := List.exists_cons_of_ne_nil houts
        simp [payload?, hscript, hdata, hcommand, houts]

namespace AnyStep

/-- Why the payload of a step is refused. One with a rule has none. -/
def Clash : AnyStep → Cause → Prop
  | .plain s => s.Clash
  | .ruled _ => fun _ => False

theorem payload?_eq_error_iff {step : AnyStep} {cause : Cause} : step.payload? = .error cause ↔ step.Clash cause := by
  cases step with
  | plain s => exact Step.payload?_eq_error_iff
  | ruled s => exact ⟨nofun, False.elim⟩

theorem exists_clash_iff {step : AnyStep} : (∃ cause, step.Clash cause) ↔ step.Malformed := by
  have hform := step.payload?_eq_ok_iff
  simp only [← payload?_eq_error_iff]
  cases hpayload : step.payload? with
  | ok payload =>
    refine iff_of_false ?_ (hform.mp ?_)
    · rintro ⟨_, h⟩
      cases h
    · rw [AnyStep.payload, hpayload]
      cases payload <;> rfl
  | error cause =>
    rw [hpayload] at hform
    refine iff_of_true ⟨cause, rfl⟩ (Classical.not_not.mp fun h => ?_)
    cases hform.mpr h

end AnyStep

namespace Session

variable {w : Workspace} {s t : Session} {step : AnyStep} {e : Failure}

/-! ### Steps that are refused -/

theorem eq_of_writePayload_error {payload : Option Payload} (h : writePayload w payload s = .error e t) :
    ∃ store, t = { s with store } := by
  cases payload with
  | none => cases h
  | some payload =>
    unfold writePayload onStore onSettings Settings.onStore at h
    rcases hkeep : keepPayload s.store w payload with ⟨_ | _, store⟩
    · simp only [hkeep] at h
      cases h
      exact ⟨store, rfl⟩
    · simp only [hkeep] at h
      cases h

/-- A statement is refused for its rule, or else for its outputs, when its rule has been made known. -/
theorem addStatement_eq_error_iff {statement : Statement} {origin : RuleOrigin} :
    addStatement statement origin s = .error e t ↔
      (∃ cause, s.graph.declare statement.rule = .error cause ∧ e = .of cause ∧ t = s) ∨
      ∃ g₁ cause, s.graph.declare statement.rule = .ok g₁ ∧ g₁.accept statement origin = .error cause ∧
        e = .of cause ∧ t = { s with graph := g₁ } := by
  rw [addStatement, bind_eq_error_iff, onGraph_eq_error_iff]
  refine or_congr_right ⟨?_, ?_⟩
  · rintro ⟨_, u, hfirst, hsecond⟩
    obtain ⟨g₁, hdeclare, rfl⟩ := onGraph_eq_ok_iff.mp hfirst
    obtain ⟨cause, haccept, rfl, rfl⟩ := onGraph_eq_error_iff.mp hsecond
    exact ⟨g₁, cause, hdeclare, haccept, rfl, rfl⟩
  · rintro ⟨g₁, cause, hdeclare, haccept, rfl, rfl⟩
    exact ⟨(), _, onGraph_eq_ok_iff.mpr ⟨g₁, hdeclare, rfl⟩, onGraph_eq_error_iff.mpr ⟨cause, haccept, rfl, rfl⟩⟩

theorem eq_of_addStatement_error {statement : Statement} {origin : RuleOrigin}
    (h : addStatement statement origin s = .error e t) : ∃ rules, t = { s with graph := { s.graph with rules } } := by
  rcases addStatement_eq_error_iff.mp h with ⟨_, -, -, rfl⟩ | ⟨g₁, _, hdeclare, -, -, rfl⟩
  · exact ⟨t.graph.rules, rfl⟩
  · obtain ⟨rules, rfl⟩ := Graph.declare_eq hdeclare
    exact ⟨rules, rfl⟩

theorem addStatement_failsWith_iff {statement : Statement} {origin : RuleOrigin} :
    FailsWith (addStatement statement origin) s e ↔ ∃ cause, e = .of cause ∧ s.graph.Refuses statement cause := by
  simp only [FailsWith, addStatement_eq_error_iff]
  constructor
  · rintro ⟨t, ⟨cause, hdeclare, rfl, -⟩ | ⟨g₁, cause, hdeclare, haccept, rfl, -⟩⟩
    · refine ⟨cause, rfl, ?_⟩
      rcases Graph.declare_eq_error_iff.mp hdeclare with ⟨hreserved, rfl⟩ | ⟨hfree, hother, rfl⟩
      · exact .reservedRule hreserved
      · exact .ruleConflict hfree hother
    · refine ⟨cause, rfl, ?_⟩
      obtain ⟨hfree, hsame⟩ := Graph.exists_declare_iff.mp ⟨g₁, hdeclare⟩
      obtain ⟨rules, rfl⟩ := Graph.declare_eq hdeclare
      obtain ⟨out, edge, htaken, rfl⟩ := Graph.accept_eq_error_iff.mp haccept
      exact .redefinition hfree hsame htaken
  · rintro ⟨cause, rfl, h⟩
    cases h with
    | reservedRule hreserved =>
      exact ⟨_, .inl ⟨_, Graph.declare_eq_error_iff.mpr (.inl ⟨hreserved, rfl⟩), rfl, rfl⟩⟩
    | ruleConflict hfree hother =>
      exact ⟨_, .inl ⟨_, Graph.declare_eq_error_iff.mpr (.inr ⟨hfree, hother, rfl⟩), rfl, rfl⟩⟩
    | @redefinition out edge hfree hsame htaken =>
      obtain ⟨g₁, hdeclare⟩ := Graph.exists_declare_iff.mpr ⟨hfree, hsame⟩
      obtain ⟨rules, rfl⟩ := Graph.declare_eq hdeclare
      exact ⟨_, .inr ⟨_, _, hdeclare, Graph.accept_eq_error_iff.mpr ⟨out, edge, htaken, rfl⟩, rfl, rfl⟩⟩

theorem addStep_eq_error_iff (houts : step.outs ≠ []) :
    addStep w step s = .error e t ↔
      (∃ cause, step.Clash cause ∧ e = .of cause ∧ t = s) ∨
      ¬step.Malformed ∧ writePayload w step.payload s = .error e t ∨
      ¬step.Malformed ∧ CanWritePayload w s.store step.payload ∧
        addStatement (step.signature w) step.origin { s with store := storeAfter w s.store step.payload } =
          .error e t := by
  unfold addStep
  rw [if_neg houts, ← step.payload?_eq_ok_iff]
  simp only [← AnyStep.payload?_eq_error_iff]
  cases hpayload : step.payload? with
  | error cause =>
    constructor
    · intro h
      cases h
      exact .inl ⟨cause, rfl, rfl, rfl⟩
    · rintro (⟨_, h, rfl, rfl⟩ | ⟨h, -⟩ | ⟨h, -⟩)
      · cases h
        rfl
      · cases h
      · cases h
  | ok payload =>
    have hsome : step.payload = payload := by rw [AnyStep.payload, hpayload]; cases payload <;> rfl
    rw [hsome, AnyStep.signature, hsome]
    change (writePayload w payload >>= fun _ => addStatement (step.statement w payload) step.origin) s = _ ↔ _
    rw [bind_eq_error_iff]
    constructor
    · rintro (hwrite | ⟨_, u, hwrite, hadd⟩)
      · exact .inr (.inl ⟨rfl, hwrite⟩)
      · obtain ⟨hcan, rfl⟩ := writePayload_eq_ok_iff.mp hwrite
        exact .inr (.inr ⟨rfl, hcan, hadd⟩)
    · rintro (⟨_, h, -⟩ | ⟨-, hwrite⟩ | ⟨-, hcan, hadd⟩)
      · cases h
      · exact .inl hwrite
      · exact .inr ⟨(), _, writePayload_eq_ok_iff.mpr ⟨hcan, rfl⟩, hadd⟩

/-- Nothing is left of a refused step but payload files and a rule. -/
theorem eq_of_addStep_error (h : addStep w step s = .error e t) :
    ∃ store rules, t = { s with store, graph := { s.graph with rules } } := by
  by_cases houts : step.outs = []
  · rw [addStep_of_outs_eq_nil houts] at h
    cases h
  rcases (addStep_eq_error_iff houts).mp h with ⟨_, -, -, rfl⟩ | ⟨-, hwrite⟩ | ⟨-, -, hadd⟩
  · exact ⟨t.store, t.graph.rules, rfl⟩
  · obtain ⟨store, rfl⟩ := eq_of_writePayload_error hwrite
    exact ⟨store, s.graph.rules, rfl⟩
  · obtain ⟨rules, rfl⟩ := eq_of_addStatement_error hadd
    exact ⟨_, rules, rfl⟩

/-- A step whose payload file can be written is refused for the first reason that holds. -/
theorem addStep_failsWith_iff (houts : step.outs ≠ []) (hwrite : CanWritePayload w s.store step.payload) :
    FailsWith (addStep w step) s e ↔
      ∃ cause, e = .of cause ∧
        (step.Clash cause ∨ ¬step.Malformed ∧ s.graph.Refuses (step.signature w) cause) := by
  have hwritten : writePayload w step.payload s = .ok () { s with store := storeAfter w s.store step.payload } :=
    writePayload_eq_ok_iff.mpr ⟨hwrite, rfl⟩
  have hadd : FailsWith (addStatement (step.signature w) step.origin)
      { s with store := storeAfter w s.store step.payload } e ↔
        ∃ cause, e = .of cause ∧ s.graph.Refuses (step.signature w) cause := addStatement_failsWith_iff
  constructor
  · rintro ⟨t, h⟩
    rcases (addStep_eq_error_iff houts).mp h with ⟨cause, hclash, rfl, -⟩ | ⟨-, h⟩ | ⟨hform, -, h⟩
    · exact ⟨cause, rfl, .inl hclash⟩
    · rw [hwritten] at h
      cases h
    · obtain ⟨cause, he, hrefuses⟩ := hadd.mp ⟨t, h⟩
      exact ⟨cause, he, .inr ⟨hform, hrefuses⟩⟩
  · rintro ⟨cause, he, hclash | ⟨hform, hrefuses⟩⟩
    · exact ⟨s, (addStep_eq_error_iff houts).mpr (.inl ⟨cause, hclash, he, rfl⟩)⟩
    · obtain ⟨t, h⟩ := hadd.mpr ⟨cause, he, hrefuses⟩
      exact ⟨t, (addStep_eq_error_iff houts).mpr (.inr (.inr ⟨hform, hwrite, h⟩))⟩

/-- **A step with outputs is refused exactly if its payload is malformed, or its rule has a reserved name or one that
another rule has, or another statement makes one of its outputs.** What is reported is the first of these reasons, and
of the outputs the first one, with all traces of its edge and the trace at the time. A refused step leaves the graph as
it was, the table of rules apart. -/
theorem addStep_refusals (houts : step.outs ≠ []) (hwrite : CanWritePayload w s.store step.payload) :
    ((∃ e, FailsWith (addStep w step) s e) ↔
      step.Malformed ∨ isReservedRuleName (step.signature w).rule.name = true ∨
      s.graph.HasOtherRule (step.signature w).rule ∨
      ∃ out ∈ step.outs, ∃ e, s.graph.edgeFor? out.absolute = some e ∧ e.toStatement ≠ step.signature w) ∧
    (∀ e, FailsWith (addStep w step) s e ↔
      ∃ cause, e = .of cause ∧
        (step.Clash cause ∨ ¬step.Malformed ∧ s.graph.Refuses (step.signature w) cause)) ∧
    ∀ e t, addStep w step s = .error e t → s.graph.ShowsSame t.graph := by
  have hsignature : (step.signature w).outs = step.outs := AnyStep.outs_statement _ _ _
  refine ⟨?_, fun e => addStep_failsWith_iff houts hwrite, fun e t h => ?_⟩
  · rw [← hsignature, ← Graph.exists_refuses_iff, ← AnyStep.exists_clash_iff]
    simp only [addStep_failsWith_iff houts hwrite]
    constructor
    · rintro ⟨_, cause, -, hclash | ⟨-, hrefuses⟩⟩
      · exact .inl ⟨cause, hclash⟩
      · exact .inr ⟨cause, hrefuses⟩
    · rintro (⟨cause, hclash⟩ | ⟨cause, hrefuses⟩)
      · exact ⟨_, cause, rfl, .inl hclash⟩
      · by_cases hform : step.Malformed
        · obtain ⟨cause, hclash⟩ := AnyStep.exists_clash_iff.mpr hform
          exact ⟨_, cause, rfl, .inl hclash⟩
        · exact ⟨_, cause, rfl, .inr ⟨hform, hrefuses⟩⟩
  · obtain ⟨store, rules, rfl⟩ := eq_of_addStep_error h
    exact s.graph.showsSame_rules rules

end Session

/-- A step that makes a new file, and two files that steps of the sample make. -/
def clashingStep : AnyStep :=
  let out := fun rel => Path.out (sampleProject.workspace.out rel)
  .plain { outs := [out "z", out "x", out "y"], command := "touch $out" }

theorem addStep_refusals_sample : ∃ s,
    addSteps sampleProject.workspace sampleSteps (sampleProject.start {}) = .ok () s ∧
      clashingStep.outs ≠ [] ∧ Session.CanWritePayload sampleProject.workspace s.store clashingStep.payload ∧
      ∃ t, Session.addStep sampleProject.workspace clashingStep s =
          .error (.of (.redefinition "/out/x" ["first", "second // inner"] "")) t ∧ s.graph.ShowsSame t.graph := by
  have hadd : Succeeds (addSteps sampleProject.workspace sampleSteps) (sampleProject.start {}) := by decide +kernel
  have hboth : FailsWith (addSteps sampleProject.workspace sampleSteps >>= fun _ =>
      Session.addStep sampleProject.workspace clashingStep) (sampleProject.start {})
      (.of (.redefinition "/out/x" ["first", "second // inner"] "")) := by decide +kernel
  obtain ⟨_, s, hadd⟩ := hadd
  obtain ⟨t, hboth⟩ := hboth
  rcases bind_eq_error_iff.mp hboth with hnone | ⟨_, u, hadd', hstep⟩
  · rw [hadd] at hnone
    cases hnone
  · cases hadd.symm.trans hadd'
    have houts : clashingStep.outs ≠ [] := by decide +kernel
    exact ⟨s, hadd, houts, trivial, t, hstep, (Session.addStep_refusals houts trivial).2.2 _ t hstep⟩

end BuildPlan
