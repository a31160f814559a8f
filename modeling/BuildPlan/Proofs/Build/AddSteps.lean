import BuildPlan.Proofs.Build.Success
import BuildPlan.Proofs.Graph.SortedEdges

/-!
# Adding steps one after another

What a list of steps comes to when it is added to an empty graph, each step inside of some blocks with labels. The
code compares each step with its tables only. `Compatible` is a condition on the list as a whole that speaks of
neither tables nor order. The main result is that the additions succeed exactly under it, with which edges there are
then.
-/

namespace BuildPlan

/-! ### Lists of steps -/

/-- A step that is added inside of blocks with labels, the outermost first. -/
structure TracedStep where
  labels : List String := []
  step : AnyStep

namespace TracedStep

/-- The step is added inside of its blocks. -/
def add (t : TracedStep) (w : Workspace) : SessionM Unit := t.labels.foldr Session.traced (Session.addStep w t.step)

/-- The label of the trace when the step is added. -/
def label (t : TracedStep) : String := " // ".intercalate t.labels

end TracedStep

/-- The steps are added one after another. -/
def addSteps (w : Workspace) (steps : List TracedStep) : SessionM Unit := steps.forM (·.add w)

/-- The steps that make something. The others do not count. -/
def making (steps : List TracedStep) : List TracedStep := steps.filter (·.step.outs ≠ [])

/-- The additions of the steps. -/
def logOf (w : Workspace) (steps : List TracedStep) : Log :=
  (making steps).map fun t => (t.step.signature w, t.label)

/-- The payloads of the steps. -/
def payloadsOf (steps : List TracedStep) : List Payload := (making steps).filterMap (·.step.payload)

/-- Payload files can be written one after another. -/
def CanWrite (w : Workspace) : Store → List Payload → Prop
  | _, [] => True
  | store, payload :: rest =>
    (Session.keepPayload store w payload).1.isOk ∧ CanWrite w (Session.keepPayload store w payload).2 rest

instance (w : Workspace) : ∀ store payloads, Decidable (CanWrite w store payloads)
  | _, [] => isTrue trivial
  | store, payload :: rest =>
    have := instDecidableCanWrite w (Session.keepPayload store w payload).2 rest
    inferInstanceAs (Decidable (_ ∧ _))

/-- The steps can stand in one graph. -/
structure Compatible (w : Workspace) (steps : List TracedStep) : Prop where
  wellFormed : ∀ t ∈ making steps, ¬t.step.Malformed
  /-- The names of rules are not reserved. -/
  names : ∀ t ∈ making steps, (t.step.signature w).rule.name ≠ "phony" ∧
    ¬"__rule".toList <+: (t.step.signature w).rule.name.toList
  /-- Rules of one name are equal. -/
  rules : ∀ t ∈ making steps, ∀ u ∈ making steps, (t.step.signature w).rule.name ≠ "" →
    (t.step.signature w).rule.name = (u.step.signature w).rule.name →
    (t.step.signature w).rule = (u.step.signature w).rule
  /-- Steps with an output in common have equal statements. -/
  outs : ∀ t ∈ making steps, ∀ u ∈ making steps,
    (∃ out ∈ t.step.outs, ∃ out' ∈ u.step.outs, out.absolute = out'.absolute) →
    t.step.signature w = u.step.signature w

namespace Session

variable {s s' : Session} {w : Workspace}

/-- The session with another trace. -/
def withTrace (s : Session) (trace : List String) : Session := { s with graph := { s.graph with trace } }

theorem addStep_trace {step : AnyStep} (h : addStep w step s = .ok () s') : s'.graph.trace = s.graph.trace := by
  by_cases houts : step.outs = []
  · rw [addStep_of_outs_eq_nil houts] at h
    cases h
    rfl
  · obtain ⟨-, -, g₁, g', hdeclare, haccept, rfl⟩ := (addStep_eq_ok_iff houts).mp h
    obtain ⟨rules, rfl⟩ := Graph.declare_eq hdeclare
    rcases Graph.accept_cases haccept with ⟨_, _, -, -, -, rfl⟩ | ⟨-, rfl⟩ <;> rfl

theorem signature_mem_of_addStep {step : AnyStep} (houts : step.outs ≠ []) (h : addStep w step s = .ok () s') :
    step.signature w ∈ s'.graph.statements := by
  obtain ⟨-, -, g₁, g', -, haccept, rfl⟩ := (addStep_eq_ok_iff houts).mp h
  exact (Graph.mem_statements_of_accept haccept _).mpr (.inr rfl)

theorem foldr_traced_eq_ok_iff {α : Type} {operation : SessionM α} {a : α} (labels : List String)
    (hkeeps : ∀ s s' a, operation s = .ok a s' → s'.graph.trace = s.graph.trace) :
    labels.foldr traced operation s = .ok a s' ↔
      ∃ t, operation (s.withTrace (s.graph.trace ++ labels)) = .ok a t ∧ s' = t.withTrace s.graph.trace := by
  induction labels generalizing s s' with
  | nil =>
    rw [List.append_nil]
    constructor
    · exact fun h => ⟨s', h, by rw [← hkeeps _ _ _ h]; rfl⟩
    · rintro ⟨t, h, rfl⟩
      have htrace : t.graph.trace = s.graph.trace := hkeeps _ _ _ h
      rw [← htrace]
      exact h
  | cons label rest ih =>
    rw [List.foldr_cons, traced_eq_ok_iff]
    have hpush : (s.push label).withTrace ((s.push label).graph.trace ++ rest) =
        s.withTrace (s.graph.trace ++ label :: rest) := by
      simp [push, withTrace]
    have hpop : ∀ t : Session, (t.withTrace (s.push label).graph.trace).pop = t.withTrace s.graph.trace := by
      simp [push, pop, withTrace]
    simp only [ih, hpush]
    constructor
    · rintro ⟨_, ⟨t, h, rfl⟩, rfl⟩
      exact ⟨t, h, hpop t⟩
    · rintro ⟨t, h, rfl⟩
      exact ⟨_, ⟨t, h, rfl⟩, (hpop t).symm⟩

end Session

/-! ### One step after a log -/

namespace TracedStep

variable {s s' : Session} {w : Workspace} {log : Log} {t : TracedStep}

theorem add_eq_ok_iff : t.add w s = .ok () s' ↔
    ∃ u, Session.addStep w t.step (s.withTrace (s.graph.trace ++ t.labels)) = .ok () u ∧
      s' = u.withTrace s.graph.trace :=
  Session.foldr_traced_eq_ok_iff t.labels fun _ _ _ => Session.addStep_trace

theorem add_of_outs_eq_nil (houts : t.step.outs = []) (s : Session) : t.add w s = .ok () s :=
  add_eq_ok_iff.mpr ⟨_, Session.addStep_of_outs_eq_nil houts _, rfl⟩

theorem succeeds_add_iff (h : s.graph.Records log) (houts : t.step.outs ≠ [])
    (hwrite : Session.CanWritePayload w s.store t.step.payload) :
    Succeeds (t.add w) s ↔ ¬t.step.Malformed ∧ Consistent (log.statements ++ [t.step.signature w]) := by
  have hs : (s.withTrace (s.graph.trace ++ t.labels)).graph.Records log := h.of_eq rfl rfl rfl
  rw [← hs.add_iff (t.step.signature w) t.step.origin]
  constructor
  · rintro ⟨_, s', hadd⟩
    obtain ⟨_, hstep, -⟩ := add_eq_ok_iff.mp hadd
    obtain ⟨hwf, -, g₁, g', hdeclare, haccept, -⟩ := (Session.addStep_eq_ok_iff houts).mp hstep
    exact ⟨hwf, g₁, g', hdeclare, haccept⟩
  · rintro ⟨hwf, g₁, g', hdeclare, haccept⟩
    exact ⟨(), _, add_eq_ok_iff.mpr ⟨_, (Session.addStep_eq_ok_iff houts).mpr
      ⟨hwf, hwrite, g₁, g', hdeclare, haccept, rfl⟩, rfl⟩⟩

theorem add_records (h : s.graph.Records log) (htrace : s.graph.trace = []) (houts : t.step.outs ≠ [])
    (hadd : t.add w s = .ok () s') :
    s'.graph.Records (log ++ [(t.step.signature w, t.label)]) ∧ s'.graph.trace = [] ∧
      s'.store = Session.storeAfter w s.store t.step.payload := by
  obtain ⟨u, hstep, rfl⟩ := add_eq_ok_iff.mp hadd
  obtain ⟨-, -, g₁, g', hdeclare, haccept, rfl⟩ := (Session.addStep_eq_ok_iff houts).mp hstep
  have hs : (s.withTrace (s.graph.trace ++ t.labels)).graph.Records log := h.of_eq rfl rfl rfl
  have hlabel : (s.withTrace (s.graph.trace ++ t.labels)).graph.traceLabel = t.label := by
    simp [Session.withTrace, Graph.traceLabel, htrace, label]
  refine ⟨?_, htrace, rfl⟩
  rw [← hlabel]
  exact (hs.add (by rwa [AnyStep.signature, AnyStep.outs_statement]) hdeclare haccept).of_eq rfl rfl rfl

end TracedStep

/-! ### All steps after a log -/

section run

variable {w : Workspace} {t : TracedStep} {s s' : Session} {log : Log}

theorem making_cons_of_eq (houts : t.step.outs = []) (rest : List TracedStep) : making (t :: rest) = making rest := by
  simp [making, houts]

theorem making_cons_of_ne (houts : t.step.outs ≠ []) (rest : List TracedStep) :
    making (t :: rest) = t :: making rest := by
  simp [making, houts]

theorem canWrite_cons (houts : t.step.outs ≠ []) (store : Store) (rest : List TracedStep) :
    CanWrite w store (payloadsOf (t :: rest)) ↔ Session.CanWritePayload w store t.step.payload ∧
      CanWrite w (Session.storeAfter w store t.step.payload) (payloadsOf rest) := by
  rw [payloadsOf, making_cons_of_ne houts, List.filterMap_cons]
  cases t.step.payload with
  | none => exact (iff_of_eq (true_and _)).symm
  | some payload => exact .rfl

theorem addSteps_cons_eq_ok_iff {rest : List TracedStep} :
    addSteps w (t :: rest) s = .ok () s' ↔ ∃ u, t.add w s = .ok () u ∧ addSteps w rest u = .ok () s' := by
  change (t.add w >>= fun _ => addSteps w rest) s = _ ↔ _
  rw [bind_eq_ok_iff]
  exact ⟨fun ⟨_, u, ht, hrest⟩ => ⟨u, ht, hrest⟩, fun ⟨u, ht, hrest⟩ => ⟨(), u, ht, hrest⟩⟩

theorem succeeds_addSteps_cons {rest : List TracedStep} :
    Succeeds (addSteps w (t :: rest)) s ↔ ∃ u, t.add w s = .ok () u ∧ Succeeds (addSteps w rest) u := by
  constructor
  · rintro ⟨_, s', h⟩
    obtain ⟨u, ht, hrest⟩ := addSteps_cons_eq_ok_iff.mp h
    exact ⟨u, ht, (), s', hrest⟩
  · rintro ⟨u, ht, _, s', hrest⟩
    exact ⟨(), s', addSteps_cons_eq_ok_iff.mpr ⟨u, ht, hrest⟩⟩

theorem logOf_cons_of_ne (houts : t.step.outs ≠ []) (rest : List TracedStep) :
    logOf w (t :: rest) = (t.step.signature w, t.label) :: logOf w rest := by
  rw [logOf, making_cons_of_ne houts, List.map_cons, logOf]

theorem succeeds_addSteps_iff (steps : List TracedStep) (h : s.graph.Records log) (htrace : s.graph.trace = [])
    (hwrite : CanWrite w s.store (payloadsOf steps)) :
    Succeeds (addSteps w steps) s ↔ (∀ t ∈ making steps, ¬t.step.Malformed) ∧
      Consistent (log.statements ++ (logOf w steps).statements) := by
  induction steps generalizing s log with
  | nil =>
    have hnil : Succeeds (addSteps w []) s := ⟨(), s, rfl⟩
    simpa [making, logOf, Log.statements, hnil] using h.consistent
  | cons t rest ih =>
    rw [succeeds_addSteps_cons]
    by_cases houts : t.step.outs = []
    · rw [payloadsOf, making_cons_of_eq houts] at hwrite
      rw [logOf, making_cons_of_eq houts, ← logOf, ← ih h htrace hwrite]
      simp [TracedStep.add_of_outs_eq_nil houts]
    · obtain ⟨hwrite, hrest⟩ := (canWrite_cons houts s.store rest).mp hwrite
      have hnext : ∀ u, t.add w s = .ok () u → (Succeeds (addSteps w rest) u ↔
          (∀ t ∈ making rest, ¬t.step.Malformed) ∧
            Consistent (log.statements ++ (logOf w (t :: rest)).statements)) := by
        intro u hadd
        obtain ⟨hrecords, htrace', hstore⟩ := TracedStep.add_records h htrace houts hadd
        rw [ih hrecords htrace' (hstore ▸ hrest), logOf_cons_of_ne houts]
        simp [Log.statements]
      have hfirst := TracedStep.succeeds_add_iff h houts hwrite
      rw [making_cons_of_ne houts, List.forall_mem_cons]
      constructor
      · rintro ⟨u, hadd, hu⟩
        obtain ⟨hall, hcons⟩ := (hnext u hadd).mp hu
        exact ⟨⟨(hfirst.mp ⟨(), u, hadd⟩).1, hall⟩, hcons⟩
      · rintro ⟨⟨ht, hall⟩, hcons⟩
        have hprefix : Consistent (log.statements ++ [t.step.signature w]) := by
          refine hcons.subset ?_
          rw [logOf_cons_of_ne houts]
          simp [Log.statements]
        obtain ⟨_, u, hadd⟩ := hfirst.mpr ⟨ht, hprefix⟩
        exact ⟨u, hadd, (hnext u hadd).mpr ⟨hall, hcons⟩⟩

/-- Steps that have been added are more additions to the log. -/
theorem addSteps_records (steps : List TracedStep) (h : s.graph.Records log) (htrace : s.graph.trace = [])
    (hadd : addSteps w steps s = .ok () s') : s'.graph.Records (log ++ logOf w steps) := by
  induction steps generalizing s log with
  | nil =>
    cases hadd
    simpa [logOf, making] using h
  | cons t rest ih =>
    obtain ⟨u, ht, hrest⟩ := addSteps_cons_eq_ok_iff.mp hadd
    by_cases houts : t.step.outs = []
    · rw [TracedStep.add_of_outs_eq_nil houts] at ht
      cases ht
      rw [logOf, making_cons_of_eq houts]
      exact ih h htrace hrest
    · obtain ⟨hrecords, htrace', -⟩ := TracedStep.add_records h htrace houts ht
      rw [logOf_cons_of_ne houts, List.append_cons]
      exact ih hrecords htrace' hrest

end run

/-! ### All steps -/

theorem isReservedRuleName_eq_false_iff {name : String} :
    isReservedRuleName name = false ↔ name ≠ "phony" ∧ ¬"__rule".toList <+: name.toList := by
  simp [isReservedRuleName, anonymousRuleStart, ← List.isPrefixOf_iff_prefix]

theorem mem_statements_logOf {w : Workspace} {steps : List TracedStep} {s : Statement} :
    s ∈ (logOf w steps).statements ↔ ∃ t ∈ making steps, t.step.signature w = s := by
  simp [logOf, Log.statements]

/-- Steps are compatible exactly if none is malformed and their statements are consistent. -/
theorem compatible_iff {w : Workspace} {steps : List TracedStep} :
    Compatible w steps ↔ (∀ t ∈ making steps, ¬t.step.Malformed) ∧ Consistent (logOf w steps).statements := by
  have houts : ∀ t : TracedStep, (t.step.signature w).outs = t.step.outs := fun t =>
    AnyStep.outs_statement _ _ _
  constructor
  · intro h
    refine ⟨h.wellFormed, .of_forall (fun s hs => ?_) fun s hs s' hs' => ?_⟩
    · obtain ⟨t, ht, rfl⟩ := mem_statements_logOf.mp hs
      exact isReservedRuleName_eq_false_iff.mpr (h.names t ht)
    · obtain ⟨t, ht, rfl⟩ := mem_statements_logOf.mp hs
      obtain ⟨u, hu, rfl⟩ := mem_statements_logOf.mp hs'
      refine ⟨h.rules t ht u hu, fun out hout out' hout' heq => ?_⟩
      exact h.outs t ht u hu ⟨out, houts t ▸ hout, out', houts u ▸ hout', heq⟩
  · rintro ⟨hwf, hcons⟩
    have hmem : ∀ t ∈ making steps, t.step.signature w ∈ (logOf w steps).statements := fun t ht =>
      mem_statements_logOf.mpr ⟨t, ht, rfl⟩
    refine ⟨hwf, fun t ht => isReservedRuleName_eq_false_iff.mp (hcons.names _ (hmem t ht)),
      fun t ht u hu => (hcons.agrees (hmem t ht) (hmem u hu)).rule, ?_⟩
    rintro t ht u hu ⟨out, hout, out', hout', heq⟩
    exact (hcons.agrees (hmem t ht) (hmem u hu)).outs out (houts t ▸ hout) out' (houts u ▸ hout') heq

theorem Compatible.perm {w : Workspace} {steps steps' : List TracedStep} (hperm : steps.Perm steps')
    (h : Compatible w steps) : Compatible w steps' := by
  have hmem : ∀ t, t ∈ making steps' → t ∈ making steps := fun t => (hperm.filter _).mem_iff.mpr
  exact ⟨fun t ht => h.wellFormed t (hmem t ht), fun t ht => h.names t (hmem t ht),
    fun t ht u hu => h.rules t (hmem t ht) u (hmem u hu), fun t ht u hu => h.outs t (hmem t ht) u (hmem u hu)⟩

theorem labels_logOf (w : Workspace) (steps : List TracedStep) (s : Statement) :
    (logOf w steps).labels s = ((making steps).filter (·.step.signature w = s)).map (·.label) := by
  simp [logOf, Log.labels, List.filter_map, Function.comp_def]

/-- **Steps can be added to an empty graph, one after another, exactly if they are compatible.** Then there is one
edge for each statement, in the order of their first outputs, with the labels of the steps that ask for it in the
order of their additions; and any other order of the steps comes to the same statements. -/
theorem addSteps_spec (p : Project) (settings : Settings) (steps : List TracedStep)
    (hwrite : CanWrite p.workspace settings.store (payloadsOf steps)) :
    (Succeeds (addSteps p.workspace steps) (p.start settings) ↔ Compatible p.workspace steps) ∧
    (∀ s, addSteps p.workspace steps (p.start settings) = .ok () s →
      s.graph.sortedStatements.Nodup ∧
      (∀ statement, statement ∈ s.graph.sortedStatements ↔
        ∃ t ∈ making steps, t.step.signature p.workspace = statement) ∧
      s.graph.sortedEdges.Pairwise (fun a b => a.sortKey < b.sortKey) ∧
      ∀ e ∈ s.graph.sortedEdges,
        e.traces = ((making steps).filter (·.step.signature p.workspace = e.toStatement)).map (·.label)) ∧
    ∀ steps', steps.Perm steps' → CanWrite p.workspace settings.store (payloadsOf steps') →
      (Succeeds (addSteps p.workspace steps') (p.start settings) ↔
        Succeeds (addSteps p.workspace steps) (p.start settings)) ∧
      ∀ s s', addSteps p.workspace steps (p.start settings) = .ok () s →
        addSteps p.workspace steps' (p.start settings) = .ok () s' →
        s'.graph.sortedStatements = s.graph.sortedStatements := by
  have hempty : (p.start settings).graph.Records [] := .empty p.workspace
  have hiff : ∀ steps, CanWrite p.workspace settings.store (payloadsOf steps) →
      (Succeeds (addSteps p.workspace steps) (p.start settings) ↔ Compatible p.workspace steps) := by
    intro steps hwrite
    rw [succeeds_addSteps_iff steps hempty rfl hwrite, compatible_iff]
    rfl
  have hrecords : ∀ steps s, addSteps p.workspace steps (p.start settings) = .ok () s →
      s.graph.Records (logOf p.workspace steps) := fun steps s hadd => addSteps_records steps hempty rfl hadd
  refine ⟨hiff steps hwrite, fun s hadd => ?_, fun steps' hperm hwrite' => ⟨?_, fun s s' hadd hadd' => ?_⟩⟩
  · obtain ⟨⟨hwf, hmem, htraces⟩, -, -⟩ := hrecords steps s hadd
    refine ⟨hwf.nodup_sortedStatements, fun statement => ?_, hwf.pairwise_sortedEdges, fun e he => ?_⟩
    · rw [(Graph.sortedStatements_perm s.graph).mem_iff, hmem, mem_statements_logOf]
    · rw [htraces e (Graph.mem_sortedEdges.mp he), labels_logOf]
  · rw [hiff steps hwrite, hiff steps' hwrite']
    exact ⟨.perm hperm.symm, .perm hperm⟩
  · obtain ⟨⟨hwf, hmem, -⟩, -, -⟩ := hrecords steps s hadd
    obtain ⟨⟨hwf', hmem', -⟩, -, -⟩ := hrecords steps' s' hadd'
    refine Graph.sortedStatements_eq hwf' hwf fun statement => ?_
    rw [hmem, hmem', mem_statements_logOf, mem_statements_logOf]
    simp only [making, (hperm.filter _).mem_iff]

/-- A project without things of its own. -/
def sampleProject : Project := { workspace := { sourceDir := "/src", buildRoot := "/out" } }

/-- A step with a script that is added twice, and a step with a rule that uses its output. -/
def sampleSteps : List TracedStep :=
  let out := fun rel => Path.out (sampleProject.workspace.out rel)
  let script := AnyStep.plain { out := some (out "x"), script := "make x" }
  let copy := AnyStep.ruled
    { rule := { name := "copy", command := "cp $in $out" }, outs := [out "y"], ins := [out "x"] }
  [⟨["first"], script⟩, ⟨[], copy⟩, ⟨["second", "inner"], script⟩]

theorem addSteps_spec_sample :
    CanWrite sampleProject.workspace {} (payloadsOf sampleSteps) ∧ Compatible sampleProject.workspace sampleSteps := by
  have hwrite : CanWrite sampleProject.workspace ({} : Settings).store (payloadsOf sampleSteps) := by decide +kernel
  exact ⟨hwrite, (addSteps_spec sampleProject {} sampleSteps hwrite).1.mp (by decide +kernel)⟩

end BuildPlan
