import BuildPlan.Proofs.Build.RuleHistory

/-!
# Traces of edges

A block puts its label on the trace and takes it back however it ends, so that after a program the trace is what it was
before. `Session.Takes` follows the execution of a program with the labels of the blocks that are open, and collects the
steps that are taken, each with these labels. The main result, `program_traces`, is that the traces that a program adds
to an edge are those of the steps that were taken for it: the trace before the program and then the open blocks,
outermost first.
-/

namespace BuildPlan

/-- A step that is taken inside of blocks. -/
structure Taking where
  statement : Statement
  /-- The labels of the blocks that are open, outermost first. -/
  blocks : List String

namespace Taking

/-- The trace of a step, where `start` is the trace outside of all blocks. -/
def label (start : List String) (taking : Taking) : String := " // ".intercalate (start ++ taking.blocks)

/-- What is taken, with its traces. -/
def log (start : List String) (takings : List Taking) : Log :=
  takings.map fun taking => (taking.statement, taking.label start)

theorem log_append (start : List String) (takings more : List Taking) :
    log start (takings ++ more) = log start takings ++ log start more :=
  List.map_append

theorem mem_statements_log {start : List String} {takings : List Taking} {s : Statement} :
    s ∈ (log start takings).statements ↔ ∃ taking ∈ takings, taking.statement = s := by
  simp [log, Log.statements]

theorem labels_log (start : List String) (takings : List Taking) (s : Statement) :
    (log start takings).labels s = (takings.filter (·.statement = s)).map (·.label start) := by
  rw [log, Log.labels, List.filter_map, List.map_map]
  rfl

end Taking

namespace Graph

/-- The traces of the edge that a statement has, if there is one. -/
def tracesOf (g : Graph) (s : Statement) : List String :=
  ((g.edges.find? (·.toStatement = s)).map Edge.traces).getD []

theorem RecordsEdges.tracesOf_eq {g : Graph} {log : Log} (h : g.RecordsEdges log) (s : Statement) :
    g.tracesOf s = log.labels s := by
  unfold tracesOf
  cases hfound : g.edges.find? (·.toStatement = s) with
  | some e =>
    have hs : e.toStatement = s := by simpa using List.find?_some hfound
    rw [← hs]
    exact h.traces e (List.mem_of_find?_eq_some hfound)
  | none =>
    refine (Log.labels_of_notMem fun hs => ?_).symm
    obtain ⟨e, he, rfl⟩ := List.mem_map.mp ((h.mem_statements s).mpr hs)
    exact absurd hfound (by simpa using ⟨e, he, rfl⟩)

end Graph

namespace Session

/-! ### Executions -/

/-- The sessions have the same edges and the same trace. -/
def SameTraces (s t : Session) : Prop :=
  t.graph.edges = s.graph.edges ∧ t.graph.outputs = s.graph.outputs ∧ t.graph.trace = s.graph.trace

theorem SameTraces.quiet : Quiet SameTraces where
  refl _ := ⟨rfl, rfl, rfl⟩
  trans := by
    rintro s t u ⟨hedges, houtputs, htrace⟩ ⟨hedges', houtputs', htrace'⟩
    exact ⟨hedges'.trans hedges, houtputs'.trans houtputs, htrace'.trans htrace⟩
  registry _ _ := ⟨rfl, rfl, rfl⟩
  reports _ _ := ⟨rfl, rfl, rfl⟩
  executables _ _ := ⟨rfl, rfl, rfl⟩
  built _ _ := ⟨rfl, rfl, rfl⟩
  dependencies _ _ := ⟨rfl, rfl, rfl⟩
  traced := by
    rintro s label t ⟨hedges, houtputs, htrace⟩
    exact ⟨hedges, houtputs, by simp only [pop, htrace, push, List.dropLast_concat]⟩
  targetRules _ _ := ⟨rfl, rfl, rfl⟩
  startTarget _ _ _ := ⟨rfl, rfl, rfl⟩
  finishTarget _ := ⟨rfl, rfl, rfl⟩
  store _ _ := ⟨rfl, rfl, rfl⟩

/-- An operation that starts in a session, inside of the blocks with the given labels, comes to take these steps.
Operations are followed through everything that they are put together from, and what has been taken before an error has
been taken. -/
inductive Takes (w : Workspace) : ∀ {α : Type}, List String → SessionM α → Session → List Taking → Prop
  | aside {α blocks s} {x : SessionM α} (h : Keeps SameTraces x) : Takes w blocks x s []
  | step {blocks s t step} (houts : step.outs ≠ []) (h : addStep w step s = .ok () t) :
      Takes w blocks (addStep w step) s [⟨step.signature w, blocks⟩]
  | refused {blocks s t step e} (h : addStep w step s = .error e t) : Takes w blocks (addStep w step) s []
  | bind {α β blocks s takings a t more} {x : SessionM α} {f : α → SessionM β} (hx : Takes w blocks x s takings)
      (h : x s = .ok a t) (hf : Takes w blocks (f a) t more) : Takes w blocks (x >>= f) s (takings ++ more)
  | stopped {α β blocks s takings e t} {x : SessionM α} {f : α → SessionM β} (hx : Takes w blocks x s takings)
      (h : x s = .error e t) : Takes w blocks (x >>= f) s takings
  | report {blocks s takings} {x : SessionM Reply} (hx : Takes w blocks (discard x) s takings) :
      Takes w blocks (x >>= report) s takings
  | traced {α blocks s label takings} {x : SessionM α} (hx : Takes w (blocks ++ [label]) x (s.push label) takings) :
      Takes w blocks (traced label x) s takings
  | attempt {blocks s takings} {x : SessionM Unit} (hx : Takes w blocks x s takings) :
      Takes w blocks (attempt x) s takings
  | during {α blocks s target takings} {x : SessionM α} (hx : Takes w blocks x s takings) :
      Takes w blocks (during target x) s takings

theorem follows_takes (p : Project) :
    Follows p SameTraces fun x s => ∀ blocks, ∃ takings, Takes p.workspace blocks x s takings where
  aside h s blocks := ⟨_, .aside h⟩
  addStep {step} houts s blocks := by
    cases h : Session.addStep p.workspace step s with
    | ok _ t => exact ⟨_, .step houts h⟩
    | error e t => exact ⟨_, .refused h⟩
  bind := by
    intro α β x f s t a hx h hf blocks
    obtain ⟨takings, htakings⟩ := hx blocks
    obtain ⟨more, hmore⟩ := hf blocks
    exact ⟨_, htakings.bind h hmore⟩
  stopped hx h blocks := (hx blocks).imp fun _ htakings => htakings.stopped h
  report hx blocks := (hx blocks).imp fun _ => .report
  traced hx blocks := (hx (blocks ++ [_])).imp fun _ => .traced
  attempt hx blocks := (hx blocks).imp fun _ => .attempt
  during hx blocks := (hx blocks).imp fun _ => .during

/-- A program of actions, each with what it answers reported. -/
def runProgram (p : Project) (depth : Nat) (package : Option Package) (program : List Action) : SessionM Unit :=
  performAll (reported (perform p depth) package) program

theorem exists_takes_runProgram (p : Project) (depth : Nat) (package : Option Package) (program : List Action)
    (s : Session) : ∃ takings, Takes p.workspace [] (runProgram p depth package program) s takings := by
  have hF := follows_takes p
  have hC := hF.closed SameTraces.quiet
  exact hC.performAll (fun a _ => hC.reported (hF.perform SameTraces.quiet depth package a)) s []

variable {w : Workspace} {α : Type} {x : SessionM α} {s : Session} {blocks : List String} {takings : List Taking}

theorem trace_of_addStep {step : AnyStep} : (endState (addStep w step) s).graph.trace = s.graph.trace :=
  (keeps_aside_addStep w step s).2.2

theorem Takes.trace (h : Takes w blocks x s takings) : (endState x s).graph.trace = s.graph.trace := by
  induction h with
  | aside h => exact (h _).2.2
  | step | refused => exact trace_of_addStep
  | bind _ h _ ihx ihf =>
    rw [endState_of_ok h] at ihx
    rw [endState_bind_of_ok h, ihf, ihx]
  | stopped _ h ihx => rwa [endState_bind_of_error h, ← endState_of_error h]
  | report _ ihx => rwa [graph_endState_report, ← endState_discard]
  | traced _ ihx =>
    -- the last label is the one of the block
    rw [endState_traced, pop, ihx, push, List.dropLast_concat]
  | attempt _ ihx => rwa [endState_attempt]
  | during _ ihx => rwa [endState_during]

/-- Whether or not an operation fails, the edges record the steps that it took besides those before, each with the
trace outside and the open blocks as its label. -/
theorem Takes.records {start : List String} (h : Takes w blocks x s takings) :
    ∀ {log}, s.graph.trace = start ++ blocks → s.graph.RecordsEdges log →
      (endState x s).graph.RecordsEdges (log ++ Taking.log start takings) := by
  -- on the execution; a block that begins is open for what is inside of it
  induction h with
  | aside h =>
    intro log _ hs
    obtain ⟨hedges, houtputs, -⟩ := h _
    rw [Taking.log, List.map_nil, List.append_nil]
    exact hs.of_eq hedges houtputs
  | @step blocks s t step houts h =>
    intro log htrace hs
    obtain ⟨-, -, g₁, g', hdeclare, haccept, rfl⟩ := (addStep_eq_ok_iff houts).mp h
    obtain ⟨rules, rfl⟩ := Graph.declare_eq hdeclare
    have hlabel : s.graph.traceLabel = Taking.label start ⟨step.signature w, blocks⟩ := by
      rw [Graph.traceLabel, htrace, Taking.label]
    have hdeclared : ({ s.graph with rules } : Graph).RecordsEdges log := hs.of_eq rfl rfl
    rw [endState_of_ok h, Taking.log, List.map_singleton, ← hlabel]
    exact hdeclared.accept (by rwa [AnyStep.signature, AnyStep.outs_statement]) haccept
  | refused h =>
    intro log _ hs
    obtain ⟨store, rules, rfl⟩ := eq_of_addStep_error h
    rw [endState_of_error h, Taking.log, List.map_nil, List.append_nil]
    exact hs.of_eq rfl rfl
  | bind hx h _ ihx ihf =>
    intro log htrace hs
    have ht := ihx htrace hs
    have htrace' := hx.trace
    rw [endState_of_ok h] at ht htrace'
    rw [endState_bind_of_ok h, Taking.log_append, ← List.append_assoc]
    exact ihf (htrace'.trans htrace) ht
  | stopped _ h ihx =>
    intro log htrace hs
    have ht := ihx htrace hs
    rw [endState_of_error h] at ht
    rwa [endState_bind_of_error h]
  | report _ ihx =>
    intro log htrace hs
    rw [graph_endState_report, ← endState_discard]
    exact ihx htrace hs
  | @traced α blocks s label takings x _ ihx =>
    intro log htrace hs
    have htrace' : (s.push label).graph.trace = start ++ (blocks ++ [label]) := by
      rw [push, htrace, List.append_assoc]
    rw [endState_traced]
    exact (ihx htrace' (hs.of_eq rfl rfl)).of_eq rfl rfl
  | attempt _ ihx =>
    intro log htrace hs
    rw [endState_attempt]
    exact ihx htrace hs
  | during _ ihx =>
    intro log htrace hs
    rw [endState_during]
    exact ihx htrace hs

end Session

/-- **After a program the trace is what it was before, and the program has only added the traces of its steps to the
edges**: whether or not it fails, the traces of an edge are those it had before and then, for each step that was taken
for it, the trace before the program followed by the labels of the blocks that were open. -/
theorem program_traces (p : Project) (settings : Settings) (operations : List Operation) (depth : Nat)
    (package : Option Package) (program : List Action) :
    let s := Operation.applyAll p (p.start settings) operations
    let t := endState (Session.runProgram p depth package program) s
    t.graph.trace = s.graph.trace ∧
      (∃ takings, Session.Takes p.workspace [] (Session.runProgram p depth package program) s takings) ∧
      ∀ takings, Session.Takes p.workspace [] (Session.runProgram p depth package program) s takings →
        (∀ taking ∈ takings, taking.statement ∈ t.graph.statements) ∧
        ∀ e ∈ t.graph.edges, e.traces = s.graph.tracesOf e.toStatement ++
          (takings.filter (·.statement = e.toStatement)).map (·.label s.graph.trace) := by
  intro s t
  obtain ⟨attempts, hattempts⟩ := Operation.exists_triesAll p (p.start settings) operations
  have hs : s.graph.RecordsEdges _ := (hattempts.remembers (.empty p.workspace)).edges
  have hexists := Session.exists_takes_runProgram p depth package program s
  refine ⟨hexists.elim fun _ h => h.trace, hexists, fun takings h => ?_⟩
  have ht : t.graph.RecordsEdges _ := h.records (List.append_nil _).symm hs
  refine ⟨fun taking htaking => ?_, fun e he => ?_⟩
  · rw [ht.mem_statements, Log.statements_append]
    exact List.mem_append_right _ (Taking.mem_statements_log.mpr ⟨taking, htaking, rfl⟩)
  · rw [ht.traces e he, Log.labels_append, Taking.labels_log, hs.tracesOf_eq]

/-- A step is taken in a block that fails, and again after the failure. -/
example :
    let make : Action := .step { outs := [.out "a"], command := [.literal "make a"] }
    let program : List Action := [.traced "x" [.attempt [.traced "y" [make, .fail (.of .notTarget)]], make]]
    let t := endState (Session.runProgram strayProject 4 none program) ((strayProject.start {}).push "w")
    t.graph.trace = ["w"] ∧ t.graph.edges.map Edge.traces = [["w // x // y", "w // x"]] := by
  decide +kernel

end BuildPlan
