import BuildPlan.Proofs.Graph.OutputTable
import BuildPlan.Proofs.Graph.RuleTable

/-!
# What a graph records

A graph sees statements one at a time and checks each against its tables only. `Graph.Records` says what the tables
then stand for, in terms of the `Log` of all statements that have been taken so far: there is one edge for each
statement, with the labels of all its additions, and the rule table has the rules of the log that have a name.
With it the checks become `Consistent`, a condition on the list of all statements in which no order matters.
-/

namespace BuildPlan

/-- Two statements can stand in one graph: rules of one name are equal, and statements with an output in common
are equal. -/
structure Statement.Agrees (s t : Statement) : Prop where
  rule : s.rule.name ≠ "" → s.rule.name = t.rule.name → s.rule = t.rule
  outs : ∀ out ∈ s.outs, ∀ out' ∈ t.outs, out.absolute = out'.absolute → s = t

theorem Statement.Agrees.refl (s : Statement) : s.Agrees s := ⟨fun _ _ => rfl, fun _ _ _ _ _ => rfl⟩

theorem Statement.Agrees.symm {s t : Statement} (h : s.Agrees t) : t.Agrees s :=
  ⟨fun hname heq => (h.rule (heq ▸ hname) heq.symm).symm,
    fun out hout out' hout' heq => (h.outs out' hout' out hout heq.symm).symm⟩

/-- Statements that can stand in one graph: none has a rule with a reserved name, and any two agree. -/
structure Consistent (statements : List Statement) : Prop where
  names : ∀ s ∈ statements, isReservedRuleName s.rule.name = false
  agree : statements.Pairwise Statement.Agrees

namespace Consistent

theorem append_iff {statements statements' : List Statement} :
    Consistent (statements ++ statements') ↔ Consistent statements ∧ Consistent statements' ∧
      ∀ s ∈ statements, ∀ t ∈ statements', s.Agrees t := by
  constructor
  · rintro ⟨hnames, hagree⟩
    obtain ⟨hleft, hright, hcross⟩ := List.pairwise_append.mp hagree
    obtain ⟨hnames, hnames'⟩ := List.forall_mem_append.mp hnames
    exact ⟨⟨hnames, hleft⟩, ⟨hnames', hright⟩, hcross⟩
  · rintro ⟨h, h', hcross⟩
    exact ⟨List.forall_mem_append.mpr ⟨h.names, h'.names⟩, List.pairwise_append.mpr ⟨h.agree, h'.agree, hcross⟩⟩

theorem nil : Consistent [] := ⟨by simp, .nil⟩

theorem agrees {statements : List Statement} (h : Consistent statements) {s t : Statement} (hs : s ∈ statements)
    (ht : t ∈ statements) : s.Agrees t :=
  h.agree.forall_of_forall_of_flip (fun _ _ => .refl _) (h.agree.imp Statement.Agrees.symm) hs ht

theorem of_forall {statements : List Statement} (hnames : ∀ s ∈ statements, isReservedRuleName s.rule.name = false)
    (hagree : ∀ s ∈ statements, ∀ t ∈ statements, s.Agrees t) : Consistent statements :=
  ⟨hnames, List.pairwise_of_forall_mem_list hagree⟩

theorem subset {statements statements' : List Statement} (h : Consistent statements)
    (hsub : statements' ⊆ statements) : Consistent statements' :=
  of_forall (fun s hs => h.names s (hsub hs)) fun _ hs _ ht => h.agrees (hsub hs) (hsub ht)

end Consistent

/-- Statements in the order in which they are added, each with the label of the trace at the time. -/
abbrev Log := List (Statement × String)

namespace Log

/-- The statements that have been added. -/
def statements (log : Log) : List Statement := log.map (·.1)

/-- The labels with which a statement has been added. -/
def labels (log : Log) (s : Statement) : List String := (log.filter (·.1 = s)).map (·.2)

@[simp] theorem statements_append (log log' : Log) :
    statements (log ++ log') = log.statements ++ log'.statements := List.map_append

@[simp] theorem statements_singleton (s : Statement) (label : String) : statements [(s, label)] = [s] := rfl

theorem labels_append (log log' : Log) (s : Statement) : labels (log ++ log') s = log.labels s ++ log'.labels s := by
  simp [labels]

theorem labels_of_notMem {log : Log} {s : Statement} (h : s ∉ log.statements) : log.labels s = [] := by
  have : log.filter (·.1 = s) = [] := by
    rw [List.filter_eq_nil_iff]
    intro entry hentry heq
    exact h (List.mem_map.mpr ⟨entry, hentry, of_decide_eq_true heq⟩)
  rw [labels, this, List.map_nil]

theorem labels_singleton (s t : Statement) (label : String) :
    labels [(s, label)] t = if s = t then [label] else [] := by
  by_cases h : s = t <;> simp [labels, h]

end Log

namespace Graph

variable {g g' : Graph} {s : Statement} {origin : RuleOrigin} {log : Log}

/-! ### Edges and statements -/

/-- The statements of the edges. -/
def statements (g : Graph) : List Statement := g.edges.map Edge.toStatement

theorem WellFormed.edgeFor?_eq_some_iff (h : g.WellFormed) {key : String} {e : Edge} :
    g.edgeFor? key = some e ↔ e ∈ g.edges ∧ ∃ out ∈ e.outs, out.absolute = key := by
  constructor
  · exact h.mem_of_edgeFor?
  · rintro ⟨he, out, hout, rfl⟩
    exact h.edgeFor?_eq_some he hout

theorem WellFormed.nodup_statements (h : g.WellFormed) : g.statements.Nodup := by
  refine List.pairwise_iff_getElem.mpr fun i j hi hj hij heq => ?_
  simp only [statements, List.length_map] at hi hj
  simp only [statements, List.getElem_map] at heq
  obtain ⟨out, hout⟩ := List.exists_mem_of_ne_nil _ (h.makes _ (List.getElem_mem hi))
  have houts : g.edges[i].outs = g.edges[j].outs := congrArg Statement.outs heq
  have hplace := h.place_unique (List.getElem?_eq_getElem hi) (List.getElem?_eq_getElem hj) hout (houts ▸ hout) rfl
  omega

theorem statements_retrace (place : Nat) : (g.retrace place).statements = g.statements := by
  apply List.ext_getElem?
  intro i
  simp only [statements, List.getElem?_map, getElem?_retrace, Option.map_map]
  congr 1
  funext e
  by_cases h : place = i <;> simp [h, Edge.addTrace]

theorem mem_statements_of_accept (h : g.accept s origin = .ok g') (t : Statement) :
    t ∈ g'.statements ↔ t ∈ g.statements ∨ s = t := by
  rcases accept_cases h with ⟨place, e, -, he, rfl, rfl⟩ | ⟨-, rfl⟩
  · show t ∈ (g.retrace place).statements ↔ _
    rw [statements_retrace]
    refine (or_iff_left_of_imp ?_).symm
    rintro rfl
    exact List.mem_map_of_mem (List.mem_of_getElem? he)
  · simp [statements, addEdge, eq_comm]

/-! ### Graphs and logs -/

/-- The edges are what the additions of a log come to: one for each statement, with the labels of its additions. -/
structure RecordsEdges (g : Graph) (log : Log) : Prop where
  wellFormed : g.WellFormed
  mem_statements : ∀ s, s ∈ g.statements ↔ s ∈ log.statements
  traces : ∀ e ∈ g.edges, e.traces = log.labels e.toStatement

/-- The rule table holds the rules of a log that have a name. -/
def RecordsRules (g : Graph) (log : Log) : Prop :=
  ∀ name rule, Assoc.find? g.rules name = some rule ↔
    name ≠ "" ∧ rule.name = name ∧ ∃ s ∈ log.statements, s.rule = rule

/-- The graph is what the additions of a log come to. -/
structure Records (g : Graph) (log : Log) : Prop where
  edges : g.RecordsEdges log
  rules : g.RecordsRules log
  consistent : Consistent log.statements

namespace RecordsRules

theorem declare_iff (h : g.RecordsRules log) (rule : Rule) :
    (∃ g', g.declare rule = .ok g') ↔ isReservedRuleName rule.name = false ∧
      ∀ t ∈ log.statements, t.rule.name ≠ "" → t.rule.name = rule.name → t.rule = rule := by
  rw [declare_eq_ok_iff]
  constructor
  · rintro (hname | ⟨hfree, hknown⟩)
    · refine ⟨by rw [hname]; decide, fun t _ ht heq => ?_⟩
      exact absurd (heq.trans hname) ht
    · refine ⟨hfree, fun t ht hname heq => hknown _ ?_⟩
      exact (h _ _).mpr ⟨heq ▸ hname, heq, t, ht, rfl⟩
  · rintro ⟨hfree, hagree⟩
    refine .inr ⟨hfree, fun known hknown => ?_⟩
    obtain ⟨hname, heq, t, ht, rfl⟩ := (h _ _).mp hknown
    exact hagree t ht (heq ▸ hname) heq

theorem declare (h : g.RecordsRules log) (hdeclare : g.declare s.rule = .ok g') (label : String) :
    g'.RecordsRules (log ++ [(s, label)]) := by
  intro name rule
  simp only [Log.statements_append, Log.statements_singleton, List.mem_append, List.mem_singleton]
  rcases declare_cases hdeclare with ⟨hname, rfl⟩ | ⟨-, hknown, rfl⟩ | ⟨hname, -, hnone, rfl⟩
  · rw [h]
    constructor
    · rintro ⟨hne, heq, t, ht, hrule⟩
      exact ⟨hne, heq, t, .inl ht, hrule⟩
    · rintro ⟨hne, heq, t, ht | rfl, hrule⟩
      · exact ⟨hne, heq, t, ht, hrule⟩
      · exact absurd (heq ▸ hrule ▸ hname) hne
  · obtain ⟨-, -, known, hmem, hrule'⟩ := (h _ _).mp hknown
    rw [h]
    constructor
    · rintro ⟨hne, heq, t, ht, hrule⟩
      exact ⟨hne, heq, t, .inl ht, hrule⟩
    · rintro ⟨hne, heq, t, ht | rfl, hrule⟩
      · exact ⟨hne, heq, t, ht, hrule⟩
      · exact ⟨hne, heq, known, hmem, hrule'.trans hrule⟩
  · rw [Assoc.find?_insert]
    by_cases heq : name = s.rule.name
    · rw [if_pos heq]
      constructor
      · intro hrule
        cases hrule
        exact ⟨heq ▸ hname, heq.symm, s, .inr rfl, rfl⟩
      · rintro ⟨hne, hrule, t, ht | rfl, rfl⟩
        · have hfind := (h name t.rule).mpr ⟨hne, hrule, t, ht, rfl⟩
          rw [heq, hnone] at hfind
          cases hfind
        · rfl
    · rw [if_neg heq, h]
      constructor
      · rintro ⟨hne, hrule, t, ht, htrule⟩
        exact ⟨hne, hrule, t, .inl ht, htrule⟩
      · rintro ⟨hne, hrule, t, ht | rfl, htrule⟩
        · exact ⟨hne, hrule, t, ht, htrule⟩
        · exact absurd (hrule ▸ htrule ▸ rfl) heq

end RecordsRules

namespace RecordsEdges

/-- A statement is taken next to those of a log exactly if it is equal to each that it shares an output with. -/
theorem accept_iff (h : g.RecordsEdges log) (s : Statement) (origin : RuleOrigin) :
    (∃ g', g.accept s origin = .ok g') ↔
      ∀ t ∈ log.statements, ∀ out ∈ t.outs, ∀ out' ∈ s.outs, out.absolute = out'.absolute → t = s := by
  rw [accept_eq_ok_iff]
  constructor
  · intro hall t ht out hout out' hout' heq
    obtain ⟨e, he, rfl⟩ := List.mem_map.mp ((h.mem_statements t).mpr ht)
    exact hall out' hout' e (h.wellFormed.edgeFor?_eq_some_iff.mpr ⟨he, out, hout, heq⟩)
  · intro hall out' hout' e he
    obtain ⟨he, out, hout, heq⟩ := h.wellFormed.edgeFor?_eq_some_iff.mp he
    exact hall _ ((h.mem_statements _).mp (List.mem_map_of_mem he)) out hout out' hout' heq

theorem of_eq (h : g.RecordsEdges log) (hedges : g'.edges = g.edges) (houtputs : g'.outputs = g.outputs) :
    g'.RecordsEdges log :=
  ⟨h.wellFormed.of_eq hedges houtputs, by simpa only [statements, hedges] using h.mem_statements,
    by simpa only [hedges] using h.traces⟩

theorem retrace (h : g.RecordsEdges log) {place : Nat} {e : Edge} (he : g.edges[place]? = some e) :
    (g.retrace place).RecordsEdges (log ++ [(e.toStatement, g.traceLabel)]) := by
  refine ⟨retrace_wellFormed h.wellFormed place, fun t => ?_, fun e' he' => ?_⟩
  · have hmem : e.toStatement ∈ log.statements :=
      (h.mem_statements _).mp (List.mem_map_of_mem (List.mem_of_getElem? he))
    rw [statements_retrace, h.mem_statements, Log.statements_append, Log.statements_singleton, List.mem_append,
      List.mem_singleton]
    exact ⟨.inl, fun ht => ht.elim id fun ht => ht ▸ hmem⟩
  · obtain ⟨i, hi⟩ := List.mem_iff_getElem?.mp he'
    rw [getElem?_retrace, Option.map_eq_some_iff] at hi
    obtain ⟨e₀, he₀, rfl⟩ := hi
    have htraces := h.traces e₀ (List.mem_of_getElem? he₀)
    by_cases hplace : place = i
    · rw [hplace, he₀] at he
      cases he
      rw [if_pos hplace, Edge.addTrace, htraces]
      simp [Log.labels_append, Log.labels_singleton]
    · have hne : e.toStatement ≠ e₀.toStatement := by
        intro heq
        obtain ⟨out, hout⟩ := List.exists_mem_of_ne_nil _ (h.wellFormed.makes e (List.mem_of_getElem? he))
        have houts : e.outs = e₀.outs := congrArg Statement.outs heq
        exact hplace (h.wellFormed.place_unique he he₀ hout (houts ▸ hout) rfl)
      rw [if_neg hplace, htraces, Log.labels_append, Log.labels_singleton, if_neg hne, List.append_nil]

theorem addEdge (h : g.RecordsEdges log) (origin : RuleOrigin) (houts : s.outs ≠ [])
    (hnew : ∀ out ∈ s.outs, g.edgeFor? out.absolute = none) :
    (g.addEdge s origin).RecordsEdges (log ++ [(s, g.traceLabel)]) := by
  have hs : s ∉ log.statements := by
    intro hmem
    obtain ⟨e, he, rfl⟩ := List.mem_map.mp ((h.mem_statements s).mpr hmem)
    obtain ⟨out, hout⟩ := List.exists_mem_of_ne_nil _ houts
    have hfor := h.wellFormed.edgeFor?_eq_some he hout
    rw [hnew out hout] at hfor
    cases hfor
  refine ⟨addEdge_wellFormed h.wellFormed origin houts hnew, fun t => ?_, fun e he => ?_⟩
  · have hstatements : (g.addEdge s origin).statements = g.statements ++ [s] := List.map_append
    rw [hstatements, Log.statements_append, Log.statements_singleton, List.mem_append, List.mem_append,
      h.mem_statements]
  · rw [Log.labels_append, Log.labels_singleton]
    rcases List.mem_append.mp he with hold | hlast
    · have hmem := (h.mem_statements _).mp (List.mem_map_of_mem hold)
      have hne : s ≠ e.toStatement := fun heq => hs (heq ▸ hmem)
      rw [if_neg hne, h.traces e hold, List.append_nil]
    · rw [List.mem_singleton.mp hlast, Log.labels_of_notMem hs]
      simp

theorem accept (h : g.RecordsEdges log) (houts : s.outs ≠ []) (haccept : g.accept s origin = .ok g') :
    g'.RecordsEdges (log ++ [(s, g.traceLabel)]) := by
  rcases accept_cases haccept with ⟨place, e, -, he, rfl, rfl⟩ | ⟨hnew, rfl⟩
  · exact (h.retrace he).of_eq rfl rfl
  · exact (h.addEdge origin houts hnew).of_eq rfl rfl

end RecordsEdges

namespace Records

theorem empty (w : Workspace) : (Graph.empty w).Records [] :=
  ⟨⟨.empty w, by simp [Graph.empty, statements, Log.statements], by simp [Graph.empty]⟩,
    by simp [RecordsRules, Graph.empty, Log.statements], .nil⟩

theorem of_eq (h : g.Records log) (hedges : g'.edges = g.edges) (houtputs : g'.outputs = g.outputs)
    (hrules : g'.rules = g.rules) : g'.Records log :=
  ⟨h.edges.of_eq hedges houtputs, by simpa only [RecordsRules, hrules] using h.rules, h.consistent⟩

/-- **A statement is taken exactly if it is consistent with the log.** -/
theorem add_iff (h : g.Records log) (s : Statement) (origin : RuleOrigin) :
    (∃ g₁ g', g.declare s.rule = .ok g₁ ∧ g₁.accept s origin = .ok g') ↔ Consistent (log.statements ++ [s]) := by
  have hedges : ∀ g₁, g.declare s.rule = .ok g₁ → g₁.RecordsEdges log := by
    intro g₁ hdeclare
    obtain ⟨rules, rfl⟩ := declare_eq hdeclare
    exact h.edges.of_eq rfl rfl
  have hcons : Consistent (log.statements ++ [s]) ↔
      isReservedRuleName s.rule.name = false ∧ ∀ t ∈ log.statements, t.Agrees s := by
    rw [Consistent.append_iff]
    constructor
    · rintro ⟨-, hs, hcross⟩
      exact ⟨hs.names s List.mem_cons_self, fun t ht => hcross t ht s List.mem_cons_self⟩
    · rintro ⟨hname, hcross⟩
      exact ⟨h.consistent, ⟨by simpa using hname, List.pairwise_singleton _ _⟩, by simpa using hcross⟩
  rw [hcons]
  constructor
  · rintro ⟨g₁, g', hdeclare, hg'⟩
    obtain ⟨hfree, hrule⟩ := (h.rules.declare_iff s.rule).mp ⟨g₁, hdeclare⟩
    have houts := ((hedges g₁ hdeclare).accept_iff s origin).mp ⟨g', hg'⟩
    exact ⟨hfree, fun t ht => ⟨hrule t ht, houts t ht⟩⟩
  · rintro ⟨hfree, hagree⟩
    obtain ⟨g₁, hdeclare⟩ := (h.rules.declare_iff s.rule).mpr ⟨hfree, fun t ht => (hagree t ht).rule⟩
    obtain ⟨g', hg'⟩ := ((hedges g₁ hdeclare).accept_iff s origin).mpr fun t ht => (hagree t ht).outs
    exact ⟨g₁, g', hdeclare, hg'⟩

/-- A statement that is taken is one more addition to the log. -/
theorem add (h : g.Records log) (houts : s.outs ≠ []) {g₁ : Graph} (hdeclare : g.declare s.rule = .ok g₁)
    (haccept : g₁.accept s origin = .ok g') : g'.Records (log ++ [(s, g.traceLabel)]) := by
  have hrules := h.rules.declare hdeclare g.traceLabel
  have hcons := (h.add_iff s origin).mp ⟨g₁, g', hdeclare, haccept⟩
  obtain ⟨rules, rfl⟩ := declare_eq hdeclare
  have hedges : { g with rules }.RecordsEdges log := h.edges.of_eq rfl rfl
  refine ⟨hedges.accept houts haccept, ?_, by rwa [Log.statements_append]⟩
  rcases accept_cases haccept with ⟨_, _, -, -, -, rfl⟩ | ⟨-, rfl⟩ <;> exact hrules

theorem mem_statements (h : g.Records log) (s : Statement) : s ∈ g.statements ↔ s ∈ log.statements :=
  h.edges.mem_statements s

end Records

end Graph

end BuildPlan
