import BuildPlan.Proofs.Build.Operation
import BuildPlan.Proofs.Graph.SortedEdges
import BuildPlan.Proofs.Ninja.Naming
import Mathlib.Data.List.Nodup

/-!
# The rules of a Ninja file

A Ninja file has to declare a rule before the first build line that uses it, and only once. `NamesRules` says this of a
file together with what the names stand for: those of edges come first, and those of the top-level names go on counting
where the edges have stopped.
-/

namespace BuildPlan

namespace Ninja

/-! ### Declared before use -/

/-- The block is a build line. -/
def Block.isBuild : Block → Bool
  | .rule _ _ => false
  | .build _ => true

/-- The name that a block declares. -/
def Block.declared? : Block → Option String
  | .rule name _ => some name
  | .build _ => none

/-- The names that some blocks declare, in their order. -/
def declaredNames (blocks : List Block) : List String := blocks.filterMap Block.declared?

@[simp] theorem declaredNames_nil : declaredNames [] = [] := rfl

@[simp] theorem declaredNames_rule (name : String) (bindings : List (String × String)) (rest : List Block) :
    declaredNames (.rule name bindings :: rest) = name :: declaredNames rest := rfl

@[simp] theorem declaredNames_build (line : BuildLine) (rest : List Block) :
    declaredNames (.build line :: rest) = declaredNames rest := rfl

theorem declaredNames_append (blocks more : List Block) :
    declaredNames (blocks ++ more) = declaredNames blocks ++ declaredNames more := List.filterMap_append

/-- Each build line uses a rule that has been declared above it, or is one of the rules `known` before. -/
def UsesDeclared (known : List String) : List Block → Prop
  | [] => True
  | .rule name _ :: rest => UsesDeclared (known ++ [name]) rest
  | .build line :: rest => line.rule ∈ known ∧ UsesDeclared known rest

theorem usesDeclared_append {known : List String} {blocks more : List Block} :
    UsesDeclared known (blocks ++ more) ↔ UsesDeclared known blocks ∧ UsesDeclared (known ++ declaredNames blocks) more := by
  induction blocks generalizing known with
  | nil => simp [UsesDeclared]
  | cons block rest ih =>
    cases block with
    | rule name bindings => simp [UsesDeclared, ih]
    | build line => simp [UsesDeclared, ih, and_assoc]

theorem mem_of_usesDeclared {known : List String} {before after : List Block} {line : BuildLine}
    (h : UsesDeclared known (before ++ .build line :: after)) : line.rule ∈ known ++ declaredNames before :=
  (usesDeclared_append.mp h).2.1

theorem usesDeclared_rules {known : List String} {blocks : List Block} (h : ∀ b ∈ blocks, b.isBuild = false) :
    UsesDeclared known blocks := by
  induction blocks generalizing known with
  | nil => trivial
  | cons block rest ih =>
    obtain ⟨hblock, hrest⟩ := List.forall_mem_cons.mp h
    cases block with
    | rule name bindings => exact ih hrest
    | build line => cases hblock

theorem usesDeclared_builds {known : List String} {named : List NamedEdge} (h : ∀ m ∈ named, m.ruleName ∈ known) :
    UsesDeclared known (named.map NamedEdge.buildBlock) := by
  induction named with
  | nil => trivial
  | cons m rest ih =>
    obtain ⟨hfirst, hrest⟩ := List.forall_mem_cons.mp h
    exact ⟨hfirst, ih hrest⟩

theorem mem_declaredNames {blocks : List Block} {name : String} :
    name ∈ declaredNames blocks ↔ ∃ bindings, .rule name bindings ∈ blocks := by
  constructor
  · intro h
    obtain ⟨block, hblock, hname⟩ := List.mem_filterMap.mp h
    cases block with
    | rule name' bindings =>
      cases hname
      exact ⟨bindings, hblock⟩
    | build line => cases hname
  · rintro ⟨bindings, h⟩
    exact List.mem_filterMap.mpr ⟨_, h, rfl⟩

/-! ### Top-level names -/

theorem declaredNames_targetBlocks (t : TargetRule) (next : Nat) :
    declaredNames (targetBlocks t next) = (List.range' next (ruleCount t)).map anonymousRuleName := by
  unfold targetBlocks ruleCount
  cases t.run <;> cases t.test <;> simp [extraBlocks, List.range'_succ]

theorem usesDeclared_targetBlocks (known : List String) (t : TargetRule) (next : Nat) :
    UsesDeclared known (targetBlocks t next) := by
  unfold targetBlocks
  cases t.run <;> cases t.test <;> simp [UsesDeclared, extraBlocks]

/-- The number of rules of some top-level names. -/
def totalRuleCount : List TargetRule → Nat
  | [] => 0
  | t :: rest => ruleCount t + totalRuleCount rest

theorem declaredNames_targetsBlocks (targets : List TargetRule) (next : Nat) :
    declaredNames (targetsBlocks targets next) = (List.range' next (totalRuleCount targets)).map anonymousRuleName := by
  induction targets generalizing next with
  | nil => rfl
  | cons t rest ih =>
    rw [targetsBlocks, declaredNames_append, ih, declaredNames_targetBlocks, totalRuleCount,
      ← List.map_append, List.range'_append_1]

theorem usesDeclared_targetsBlocks (known : List String) (targets : List TargetRule) (next : Nat) :
    UsesDeclared known (targetsBlocks targets next) := by
  induction targets generalizing known next with
  | nil => trivial
  | cons t rest ih => exact usesDeclared_append.mpr ⟨usesDeclared_targetBlocks known t next, ih _ _⟩

/-! ### The whole file -/

/-- What is known when all edges of a graph have their names. -/
def naming (g : Graph) : Naming := (({} : Naming).nameEdges g.sortedEdges).1

/-- The edges of a graph with the names of their rules. -/
def namedEdges (g : Graph) : List NamedEdge := (({} : Naming).nameEdges g.sortedEdges).2

/-- The names of rules that users have given. -/
def givenNames (g : Graph) : List String := (g.edges.map (·.rule.name)).filter (· ≠ "") ++ Assoc.keys g.rules

/-- The line that is never up to date. -/
def anchorBlock : Block := .build { outs := [anchor], rule := "phony" }

/-- The blocks of the top-level names of a graph. -/
def lastBlocks (g : Graph) : List Block := targetsBlocks g.targetRules (naming g).next

/-- A file names the rules of a graph as it should. -/
structure NamesRules (g : Graph) (file : List Block) : Prop where
  /-- The edges are those of the graph, in order. -/
  edges : (namedEdges g).map (·.edge) = g.sortedEdges
  /-- The build lines are the anchor, those of the edges, and those of the top-level names. -/
  lines : file.filter Block.isBuild =
    anchorBlock :: ((namedEdges g).map NamedEdge.buildBlock ++ (lastBlocks g).filter Block.isBuild)
  /-- Below the anchor, each build line uses a rule that is declared above it and nowhere else. -/
  declared : ∀ {before line after}, file = before ++ .build line :: after →
    before = [] ∧ .build line = anchorBlock ∨
    line.rule ∈ declaredNames before ∧ (declaredNames file).count line.rule = 1
  /-- What is declared is the rule of each edge that uses the name. -/
  block : ∀ m ∈ namedEdges g, ∀ {bindings}, .rule m.ruleName bindings ∈ file → bindings = m.edge.rule.block
  /-- Edges with one name share their rule. -/
  shared : (namedEdges g).Pairwise fun a b => a.ruleName = b.ruleName → SharesRule a.edge b.edge
  /-- A name that has been given is used as it is. -/
  given : ∀ m ∈ namedEdges g, m.edge.rule.name ≠ "" → m.ruleName = m.edge.rule.name
  /-- The names that nobody has given are numbered in the order of their declarations. -/
  madeUp : ∃ count, (declaredNames file).filter (· ∉ givenNames g) = (List.range count).map anonymousRuleName
  /-- Rules without a name have such names. -/
  anonymous : ∀ m ∈ namedEdges g, m.edge.rule.name = "" → m.ruleName ∉ givenNames g
  /-- The rules of top-level names have such names. -/
  targets : ∀ line, .build line ∈ lastBlocks g → line.rule ∉ givenNames g
  /-- Made-up names are never given. -/
  apart : ∀ i, anonymousRuleName i ∉ givenNames g

theorem blocks_eq (g : Graph) :
    blocks g = anchorBlock :: ((namedEdges g).filterMap NamedEdge.ruleBlock? ++
      ((namedEdges g).map NamedEdge.buildBlock ++ lastBlocks g)) := by
  show anchorBlock :: (namedEdges g).filterMap NamedEdge.ruleBlock? ++ (namedEdges g).map NamedEdge.buildBlock ++
    lastBlocks g = _
  rw [List.append_assoc, List.cons_append]

theorem buildBlock_mem_blocks {g : Graph} {m : NamedEdge} (hm : m ∈ namedEdges g) : m.buildBlock ∈ blocks g := by
  rw [blocks_eq]
  exact List.mem_cons_of_mem _ (List.mem_append_right _ (List.mem_append_left _ (List.mem_map_of_mem hm)))

theorem lastBlocks_subset_blocks (g : Graph) : lastBlocks g ⊆ blocks g := by
  intro block hblock
  rw [blocks_eq]
  exact List.mem_cons_of_mem _ (List.mem_append_right _ (List.mem_append_right _ hblock))

theorem map_edge_nameEdges (n : Naming) (edges : List Edge) : (n.nameEdges edges).2.map (·.edge) = edges := by
  induction edges generalizing n with
  | nil => rfl
  | cons e rest ih =>
    have hedge : (n.nameEdge e).2.edge = e := by
      rcases n.nameEdge_cases e with ⟨_, _, -, -, hnamed⟩ | ⟨_, _, hnamed, -⟩ <;> rw [hnamed]
    show (n.nameEdge e).2.edge :: ((n.nameEdge e).1.nameEdges rest).2.map (·.edge) = e :: rest
    rw [hedge, ih]

theorem isBuild_of_mem_ruleBlocks {named : List NamedEdge} :
    ∀ b ∈ named.filterMap NamedEdge.ruleBlock?, b.isBuild = false := by
  intro block hblock
  obtain ⟨m, -, hm⟩ := List.mem_filterMap.mp hblock
  unfold NamedEdge.ruleBlock? at hm
  split at hm
  · cases hm
    rfl
  · cases hm

theorem declaredNames_ruleBlocks (named : List NamedEdge) :
    declaredNames (named.filterMap NamedEdge.ruleBlock?) = declaredIn named := by
  induction named with
  | nil => rfl
  | cons m rest ih =>
    by_cases hdeclares : m.declares = true
    · simp [NamedEdge.ruleBlock?, declaredIn, hdeclares, ih]
    · simp [NamedEdge.ruleBlock?, declaredIn, hdeclares, ih]

theorem declaredNames_buildBlocks (named : List NamedEdge) : declaredNames (named.map NamedEdge.buildBlock) = [] := by
  induction named with
  | nil => rfl
  | cons m rest ih => exact ih

theorem declaredNames_blocks (g : Graph) : declaredNames (blocks g) =
    declaredIn (namedEdges g) ++ (List.range' (naming g).next (totalRuleCount g.targetRules)).map anonymousRuleName := by
  rw [blocks_eq, anchorBlock, declaredNames_build, declaredNames_append, declaredNames_append,
    declaredNames_ruleBlocks, declaredNames_buildBlocks, List.nil_append, lastBlocks, declaredNames_targetsBlocks]

theorem edge_mem {g : Graph} {m : NamedEdge} (hm : m ∈ namedEdges g) : m.edge ∈ g.edges := by
  have hedge : m.edge ∈ (namedEdges g).map (·.edge) := List.mem_map_of_mem hm
  rw [namedEdges, map_edge_nameEdges] at hedge
  exact Graph.mem_sortedEdges.mp hedge

theorem filter_isBuild_blocks (g : Graph) : (blocks g).filter Block.isBuild =
    anchorBlock :: ((namedEdges g).map NamedEdge.buildBlock ++ (lastBlocks g).filter Block.isBuild) := by
  have hrules : ((namedEdges g).filterMap NamedEdge.ruleBlock?).filter Block.isBuild = [] := by
    rw [List.filter_eq_nil_iff]
    intro block hblock
    rw [isBuild_of_mem_ruleBlocks block hblock]
    decide
  have hbuilds : ((namedEdges g).map NamedEdge.buildBlock).filter Block.isBuild =
      (namedEdges g).map NamedEdge.buildBlock := by
    rw [List.filter_eq_self]
    intro block hblock
    obtain ⟨m, -, rfl⟩ := List.mem_map.mp hblock
    rfl
  rw [blocks_eq, List.filter_cons_of_pos rfl, List.filter_append, List.filter_append, hrules, hbuilds, List.nil_append]

section graph

variable {g : Graph} (hg : g.KnowsRules)
include hg

theorem isReserved_of_given {name : String} (h : name ∈ givenNames g) : isReservedRuleName name = false := by
  rcases List.mem_append.mp h with h | h
  · obtain ⟨h, hname⟩ := List.mem_filter.mp h
    obtain ⟨e, he, rfl⟩ := List.mem_map.mp h
    have hknown := hg.edges e he (by simpa using hname)
    exact (hg.names _ (Assoc.mem_keys_of_find? hknown)).2
  · exact (hg.names name h).2

theorem anonymousRuleName_notMem (i : Nat) : anonymousRuleName i ∉ givenNames g := by
  intro h
  have hfree := isReserved_of_given hg h
  rw [isReserved_anonymousRuleName] at hfree
  cases hfree

theorem covers_namedEdges : (naming g).Covers (namedEdges g) := by
  refine Naming.Covers.empty.nameEdges fun e he => ?_
  by_cases hname : e.rule.name = ""
  · rw [hname]
    decide
  · refine isReserved_of_given hg (List.mem_append_left _ ?_)
    have hmem : e ∈ g.edges := Graph.mem_sortedEdges.mp he
    exact List.mem_filter.mpr ⟨List.mem_map_of_mem hmem, by simpa using hname⟩

theorem given_of_named {m : NamedEdge} (hm : m ∈ namedEdges g) (hname : m.edge.rule.name ≠ "") :
    m.ruleName ∈ givenNames g := by
  rw [(covers_namedEdges hg).given m hm hname]
  refine List.mem_append_left _ (List.mem_filter.mpr ⟨List.mem_map_of_mem (edge_mem hm), ?_⟩)
  simpa using hname

/-- Of the names of edges, those that have been given are not reserved, and the others are. -/
theorem isReserved_ruleName {m : NamedEdge} (hm : m ∈ namedEdges g) :
    isReservedRuleName m.ruleName = true ↔ m.ruleName ∉ givenNames g := by
  have hcovers := covers_namedEdges hg
  by_cases hname : m.edge.rule.name = ""
  · obtain ⟨i, -, hmade⟩ := hcovers.madeUp m hm hname
    rw [hmade]
    exact iff_of_true (isReserved_anonymousRuleName i) (anonymousRuleName_notMem hg i)
  · have hgiven := given_of_named hg hm hname
    refine iff_of_false ?_ (not_not_intro hgiven)
    rw [isReserved_of_given hg hgiven]
    decide

theorem rule_eq_of_sharesRule {a b : Edge} (ha : a ∈ g.edges) (hb : b ∈ g.edges) (h : SharesRule a b) :
    a.rule = b.rule := by
  cases h with
  | named hgiven hsame =>
    have hknown := hg.edges a ha hgiven
    rw [hsame, hg.edges b hb (hsame ▸ hgiven)] at hknown
    exact (Option.some.inj hknown).symm
  | object id _ _ hrule _ _ => exact hrule

theorem block_eq_of_ruleName {a b : NamedEdge} (ha : a ∈ namedEdges g) (hb : b ∈ namedEdges g)
    (heq : a.ruleName = b.ruleName) : a.edge.rule.block = b.edge.rule.block := by
  have hblocks : (namedEdges g).Pairwise fun a b => a.ruleName = b.ruleName → a.edge.rule.block = b.edge.rule.block := by
    refine (covers_namedEdges hg).apart.imp_of_mem fun {a b} ha hb hshares heq => ?_
    obtain ⟨key, hkey, hkey'⟩ := hshares heq
    rw [rule_eq_of_sharesRule hg (edge_mem ha) (edge_mem hb) (sharesRule_of_key hkey hkey')]
  exact eq_of_pairwise hblocks ha hb heq

theorem ruleName_notMem_last {m : NamedEdge} (hm : m ∈ namedEdges g) :
    m.ruleName ∉ (List.range' (naming g).next (totalRuleCount g.targetRules)).map anonymousRuleName := by
  intro h
  obtain ⟨i, hi, heq⟩ := List.mem_map.mp h
  have hle : (naming g).next ≤ i := (List.mem_range'_1.mp hi).1
  by_cases hname : m.edge.rule.name = ""
  · obtain ⟨j, hj, hmade⟩ := (covers_namedEdges hg).madeUp m hm hname
    have hsame := anonymousRuleName_injective (heq.trans hmade)
    omega
  · have hgiven := given_of_named hg hm hname
    rw [← heq] at hgiven
    exact anonymousRuleName_notMem hg i hgiven

theorem nodup_declaredNames : (declaredNames (blocks g)).Nodup := by
  rw [declaredNames_blocks]
  refine List.nodup_append.mpr ⟨(covers_namedEdges hg).nodup, ?_, fun name hname other hother heq => ?_⟩
  · exact (List.nodup_range' 1).map anonymousRuleName_injective
  · obtain ⟨m, hm, rfl⟩ := List.mem_map.mp hname
    exact ruleName_notMem_last hg (List.mem_filter.mp hm).1 (heq ▸ hother)

theorem usesDeclared_blocks : UsesDeclared [] ((namedEdges g).filterMap NamedEdge.ruleBlock? ++
    ((namedEdges g).map NamedEdge.buildBlock ++ lastBlocks g)) := by
  refine usesDeclared_append.mpr ⟨usesDeclared_rules isBuild_of_mem_ruleBlocks,
    usesDeclared_append.mpr ⟨?_, ?_⟩⟩
  · refine usesDeclared_builds fun m hm => ?_
    rw [declaredNames_ruleBlocks, List.nil_append]
    exact (covers_namedEdges hg).declared m hm
  · exact usesDeclared_targetsBlocks _ _ _

theorem declared_of_build {before after : List Block} {line : BuildLine}
    (hfile : blocks g = before ++ .build line :: after) :
    before = [] ∧ .build line = anchorBlock ∨
      line.rule ∈ declaredNames before ∧ (declaredNames (blocks g)).count line.rule = 1 := by
  cases before with
  | nil =>
    rw [blocks_eq, List.nil_append] at hfile
    exact .inl ⟨rfl, (List.cons.inj hfile).1.symm⟩
  | cons first rest =>
    obtain ⟨rfl, hrest⟩ := List.cons.inj ((blocks_eq g).symm.trans hfile)
    have huses := usesDeclared_blocks hg
    rw [hrest] at huses
    have habove : line.rule ∈ declaredNames (anchorBlock :: rest) := mem_of_usesDeclared huses
    have hmem : line.rule ∈ declaredNames (blocks g) := by
      rw [hfile, declaredNames_append]
      exact List.mem_append_left _ habove
    exact .inr ⟨habove, List.count_eq_one_of_mem (nodup_declaredNames hg) hmem⟩

theorem bindings_of_rule {m : NamedEdge} (hm : m ∈ namedEdges g) {bindings : List (String × String)}
    (hmem : .rule m.ruleName bindings ∈ blocks g) : bindings = m.edge.rule.block := by
  rw [blocks_eq] at hmem
  rcases List.mem_cons.mp hmem with hmem | hmem
  · cases hmem
  rcases List.mem_append.mp hmem with hmem | hmem
  · obtain ⟨d, hd, hblock⟩ := List.mem_filterMap.mp hmem
    unfold NamedEdge.ruleBlock? at hblock
    split at hblock
    · have hparts := Block.rule.inj (Option.some.inj hblock)
      rw [← hparts.2]
      exact block_eq_of_ruleName hg hd hm hparts.1
    · cases hblock
  rcases List.mem_append.mp hmem with hmem | hmem
  · obtain ⟨d, -, hblock⟩ := List.mem_map.mp hmem
    cases hblock
  · have hlast : m.ruleName ∈ declaredNames (lastBlocks g) := mem_declaredNames.mpr ⟨bindings, hmem⟩
    rw [lastBlocks, declaredNames_targetsBlocks] at hlast
    exact absurd hlast (ruleName_notMem_last hg hm)

theorem filter_declaredIn : (declaredIn (namedEdges g)).filter (· ∉ givenNames g) =
    (List.range (naming g).next).map anonymousRuleName := by
  rw [← (covers_namedEdges hg).counted]
  refine List.filter_congr fun name hname => ?_
  obtain ⟨m, hm, rfl⟩ := List.mem_map.mp hname
  rw [Bool.eq_iff_iff, decide_eq_true_iff]
  exact (isReserved_ruleName hg (List.mem_filter.mp hm).1).symm

theorem filter_anonymousRuleName (numbers : List Nat) : (numbers.map anonymousRuleName).filter (· ∉ givenNames g) =
    numbers.map anonymousRuleName := by
  rw [List.filter_eq_self]
  intro name hname
  obtain ⟨i, -, rfl⟩ := List.mem_map.mp hname
  exact decide_eq_true (anonymousRuleName_notMem hg i)

theorem filter_declaredNames : (declaredNames (blocks g)).filter (· ∉ givenNames g) =
    (List.range ((naming g).next + totalRuleCount g.targetRules)).map anonymousRuleName := by
  have hrange (n count : Nat) : List.range n ++ List.range' n count = List.range (n + count) := by
    have happend := List.range'_append_1 (s := 0) (m := n) (n := count)
    rwa [Nat.zero_add, ← List.range_eq_range', ← List.range_eq_range'] at happend
  rw [declaredNames_blocks, List.filter_append, filter_declaredIn hg, filter_anonymousRuleName hg, ← List.map_append,
    hrange]

theorem rule_notMem_of_last {line : BuildLine} (hline : .build line ∈ lastBlocks g) : line.rule ∉ givenNames g := by
  obtain ⟨before, after, hsplit⟩ := List.append_of_mem hline
  have huses : UsesDeclared [] (lastBlocks g) := usesDeclared_targetsBlocks _ _ _
  rw [hsplit] at huses
  have hmem : line.rule ∈ declaredNames (lastBlocks g) := by
    rw [hsplit, declaredNames_append]
    exact List.mem_append_left _ (mem_of_usesDeclared huses)
  rw [lastBlocks, declaredNames_targetsBlocks] at hmem
  obtain ⟨i, -, hmade⟩ := List.mem_map.mp hmem
  rw [← hmade]
  exact anonymousRuleName_notMem hg i

/-- **The blocks of a graph that knows its rules name them as they should.** -/
theorem namesRules : NamesRules g (blocks g) := by
  have hcovers := covers_namedEdges hg
  constructor
  case edges => exact map_edge_nameEdges _ _
  case lines => exact filter_isBuild_blocks g
  case declared => exact declared_of_build hg
  case block => exact fun m hm _ hmem => bindings_of_rule hg hm hmem
  case shared =>
    refine hcovers.apart.imp fun hshares heq => ?_
    obtain ⟨key, hkey, hkey'⟩ := hshares heq
    exact sharesRule_of_key hkey hkey'
  case given => exact hcovers.given
  case madeUp => exact ⟨_, filter_declaredNames hg⟩
  case anonymous =>
    intro m hm hname
    obtain ⟨i, -, hmade⟩ := hcovers.madeUp m hm hname
    rw [hmade]
    exact anonymousRuleName_notMem hg i
  case targets => exact fun line hline => rule_notMem_of_last hg hline
  case apart => exact anonymousRuleName_notMem hg

end graph

end Ninja

/-! ### Reachable sessions -/

namespace Session

/-- The graph goes on to know its rules. -/
def KeepsRules (s t : Session) : Prop := s.graph.KnowsRules → t.graph.KnowsRules

namespace KeepsRules

theorem of_eq {s t : Session} (hedges : t.graph.edges = s.graph.edges) (hrules : t.graph.rules = s.graph.rules) :
    KeepsRules s t := fun h => h.of_eq hedges hrules

theorem stable : Stable KeepsRules where
  refl _ := id
  trans hst htu h := htu (hst h)
  registry _ _ := of_eq rfl rfl
  payload _ _ _ := of_eq rfl rfl
  reports _ _ := of_eq rfl rfl
  executables _ _ := of_eq rfl rfl
  built _ _ := of_eq rfl rfl
  dependencies _ _ := of_eq rfl rfl
  targetRules _ _ _ := of_eq rfl rfl
  startTarget _ _ _ := of_eq rfl rfl
  finishTarget _ := of_eq rfl rfl
  declare _ _ _ hdeclare h := h.declare hdeclare
  accept _ _ _ _ _ hknown haccept h := h.accept hknown haccept
  traced s label t hst := by
    have hpush : KeepsRules s (s.push label) := of_eq rfl rfl
    have hpop : KeepsRules t t.pop := of_eq rfl rfl
    exact fun h => hpop (hst (hpush h))

end KeepsRules

theorem keepsRules_applyAll (p : Project) (s : Session) (operations : List Operation) :
    s.KeepsRules (Operation.applyAll p s operations) :=
  Operation.keeps_applyAll KeepsRules.stable (fun _ _ => .of_eq rfl rfl) (fun _ => .of_eq rfl rfl)
    (fun _ _ => .of_eq rfl rfl) p s operations

end Session

/-- **The Ninja file of every session that operations lead to names its rules as it should**: each rule is declared
once, above the build lines that use it, and what is declared is the rule of every edge that uses the name. Edges share
a declaration only if they share the rule, and the made-up names are numbered in the order of their declarations and
are never those that users have given. -/
theorem operations_namesRules (p : Project) (settings : Settings) (operations : List Operation) :
    let g := (Operation.applyAll p (p.start settings) operations).graph
    Ninja.NamesRules g (Ninja.blocks g) := by
  intro g
  have hstart : (p.start settings).graph.KnowsRules := Graph.KnowsRules.empty _
  exact Ninja.namesRules (Session.keepsRules_applyAll p (p.start settings) operations hstart)

end BuildPlan
