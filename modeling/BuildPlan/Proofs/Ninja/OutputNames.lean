import BuildPlan.Proofs.Build.TargetRules
import BuildPlan.Proofs.Ninja.RuleNames

/-!
# The outputs of a Ninja file

Ninja refuses a file that declares an output twice. The output table of a graph keeps two edges from making the same
file, and that is all: what else has to hold for each output to be declared once is `DeclaresOnce`, and
`finalGraph_outputNames` says that nothing less will do. An output that a step names twice is not in the table yet when
the step is checked, so such a step is accepted: `output_can_repeat`.
-/

namespace BuildPlan

namespace Ninja

/-! ### The outputs of some blocks -/

/-- The outputs of the build lines among some blocks, in their order. -/
def outputNames : List Block → List String
  | [] => []
  | .rule _ _ :: rest => outputNames rest
  | .build line :: rest => line.outs ++ outputNames rest

theorem outputNames_append (blocks more : List Block) :
    outputNames (blocks ++ more) = outputNames blocks ++ outputNames more := by
  induction blocks with
  | nil => rfl
  | cons block rest ih => cases block <;> simp [outputNames, ih]

theorem outputNames_rules {blocks : List Block} (h : ∀ b ∈ blocks, b.isBuild = false) : outputNames blocks = [] := by
  induction blocks with
  | nil => rfl
  | cons block rest ih =>
    obtain ⟨hblock, hrest⟩ := List.forall_mem_cons.mp h
    cases block with
    | rule name bindings => exact ih hrest
    | build line => cases hblock

theorem outputNames_builds (named : List NamedEdge) : outputNames (named.map NamedEdge.buildBlock) =
    (named.map (·.edge)).flatMap fun e => e.outs.map Path.absolute := by
  induction named with
  | nil => rfl
  | cons m rest ih =>
    rw [List.map_cons, List.map_cons, List.flatMap_cons, ← ih]
    rfl

/-! ### Top-level names -/

/-- The further names of a target. -/
def extraNames (t : TargetRule) : List String :=
  (if t.run.isSome then [t.name ++ "#run"] else []) ++ if t.test.isSome then [t.name ++ "#test"] else []

/-- The names under which a target can be built, run and tested. -/
def topNames (t : TargetRule) : List String := t.name :: extraNames t

theorem outputNames_targetsBlocks (targets : List TargetRule) (next : Nat) :
    outputNames (targetsBlocks targets next) = targets.flatMap topNames := by
  have hblocks : ∀ t next, outputNames (targetBlocks t next) = topNames t := by
    intro t next
    unfold targetBlocks topNames extraNames
    cases t.run <;> cases t.test <;> simp [outputNames, extraBlocks, String.append_assoc]
  induction targets generalizing next with
  | nil => rfl
  | cons t rest ih => rw [targetsBlocks, outputNames_append, hblocks, ih, List.flatMap_cons]

theorem outputNames_blocks (g : Graph) : outputNames (blocks g) =
    anchor :: ((g.sortedEdges.flatMap fun e => e.outs.map Path.absolute) ++ g.targetRules.flatMap topNames) := by
  rw [blocks_eq, anchorBlock, outputNames, outputNames_append, outputNames_append,
    outputNames_rules isBuild_of_mem_ruleBlocks, outputNames_builds, lastBlocks, outputNames_targetsBlocks, namedEdges,
    map_edge_nameEdges]
  rfl

theorem exists_of_mem_extraNames {t : TargetRule} {name : String} (h : name ∈ extraNames t) :
    ∃ extra ∈ ["#run", "#test"], name = t.name ++ extra := by
  rcases List.mem_append.mp h with h | h
  · obtain ⟨-, h⟩ := List.mem_ite_nil_right.mp h
    exact ⟨_, List.mem_cons_self, List.mem_singleton.mp h⟩
  · obtain ⟨-, h⟩ := List.mem_ite_nil_right.mp h
    exact ⟨_, List.mem_cons_of_mem _ List.mem_cons_self, List.mem_singleton.mp h⟩

/-- Further names differ if the names of the targets do, or if they are not of one sort. -/
theorem append_extra_inj {name other extra extra' : String} (h : extra ∈ ["#run", "#test"])
    (h' : extra' ∈ ["#run", "#test"]) (heq : name ++ extra = other ++ extra') : name = other ∧ extra = extra' := by
  have hlast := congrArg (fun text : String => text.toList.getLast?) heq
  simp only [List.mem_cons, List.not_mem_nil, or_false] at h h'
  rcases h with rfl | rfl <;> rcases h' with rfl | rfl
  · exact ⟨(String.append_left_inj _).mp heq, rfl⟩
  · simp at hlast
  · simp at hlast
  · exact ⟨(String.append_left_inj _).mp heq, rfl⟩

theorem name_notMem_extraNames (t : TargetRule) : t.name ∉ extraNames t := by
  intro h
  obtain ⟨extra, hextra, heq⟩ := exists_of_mem_extraNames h
  have hlength := congrArg (·.toList.length) heq
  simp only [String.toList_append, List.length_append] at hlength
  simp only [List.mem_cons, List.not_mem_nil, or_false] at hextra
  rcases hextra with rfl | rfl <;> simp at hlength

theorem nodup_topNames (t : TargetRule) : (topNames t).Nodup := by
  refine List.nodup_cons.mpr ⟨name_notMem_extraNames t, ?_⟩
  have hne : t.name ++ "#run" ≠ t.name ++ "#test" := fun heq => by simp at heq
  unfold extraNames
  split <;> split <;> simp [hne]

theorem name_eq_of_mem_extraNames {t other : TargetRule} {name : String} (h : name ∈ extraNames t)
    (h' : name ∈ extraNames other) : t.name = other.name := by
  obtain ⟨extra, hextra, rfl⟩ := exists_of_mem_extraNames h
  obtain ⟨extra', hextra', heq⟩ := exists_of_mem_extraNames h'
  exact (append_extra_inj hextra hextra' heq).1

theorem anchor_notMem_topNames {t : TargetRule} (h : isExported t.name = true) : anchor ∉ topNames t := by
  intro hmem
  rcases List.mem_cons.mp hmem with heq | hmem
  · rw [← heq] at h
    exact absurd h (by decide)
  · obtain ⟨extra, hextra, heq⟩ := exists_of_mem_extraNames hmem
    have hmark : '#' ∈ anchor.toList := by
      rw [heq, String.toList_append]
      refine List.mem_append_right _ ?_
      simp only [List.mem_cons, List.not_mem_nil, or_false] at hextra
      rcases hextra with rfl | rfl <;> decide
    exact absurd hmark (by decide)

/-! ### Each output once -/

/-- Nothing in a graph makes its file declare an output twice. -/
structure DeclaresOnce (g : Graph) : Prop where
  /-- No edge makes the same file twice. -/
  edges : ∀ e ∈ g.edges, (e.outs.map Path.absolute).Nodup
  /-- No edge makes what the anchor or a target is called. -/
  anchor : ∀ e ∈ g.edges, ∀ out ∈ e.outs, out.absolute ≠ Ninja.anchor
  apart : ∀ e ∈ g.edges, ∀ out ∈ e.outs, ∀ t ∈ g.targetRules, out.absolute ∉ topNames t
  targets : (g.targetRules.map (·.name)).Nodup
  /-- No target is called what another one is run or tested as. -/
  extras : ∀ t ∈ g.targetRules, ∀ other ∈ g.targetRules, t.name ∉ extraNames other

theorem disjoint_topNames_iff {t other : TargetRule} :
    (topNames t).Disjoint (topNames other) ↔
      t.name ≠ other.name ∧ t.name ∉ extraNames other ∧ other.name ∉ extraNames t := by
  constructor
  · intro h
    refine ⟨fun heq => h List.mem_cons_self (heq ▸ List.mem_cons_self), fun hmem => ?_, fun hmem => ?_⟩
    · exact h List.mem_cons_self (List.mem_cons_of_mem _ hmem)
    · exact h (List.mem_cons_of_mem _ hmem) List.mem_cons_self
  · rintro ⟨hne, hname, hother⟩ x hx hx'
    rcases List.mem_cons.mp hx with rfl | hx <;> rcases List.mem_cons.mp hx' with hx' | hx'
    · exact hne hx'
    · exact hname hx'
    · exact hother (hx' ▸ hx)
    · exact hne (name_eq_of_mem_extraNames hx hx')

theorem pairwise_disjoint_edges {g : Graph} (h : g.WellFormed) : g.sortedEdges.Pairwise fun a b =>
    (a.outs.map Path.absolute).Disjoint (b.outs.map Path.absolute) := by
  refine h.pairwise_sortedEdges.imp_of_mem fun {a b} ha hb hlt x hx hx' => ?_
  obtain ⟨out, hout, rfl⟩ := List.mem_map.mp hx
  obtain ⟨out', hout', heq⟩ := List.mem_map.mp hx'
  have hfor := h.edgeFor?_eq_some (Graph.mem_sortedEdges.mp hb) hout'
  rw [heq, h.edgeFor?_eq_some (Graph.mem_sortedEdges.mp ha) hout] at hfor
  rw [Option.some.inj hfor] at hlt
  exact String.lt_irrefl _ hlt

theorem mem_edgeNames {g : Graph} {name : String} :
    (name ∈ g.sortedEdges.flatMap fun e => e.outs.map Path.absolute) ↔
      ∃ e ∈ g.edges, ∃ out ∈ e.outs, out.absolute = name := by
  simp [Graph.mem_sortedEdges]

theorem pairwise_disjoint_targets_iff {targets : List TargetRule} :
    targets.Pairwise (fun t other => (topNames t).Disjoint (topNames other)) ↔
      (targets.map (·.name)).Nodup ∧ ∀ t ∈ targets, ∀ other ∈ targets, t.name ∉ extraNames other := by
  constructor
  · intro h
    have hextras : targets.Pairwise fun t other => t.name ∉ extraNames other :=
      h.imp fun hdisjoint => (disjoint_topNames_iff.mp hdisjoint).2.1
    have hflip : targets.Pairwise fun t other => other.name ∉ extraNames t :=
      h.imp fun hdisjoint => (disjoint_topNames_iff.mp hdisjoint).2.2
    refine ⟨List.pairwise_map.mpr (h.imp fun hdisjoint => (disjoint_topNames_iff.mp hdisjoint).1), ?_⟩
    exact fun t ht other hother =>
      hextras.forall_of_forall_of_flip (fun t _ => name_notMem_extraNames t) hflip ht hother
  · rintro ⟨hnodup, hextras⟩
    refine (List.pairwise_map.mp hnodup).imp_of_mem fun {t other} ht hother hne => ?_
    exact disjoint_topNames_iff.mpr ⟨hne, hextras t ht other hother, hextras other hother t ht⟩

/-- Where no two edges make the same file, each output is declared once exactly if `DeclaresOnce` holds. -/
theorem nodup_outputNames_iff {g : Graph} (h : g.WellFormed)
    (hexported : ∀ t ∈ g.targetRules, isExported t.name = true) :
    (outputNames (blocks g)).Nodup ↔ DeclaresOnce g := by
  have hanchor : anchor ∉ g.targetRules.flatMap topNames := by
    intro hmem
    obtain ⟨t, ht, hmem⟩ := List.mem_flatMap.mp hmem
    exact anchor_notMem_topNames (hexported t ht) hmem
  rw [outputNames_blocks, List.nodup_cons, List.nodup_append', List.nodup_flatMap, List.nodup_flatMap]
  constructor
  · rintro ⟨hfirst, ⟨hedges, -⟩, ⟨-, htargets⟩, happart⟩
    obtain ⟨hnodup, hextras⟩ := pairwise_disjoint_targets_iff.mp htargets
    refine ⟨fun e he => hedges e (Graph.mem_sortedEdges.mpr he), fun e he out hout heq => ?_,
      fun e he out hout t ht hmem => ?_, hnodup, hextras⟩
    · exact hfirst (List.mem_append_left _ (mem_edgeNames.mpr ⟨e, he, out, hout, heq⟩))
    · exact happart (mem_edgeNames.mpr ⟨e, he, out, hout, rfl⟩) (List.mem_flatMap.mpr ⟨t, ht, hmem⟩)
  · intro honce
    refine ⟨fun hmem => ?_, ⟨fun e he => honce.edges e (Graph.mem_sortedEdges.mp he), pairwise_disjoint_edges h⟩,
      ⟨fun t _ => nodup_topNames t, pairwise_disjoint_targets_iff.mpr ⟨honce.targets, honce.extras⟩⟩,
      fun name hedge htop => ?_⟩
    · obtain ⟨e, he, out, hout, heq⟩ := mem_edgeNames.mp ((List.mem_append.mp hmem).resolve_right hanchor)
      exact honce.anchor e he out hout heq
    · obtain ⟨e, he, out, hout, rfl⟩ := mem_edgeNames.mp hedge
      obtain ⟨t, ht, hmem⟩ := List.mem_flatMap.mp htop
      exact honce.apart e he out hout t ht hmem

end Ninja

/-! ### A whole run -/

namespace Session

/-- The rules of targets go on to be those of exported ones. -/
def KeepsExported (s t : Session) : Prop :=
  (∀ rule ∈ s.graph.targetRules, isExported rule.name = true) →
    ∀ rule ∈ t.graph.targetRules, isExported rule.name = true

theorem KeepsExported.of_eq {s t : Session} (h : t.graph.targetRules = s.graph.targetRules) : KeepsExported s t :=
  fun hs => h ▸ hs

theorem KeepsExported.stable : Stable KeepsExported where
  refl _ := id
  trans hst htu h := htu (hst h)
  registry _ _ := .of_eq rfl
  payload _ _ _ := .of_eq rfl
  reports _ _ := .of_eq rfl
  executables _ _ := .of_eq rfl
  built _ _ := .of_eq rfl
  dependencies _ _ := .of_eq rfl
  targetRules _ _ hexported h := by
    refine List.forall_mem_append.mpr ⟨h, fun other hother => ?_⟩
    rw [List.mem_singleton.mp hother]
    exact hexported
  startTarget _ _ _ := .of_eq rfl
  finishTarget _ := .of_eq rfl
  declare s rule graph h := by
    obtain ⟨rules, rfl⟩ := Graph.declare_eq h
    exact .of_eq rfl
  accept s statement origin graph _ _ h := by
    rcases Graph.accept_cases h with ⟨_, _, -, -, -, rfl⟩ | ⟨-, rfl⟩ <;> exact .of_eq rfl
  traced _ _ _ h := h

end Session

theorem apply_of_finalGraph {p : Project} {s s' : Session} {g : Graph} (h : finalGraph p s = .ok g s') :
    s' = Operation.apply p s (.perform nestingLimit none .processTargets) ∧ g = s'.graph := by
  obtain ⟨_, t, hdiscard, hget⟩ := bind_eq_ok_iff.mp h
  obtain ⟨reply, hperform⟩ := discard_eq_ok_iff.mp hdiscard
  cases hget
  exact ⟨(endState_of_ok hperform).symm, rfl⟩

/-- **A run over all targets declares each output of its Ninja file once exactly if `DeclaresOnce` holds of its graph**,
whatever its programs do. That no two edges make the same file needs no saying, nor that the anchor is not the name of a
target; and if no build handles targets itself, neither does it need saying that no two targets have the same name. -/
theorem finalGraph_outputNames (p : Project) (settings : Settings) (g : Graph) (s : Session)
    (hrun : finalGraph p (p.start settings) = .ok g s) :
    ((Ninja.outputNames (Ninja.blocks g)).Nodup ↔ Ninja.DeclaresOnce g) ∧
    (p.MapsToTargets → (g.targetRules.map (·.name)).Nodup) := by
  obtain ⟨hs, rfl⟩ := apply_of_finalGraph hrun
  refine ⟨Ninja.nodup_outputNames_iff ?_ ?_, fun hp => (names_of_finalGraph hp rfl hrun).1⟩
  · rw [hs]
    exact (Session.extends_apply p (p.start settings) _ (Graph.WellFormed.empty _)).1
  · rw [hs]
    exact Operation.keeps_apply Session.KeepsExported.stable (fun _ _ => .of_eq rfl) (fun _ => .of_eq rfl)
      (fun _ _ => .of_eq rfl) p (p.start settings) _ nofun

/-- A target with one step, which makes a file and some more. -/
def makes (out : String) (outs : List String) : Project where
  workspace := { sourceDir := "/src", buildRoot := "/out/build", hash := "H" }
  entities := [.custom { build := [.step { out := some (.out out), outs := outs.map .out, command := [.literal "cc"] }] }]
  targets := [("Gen", 0)]

theorem finalGraph_outputNames_sample : ∃ g s, finalGraph (makes "a" ["b"]) ((makes "a" ["b"]).start {}) = .ok g s ∧
    Ninja.DeclaresOnce g := by
  have hnames : (answer (finalGraph (makes "a" ["b"])) ((makes "a" ["b"]).start {})).toOption.map
      (fun g => Ninja.outputNames (Ninja.blocks g)) =
      some ["__phony__", "/out/build-H/b", "/out/build-H/a", "Gen"] := by decide +kernel
  obtain ⟨g, s, hrun, hnames⟩ := exists_of_answer hnames
  refine ⟨g, s, hrun, (finalGraph_outputNames _ {} g s hrun).1.mp ?_⟩
  rw [hnames]
  decide

/-- A step that names one of its outputs twice is accepted, and the file declares this output twice. -/
theorem output_can_repeat : ∃ g s,
    finalGraph (makes "a" ["a", "b"]) ((makes "a" ["a", "b"]).start {}) = .ok g s ∧
      Ninja.outputNames (Ninja.blocks g) = ["__phony__", "/out/build-H/a", "/out/build-H/b", "/out/build-H/a", "Gen"] ∧
      ¬(Ninja.outputNames (Ninja.blocks g)).Nodup := by
  have hnames : (answer (finalGraph (makes "a" ["a", "b"])) ((makes "a" ["a", "b"]).start {})).toOption.map
      (fun g => Ninja.outputNames (Ninja.blocks g)) =
      some ["__phony__", "/out/build-H/a", "/out/build-H/b", "/out/build-H/a", "Gen"] := by decide +kernel
  obtain ⟨g, s, hrun, hnames⟩ := exists_of_answer hnames
  refine ⟨g, s, hrun, hnames, ?_⟩
  rw [hnames]
  decide

end BuildPlan
