import BuildPlan.Proofs.Build.Forgetting
import BuildPlan.Proofs.Build.Processing

/-!
# The rules of targets

What a run over all targets leaves as rules, if no build handles targets itself: one for each exported target, in the
order of their names. A rule has a command for what its target can do, and what it needs is exported targets. The last
holds although a program names the things that it needs in ways of its own: each need is checked when it arises.
-/

namespace BuildPlan

/-- The project has an exported target with this name. -/
def Project.Exports (p : Project) (name : String) : Prop := name ∈ Assoc.keys p.targets ∧ isExported name = true

theorem Project.exports_of_targetName? {p : Project} {id : Nat} {name : String} (h : p.targetName? id = some name)
    (hexported : isExported name = true) : p.Exports name := by
  obtain ⟨entry, hentry, rfl⟩ := Option.map_eq_some_iff.mp h
  exact ⟨List.mem_map_of_mem (List.mem_reverse.mp (List.mem_of_find?_eq_some hentry)), hexported⟩

/-- The rule is that of an exported target. -/
structure Project.Describes (p : Project) (rule : TargetRule) : Prop where
  exports : p.Exports rule.name
  /-- The target can be run if the rule runs it, and tested if the rule tests it. -/
  commands : ∃ id e, Assoc.find? p.targets rule.name = some id ∧ p.entities[id]? = some e ∧
    rule.run.isSome = e.isRunnable ∧ rule.test.isSome = e.isTestable
  dependencies : ∀ name ∈ rule.dependencies, p.Exports name

namespace Session

variable {p : Project} {within : Option Package → Action → SessionM Unit} {name : String} {id depth : Nat}
  {s s' t : Session}

/-! ### What a build needs -/

/-- What the current target needs of more is exported targets, and no rule of a target is made. -/
def NeedsExported (p : Project) (s t : Session) : Prop :=
  t.graph.targetRules = s.graph.targetRules ∧
    ∀ name ∈ t.graph.dependencies, name ∈ s.graph.dependencies ∨ p.Exports name

namespace NeedsExported

theorem of_eq (hrules : t.graph.targetRules = s.graph.targetRules)
    (hdependencies : t.graph.dependencies = s.graph.dependencies) : NeedsExported p s t :=
  ⟨hrules, fun _ hname => .inl (hdependencies ▸ hname)⟩

theorem lasting : Lasting (NeedsExported p) where
  refl _ := of_eq rfl rfl
  trans := by
    rintro s t u ⟨hrules, hneeds⟩ ⟨hrules', hneeds'⟩
    exact ⟨hrules'.trans hrules, fun name hname => (hneeds' name hname).elim (hneeds name) .inr⟩

theorem onRegistry {α : Type} (operation : RegistryM α) : Keeps (NeedsExported p) (onRegistry operation) := fun s =>
  have hgraph := keeps_graph_onRegistry operation s
  of_eq (congrArg _ hgraph) (congrArg _ hgraph)

theorem building (p : Project) : Building p (Keeps (NeedsExported p)) where
  toReading := Keeps.reading lasting
  check _ := onRegistry _
  step _ _ := onRegistry _
  ruleStep _ _ := onRegistry _
  register _ := onRegistry _
  flagValue _ := (onRegistry _).map lasting _
  addStep step s := by
    obtain ⟨hdependencies, hrules, -⟩ := keeps_aside_addStep p.workspace step s
    exact of_eq hrules hdependencies
  report h := (Keeps.of_discard h).bind lasting fun _ _ => of_eq rfl rfl
  link _ _ _ := of_eq rfl rfl
  mark _ _ := of_eq rfl rfl
  dependency := by
    intro id name hname hexported s
    refine ⟨rfl, fun other hother => ?_⟩
    rcases List.mem_append.mp hother with hother | hother
    · exact .inl hother
    · rw [List.mem_singleton.mp hother]
      exact .inr (Project.exports_of_targetName? hname hexported)
  traced label x h := by
    intro s
    rw [endState_traced]
    exact h (s.push label)
  attempt h := keeps_attempt h

theorem writeBuildFile (directory fileName : String) :
    Keeps (NeedsExported p) (writeBuildFile directory fileName) :=
  keeps_writeBuildFile lasting (fun _ _ => of_eq rfl rfl) directory fileName

end NeedsExported

section needsExported

variable (hhandles : p.HandlesNoTargets id) (depth : Nat)
include hhandles

theorem needsExported_buildEntity : Keeps (NeedsExported p) (buildEntity p (reported (perform p depth)) id) :=
  (NeedsExported.building p).buildEntity_of_handlesNoTargets
    NeedsExported.writeBuildFile hhandles depth

variable {e : Entity} (he : p.entities[id]? = some e)
include he

theorem needsExported_shownFiles (inputs : List Path) :
    Keeps (NeedsExported p) (shownFiles p (reported (perform p depth)) e inputs) :=
  (NeedsExported.building p).shownFiles_of_handlesNoTargets
    NeedsExported.writeBuildFile hhandles depth he inputs

theorem needsExported_targetRule (name : String) :
    Keeps (NeedsExported p) (targetRule p (reported (perform p depth)) name id e) :=
  (NeedsExported.building p).makeRule_of_handlesNoTargets
    NeedsExported.writeBuildFile hhandles depth he name

end needsExported

/-! ### The rule of one target -/

theorem isSome_of_commandIf {present : Bool} {command : SessionM String} {answer : Option String}
    (h : commandIf present command s = .ok answer s') : answer.isSome = present := by
  cases present with
  | true =>
    obtain ⟨line, -, rfl⟩ := commandIf_eq_ok h
    rfl
  | false =>
    cases h
    rfl

theorem describes_of_handleTarget (hid : Assoc.find? p.targets name = some id) (hhandles : p.HandlesNoTargets id)
    (h : handleTarget p (reported (perform p depth)) name id s = .ok () s') :
    ∃ rules, s'.graph.targetRules = s.graph.targetRules ++ rules ∧
      rules.map (·.name) = [name].filter isExported ∧ ∀ rule ∈ rules, p.Describes rule := by
  obtain ⟨reply, t, hbuild, hrule, hnone⟩ := handleTarget_eq_ok h
  obtain ⟨hrules, hneeds⟩ := (needsExported_buildEntity hhandles depth).ok hbuild
  have hbefore : t.graph.targetRules = s.graph.targetRules := hrules
  by_cases hexported : isExported name = true
  · obtain ⟨e, rule, u, he, hmake, rfl⟩ := hrule hexported
    obtain ⟨hmade, -⟩ := (needsExported_targetRule hhandles depth he name).ok hmake
    obtain ⟨hname, -, files, v, _, w, hfiles, -, hdependencies, hrun, htest⟩ := targetRule_eq_ok hmake
    obtain ⟨-, hfileNeeds⟩ := (needsExported_shownFiles hhandles depth he t.pop.graph.sortedFrontier).ok hfiles
    have hexports : p.Exports name := ⟨Assoc.mem_keys_of_find? hid, hexported⟩
    refine ⟨[rule], ?_, by simp [hname, hexported], fun other hother => ?_⟩
    · show u.graph.targetRules ++ [rule] = _
      rw [hmade, ← hbefore]
      rfl
    · rw [List.mem_singleton.mp hother]
      refine ⟨hname ▸ hexports, ⟨id, e, hname ▸ hid, he, isSome_of_commandIf hrun, isSome_of_commandIf htest⟩, ?_⟩
      intro needed hneeded
      rw [hdependencies] at hneeded
      rcases hfileNeeds needed hneeded with hbuilt | hneeded
      · -- the target needed nothing when its build began
        exact (hneeds needed hbuilt).resolve_left List.not_mem_nil
      · exact hneeded
  · refine ⟨[], ?_, by simp [hexported], nofun⟩
    rw [hnone (Bool.eq_false_iff.mpr hexported), List.append_nil]
    exact hbefore

/-! ### The rules of all targets -/

theorem describes_of_forM (hp : p.MapsToTargets) {names : List String}
    (hnames : ∀ name ∈ names, name ∈ Assoc.keys p.targets)
    (h : names.forM (processTarget p (reported (perform p depth))) s = .ok () s') :
    ∃ rules, s'.graph.targetRules = s.graph.targetRules ++ rules ∧
      rules.map (·.name) = names.filter isExported ∧ ∀ rule ∈ rules, p.Describes rule := by
  induction names generalizing s with
  | nil =>
    cases h
    exact ⟨[], (List.append_nil _).symm, rfl, nofun⟩
  | cons name rest ih =>
    obtain ⟨hname, hrest⟩ := List.forall_mem_cons.mp hnames
    obtain ⟨id, hid⟩ := Assoc.exists_find?_of_mem_keys hname
    obtain ⟨_, t, hfirst, hlater⟩ := bind_eq_ok_iff.mp
      (show (processTarget p _ name >>= fun _ => rest.forM (processTarget p _)) s = _ from h)
    rw [processTarget_eq hp hid] at hfirst
    obtain ⟨rules, hrules, hmap, hall⟩ := describes_of_handleTarget hid (hp.handlesNone name id hid) hfirst
    obtain ⟨rules', hrules', hmap', hall'⟩ := ih hrest hlater
    refine ⟨rules ++ rules', by rw [hrules', hrules, List.append_assoc], ?_, List.forall_mem_append.mpr ⟨hall, hall'⟩⟩
    rw [List.map_append, hmap, hmap', ← List.filter_append]
    rfl

end Session

/-- A run over all targets makes a rule for each exported target, in the order of their names. -/
theorem describes_of_finalGraph {p : Project} (hp : p.MapsToTargets) {s s' : Session} {g : Graph}
    (hstart : s.graph.targetRules = []) (h : finalGraph p s = .ok g s') :
    g.targetRules.map (·.name) = p.targetNames.filter isExported ∧ ∀ rule ∈ g.targetRules, p.Describes rule := by
  obtain ⟨hprocess, rfl⟩ := finalGraph_eq_ok_iff.mp h
  obtain ⟨rules, hrules, hnames, hall⟩ :=
    Session.describes_of_forM hp (fun name hname => Text.mem_sortOn.mp hname) hprocess
  rw [hrules, hstart]
  exact ⟨hnames, hall⟩

theorem names_of_finalGraph {p : Project} (hp : p.MapsToTargets) {s s' : Session} {g : Graph}
    (hstart : s.graph.targetRules = []) (h : finalGraph p s = .ok g s') :
    (g.targetRules.map (·.name)).Nodup ∧ ∀ name, name ∈ g.targetRules.map (·.name) ↔ p.Exports name := by
  rw [(describes_of_finalGraph hp hstart h).1]
  refine ⟨?_, fun name => by rw [List.mem_filter]; exact and_congr_left' Text.mem_sortOn⟩
  exact ((Text.sortOn_perm id _).nodup_iff.mpr hp.nodup).filter _

end BuildPlan
