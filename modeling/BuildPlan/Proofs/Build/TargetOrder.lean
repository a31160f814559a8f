import BuildPlan.Generate
import BuildPlan.Proofs.Build.Processing
import Mathlib.Data.List.Find
import Mathlib.Data.List.Nodup

/-!
# The order in which targets are listed

A run looks its targets up by their names and by what they stand for, and goes through them in the order of their names.
`Project.Lists` says that a list of targets gives the same answers as that of a project. A project with the other list
does the same, whatever its programs are, as long as they look targets up too and do not go through the list themselves:
`perform_lists`. If no two targets have the same name or stand for the same thing, each list in another order is of this
sort.
-/

namespace BuildPlan

/-! ### Tables in another order -/

theorem Assoc.find?_eq {κ β : Type} [DecidableEq κ] (t : Assoc κ β) (key : κ) :
    Assoc.find? t key = (List.find? (·.1 = key) t).map (·.2) := by
  induction t with
  | nil => rfl
  | cons entry rest ih =>
    by_cases hkey : entry.1 = key
    · rw [Assoc.find?, if_pos hkey, List.find?_cons_of_pos (by simp [hkey])]
      rfl
    · rw [Assoc.find?, if_neg hkey, List.find?_cons_of_neg (by simp [hkey]), ih]

theorem find?_eq_of_perm {α β : Type} [DecidableEq β] {f : α → β} {xs ys : List α} (hperm : xs.Perm ys)
    (hnodup : (ys.map f).Nodup) (b : β) : xs.find? (f · = b) = ys.find? (f · = b) := by
  refine (List.find?_eq_find?_of_perm hperm.symm fun x hx y hy => ?_).symm
  have hsame : f x = f y := (of_decide_eq_true hx.2).trans (of_decide_eq_true hy.2).symm
  exact List.inj_on_of_nodup_map hnodup hx.1 hy.1 hsame

/-- The targets give the same answers as those of a project, whenever they are asked for. -/
structure Project.Lists (p : Project) (targets : Assoc String Nat) : Prop where
  find? : ∀ name, Assoc.find? targets name = Assoc.find? p.targets name
  targetName? : ∀ id, { p with targets }.targetName? id = p.targetName? id
  targetNames : { p with targets }.targetNames = p.targetNames

/-- The order of targets makes no difference if none of them has the name of another one or stands for the same. -/
theorem Project.lists_of_perm {p : Project} {targets : Assoc String Nat} (hperm : targets.Perm p.targets)
    (hnames : (Assoc.keys p.targets).Nodup) (hthings : (p.targets.map (·.2)).Nodup) : p.Lists targets where
  find? name := by rw [Assoc.find?_eq, Assoc.find?_eq, find?_eq_of_perm hperm hnames]
  targetName? id := by
    have hnodup : (p.targets.reverse.map (·.2)).Nodup := by
      rw [List.map_reverse]
      exact List.nodup_reverse.mpr hthings
    have hreverse : targets.reverse.Perm p.targets.reverse :=
      (List.reverse_perm _).trans (hperm.trans (List.reverse_perm _).symm)
    rw [Project.targetName?, Project.targetName?, find?_eq_of_perm hreverse hnodup]
  targetNames := Text.sortTexts_eq_sortTexts (hperm.map _)

/-! ### Programs that look targets up -/

/-- The action finds targets by their names or by what they stand for. Neither it nor an action inside it goes through the
list of targets. -/
inductive Action.LooksUp : Action → Prop
  | intro {a : Action} (hneeds : a ≠ .dependOnAll) (hnames : a ≠ .targets) (hbody : ∀ b ∈ a.body, b.LooksUp) : a.LooksUp

namespace Session

theorem performAll_congr {f g : Action → SessionM Unit} {program : List Action} (h : ∀ a ∈ program, f a = g a) :
    performAll f program = performAll g program := by
  unfold performAll
  induction program with
  | nil => rfl
  | cons a rest ih =>
    obtain ⟨ha, hrest⟩ := List.forall_mem_cons.mp h
    show (f a >>= fun _ => rest.forM f) = (g a >>= fun _ => rest.forM g)
    rw [ha, ih hrest]

theorem entity_bind_congr {α : Type} {p : Project} {id : Nat} {f g : Entity → SessionM α}
    (h : ∀ e, p.entities[id]? = some e → f e = g e) : (entity p id >>= f) = entity p id >>= g := by
  unfold entity
  split
  case h_1 e he => exact (pure_bind _ _).trans ((h e he).trans (pure_bind _ _).symm)
  case h_2 => rfl

/-! ### The same with another list -/

section lists

variable {p : Project} {targets : Assoc String Nat} (hlists : p.Lists targets)
include hlists

theorem depend_lists (id : Nat) : depend { p with targets } id = depend p id := by
  unfold depend
  rw [hlists.targetName? id]

theorem dependOn_lists (target : String) : dependOn { p with targets } target = dependOn p target := by
  unfold dependOn
  rw [hlists.find? target]
  simp only [depend_lists hlists]

end lists

section commands

variable {within within' : Option Package → Action → SessionM Unit} {e : Entity}
  (h : ∀ c, e = .custom c → ∀ a ∈ c.actions, within c.package a = within' c.package a)
include h

theorem runCommand_congr (id : Nat) : runCommand within id e = runCommand within' id e := by
  funext arguments
  unfold runCommand
  split
  · rfl
  · unfold customCommand
    rw [performAll_congr fun a ha => h _ rfl a (Custom.mem_actions_of_run rfl ha)]
  · rfl

theorem testCommand_congr (id : Nat) : testCommand within id e = testCommand within' id e := by
  funext arguments
  unfold testCommand
  split
  · unfold customCommand
    rw [performAll_congr fun a ha => h _ rfl a (Custom.mem_actions_of_test rfl ha)]
  · rw [runCommand_congr h]

theorem shownFiles_congr (p : Project) (inputs : List Path) :
    shownFiles p within e inputs = shownFiles p within' e inputs := by
  unfold shownFiles
  split
  · rw [performAll_congr fun a ha => h _ rfl a (Custom.mem_actions_of_outputs rfl ha)]
  · rfl

theorem targetRule_congr (p : Project) (name : String) (id : Nat) :
    targetRule p within name id e = targetRule p within' name id e := by
  unfold targetRule
  simp only [shownFiles_congr h, runCommand_congr h, testCommand_congr h]

end commands

section programs

variable {p : Project} {targets : Assoc String Nat} {P : Action → Prop}
  {within within' : Option Package → Action → SessionM Unit} (hlists : p.Lists targets) (hP : p.RunsOnly P)
  (hwithin : ∀ package a, P a → within package a = within' package a)
include hlists hP hwithin

theorem buildEntity_lists (id : Nat) : buildEntity { p with targets } within id = buildEntity p within' id := by
  refine entity_bind_congr fun e he => ?_
  cases e with
  | custom c =>
    have hbuild := performAll_congr fun a ha =>
      hwithin c.package a (hP.of_getElem? he a (Custom.mem_actions_of_build ha))
    exact congrArg (· >>= fun _ => pure Reply.nothing) hbuild
  | group members =>
    have hdepend : depend { p with targets } = depend p := funext (depend_lists hlists)
    exact congrArg (fun operation => members.forM operation >>= fun _ => pure Reply.nothing) hdepend
  | objectFile | library | executable | inert => rfl

theorem makeTarget_lists (name : String) (id : Nat) :
    makeTarget { p with targets } within name id = makeTarget p within' name id := by
  have hrule : (entity p id >>= fun e => some <$> targetRule { p with targets } within name id e) =
      entity p id >>= fun e => some <$> targetRule p within' name id e := by
    refine entity_bind_congr fun e he => congrArg (some <$> ·) (targetRule_congr (fun c hc a ha => ?_) p name id)
    exact hwithin _ a (hP.of_getElem? (he.trans (congrArg some hc)) a ha)
  unfold makeTarget
  rw [buildEntity_lists hlists hP hwithin]
  refine congrArg (discard (traced ("top:" ++ name) (buildEntity p within' id)) >>= ·) (funext fun _ => ?_)
  split
  · exact hrule
  · rfl

theorem handleTarget_lists (name : String) (id : Nat) :
    handleTarget { p with targets } within name id = handleTarget p within' name id := by
  rw [handleTarget_eq, handleTarget_eq, makeTarget_lists hlists hP hwithin]

theorem processTargets_lists : processTargets { p with targets } within = processTargets p within' := by
  have hname : ∀ name, processTarget { p with targets } within name = processTarget p within' name := by
    intro name
    unfold processTarget
    rw [hlists.find? name]
    simp only [handleTarget_lists hlists hP hwithin]
    rfl
  unfold processTargets
  rw [hlists.targetNames, funext hname]

theorem act_lists (package : Option Package) {a : Action} (ha : P a) (hbody : ∀ b ∈ a.body, P b)
    (hneeds : a ≠ .dependOnAll) (hnames : a ≠ .targets) :
    act { p with targets } within package a = act p within' package a := by
  have hprogram : performAll (within package) a.body = performAll (within' package) a.body :=
    performAll_congr fun b hb => hwithin package b (hbody b hb)
  cases a with
  | traced _ body | tracedView _ body | once _ body | attempt body =>
    simp only [act, show performAll (within package) body = _ from hprogram]
    rfl
  | depend other =>
    simp only [act, depend_lists hlists]
    rfl
  | dependOn target =>
    simp only [act, dependOn_lists hlists]
    rfl
  | dependOnAll => exact absurd rfl hneeds
  | targets => exact absurd rfl hnames
  | build other =>
    simp only [act, buildEntity_lists hlists hP hwithin]
    rfl
  | run other arguments =>
    have hrun : ∀ id, (entity p id >>= fun e => Reply.text <$> runCommand within id e arguments) =
        entity p id >>= fun e => Reply.text <$> runCommand within' id e arguments := by
      refine fun id => entity_bind_congr fun e he => ?_
      rw [runCommand_congr fun c hc a ha => hwithin _ a (hP.of_getElem? (he.trans (congrArg some hc)) a ha)]
    exact congrArg (fun operation => site p >>= fun _ => numberOf p other >>= operation) (funext hrun)
  | handleTarget name other =>
    simp only [act, handleTarget_lists hlists hP hwithin]
    rfl
  | processTargets =>
    simp only [act, processTargets_lists hlists hP hwithin]
    rfl
  | _ => rfl

end programs

/-- An action that looks targets up does the same in both projects, however deep it nests. -/
theorem perform_lists {p : Project} {targets : Assoc String Nat} (hlists : p.Lists targets)
    (hp : p.RunsOnly Action.LooksUp) (depth : Nat) (package : Option Package) {a : Action} (ha : a.LooksUp) :
    perform { p with targets } depth package a = perform p depth package a := by
  -- over the depth, since the bodies of an action and the programs that it starts run one level further down
  induction depth generalizing package a with
  | zero => rfl
  | succ depth ih =>
    obtain ⟨hneeds, hnames, hbody⟩ := ha
    refine act_lists hlists hp (fun package b hb => ?_) package ⟨hneeds, hnames, hbody⟩ hbody hneeds hnames
    unfold reported
    rw [ih package hb]

end Session

/-! ### Builds of the same targets -/

/-- Two projects are built alike with the same settings: both runs fail in the same way, or both give the same rules of
targets, the same edges in the same order and with the same traces, the same rules for a compilation database, and the
same Ninja file. -/
def Project.BuiltAlike (p q : Project) (settings : Settings) : Prop :=
  (∃ failure s, finalGraph p (p.start settings) = .error failure s ∧
    finalGraph q (q.start settings) = .error failure s) ∨
  ∃ g g' s, finalGraph p (p.start settings) = .ok g s ∧ finalGraph q (q.start settings) = .ok g' s ∧
    g'.targetRules = g.targetRules ∧ g'.sortedEdges = g.sortedEdges ∧ g'.compdbRules = g.compdbRules ∧
    Ninja.fileText g' = Ninja.fileText g

/-- **The order in which targets are listed makes no difference to what is built**, if no two of them have the same name
or stand for the same thing, and programs look targets up instead of going through the list of them. -/
theorem finalGraph_perm (p : Project) (targets : Assoc String Nat) (hperm : targets.Perm p.targets)
    (hnames : (Assoc.keys p.targets).Nodup) (hthings : (p.targets.map (·.2)).Nodup)
    (hlooks : p.RunsOnly Action.LooksUp) (settings : Settings) : p.BuiltAlike { p with targets } settings := by
  have hprocess : Action.processTargets.LooksUp := .intro nofun nofun nofun
  have hsame : finalGraph { p with targets } = finalGraph p := by
    unfold finalGraph
    rw [Session.perform_lists (p.lists_of_perm hperm hnames hthings) hlooks _ _ hprocess]
  unfold Project.BuiltAlike
  rw [hsame, show Project.start { p with targets } settings = p.start settings from rfl]
  cases finalGraph p (p.start settings) with
  | error failure s => exact .inl ⟨failure, s, rfl, rfl⟩
  | ok g s => exact .inr ⟨g, g, s, rfl, rfl, rfl, rfl, rfl, rfl⟩

theorem finalGraph_perm_sample :
    let p := withRun (.starting "zip")
    let q := { p with targets := [("All", 1), ("Lib", 0), ("Zip", 2)] }
    q.targets.Perm p.targets ∧ (Assoc.keys p.targets).Nodup ∧ (p.targets.map (·.2)).Nodup ∧
      p.RunsOnly Action.LooksUp ∧
      ∃ g g' s, finalGraph p (p.start {}) = .ok g s ∧ finalGraph q (q.start {}) = .ok g' s ∧
        g'.targetRules.map (·.dependencies) = [["Lib"], [], ["Lib", "All"]] ∧
        Ninja.fileText g' = Ninja.fileText g := by
  intro p q
  have hperm : q.targets.Perm p.targets := by decide +kernel
  have hnames : (Assoc.keys p.targets).Nodup := by decide +kernel
  have hthings : (p.targets.map (·.2)).Nodup := by decide +kernel
  have hlooks : p.RunsOnly Action.LooksUp := by
    intro c hc a ha
    rcases runsOnly_withRun (List.forall_mem_nil _) c hc a ha with ⟨_, rfl⟩ | ⟨_, rfl⟩ | ⟨_, rfl⟩ <;>
      exact .intro nofun nofun nofun
  refine ⟨hperm, hnames, hthings, hlooks, ?_⟩
  have hneeds : (answer (finalGraph q) (q.start {})).toOption.map (·.targetRules.map (·.dependencies)) =
      some [["Lib"], [], ["Lib", "All"]] := by decide +kernel
  obtain ⟨g', s', hq, hneeds⟩ := exists_of_answer hneeds
  rcases finalGraph_perm p q.targets hperm hnames hthings hlooks {} with
    ⟨e, s, -, herror⟩ | ⟨g, g'', s, hg, hg', -, -, -, htext⟩
  · cases hq.symm.trans herror
  · cases hq.symm.trans hg'
    exact ⟨g, g', s', hg, hq, hneeds, htext⟩

/-- A target that needs all targets in the order of the list, and another one. -/
def needsAll : Project where
  workspace := { sourceDir := "/src", buildRoot := "/out" }
  entities := [.custom { build := [.dependOnAll] }, .group []]
  targets := [("All", 0), ("Lib", 1)]

/-- Where a program goes through the list of targets, their order may show in the rules of targets and in the Ninja
file. -/
theorem order_of_targets_may_show : ¬∀ (p : Project) (targets : Assoc String Nat), targets.Perm p.targets →
    (Assoc.keys p.targets).Nodup → (p.targets.map (·.2)).Nodup →
    ∀ settings, p.BuiltAlike { p with targets } settings := by
  intro h
  have hfirst : (answer (finalGraph needsAll) (needsAll.start {})).toOption.map (·.targetRules.map (·.dependencies)) =
      some [["All", "Lib"], []] := by decide +kernel
  have hsecond : (answer (finalGraph { needsAll with targets := [("Lib", 1), ("All", 0)] })
      (needsAll.start {})).toOption.map (·.targetRules.map (·.dependencies)) = some [["Lib", "All"], []] := by decide +kernel
  obtain ⟨g, s, hg, hgraph⟩ := exists_of_answer hfirst
  obtain ⟨g', s', hg', hgraph'⟩ := exists_of_answer hsecond
  rcases h needsAll [("Lib", 1), ("All", 0)] (by decide) (by decide) (by decide) {} with
    ⟨e, t, herror, -⟩ | ⟨_, _, t, hok, hok', hrules, -⟩
  · cases hg.symm.trans herror
  · cases hg.symm.trans hok
    cases hg'.symm.trans hok'
    rw [hrules, hgraph] at hgraph'
    exact absurd hgraph' (by decide)

end BuildPlan
