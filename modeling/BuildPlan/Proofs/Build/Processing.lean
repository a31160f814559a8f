import BuildPlan.Proofs.Build.Events
import BuildPlan.Proofs.Build.Reach
import Mathlib.Data.List.Induction

/-!
# Processing the targets

The targets are handled in the order of their names until one of them fails. `Session.processTargets_spec` says what is
recorded then, if no program handles targets itself: the rules of the exported targets that have been handled, each with
the dependencies that have been added for it by then, and the steps of all programs, those of the one that failed among
them. Each target begins afresh, so nothing of one target gets into the rule of another. What a target needs is taken down
after it has said which files to show, so whatever its build and that have added counts, but not what its commands add.
-/

namespace BuildPlan

/-- The names of a project stand for targets, each for one, and no program of theirs handles targets itself. -/
structure Project.MapsToTargets (p : Project) : Prop where
  nodup : (Assoc.keys p.targets).Nodup
  isTarget : ∀ name id, Assoc.find? p.targets name = some id → ∃ e, p.entities[id]? = some e ∧ e.isTarget = true
  handlesNone : ∀ name id, Assoc.find? p.targets name = some id → p.HandlesNoTargets id

theorem Project.MapsToTargets.of_eq {p q : Project} (h : p.MapsToTargets) (hentities : q.entities = p.entities)
    (hnames : q.names = p.names) (htargets : q.targets = p.targets) : q.MapsToTargets where
  nodup := htargets ▸ h.nodup
  isTarget := by
    rw [htargets, hentities]
    exact h.isTarget
  handlesNone name id hid c hc a ha := by
    refine h.handlesNone name id (htargets ▸ hid) c (hentities ▸ hc) a ?_
    clear hid hc
    induction ha with
    | start ha => exact .start ha
    | body _ hb ih => exact ih.body hb
    | build _ hname hc ha ih => exact ih.build (hnames ▸ hname) (hentities ▸ hc) ha
    | run _ hname hc hown ha ih => exact ih.run (hnames ▸ hname) (hentities ▸ hc) hown ha

/-- The events of a target that has been handled, by what they come from. -/
structure TargetEvents where
  build : List Event
  /-- Events of saying which files to show. -/
  files : List Event := []
  /-- Events of saying how it is run and tested. -/
  commands : List Event := []

namespace TargetEvents

/-- What is added as a dependency before the target is asked for its commands. -/
def needed (events : TargetEvents) : List String :=
  Event.dependencies events.build ++ Event.dependencies events.files

/-- The steps that are taken, whatever they come from. -/
def steps (events : TargetEvents) : List AnyStep := Event.steps (events.build ++ events.files ++ events.commands)

end TargetEvents

namespace Session

variable {p : Project} {within : Option Package → Action → SessionM Unit} {name : String} {id depth : Nat}
  {s s' t : Session} {e : Failure} {events : List Event}

/-! ### The events of a target -/

/-- How a target is run and tested. -/
def targetCommands (p : Project) (within : Option Package → Action → SessionM Unit) (id : Nat) (entity : Entity) :
    SessionM (Option String × Option String) := do
  let run ← commandIf entity.isRunnable (runCommand within id entity p.runArguments)
  let test ← commandIf entity.isTestable (testCommand within id entity p.testArguments)
  return (run, test)

/-- A target is built, and its rule is made if it is exported. -/
def makeTarget (p : Project) (within : Option Package → Action → SessionM Unit) (name : String) (id : Nat) :
    SessionM (Option TargetRule) := do
  discard (traced ("top:" ++ name) (buildEntity p within id))
  if isExported name then return some (← targetRule p within name id (← entity p id)) else return none

/-- The rule that has been made for a target, if any, is added to the graph. -/
def enterRule : Option TargetRule → SessionM Unit
  | some rule => changeGraph fun g => { g with targetRules := g.targetRules ++ [rule] }
  | none => pure ()

/-- A target comes through these events when it is handled: it is built, and if it is exported, it is asked which files to
show, and then how it is run and tested. -/
inductive Completes (p : Project) (within : Option Package → Action → SessionM Unit) (name : String) (id : Nat)
    (s : Session) : TargetEvents → Prop
  | inner {events reply t} (hexported : isExported name = false)
    (hbuild : buildEntity p within id (inTarget p name s) = .ok reply t)
    (hemits : Emits p.workspace (buildEntity p within id) (inTarget p name s) events) :
    Completes p within name id s { build := events }
  | exported {events more late reply t e files u} (hexported : isExported name = true)
    (he : p.entities[id]? = some e) (hbuild : buildEntity p within id (inTarget p name s) = .ok reply t)
    (hemits : Emits p.workspace (buildEntity p within id) (inTarget p name s) events)
    (hfiles : shownFiles p within e t.pop.graph.sortedFrontier t.pop = .ok files u)
    (hmore : Emits p.workspace (shownFiles p within e t.pop.graph.sortedFrontier) t.pop more)
    (hlate : Emits p.workspace (targetCommands p within id e) u late) :
    Completes p within name id s { build := events, files := more, commands := late }

section emits

variable (hhandles : p.HandlesNoTargets id) (depth : Nat)
include hhandles

theorem exists_emits_shownFiles {e : Entity} (he : p.entities[id]? = some e) (inputs : List Path) (s : Session) :
    ∃ events, Emits p.workspace (shownFiles p (reported (perform p depth)) e inputs) s events :=
  (building_emits p).shownFiles_of_handlesNoTargets (emits_writeBuildFile p) hhandles depth he inputs s

theorem exists_emits_targetCommands {e : Entity} (he : p.entities[id]? = some e) (s : Session) :
    ∃ events, Emits p.workspace (targetCommands p (reported (perform p depth)) id e) s events := by
  have hC := building_emits p
  have hprograms := fun c (hc : e = .custom c) =>
    hC.programs_of_handlesNoTargets (emits_writeBuildFile p) hhandles depth (he.trans (congrArg some hc))
  refine hC.bind (hC.commandIf _ (hC.runCommand_of_actions hprograms _ _)) (fun run => ?_) s
  exact hC.bind (hC.commandIf _ (hC.testCommand hprograms _ _)) fun test => hC.pure _

theorem exists_emits_makeTarget (name : String) (s : Session) :
    ∃ events, Emits p.workspace (makeTarget p (reported (perform p depth)) name id) s events := by
  have hC := building_emits p
  have hbuild := hC.buildEntity_of_handlesNoTargets (emits_writeBuildFile p) hhandles depth
  refine hC.bind (hC.discard (hC.traced _ hbuild)) (fun _ => ?_) s
  split
  · refine hC.entity_bind fun e he => hC.bind ?_ fun rule => hC.pure _
    exact hC.makeRule_of_handlesNoTargets (emits_writeBuildFile p) hhandles depth he name
  · exact hC.pure _

end emits

/-! ### Handling a target -/

theorem handleTarget_eq : handleTarget p within name id = (do
    changeGraph (·.startTarget p.workspace name)
    during name (makeTarget p within name id >>= enterRule)
    changeGraph Graph.finishTarget) := by
  have hbody : (makeTarget p within name id >>= enterRule) = (do
      discard (traced ("top:" ++ name) (buildEntity p within id))
      if isExported name then
        let rule ← targetRule p within name id (← entity p id)
        changeGraph fun g => { g with targetRules := g.targetRules ++ [rule] }) := by
    unfold makeTarget
    rw [bind_assoc]
    congr 1
    funext _
    split
    · simp only [bind_assoc, pure_bind]
      rfl
    · exact pure_bind _ _
  rw [hbody]
  rfl

theorem during_eq_error_iff {α : Type} {target : String} {operation : SessionM α} :
    during target operation s = .error e s' ↔ ∃ e₀, operation s = .error e₀ s' ∧ e = e₀.during target := by
  unfold during
  cases operation s with
  | ok a t => simp
  | error e₀ t => simp [eq_comm, and_comm]

theorem exists_completes (hhandles : p.HandlesNoTargets id)
    (h : handleTarget p (reported (perform p depth)) name id s = .ok () s') :
    ∃ events, Completes p (reported (perform p depth)) name id s events := by
  obtain ⟨reply, t, hbuild, hrule, -⟩ := handleTarget_eq_ok h
  obtain ⟨events, hemits⟩ := exists_emits_buildEntity hhandles depth (inTarget p name s)
  cases hexported : isExported name with
  | false => exact ⟨_, .inner hexported hbuild hemits⟩
  | true =>
    obtain ⟨e, rule, u, he, hmake, -⟩ := hrule hexported
    obtain ⟨-, -, files, v, texts, w, hfiles, -⟩ := targetRule_eq_ok hmake
    obtain ⟨more, hmore⟩ := exists_emits_shownFiles hhandles depth he t.pop.graph.sortedFrontier t.pop
    obtain ⟨late, hlate⟩ := exists_emits_targetCommands hhandles depth he v
    exact ⟨_, .exported hexported he hbuild hemits hfiles hmore hlate⟩

/-- A target that has been handled shows the events that it has come through, and leaves its rule if it is exported. -/
theorem handleTarget_ok {events : TargetEvents} (hcompletes : Completes p within name id s events)
    (h : handleTarget p within name id s = .ok () s') :
    s'.graph.current = none ∧ s'.graph.trace = s.graph.trace ∧
      (∀ statement, statement ∈ s'.graph.statements ↔
        statement ∈ s.graph.statements ∨ ∃ step ∈ events.steps, step.signature p.workspace = statement) ∧
      ∃ rules, s'.graph.targetRules = s.graph.targetRules ++ rules ∧
        rules.map (fun rule => (rule.name, rule.dependencies)) = [(name, events.needed)].filter (isExported ·.1) := by
  obtain ⟨reply, t, hbuild, hrule, hnone⟩ := handleTarget_eq_ok h
  cases hcompletes with
  | @inner events reply' t' hexported hbuild' hemits =>
    cases hbuild.symm.trans hbuild'
    have hshows := hemits.shows
    rw [endState_of_ok hbuild] at hshows
    have hpop : Shows p.workspace (enter p name s) events t.pop := hshows.pop
    rw [hnone hexported]
    refine ⟨rfl, hpop.trace, ?_, [], ?_, by simp [hexported]⟩
    · intro statement
      have hsteps : TargetEvents.steps { build := events } = Event.steps events :=
        congrArg Event.steps ((List.append_nil _).trans (List.append_nil _))
      rw [hsteps]
      exact hpop.statements statement
    · rw [List.append_nil]
      exact hpop.targetRules
  | @exported events more late reply' t' e files u hexported he hbuild' hemits hfiles hmore hlate =>
    cases hbuild.symm.trans hbuild'
    obtain ⟨e', rule, v, he', hmake, rfl⟩ := hrule hexported
    cases he.symm.trans he'
    obtain ⟨hname, -, files', u', _, w, hfiles', -, hneeds, hrun, htest⟩ := targetRule_eq_ok hmake
    cases hfiles.symm.trans hfiles'
    have hcommands : targetCommands p within id e u = .ok (rule.run, rule.test) v :=
      bind_eq_ok_iff.mpr ⟨_, w, hrun, bind_eq_ok_iff.mpr ⟨_, v, htest, rfl⟩⟩
    have hshows := hemits.shows
    rw [endState_of_ok hbuild] at hshows
    have hbuilt : Shows p.workspace (enter p name s) events t.pop := hshows.pop
    have hshown := hmore.shows
    rw [endState_of_ok hfiles] at hshown
    have hlast := hlate.shows
    rw [endState_of_ok hcommands] at hlast
    have hall := (hbuilt.trans hshown).trans hlast
    refine ⟨rfl, hall.trace, hall.statements, [rule], congrArg (· ++ [rule]) hall.targetRules, ?_⟩
    have hdependencies : u.graph.dependencies = TargetEvents.needed ⟨events, more, late⟩ := by
      rw [(hbuilt.trans hshown).dependencies, Event.dependencies_append]
      rfl
    simp [hname, hneeds, hdependencies, hexported]

/-- Handling a target has failed after these events: they have all happened, but there is no rule, the labels have been
taken back, and the error has come out with the name of the target unless it had one already. -/
structure FailsIn (p : Project) (within : Option Package → Action → SessionM Unit) (name : String) (id : Nat)
    (s : Session) (events : List Event) (e : Failure) (s' : Session) : Prop where
  emits : Emits p.workspace (makeTarget p within name id) (enter p name s) events
  statements : ∀ statement, statement ∈ s'.graph.statements ↔
    statement ∈ s.graph.statements ∨ ∃ step ∈ Event.steps events, step.signature p.workspace = statement
  targetRules : s'.graph.targetRules = s.graph.targetRules
  trace : s'.graph.trace = s.graph.trace
  error : ∃ e₀, makeTarget p within name id (enter p name s) = .error e₀ s' ∧
    (∀ cause, e₀ = .build ⟨cause, none⟩ → e = .build ⟨cause, some name⟩) ∧
    (∀ cause target, e₀ = .build ⟨cause, some target⟩ → e = e₀) ∧ ∀ fault, e₀ = .fault fault → e = e₀

theorem failsIn_of_handleTarget (hemits : Emits p.workspace (makeTarget p within name id) (enter p name s) events)
    (h : handleTarget p within name id s = .error e s') : FailsIn p within name id s events e s' := by
  rw [handleTarget_eq] at h
  obtain hstart | ⟨_, _, hstart, h⟩ := bind_eq_error_iff.mp h
  · cases hstart
  cases hstart
  obtain hduring | ⟨_, _, -, hfinish⟩ := bind_eq_error_iff.mp h
  swap
  · cases hfinish
  obtain ⟨e₀, hbody, rfl⟩ := during_eq_error_iff.mp hduring
  obtain hmake | ⟨rule, t, -, henter⟩ := bind_eq_error_iff.mp hbody
  swap
  · cases rule <;> cases henter
  have hmake : makeTarget p within name id (enter p name s) = .error e₀ s' := hmake
  have hshows := hemits.shows
  rw [endState_of_error hmake] at hshows
  refine ⟨hemits, hshows.statements, hshows.targetRules, hshows.trace, e₀, hmake, ?_, ?_, ?_⟩
  · rintro cause rfl
    rfl
  · rintro cause target rfl
    rfl
  · rintro fault rfl
    rfl

/-! ### Handling targets in turn -/

/-- Targets are handled one after another without a failure; `log` has their names with the events that they come
through. -/
inductive HandlesInTurn (p : Project) (within : Option Package → Action → SessionM Unit) (start : Session) :
    List (String × TargetEvents) → Session → Prop
  | nil : HandlesInTurn p within start [] start
  | snoc {log s name id events t} (h : HandlesInTurn p within start log s)
      (hid : Assoc.find? p.targets name = some id) (hcompletes : Completes p within name id s events)
      (hhandle : handleTarget p within name id s = .ok () t) :
      HandlesInTurn p within start (log ++ [(name, events)]) t

/-- The graph shows what is in the log: a rule for each exported target, with the dependencies that its own build has
added and then its own saying which files to show, and the steps of all programs. No target is being processed. -/
structure ShowsLog (w : Workspace) (log : List (String × TargetEvents)) (s : Session) : Prop where
  rules : s.graph.targetRules.map (fun rule => (rule.name, rule.dependencies)) =
    (log.filter (isExported ·.1)).map fun entry => (entry.1, entry.2.needed)
  statements : ∀ statement, statement ∈ s.graph.statements ↔
    ∃ entry ∈ log, ∃ step ∈ entry.2.steps, step.signature w = statement
  current : s.graph.current = none
  trace : s.graph.trace = []

variable {settings : Settings} {log : List (String × TargetEvents)}

theorem HandlesInTurn.showsLog (h : HandlesInTurn p within (p.start settings) log s) : ShowsLog p.workspace log s := by
  induction h with
  | nil => exact ⟨rfl, by simp [Project.start, Graph.empty, Graph.statements], rfl, rfl⟩
  | @snoc log s name id events t _ _ hcompletes hhandle ih =>
    obtain ⟨hcurrent, htrace, hstatements, rules, hrules, hmap⟩ := handleTarget_ok hcompletes hhandle
    refine ⟨?_, fun statement => ?_, hcurrent, htrace.trans ih.trace⟩
    · rw [hrules, List.map_append, List.filter_append, List.map_append, ih.rules, hmap]
      refine congrArg (_ ++ ·) ?_
      by_cases hexported : isExported name = true <;> simp [hexported]
    · rw [hstatements, ih.statements]
      simp [or_and_right, exists_or]

theorem processTarget_eq (hp : p.MapsToTargets) (hid : Assoc.find? p.targets name = some id) :
    processTarget p within name = handleTarget p within name id := by
  obtain ⟨e, he, htarget⟩ := hp.isTarget name id hid
  funext s
  unfold processTarget
  rw [hid]
  refine (entity_bind he _ s).trans ?_
  rw [if_pos htarget]

theorem forM_eq_error {names : List String} {f : String → SessionM Unit} (h : names.forM f s = .error e s') :
    ∃ before name after t, names = before ++ name :: after ∧ before.forM f s = .ok () t ∧ f name t = .error e s' := by
  induction names generalizing s with
  | nil => cases h
  | cons name rest ih =>
    rcases bind_eq_error_iff.mp (show (f name >>= fun _ => rest.forM f) s = _ from h) with hname | ⟨_, t, hname, hrest⟩
    · exact ⟨[], name, rest, s, rfl, rfl, hname⟩
    · obtain ⟨before, other, after, u, rfl, hbefore, hother⟩ := ih hrest
      exact ⟨name :: before, other, after, u, rfl, bind_eq_ok_iff.mpr ⟨_, t, hname, hbefore⟩, hother⟩

/-- Names that are processed without a failure are handled in turn. -/
theorem exists_handlesInTurn (hp : p.MapsToTargets) {start : Session} {names : List String}
    (hnames : ∀ name ∈ names, name ∈ Assoc.keys p.targets)
    (h : names.forM (processTarget p (reported (perform p depth))) start = .ok () s) :
    ∃ log, HandlesInTurn p (reported (perform p depth)) start log s ∧ log.map (·.1) = names := by
  -- from the last name, since the log grows at its end
  induction names using List.reverseRecOn generalizing s with
  | nil =>
    cases h
    exact ⟨[], .nil, rfl⟩
  | append_singleton names name ih =>
    obtain ⟨t, hbefore, hlast⟩ := forM_append_eq_ok h
    obtain ⟨log, hlog, hmap⟩ := ih (fun other h => hnames other (List.mem_append_left _ h)) hbefore
    obtain ⟨id, hid⟩ := Assoc.exists_find?_of_mem_keys (hnames name List.mem_concat_self)
    obtain ⟨_, u, hname, hpure⟩ := bind_eq_ok_iff.mp
      (show (processTarget p _ name >>= fun _ => pure ()) t = _ from hlast)
    cases hpure
    rw [processTarget_eq hp hid] at hname
    obtain ⟨events, hcompletes⟩ := exists_completes (hp.handlesNone name id hid) hname
    exact ⟨_, hlog.snoc hid hcompletes hname, by rw [List.map_append, hmap]; rfl⟩

/-- The targets with certain names have been handled in turn, and the graph shows it: it has the rules of the exported
names among them, in strictly ascending order. -/
structure Processed (p : Project) (within : Option Package → Action → SessionM Unit) (start : Session)
    (done : String → Prop) (log : List (String × TargetEvents)) (s : Session) : Prop
    extends ShowsLog p.workspace log s where
  inTurn : HandlesInTurn p within start log s
  mem_names : ∀ name, name ∈ log.map (·.1) ↔ name ∈ Assoc.keys p.targets ∧ done name
  ascending : (s.graph.targetRules.map (·.name)).Pairwise (· < ·)
  mem_rules : ∀ name, name ∈ s.graph.targetRules.map (·.name) ↔
    name ∈ Assoc.keys p.targets ∧ isExported name = true ∧ done name

theorem exists_processed (hp : p.MapsToTargets) {before after : List String} {done : String → Prop}
    (hsplit : p.targetNames = before ++ after)
    (hdone : ∀ name, name ∈ before ↔ name ∈ Assoc.keys p.targets ∧ done name)
    (h : before.forM (processTarget p (reported (perform p depth))) (p.start settings) = .ok () s) :
    ∃ log, Processed p (reported (perform p depth)) (p.start settings) done log s := by
  obtain ⟨log, hlog, hmap⟩ := exists_handlesInTurn hp (fun name hname => ((hdone name).mp hname).1) h
  have hshows := hlog.showsLog
  have hrules : s.graph.targetRules.map (·.name) = before.filter isExported := by
    have hnames := congrArg (List.map Prod.fst) hshows.rules
    rw [← hmap, List.filter_map]
    simpa [List.map_map, Function.comp_def] using hnames
  have hsorted : before.Pairwise (· < ·) := by
    have hstrict := Text.pairwise_lt_sortTexts hp.nodup
    rw [show Text.sortTexts (Assoc.keys p.targets) = before ++ after from hsplit] at hstrict
    exact (List.pairwise_append.mp hstrict).1
  refine ⟨log, hshows, hlog, fun name => hmap ▸ hdone name, ?_, fun name => ?_⟩
  · rw [hrules]
    exact hsorted.filter _
  · rw [hrules, List.mem_filter, hdone, and_right_comm, and_assoc]

/-- **Processing the targets of a fresh run gives the rules of all exported targets, in strictly ascending order of
their names and each with the dependencies that have been added for it, or stops at the first target that fails**, be it
in its build, in saying which files to show, or in saying how it is run or tested. Then the rules are those of the exported
targets with smaller names, the trace is empty again, and the steps that have been taken are all there, also those of the
target that failed. The error has the name of this target unless it had one before. -/
theorem processTargets_spec (p : Project) (hp : p.MapsToTargets) (depth : Nat) (settings : Settings) :
    (∀ s, processTargets p (reported (perform p depth)) (p.start settings) = .ok () s →
      ∃ log, Processed p (reported (perform p depth)) (p.start settings) (fun _ => True) log s) ∧
    ∀ e s', processTargets p (reported (perform p depth)) (p.start settings) = .error e s' →
      ∃ name id log s events, Assoc.find? p.targets name = some id ∧
        Processed p (reported (perform p depth)) (p.start settings) (· < name) log s ∧
        handleTarget p (reported (perform p depth)) name id s = .error e s' ∧
        FailsIn p (reported (perform p depth)) name id s events e s' ∧ s'.graph.trace = [] := by
  have hmem : ∀ name, name ∈ p.targetNames ↔ name ∈ Assoc.keys p.targets := fun _ => Text.mem_sortOn
  constructor
  · intro s hrun
    exact exists_processed hp (List.append_nil _).symm (fun name => (hmem name).trans (and_iff_left trivial).symm) hrun
  · intro e s' hrun
    obtain ⟨before, name, after, s, hsplit, hbefore, hname⟩ := forM_eq_error hrun
    have hkey : name ∈ Assoc.keys p.targets := (hmem name).mp (hsplit ▸ List.mem_append_cons_self)
    obtain ⟨id, hid⟩ := Assoc.exists_find?_of_mem_keys hkey
    rw [processTarget_eq hp hid] at hname
    have hdone : ∀ other, other ∈ before ↔ other ∈ Assoc.keys p.targets ∧ other < name := by
      have hsorted : p.targetNames.Pairwise (· < ·) := Text.pairwise_lt_sortTexts hp.nodup
      rw [hsplit] at hsorted
      have hnew : name ∉ before := fun h =>
        String.lt_irrefl name ((List.pairwise_append.mp hsorted).2.2 name h name List.mem_cons_self)
      intro other
      rw [Text.mem_before_iff (hsorted.imp fun hlt => String.not_lt.mp (String.lt_asymm hlt)) hnew, ← hsplit, hmem]
    obtain ⟨log, hlog⟩ := exists_processed hp hsplit hdone hbefore
    obtain ⟨events, hemits⟩ := exists_emits_makeTarget (hp.handlesNone name id hid) depth name (enter p name s)
    have hfails := failsIn_of_handleTarget hemits hname
    exact ⟨name, id, log, s, events, hid, hlog, hname, hfails, hfails.trace.trans hlog.trace⟩

end Session

/-- A library, a group that needs it, and a program that says how it is run. The group is needed for that which the
program shows. -/
def withRun (command : CommandProgram) : Project where
  workspace := { sourceDir := "/src", buildRoot := "/out" }
  entities := [
    .custom { build := [.step { outs := [.out "lib"], command := [.literal "make lib"] }] },
    .group [0],
    .custom {
      build := [.step { outs := [.out "zip"], command := [.literal "make zip"] }, .dependOn "Lib"]
      outputs := some { actions := [.dependOn "All"], files := [.out "zip"] }
      run := some command }]
  targets := [("Zip", 2), ("Lib", 0), ("All", 1)]

section withRun

variable {command : CommandProgram} (hcommand : ∀ a ∈ command.actions, ∃ failure, a = .fail failure)
include hcommand

theorem runsOnly_withRun : (withRun command).RunsOnly fun a =>
    (∃ s, a = .step s) ∨ (∃ name, a = .dependOn name) ∨ ∃ failure, a = .fail failure := by
  intro c hc a ha
  simp only [withRun, List.mem_cons, EntityOf.custom.injEq, reduceCtorEq, List.not_mem_nil, or_false, false_or] at hc
  rcases hc with rfl | rfl
  · simp only [Custom.actions, Option.elim_none, List.append_nil, List.mem_singleton] at ha
    exact .inl ⟨_, ha⟩
  · simp only [Custom.actions, Option.elim_some, Option.elim_none, List.append_nil, List.mem_append, List.mem_cons,
      List.not_mem_nil, or_false] at ha
    rcases ha with ((rfl | rfl) | rfl) | ha
    · exact .inl ⟨_, rfl⟩
    · exact .inr (.inl ⟨_, rfl⟩)
    · exact .inr (.inl ⟨_, rfl⟩)
    · exact .inr (.inr (hcommand a ha))

theorem mapsToTargets_withRun : (withRun command).MapsToTargets where
  nodup := by
    show ["Zip", "Lib", "All"].Nodup
    decide
  isTarget name id hid := by
    have hentry : (name, id) ∈ [("Zip", 2), ("Lib", 0), ("All", 1)] := Assoc.mem_of_find? hid
    simp only [List.mem_cons, Prod.mk.injEq, List.not_mem_nil, or_false] at hentry
    rcases hentry with ⟨-, rfl⟩ | ⟨-, rfl⟩ | ⟨-, rfl⟩ <;> exact ⟨_, rfl, rfl⟩
  handlesNone _ id _ := by
    refine Project.handlesNoTargets_of_runsOnly (runsOnly_withRun hcommand) ?_ (by simp) (by simp) id
    rintro _ (⟨_, rfl⟩ | ⟨_, rfl⟩ | ⟨_, rfl⟩) b hb <;> cases hb

end withRun

/-- An error that names a target of its own. -/
def brokenElsewhere : Failure := .build { cause := .reported .generate "broken", target := some "Tool" }

theorem Session.processTargets_spec_sample :
    (∃ s, processTargets (withRun (.starting "zip")) (reported (perform (withRun (.starting "zip")) 1))
        ((withRun (.starting "zip")).start {}) = .ok () s ∧
      s.graph.targetRules.map (·.dependencies) = [["Lib"], [], ["Lib", "All"]] ∧
      ∃ log, Processed (withRun (.starting "zip")) (reported (perform (withRun (.starting "zip")) 1))
        ((withRun (.starting "zip")).start {}) (fun _ => True) log s) ∧
    ∃ s', processTargets (withRun (.failing brokenElsewhere)) (reported (perform (withRun (.failing brokenElsewhere)) 1))
        ((withRun (.failing brokenElsewhere)).start {}) = .error brokenElsewhere s' ∧
      ∃ name log s, Processed (withRun (.failing brokenElsewhere))
        (reported (perform (withRun (.failing brokenElsewhere)) 1)) ((withRun (.failing brokenElsewhere)).start {})
        (· < name) log s ∧ s'.graph.targetRules = s.graph.targetRules := by
  constructor
  · have hmaps : (withRun (.starting "zip")).MapsToTargets := mapsToTargets_withRun (List.forall_mem_nil _)
    have hneeds : answer (do
        processTargets (withRun (.starting "zip")) (reported (perform (withRun (.starting "zip")) 1))
        return (← currentGraph).targetRules.map (·.dependencies)) ((withRun (.starting "zip")).start {}) =
          .ok [["Lib"], [], ["Lib", "All"]] := by decide +kernel
    obtain ⟨t, hneeds⟩ := answer_eq_ok_iff.mp hneeds
    obtain ⟨_, s, hrun, hlast⟩ := bind_eq_ok_iff.mp hneeds
    exact ⟨s, hrun, (EStateM.Result.ok.inj hlast).1, (processTargets_spec _ hmaps 1 {}).1 s hrun⟩
  · have hmaps : (withRun (.failing brokenElsewhere)).MapsToTargets :=
      mapsToTargets_withRun (List.forall_mem_singleton.mpr ⟨_, rfl⟩)
    have hfails : answer (processTargets (withRun (.failing brokenElsewhere))
        (reported (perform (withRun (.failing brokenElsewhere)) 1))) ((withRun (.failing brokenElsewhere)).start {}) =
          .error brokenElsewhere := by decide +kernel
    obtain ⟨s', hfails⟩ := answer_eq_error_iff.mp hfails
    obtain ⟨name, id, log, s, events, -, hlog, -, hfailed, -⟩ := (processTargets_spec _ hmaps 1 {}).2 _ s' hfails
    exact ⟨s', hfails, name, log, s, hlog, hfailed.targetRules⟩

/-- A program that says which files to show may add dependencies as well: the last target is built with one dependency,
and its rule has two. -/
theorem Session.dependency_may_come_after_build :
    (withRun (.starting "zip")).MapsToTargets ∧
    answer (do
        ["All", "Lib"].forM (processTarget (withRun (.starting "zip")) (reported (perform (withRun (.starting "zip")) 1)))
        changeGraph (·.startTarget (withRun (.starting "zip")).workspace "Zip")
        discard (traced "top:Zip"
          (buildEntity (withRun (.starting "zip")) (reported (perform (withRun (.starting "zip")) 1)) 2))
        return (← currentGraph).dependencies) ((withRun (.starting "zip")).start {}) = .ok ["Lib"] ∧
    answer (do
        processTargets (withRun (.starting "zip")) (reported (perform (withRun (.starting "zip")) 1))
        return (← currentGraph).targetRules.map fun rule => (rule.name, rule.dependencies))
      ((withRun (.starting "zip")).start {}) = .ok [("All", ["Lib"]), ("Lib", []), ("Zip", ["Lib", "All"])] :=
  ⟨mapsToTargets_withRun (List.forall_mem_nil _), by decide +kernel, by decide +kernel⟩

end BuildPlan
