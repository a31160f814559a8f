import BuildPlan.Generate
import BuildPlan.Proofs.Build.Memory
import BuildPlan.Proofs.Build.Target
import BuildPlan.Proofs.Graph.Frontier
import BuildPlan.Proofs.Graph.SortedEdges

/-!
# Builds that forget what has been built

A project with `remembers := false` asks for each object file and archive whenever it is reached. When a build that
remembers succeeds, the build that forgets does not always succeed too: a file that is reached by two targets can be
asked for in two ways, of which the first is built and the other is passed over in silence. The main result says
exactly when both succeed: if nothing that is asked for differs from what has been built. Then they build the same.
-/

namespace BuildPlan

namespace Session

variable {p : Project} {within : Option Package → Action → SessionM Unit}

/-! ### The rule of a target -/

/-- The path can be shown. -/
def Displayable (w : Workspace) (path : Path) : Prop := w.workingDir = "" ∨ path.absolute ≠ ""

theorem displayable_iff {w : Workspace} {path : Path} : Displayable w path ↔ ∃ text, w.display? path = some text := by
  unfold Displayable Workspace.display?
  by_cases hw : w.workingDir = ""
  · simp [hw]
  · by_cases hpath : path.absolute = "" <;> simp [hw, hpath]

theorem succeeds_displayAll_iff {w : Workspace} {paths : List Path} {s : Session} :
    Succeeds (displayAll w paths) s ↔ ∀ path ∈ paths, Displayable w path := by
  induction paths with
  | nil => simpa using ⟨[], s, rfl⟩
  | cons path rest ih =>
    rw [List.forall_mem_cons, ← ih, displayable_iff, displayAll, List.mapM_cons]
    cases w.display? path with
    | none =>
      constructor
      · exact fun ⟨_, _, h⟩ => nomatch h
      · exact fun ⟨⟨_, h⟩, _⟩ => nomatch h
    | some text =>
      constructor
      · rintro ⟨_, _, h⟩
        obtain ⟨_, _, hpath, h⟩ := bind_eq_ok_iff.mp h
        cases hpath
        obtain ⟨texts, t, hrest, -⟩ := bind_eq_ok_iff.mp h
        exact ⟨⟨text, rfl⟩, texts, t, hrest⟩
      · rintro ⟨-, texts, t, hrest⟩
        exact .bind (a := text) rfl (.bind hrest ⟨_, _, rfl⟩)

/-- An executable is known when its rule is made. -/
def Linked (id : Nat) (e : Entity) (s : Session) : Prop :=
  ∀ x, e = .executable x → (Assoc.find? s.executables id).isSome

theorem shownFiles_of_native {e : Entity} (hnative : ∀ c, e ≠ .custom c) (inputs : List Path) :
    shownFiles p within e inputs = pure inputs := by
  cases e with
  | custom c => exact absurd rfl (hnative c)
  | _ => rfl

theorem of_targetRule {e : Entity} {name : String} {id : Nat} {s s' : Session} {rule : TargetRule}
    (hnative : ∀ c, e ≠ .custom c) (h : targetRule p within name id e s = .ok rule s') :
    s' = s ∧ commandIf e.isRunnable (runCommand within id e p.runArguments) s = .ok rule.run s ∧
      commandIf e.isTestable (testCommand within id e p.testArguments) s = .ok rule.test s ∧
      ∀ path ∈ s.graph.frontier, Displayable p.workspace path := by
  obtain ⟨-, -, files, t, texts, u, hfiles, hdisplay, -, hrun, htest⟩ := targetRule_eq_ok h
  rw [shownFiles_of_native hnative] at hfiles
  cases hfiles
  cases (reading_eq.commandIf _ (reading_eq.runCommand (fun c _ hc => absurd hc (hnative c)) _ _)).ok hrun
  cases (reading_eq.commandIf _ (reading_eq.testCommand (fun c hc => absurd hc (hnative c)) _ _)).ok htest
  refine ⟨rfl, hrun, htest, fun path hpath => succeeds_displayAll_iff.mp ⟨texts, s, hdisplay⟩ path ?_⟩
  exact Text.mem_sortOn.mpr hpath

theorem succeeds_commandIf {command : SessionM String} {s : Session} (present : Bool)
    (h : present = true → Succeeds command s) : Succeeds (commandIf present command) s := by
  unfold commandIf
  split
  case isTrue hpresent =>
    obtain ⟨text, t, htext⟩ := h hpresent
    exact .bind htext ⟨_, _, rfl⟩
  case isFalse => exact ⟨none, s, rfl⟩

theorem succeeds_runCommand {e : Entity} {id : Nat} {s : Session} {arguments : List String}
    (hnative : ∀ c, e ≠ .custom c) (hlinked : Linked id e s) (hrun : e.isRunnable = true) :
    Succeeds (runCommand within id e arguments) s := by
  cases e with
  | executable x =>
    obtain ⟨path, hpath⟩ := Option.isSome_iff_exists.mp (hlinked x rfl)
    refine .bind (a := s.executables) rfl ?_
    rw [hpath]
    exact ⟨_, _, rfl⟩
  | custom c => exact absurd rfl (hnative c)
  | _ => cases hrun

theorem succeeds_targetRule {e : Entity} (name : String) {id : Nat} {s : Session} (hnative : ∀ c, e ≠ .custom c)
    (hlinked : Linked id e s) (hshown : ∀ path ∈ s.graph.frontier, Displayable p.workspace path) :
    Succeeds (targetRule p within name id e) s := by
  refine .bind (a := s.graph) rfl ?_
  have hdisplay : Succeeds (displayAll p.workspace s.graph.sortedFrontier) s :=
    succeeds_displayAll_iff.mpr fun path hpath => hshown path (Text.mem_sortOn.mp hpath)
  have hrun : Succeeds (commandIf e.isRunnable (runCommand within id e p.runArguments)) s :=
    succeeds_commandIf _ (succeeds_runCommand hnative hlinked)
  have htest : Succeeds (commandIf e.isTestable (testCommand within id e p.testArguments)) s := by
    refine succeeds_commandIf _ fun htestable => ?_
    cases e with
    | executable x =>
      show Succeeds (runCommand within id (.executable x) p.testArguments) s
      exact succeeds_runCommand hnative hlinked rfl
    | custom c => exact absurd rfl (hnative c)
    | _ => cases htestable
  obtain ⟨texts, t, hdisplay⟩ := hdisplay
  obtain ⟨run, u, hrun⟩ := hrun
  obtain ⟨test, v, htest⟩ := htest
  cases (reading_eq.displayAll _ _).ok hdisplay
  cases (reading_eq.commandIf _ (reading_eq.runCommand (fun c _ hc => absurd hc (hnative c)) _ _)).ok hrun
  have hfiles : shownFiles p within e s.graph.sortedFrontier s = .ok s.graph.sortedFrontier s := by
    rw [shownFiles_of_native hnative]
    rfl
  exact .bind hfiles (.bind hdisplay (.bind (a := s.graph) rfl (.bind hrun (.bind htest ⟨_, _, rfl⟩))))

/-! ### One thing -/

/-- A target can need the thing with this number. -/
def Dependable (p : Project) (id : Nat) : Prop := ∃ name, p.targetName? id = some name ∧ isExported name = true

theorem of_depend {id : Nat} {s s' : Session} (h : depend p id s = .ok () s') :
    Dependable p id ∧ ∃ dependencies, s' = { s with graph := { s.graph with dependencies } } := by
  unfold depend at h
  cases hname : p.targetName? id with
  | none =>
    rw [hname] at h
    cases h
  | some name =>
    rw [hname] at h
    by_cases hexported : isExported name = true
    · simp only [hexported] at h
      cases h
      exact ⟨⟨name, hname, hexported⟩, _, rfl⟩
    · simp only [hexported] at h
      cases h

theorem succeeds_depend {id : Nat} (h : Dependable p id) (s : Session) : Succeeds (depend p id) s := by
  obtain ⟨name, hname, hexported⟩ := h
  unfold depend
  rw [hname]
  simp only [hexported]
  exact ⟨_, _, rfl⟩

theorem of_forM_depend {members : List Nat} {s s' : Session} (h : members.forM (depend p) s = .ok () s') :
    (∀ m ∈ members, Dependable p m) ∧ ∃ dependencies, s' = { s with graph := { s.graph with dependencies } } := by
  induction members generalizing s with
  | nil =>
    cases h
    exact ⟨by simp, _, rfl⟩
  | cons m rest ih =>
    obtain ⟨_, t, hdepend, hrest⟩ := bind_eq_ok_iff.mp
      (show (depend p m >>= fun _ => rest.forM (depend p)) s = _ from h)
    obtain ⟨hm, _, rfl⟩ := of_depend hdepend
    obtain ⟨hall, dependencies, rfl⟩ := ih hrest
    exact ⟨List.forall_mem_cons.mpr ⟨hm, hall⟩, dependencies, rfl⟩

theorem succeeds_forM_depend {members : List Nat} (h : ∀ m ∈ members, Dependable p m) (s : Session) :
    Succeeds (members.forM (depend p)) s := by
  induction members generalizing s with
  | nil => exact ⟨_, _, rfl⟩
  | cons m rest ih =>
    obtain ⟨hm, hrest⟩ := List.forall_mem_cons.mp h
    obtain ⟨_, t, hdepend⟩ := succeeds_depend hm s
    exact Succeeds.bind hdepend (ih hrest t)

variable {directory : OutPath} {id : Nat} {e : Entity}
  {s s' : Session} {log : Log}

theorem of_buildEntity {reply : Reply} (he : p.entities[id]? = some e) (hnative : ∀ c, e ≠ .custom c)
    (hs : At directory [] s) (h : buildEntity p within id s = .ok reply s') :
    ∃ marks log, Built p directory (p.entityRequests directory id e) marks s s' log ∧ Linked id e s' ∧
      (∀ members, e = .group members → ∀ m ∈ members, Dependable p m) ∧
      ∀ x, e = .executable x → ∃ before, log.statements = before ++ [p.linkRequest directory x] := by
  rw [buildEntity, entity_bind he] at h
  cases e with
  | custom c => exact absurd rfl (hnative c)
  | group members =>
    obtain ⟨_, t, hmembers, hpure⟩ := bind_eq_ok_iff.mp h
    cases hpure
    obtain ⟨hall, dependencies, rfl⟩ := of_forM_depend hmembers
    refine ⟨[], [], ⟨.nothing rfl rfl rfl rfl, ⟨hs.directory, by simp⟩, by simp [Log.statements], fun _ => rfl⟩,
      ?_, ?_, ?_⟩
    · rintro x ⟨⟩
    · rintro _ ⟨⟩
      exact hall
    · rintro x ⟨⟩
  | objectFile o =>
    obtain ⟨out, t, hout, hpure⟩ := bind_eq_ok_iff.mp h
    cases hpure
    obtain ⟨-, log, hlog⟩ := (does_buildObjectFile p directory o).built s out _ hs hout
    exact ⟨_, log, hlog, by rintro x ⟨⟩, by rintro _ ⟨⟩, by rintro x ⟨⟩⟩
  | library l =>
    obtain ⟨out, t, hout, hpure⟩ := bind_eq_ok_iff.mp h
    cases hpure
    obtain ⟨-, log, hlog⟩ := (does_buildLibrary p directory id l).built s out _ hs hout
    exact ⟨_, log, hlog, by rintro x ⟨⟩, by rintro _ ⟨⟩, by rintro x ⟨⟩⟩
  | executable x =>
    obtain ⟨out, t, hout, hpure⟩ := bind_eq_ok_iff.mp h
    cases hpure
    obtain ⟨marks, log, label, hlog, -, hlinked⟩ := built_buildExecutable p directory hs hout
    refine ⟨marks, _, hlog, ?_, by rintro _ ⟨⟩, ?_⟩
    · rintro _ ⟨⟩
      rw [hlinked]
      rfl
    · rintro _ ⟨⟩
      exact ⟨Log.statements log, by simp⟩
  | inert => cases h

/-- Without a memory, a thing is built if what it asks for is consistent with what there is. -/
theorem succeeds_buildEntity (within : Option Package → Action → SessionM Unit) (hp : p.remembers = false)
    (he : p.entities[id]? = some e) (hnative : ∀ c, e ≠ .custom c)
    (htarget : e.isTarget = true) (hmembers : ∀ members, e = .group members → ∀ m ∈ members, Dependable p m)
    (hs : At directory [] s) (hrecords : s.graph.Records log)
    (hcons : Consistent (log.statements ++ p.entityRequests directory id e)) :
    Succeeds (buildEntity p within id) s := by
  rw [Succeeds, buildEntity, entity_bind he]
  cases e with
  | custom c => exact absurd rfl (hnative c)
  | group members =>
    obtain ⟨_, t, ht⟩ := succeeds_forM_depend (hmembers members rfl) s
    exact Succeeds.bind ht ⟨_, _, rfl⟩
  | objectFile o =>
    obtain ⟨_, t, ht⟩ := (does_buildObjectFile p directory o).succeeds hp s log hs hrecords hcons
    exact Succeeds.bind ht ⟨_, _, rfl⟩
  | library l =>
    obtain ⟨_, t, ht⟩ := (does_buildLibrary p directory id l).succeeds hp s log hs hrecords hcons
    exact Succeeds.bind ht ⟨_, _, rfl⟩
  | executable x =>
    obtain ⟨_, t, ht⟩ := succeeds_buildExecutable p directory hp id hs hrecords hcons
    exact Succeeds.bind ht ⟨_, _, rfl⟩
  | inert => cases htarget

/-! ### One target -/

/-- Nothing but its statements keeps a target from being built: what it needs can be needed, and its executable can be
shown. -/
structure Presentable (p : Project) (name : String) (e : Entity) : Prop where
  members : ∀ members, e = .group members → ∀ m ∈ members, Dependable p m
  shown : ∀ x, e = .executable x → isExported name = true →
    Displayable p.workspace (.out (Executable.out x p.workspace (p.directoryFor name)))

theorem did_enter (p : Project) (name : String) (s : Session) : Did [] s (enter p name s) [] :=
  .nothing rfl rfl rfl rfl

theorem of_handleTarget {name : String} (he : p.entities[id]? = some e) (hnative : ∀ c, e ≠ .custom c)
    (h : handleTarget p within name id s = .ok () s') :
    Presentable p name e ∧ ∃ log, Did (p.entityRequests (p.directoryFor name) id e) s s' log ∧
      (p.remembers = false → log.statements = p.entityRequests (p.directoryFor name) id e) ∧
      ∀ x, e = .executable x → p.linkRequest (p.directoryFor name) x ∈ log.statements := by
  obtain ⟨reply, t, hbuild, hrule, hnone⟩ := handleTarget_eq_ok h
  have hsite : At (p.directoryFor name) [] (inTarget p name s) := ⟨rfl, by simp⟩
  obtain ⟨marks, log, hlog, -, hmembers, hlast⟩ := of_buildEntity he hnative hsite hbuild
  have hbuilt : Built p (p.directoryFor name) (p.entityRequests (p.directoryFor name) id e) marks (enter p name s)
      t.pop log := hlog.block
  have hasked : t.pop.graph.asked = log.statements := hbuilt.asked
  suffices hrest : (isExported name = true → ∀ path ∈ t.pop.graph.frontier, Displayable p.workspace path) ∧
      Did [] t.pop s' [] by
    refine ⟨⟨hmembers, fun x hx hexported => ?_⟩, log, ?_, hlog.all, fun x hx => ?_⟩
    · obtain ⟨before, hbefore⟩ := hlast x hx
      have hout : Path.out (Executable.out x p.workspace (p.directoryFor name)) ∈
          (p.linkRequest (p.directoryFor name) x).outs := List.mem_cons_self
      rcases Graph.mem_frontier_of_last (hasked.trans hbefore) hout with hfrontier | huses
      · exact hrest.1 hexported _ hfrontier
      · exact .inr (Project.absolute_ne_empty_of_linkRequest huses)
    · simpa using (did_enter p name s).trans (hbuilt.did.trans hrest.2)
    · obtain ⟨before, hbefore⟩ := hlast x hx
      rw [hbefore]
      exact List.mem_append_right _ List.mem_cons_self
  by_cases hexported : isExported name = true
  · obtain ⟨e', rule, u, he', htarget, rfl⟩ := hrule hexported
    cases he.symm.trans he'
    obtain ⟨rfl, -, -, hshown⟩ := of_targetRule hnative htarget
    exact ⟨fun _ => hshown, .nothing rfl rfl rfl rfl⟩
  · rw [hnone (Bool.eq_false_iff.mpr hexported)]
    exact ⟨fun h => absurd h hexported, .nothing rfl rfl rfl rfl⟩

theorem succeeds_handleTarget (within : Option Package → Action → SessionM Unit) {name : String}
    (hp : p.remembers = false) (he : p.entities[id]? = some e)
    (hnative : ∀ c, e ≠ .custom c) (htarget : e.isTarget = true) (hpresentable : Presentable p name e)
    (hrecords : s.graph.Records log)
    (hcons : Consistent (log.statements ++ p.entityRequests (p.directoryFor name) id e)) :
    Succeeds (handleTarget p within name id) s := by
  have hsite : At (p.directoryFor name) [] ((enter p name s).push ("top:" ++ name)) := ⟨rfl, by simp⟩
  obtain ⟨reply, t, hbuild⟩ := succeeds_buildEntity within hp he hnative htarget hpresentable.members hsite
    (hrecords.of_eq rfl rfl rfl) hcons
  obtain ⟨marks, log', hlog, hlinked, -, -⟩ := of_buildEntity he hnative hsite hbuild
  have hasked : t.pop.graph.asked = p.entityRequests (p.directoryFor name) id e := hlog.block.asked.trans (hlog.all hp)
  have htraced : traced ("top:" ++ name) (buildEntity p within id) (enter p name s) = .ok reply t.pop :=
    traced_eq_ok_iff.mpr ⟨t, hbuild, rfl⟩
  have hrule : Succeeds (if isExported name = true then (do
      let rule ← targetRule p within name id (← entity p id)
      changeGraph fun g => { g with targetRules := g.targetRules ++ [rule] }) else pure ()) t.pop := by
    split
    case isTrue hexported =>
      have hshown : ∀ path ∈ t.pop.graph.frontier, Displayable p.workspace path := by
        intro path hpath
        obtain ⟨r, hr, hout⟩ := Graph.exists_of_mem_frontier hpath
        rw [hasked] at hr
        rcases Project.absolute_ne_empty_or hr hout with hne | ⟨x, rfl, rfl⟩
        · exact .inr hne
        · exact hpresentable.shown x rfl hexported
      have hlinked' : Linked id e t.pop := hlinked
      obtain ⟨rule, u, hrule⟩ := succeeds_targetRule name hnative hlinked' hshown
      rw [Succeeds, entity_bind he]
      exact Succeeds.bind hrule ⟨_, _, rfl⟩
    case isFalse => exact ⟨_, _, rfl⟩
  obtain ⟨_, u, hrule⟩ := hrule
  have hduring : during name (do
      discard (traced ("top:" ++ name) (buildEntity p within id))
      if isExported name = true then
        let rule ← targetRule p within name id (← entity p id)
        changeGraph fun g => { g with targetRules := g.targetRules ++ [rule] }) (enter p name s) = .ok () u :=
    during_eq_ok_iff.mpr (bind_eq_ok_iff.mpr ⟨(), t.pop, bind_eq_ok_iff.mpr ⟨reply, t.pop, htraced, rfl⟩, hrule⟩)
  exact Succeeds.bind (t := enter p name s) rfl (.bind hduring ⟨_, _, rfl⟩)

/-! ### All targets -/

/-- Nothing but its statements keeps the target with a name from being built. -/
def Ready (p : Project) (name : String) : Prop :=
  ∀ id, Assoc.find? p.targets name = some id → ∃ e, p.entities[id]? = some e ∧ Presentable p name e

theorem targetRequests_eq {name : String} (hid : Assoc.find? p.targets name = some id)
    (he : p.entities[id]? = some e) : p.targetRequests name = p.entityRequests (p.directoryFor name) id e := by
  simp only [Project.targetRequests, hid, he]
  rfl

theorem not_custom_of_native {name : String} (hnative : p.IsNative) (hid : Assoc.find? p.targets name = some id)
    (he : p.entities[id]? = some e) : ∀ c, e ≠ .custom c := fun c hc =>
  hnative (name, id) (Assoc.mem_of_find? hid) c (he.trans (congrArg some hc))

theorem of_processTarget {name : String} (hnative : p.IsNative) (h : processTarget p within name s = .ok () s') :
    Ready p name ∧ ∃ log, Did (p.targetRequests name) s s' log ∧
      (p.remembers = false → log.statements = p.targetRequests name) := by
  rcases processTarget_eq_ok h with ⟨hid, rfl⟩ | ⟨id, e, hid, he, hhandled⟩
  · rw [Project.targetRequests, hid]
    exact ⟨fun id hid' => by simp [hid] at hid', [], .nothing rfl rfl rfl rfl, fun _ => rfl⟩
  · have hready : Presentable p name e → Ready p name := by
      intro hpresentable id' hid'
      rw [hid] at hid'
      cases hid'
      exact ⟨e, he, hpresentable⟩
    rw [targetRequests_eq hid he]
    rcases hhandled with ⟨htarget, rfl⟩ | ⟨-, hhandle⟩
    · cases e with
      | inert => exact ⟨hready ⟨by rintro _ ⟨⟩, by rintro _ ⟨⟩⟩, [], .nothing rfl rfl rfl rfl, fun _ => rfl⟩
      | _ => cases htarget
    · obtain ⟨hpresentable, log, hdid, hall, -⟩ := of_handleTarget he (not_custom_of_native hnative hid he) hhandle
      exact ⟨hready hpresentable, log, hdid, hall⟩

theorem succeeds_processTarget (within : Option Package → Action → SessionM Unit) {name : String}
    (hp : p.remembers = false) (hnative : p.IsNative) (hready : Ready p name)
    (hrecords : s.graph.Records log) (hcons : Consistent (log.statements ++ p.targetRequests name)) :
    Succeeds (processTarget p within name) s := by
  unfold processTarget
  cases hid : Assoc.find? p.targets name with
  | none => exact ⟨(), s, rfl⟩
  | some id =>
    obtain ⟨e, he, hpresentable⟩ := hready id hid
    have hcustom : ∀ c, e ≠ .custom c := not_custom_of_native hnative hid he
    rw [targetRequests_eq hid he] at hcons
    simp only [Succeeds, entity_bind he]
    split
    case isTrue htarget => exact succeeds_handleTarget within hp he hcustom htarget hpresentable hrecords hcons
    case isFalse => exact ⟨(), s, rfl⟩

theorem of_forM_processTarget {names : List String} (hnative : p.IsNative)
    (h : names.forM (processTarget p within) s = .ok () s') :
    (∀ name ∈ names, Ready p name) ∧ ∃ log, Did (names.flatMap p.targetRequests) s s' log ∧
      (p.remembers = false → log.statements = names.flatMap p.targetRequests) := by
  induction names generalizing s with
  | nil =>
    cases h
    exact ⟨by simp, [], .nothing rfl rfl rfl rfl, fun _ => rfl⟩
  | cons name rest ih =>
    obtain ⟨_, t, hname, hrest⟩ := bind_eq_ok_iff.mp
      (show (processTarget p within name >>= fun _ => rest.forM (processTarget p within)) s = _ from h)
    obtain ⟨hready, log, hdid, hall⟩ := of_processTarget hnative hname
    obtain ⟨hready', log', hdid', hall'⟩ := ih hrest
    refine ⟨List.forall_mem_cons.mpr ⟨hready, hready'⟩, log ++ log', hdid.trans hdid', fun hp => ?_⟩
    rw [Log.statements_append, hall hp, hall' hp, List.flatMap_cons]

theorem succeeds_forM_processTarget (within : Option Package → Action → SessionM Unit)
    {names : List String} (hp : p.remembers = false) (hnative : p.IsNative)
    (hready : ∀ name ∈ names, Ready p name) (hrecords : s.graph.Records log)
    (hcons : Consistent (log.statements ++ names.flatMap p.targetRequests)) :
    Succeeds (names.forM (processTarget p within)) s := by
  induction names generalizing s log with
  | nil => exact ⟨(), s, rfl⟩
  | cons name rest ih =>
    obtain ⟨hname, hrest⟩ := List.forall_mem_cons.mp hready
    rw [List.flatMap_cons, ← List.append_assoc] at hcons
    obtain ⟨_, t, ht⟩ := succeeds_processTarget within hp hnative hname hrecords (hcons.subset (by simp))
    obtain ⟨-, log', hdid, hall⟩ := of_processTarget hnative ht
    refine Succeeds.bind ht (ih hrest (hdid.records log hrecords) ?_)
    rwa [Log.statements_append, hall hp]

/-- If all that has been asked for is consistent, nothing of it was passed over that differs from what came to the
graph. -/
theorem Did.subset_of_consistent {requests : List Statement} (h : Did requests s s' log) (hbuilt : s.graph.built = [])
    (hcons : Consistent requests) : requests ⊆ log.statements := by
  have hmarked : ∀ r ∈ requests, r.IsMarked s'.graph.built → r ∈ log.statements := by
    rintro r hr ⟨out, hout, hmark⟩
    rcases h.backed _ hmark with hmark | ⟨t, ht, -, out', hout', heq⟩
    · rw [hbuilt] at hmark
      cases hmark
    · rwa [← (hcons.agrees (h.taken ht) hr).outs out' hout' out hout heq]
  intro r hr
  rcases h.settled r hr with hlog | hmark | ⟨a, ha, hpack, hmark, out, hout, hinput⟩
  · exact hlog
  · exact hmarked r hr hmark
  · have huses : out ∈ a.uses := List.mem_append_left _ (List.mem_append_left _ hinput)
    exact hmarked r hr ⟨out, hout, h.inputs a (hmarked a ha hmark) hpack out huses⟩

end Session

/-- The project without a memory of what has been built. -/
def Project.forgetful (p : Project) : Project := { p with remembers := false }

theorem Session.Ready.forgetful {p : Project} {name : String} (h : Session.Ready p name) :
    Session.Ready p.forgetful name := by
  intro id hid
  obtain ⟨e, he, hmembers, hshown⟩ := h id hid
  exact ⟨e, he, hmembers, hshown⟩

theorem finalGraph_eq_ok_iff {p : Project} {s s' : Session} {g : Graph} :
    finalGraph p s = .ok g s' ↔
      p.targetNames.forM (Session.processTarget p (Session.reported (Session.perform p (nestingLimit - 1)))) s =
        .ok () s' ∧ g = s'.graph := by
  unfold finalGraph
  constructor
  · intro h
    obtain ⟨_, t, hdiscard, hget⟩ := bind_eq_ok_iff.mp h
    cases hget
    obtain ⟨reply, u, hperform, hpure⟩ := bind_eq_ok_iff.mp hdiscard
    cases hpure
    obtain ⟨_, v, hsite, hact⟩ := bind_eq_ok_iff.mp hperform
    cases hsite
    obtain ⟨_, w, hprocess, hpure⟩ := bind_eq_ok_iff.mp hact
    cases hpure
    exact ⟨hprocess, rfl⟩
  · rintro ⟨h, rfl⟩
    have hperform : Session.perform p nestingLimit none .processTargets s = .ok .nothing s' :=
      bind_eq_ok_iff.mpr ⟨_, s, rfl, bind_eq_ok_iff.mpr ⟨(), s', h, rfl⟩⟩
    exact bind_eq_ok_iff.mpr ⟨(), s', bind_eq_ok_iff.mpr ⟨_, s', hperform, rfl⟩, rfl⟩

/-- **When a build that remembers succeeds, the build that forgets succeeds exactly if nothing that the targets ask for
differs from what has been built**, and then it builds the same. -/
theorem finalGraph_forgetting (p : Project) (hnative : p.IsNative) (settings : Settings) (g : Graph) (s : Session)
    (hrun : finalGraph p (p.start settings) = .ok g s) :
    (Succeeds (finalGraph p.forgetful) (p.forgetful.start settings) ↔ ∀ r ∈ p.requests, r ∈ g.statements) ∧
    ∀ g' s', finalGraph p.forgetful (p.forgetful.start settings) = .ok g' s' →
      g'.sortedStatements = g.sortedStatements := by
  have hempty : (p.start settings).graph.Records [] := .empty p.workspace
  obtain ⟨hprocess, rfl⟩ := finalGraph_eq_ok_iff.mp hrun
  obtain ⟨hready, log, hdid, -⟩ := Session.of_forM_processTarget hnative hprocess
  have hrecords : s.graph.Records log := hdid.records [] hempty
  -- what the build that forgets comes to, when it succeeds
  have hforgets : ∀ g' s', finalGraph p.forgetful (p.forgetful.start settings) = .ok g' s' →
      ∃ log' : Log, log'.statements = p.requests ∧ g'.Records log' := by
    intro g' s' hrun'
    obtain ⟨hprocess', rfl⟩ := finalGraph_eq_ok_iff.mp hrun'
    obtain ⟨-, log', hdid', hall⟩ := Session.of_forM_processTarget (p := p.forgetful) hnative hprocess'
    exact ⟨log', hall rfl, hdid'.records [] hempty⟩
  have hsubset : Consistent p.requests → ∀ r ∈ p.requests, r ∈ s.graph.statements := fun hcons r hr =>
    (hrecords.mem_statements r).mpr (hdid.subset_of_consistent rfl hcons hr)
  refine ⟨⟨?_, fun hall => ?_⟩, fun g' s' hrun' => ?_⟩
  · rintro ⟨g', s', hrun'⟩
    obtain ⟨log', hlog', hrecords'⟩ := hforgets g' s' hrun'
    exact hsubset (hlog' ▸ hrecords'.consistent)
  · have hcons : Consistent p.requests :=
      hrecords.consistent.subset fun r hr => (hrecords.mem_statements r).mp (hall r hr)
    obtain ⟨_, t, ht⟩ := Session.succeeds_forM_processTarget (p := p.forgetful) _ rfl hnative
      (fun name hname => (hready name hname).forgetful) hempty hcons
    exact ⟨t.graph, t, finalGraph_eq_ok_iff.mpr ⟨ht, rfl⟩⟩
  · obtain ⟨log', hlog', hrecords'⟩ := hforgets g' s' hrun'
    refine Graph.sortedStatements_eq hrecords'.edges.wellFormed hrecords.edges.wellFormed fun r => ?_
    rw [hrecords'.mem_statements, hlog']
    constructor
    · exact hsubset (hlog' ▸ hrecords'.consistent) r
    · exact fun hr => hdid.taken ((hrecords.mem_statements r).mp hr)

/-- Two executables with one source file, which is compiled with the given flags for each of them. -/
def twoExecutables (flags flags' : List String) : Project :=
  let w : Workspace := { sourceDir := "/src", buildRoot := "/out" }
  { workspace := w
    entities := [.executable { name := "a", srcs := [w.source "main.cc"], compilerFlags := flags },
      .executable { name := "b", srcs := [w.source "main.cc"], compilerFlags := flags' }]
    targets := [("A", 0), ("B", 1)] }

theorem isNative_twoExecutables (flags flags' : List String) : (twoExecutables flags flags').IsNative := by
  rintro entry hentry c hc
  rcases List.mem_cons.mp hentry with rfl | hentry
  · cases hc
  · rw [List.mem_singleton.mp hentry] at hc
    cases hc

theorem finalGraph_forgetting_sample : ∃ g s,
    finalGraph (twoExecutables [] []) ((twoExecutables [] []).start {}) = .ok g s ∧
      ∀ r ∈ (twoExecutables [] []).requests, r ∈ g.statements := by
  have hruns : Succeeds (finalGraph (twoExecutables [] [])) ((twoExecutables [] []).start {}) := by decide +kernel
  obtain ⟨g, s, hrun⟩ := hruns
  have hforgets := (finalGraph_forgetting _ (isNative_twoExecutables [] []) {} g s hrun).1
  exact ⟨g, s, hrun, hforgets.mp (by decide +kernel)⟩

/-- A file that is compiled in two ways is built in the first one, and what asks for the second is passed over. -/
theorem forgetting_can_fail : (twoExecutables ["-DA"] ["-DB"]).IsNative ∧
    Succeeds (finalGraph (twoExecutables ["-DA"] ["-DB"])) ((twoExecutables ["-DA"] ["-DB"]).start {}) ∧
    ¬Succeeds (finalGraph (twoExecutables ["-DA"] ["-DB"]).forgetful)
      ((twoExecutables ["-DA"] ["-DB"]).forgetful.start {}) :=
  ⟨isNative_twoExecutables _ _, by decide +kernel, by decide +kernel⟩

end BuildPlan
