import BuildPlan.Proofs.Build.Forgetting
import BuildPlan.Proofs.Build.Frontier

/-!
# Which targets stand for what they are built into

The rule of an exported executable always stands for the file that is linked. The rule of an exported library stands for
its archive exactly if no target that comes earlier reaches an archive in the same place. If one does, that place is
marked, the build of the library asks for nothing, and the frontier of its target stays empty. What a target has left
stays in the graph, whatever programs the targets have that come later: `Session.Retains`.
-/

namespace BuildPlan

theorem Text.mem_before_iff {before after : List String} {name text : String}
    (hsorted : (before ++ name :: after).Pairwise (· ≤ ·)) (hnew : name ∉ before) :
    text ∈ before ↔ text ∈ before ++ name :: after ∧ text < name := by
  obtain ⟨-, hrest, hle⟩ := List.pairwise_append.mp hsorted
  constructor
  · intro h
    refine ⟨List.mem_append_left _ h, String.not_le.mp fun hge => hnew ?_⟩
    rwa [← String.le_antisymm (hle text h name List.mem_cons_self) hge]
  · rintro ⟨h, hlt⟩
    rcases List.mem_append.mp h with h | h
    · exact h
    · rcases List.mem_cons.mp h with rfl | h
      · exact absurd hlt (String.lt_irrefl _)
      · exact absurd hlt (String.not_lt.mpr ((List.pairwise_cons.mp hrest).1 text h))

namespace Project

variable {p : Project} {name : String} {directory : OutPath}

/-- The archives that a thing reaches. -/
def entityArchives (p : Project) (directory : OutPath) : Entity → List OutPath
  | .library l => [Library.out l p.workspace directory]
  | .executable x =>
    (p.entities.libraryClosure (ExecutableOf.deps x)).map fun dep => Library.out dep.2 p.workspace directory
  | .objectFile _ | .group _ | .custom _ | .inert => []

/-- The archives that a target reaches. -/
def archives (p : Project) (name : String) : List OutPath :=
  match Assoc.find? p.targets name with
  | some id => ((p.entities[id]?).map (p.entityArchives (p.directoryFor name))).getD []
  | none => []

theorem mem_archives_iff {archive : OutPath} : archive ∈ p.archives name ↔ ∃ id e,
    Assoc.find? p.targets name = some id ∧ p.entities[id]? = some e ∧
      archive ∈ p.entityArchives (p.directoryFor name) e := by
  unfold archives
  cases Assoc.find? p.targets name with
  | none => simp
  | some id => cases he : p.entities[id]? <;> simp [he]

theorem mem_targetRequests_iff {r : Statement} : r ∈ p.targetRequests name ↔ ∃ id e,
    Assoc.find? p.targets name = some id ∧ p.entities[id]? = some e ∧
      r ∈ p.entityRequests (p.directoryFor name) id e := by
  unfold targetRequests
  cases Assoc.find? p.targets name with
  | none => simp
  | some id => cases he : p.entities[id]? <;> simp [he]

theorem exists_request_of_mem_archives {archive : OutPath} (h : archive ∈ p.archives name) :
    ∃ r ∈ p.targetRequests name, r.IsArchive ∧ r.outs = [.out archive] := by
  obtain ⟨id, e, hid, he, harchive⟩ := mem_archives_iff.mp h
  suffices hr : ∃ r ∈ p.entityRequests (p.directoryFor name) id e, r.IsArchive ∧ r.outs = [.out archive] by
    obtain ⟨r, hr, hsort⟩ := hr
    exact ⟨r, mem_targetRequests_iff.mpr ⟨id, e, hid, he, hr⟩, hsort⟩
  cases e with
  | library l =>
    cases List.mem_singleton.mp harchive
    exact ⟨_, List.mem_append_right _ List.mem_cons_self, p.isArchive_archiveRequest _ id l, rfl⟩
  | executable x =>
    obtain ⟨dep, hdep, rfl⟩ := List.mem_map.mp harchive
    have hmem : p.archiveRequest (p.directoryFor name) dep.1 dep.2 ∈
        p.libraryRequests (p.directoryFor name) dep.1 dep.2 := List.mem_append_right _ List.mem_cons_self
    refine ⟨_, List.mem_append_left _ (List.mem_append_right _ (List.mem_flatMap.mpr ⟨dep, hdep, hmem⟩)), ?_, rfl⟩
    exact p.isArchive_archiveRequest _ dep.1 dep.2
  | objectFile _ | group _ | custom _ | inert => cases harchive

theorem eq_out_of_libraryRequests {id : Nat} {l m : Library} {r : Statement} {path : Path} {place : OutPath}
    (hr : r ∈ p.libraryRequests directory id l) (hpath : path ∈ r.outs)
    (heq : path.absolute = (Library.out m p.workspace place).absolute) :
    path = .out (Library.out l p.workspace directory) := by
  rcases List.mem_append.mp hr with hr | hr
  · obtain ⟨o, -, rfl⟩ := List.mem_map.mp hr
    exact absurd heq (ObjectFile.absolute_ne_of_request hpath m place)
  · rw [List.mem_singleton.mp hr] at hpath
    exact List.mem_singleton.mp hpath

theorem exists_archive_of_request {l : Library} {r : Statement} {path : Path}
    (hr : r ∈ p.targetRequests name) (hlink : ¬r.IsLink) (hpath : path ∈ r.outs)
    (heq : path.absolute = (Library.out l p.workspace directory).absolute) :
    ∃ archive ∈ p.archives name, path = .out archive := by
  obtain ⟨id, e, hid, he, hr⟩ := mem_targetRequests_iff.mp hr
  suffices h : ∃ archive ∈ p.entityArchives (p.directoryFor name) e, path = .out archive by
    obtain ⟨archive, hmem, hpath⟩ := h
    exact ⟨archive, mem_archives_iff.mpr ⟨id, e, hid, he, hmem⟩, hpath⟩
  cases e with
  | objectFile o =>
    rw [List.mem_singleton.mp hr] at hpath
    exact absurd heq (ObjectFile.absolute_ne_of_request hpath l directory)
  | library m => exact ⟨_, List.mem_cons_self, eq_out_of_libraryRequests hr hpath heq⟩
  | executable x =>
    rcases List.mem_append.mp hr with hr | hr
    · rcases List.mem_append.mp hr with hr | hr
      · obtain ⟨o, -, rfl⟩ := List.mem_map.mp hr
        exact absurd heq (ObjectFile.absolute_ne_of_request hpath l directory)
      · obtain ⟨dep, hdep, hr⟩ := List.mem_flatMap.mp hr
        exact ⟨_, List.mem_map_of_mem hdep, eq_out_of_libraryRequests hr hpath heq⟩
    · rw [List.mem_singleton.mp hr] at hlink
      exact absurd (p.isLink_linkRequest _ x) hlink
  | group _ | custom _ | inert => cases hr

/-- The rule has the commands of an executable that is built as the target with this name. -/
structure Commands (p : Project) (name : String) (x : Executable) (rule : TargetRule) : Prop where
  named : rule.name = name
  run : rule.run =
    some (Shell.joinWords ((x.out p.workspace (p.directoryFor name)).absolute :: p.runArguments))
  test : x.isTest = true → rule.test =
    some (Shell.joinWords ((x.out p.workspace (p.directoryFor name)).absolute :: p.testArguments))

end Project

namespace Session

variable {p : Project} {within : Option Package → Action → SessionM Unit} {name : String} {id depth : Nat}
  {x : Executable} {s s' t : Session} {log : Log}

/-! ### Marks -/

/-- The place of an archive is marked exactly if some target has reached an archive there. -/
theorem Did.marked_iff {names : List String} (h : Did (names.flatMap p.targetRequests) s t log)
    (hbuilt : s.graph.built = []) (l : Library) (directory : OutPath) :
    (Library.out l p.workspace directory).absolute ∈ t.graph.built ↔
      ∃ earlier ∈ names, ∃ archive ∈ p.archives earlier,
        archive.absolute = (Library.out l p.workspace directory).absolute := by
  constructor
  · intro hmark
    rcases h.backed _ hmark with hmark | ⟨r, hr, hlink, path, hpath, heq⟩
    · rw [hbuilt] at hmark
      cases hmark
    · obtain ⟨earlier, hearlier, hr⟩ := List.mem_flatMap.mp (h.taken hr)
      obtain ⟨archive, harchive, rfl⟩ := Project.exists_archive_of_request hr hlink hpath heq
      exact ⟨earlier, hearlier, archive, harchive, heq⟩
  · rintro ⟨earlier, hearlier, archive, harchive, heq⟩
    obtain ⟨r, hr, hsort, houts⟩ := Project.exists_request_of_mem_archives harchive
    obtain ⟨path, hpath, hmark⟩ := h.archived r (List.mem_flatMap.mpr ⟨earlier, hearlier, hr⟩) hsort
    rw [houts, List.mem_singleton] at hpath
    subst hpath
    rwa [← heq]

/-- A link does not use what it makes: what it uses is marked, so something else than a link has made it. -/
theorem Did.notMem_uses_of_isLink {requests : List Statement} (h : Did requests s t log) (hbuilt : s.graph.built = [])
    (hrecords : s.graph.Records []) {r : Statement} (hr : r ∈ log.statements) (hlink : r.IsLink)
    (hpack : r.rule.compdb = false) {path : Path} (hpath : path ∈ r.outs) : path ∉ r.uses := by
  intro huses
  have hmark : path.absolute ∈ t.graph.built := h.inputs r hr hpack path huses
  rcases h.backed _ hmark with hmark | ⟨m, hm, hother, made, hmade, heq⟩
  · rw [hbuilt] at hmark
    cases hmark
  · have hcons : Consistent log.statements := (h.records [] hrecords).consistent
    have hsame : m = r := (hcons.agrees hm hr).outs made hmade path hpath heq
    exact hother (hsame ▸ hlink)

/-! ### One target -/

/-- The build of a library either does nothing, because the archive is marked, or asks for the archive last. -/
theorem asked_buildLibrary {directory : OutPath} {l : Library} {out : OutPath} (hs : At directory [] s)
    (h : buildLibrary p id l s = .ok out s') :
    (p.remembers = true ∧ (Library.out l p.workspace directory).absolute ∈ s.graph.built) ∧ s' = s ∨
    ¬(p.remembers = true ∧ (Library.out l p.workspace directory).absolute ∈ s.graph.built) ∧
      ∃ before, s'.graph.asked = before ++ [p.archiveRequest directory id l] := by
  rw [buildLibrary_eq p directory id l hs.directory, unlessBuilt_eq] at h
  split at h
  case isTrue hmark =>
    cases h
    exact .inl ⟨hmark, rfl⟩
  case isFalse hmark =>
    obtain ⟨_, u, hbuild, hpure⟩ := bind_eq_ok_iff.mp h
    cases hpure
    obtain ⟨t, hop, rfl⟩ := traced_eq_ok_iff.mp hbuild
    obtain ⟨objects, t', hobjects, hadd⟩ := bind_eq_ok_iff.mp hop
    have hsite : At directory [] ((s.mark (Library.out l p.workspace directory).absolute).push
        ("lib:" ++ (Library.out l p.workspace directory).rel)) := ⟨hs.directory, by simp⟩
    obtain ⟨rfl, -⟩ := (does_objectFiles p directory (p.libraryObjects id l)).built _ _ _ hsite hobjects
    exact .inr ⟨hmark, _, (addStep_asked (by simp [AnyStep.outs, Library.step]) hadd).1⟩

theorem exists_rule (hnative : ∀ c, p.entities[id]? ≠ some (.custom c)) (hexported : isExported name = true)
    (h : handleTarget p (reported (perform p depth)) name id s = .ok () s') :
    ∃ reply t rule, buildEntity p (reported (perform p depth)) id (inTarget p name s) = .ok reply t ∧
      s'.graph.targetRules = s.graph.targetRules ++ [rule] ∧ rule.name = name ∧
      ∀ path, path ∈ rule.inputs ↔ path ∈ t.graph.frontier := by
  have hhandles := p.handlesNoTargets_of_native hnative
  obtain ⟨reply, t, rule, hbuild, hrule, hname, hinputs⟩ := targetRules_of_exported hexported hhandles h
  obtain ⟨steps, hsteps⟩ := (addsSome_buildEntity hhandles depth).ok hbuild
  refine ⟨reply, t, rule, hbuild, hrule.trans ?_, hname, fun path => ?_⟩
  · rw [hsteps.asked.2]
    rfl
  · rw [hinputs, Graph.mem_sortedFrontier]

theorem exists_rule_library {l : Library} (he : p.entities[id]? = some (.library l)) (hexported : isExported name = true)
    (h : handleTarget p (reported (perform p depth)) name id s = .ok () s') :
    ∃ rule, s'.graph.targetRules = s.graph.targetRules ++ [rule] ∧ rule.name = name ∧
      (.out (Library.out l p.workspace (p.directoryFor name)) ∈ rule.inputs ↔
        ¬(p.remembers = true ∧ (Library.out l p.workspace (p.directoryFor name)).absolute ∈ s.graph.built)) := by
  obtain ⟨reply, t, rule, hbuild, hrules, hname, hinputs⟩ := exists_rule (by simp [he]) hexported h
  refine ⟨rule, hrules, hname, (hinputs _).trans ?_⟩
  rw [buildEntity, entity_bind he] at hbuild
  obtain ⟨out, u, hlibrary, hpure⟩ := bind_eq_ok_iff.mp hbuild
  cases hpure
  have hsite : At (p.directoryFor name) [] (inTarget p name s) := ⟨rfl, by simp⟩
  rcases asked_buildLibrary hsite hlibrary with ⟨hmark, rfl⟩ | ⟨hmark, before, hasked⟩
  · have hempty : (inTarget p name s).graph.frontier = [] := rfl
    rw [hempty]
    exact iff_of_false List.not_mem_nil (not_not_intro hmark)
  · refine iff_of_true ?_ hmark
    rcases Graph.mem_frontier_of_last hasked List.mem_cons_self with hmem | huses
    · exact hmem
    · rw [Project.uses_archiveRequest] at huses
      obtain ⟨o, -, heq⟩ := List.mem_map.mp huses
      exact absurd (congrArg Path.absolute heq) (o.absolute_out_ne l _ _)

theorem exists_rule_executable {x : Executable} (he : p.entities[id]? = some (.executable x))
    (hexported : isExported name = true) (h : handleTarget p (reported (perform p depth)) name id s = .ok () s') :
    ∃ rule, s'.graph.targetRules = s.graph.targetRules ++ [rule] ∧ rule.name = name ∧
      (.out (Executable.out x p.workspace (p.directoryFor name)) ∈ rule.inputs ∨
        .out (Executable.out x p.workspace (p.directoryFor name)) ∈ (p.linkRequest (p.directoryFor name) x).uses) := by
  obtain ⟨reply, t, rule, hbuild, hrules, hname, hinputs⟩ := exists_rule (by simp [he]) hexported h
  refine ⟨rule, hrules, hname, ?_⟩
  have hsite : At (p.directoryFor name) [] (inTarget p name s) := ⟨rfl, by simp⟩
  obtain ⟨marks, log, hlog, -, -, hlast⟩ := of_buildEntity he (by rintro c ⟨⟩) hsite hbuild
  obtain ⟨before, hbefore⟩ := hlast x rfl
  have hasked : t.graph.asked = before ++ [p.linkRequest (p.directoryFor name) x] := hlog.asked.trans hbefore
  rw [hinputs]
  exact Graph.mem_frontier_of_last hasked List.mem_cons_self

theorem runCommand_executable_eq_ok {path : Path} {arguments : List String} {command : String}
    (hlinked : Assoc.find? s.executables id = some path)
    (h : runCommand within id (.executable x) arguments s = .ok command s') :
    command = Shell.joinWords (path.absolute :: arguments) := by
  obtain ⟨_, _, hget, h⟩ := bind_eq_ok_iff.mp (show executableCommand id x arguments s = _ from h)
  cases hget
  rw [hlinked] at h
  cases h
  rfl

/-- What the handling of an executable leaves: its link, and its commands if it is exported. -/
theorem of_handleTarget_executable (he : p.entities[id]? = some (.executable x))
    (h : handleTarget p within name id s = .ok () s') :
    p.linkRequest (p.directoryFor name) x ∈ s'.graph.statements ∧
      (isExported name = true → ∃ rule ∈ s'.graph.targetRules, p.Commands name x rule) := by
  obtain ⟨reply, t, hbuild, hrule, hnone⟩ := handleTarget_eq_ok h
  rw [buildEntity, entity_bind he] at hbuild
  obtain ⟨_, u, hexecutable, hpure⟩ := bind_eq_ok_iff.mp hbuild
  cases hpure
  have hsite : At (p.directoryFor name) [] (inTarget p name s) := ⟨rfl, by simp⟩
  obtain ⟨-, -, -, -, hlink, hlinked⟩ := built_buildExecutable p _ hsite hexecutable
  by_cases hexported : isExported name = true
  · obtain ⟨e, rule, v, he', hmake, rfl⟩ := hrule hexported
    cases he.symm.trans he'
    have hname := (targetRule_eq_ok hmake).1
    obtain ⟨rfl, hrun, htest, -⟩ := of_targetRule (by rintro c ⟨⟩) hmake
    have hlinked : Assoc.find? t.pop.executables id = some _ := hlinked
    refine ⟨hlink, fun _ => ⟨rule, List.mem_append_right _ List.mem_cons_self, hname, ?_, fun hx => ?_⟩⟩
    · obtain ⟨line, hcommand, hline⟩ := commandIf_eq_ok hrun
      rw [hline, runCommand_executable_eq_ok hlinked hcommand]
      rfl
    · have htestable : (EntityOf.executable x).isTestable = true := hx
      rw [htestable] at htest
      obtain ⟨line, hcommand, hline⟩ := commandIf_eq_ok htest
      have hcommand : runCommand within id (.executable x) p.testArguments _ = .ok line _ := hcommand
      rw [hline, runCommand_executable_eq_ok hlinked hcommand]
      rfl
  · rw [hnone (Bool.eq_false_iff.mpr hexported)]
    exact ⟨hlink, fun h => absurd h hexported⟩

/-! ### What stays in a graph -/

/-- No statement of the graph and no rule of a target is lost. -/
structure Retains (s t : Session) : Prop where
  statements : s.graph.statements ⊆ t.graph.statements
  targetRules : s.graph.targetRules ⊆ t.graph.targetRules

namespace Retains

theorem of_eq (hedges : t.graph.edges = s.graph.edges) (hrules : t.graph.targetRules = s.graph.targetRules) :
    Retains s t where
  statements := by rw [Graph.statements, Graph.statements, hedges]; exact List.Subset.refl _
  targetRules := hrules ▸ List.Subset.refl _

theorem stable : Stable Retains where
  refl _ := .of_eq rfl rfl
  trans h h' := ⟨List.Subset.trans h.statements h'.statements, List.Subset.trans h.targetRules h'.targetRules⟩
  registry _ _ := .of_eq rfl rfl
  payload _ _ _ := .of_eq rfl rfl
  reports _ _ := .of_eq rfl rfl
  executables _ _ := .of_eq rfl rfl
  built _ _ := .of_eq rfl rfl
  dependencies _ _ := .of_eq rfl rfl
  targetRules _ _ _ := ⟨List.Subset.refl _, List.subset_append_left _ _⟩
  startTarget _ _ _ := .of_eq rfl rfl
  finishTarget _ := .of_eq rfl rfl
  declare _ _ _ h := by
    obtain ⟨rules, rfl⟩ := Graph.declare_eq h
    exact .of_eq rfl rfl
  accept _ _ _ _ _ _ h := by
    refine ⟨fun r hr => (Graph.mem_statements_of_accept h r).mpr (.inl hr), ?_⟩
    rcases Graph.accept_cases h with ⟨_, _, -, -, -, rfl⟩ | ⟨-, rfl⟩ <;> exact List.Subset.refl _
  traced _ _ _ h := ⟨h.statements, h.targetRules⟩

theorem forM_processTarget {names : List String}
    (h : names.forM (processTarget p (reported (perform p depth))) s = .ok () s') : Retains s s' := by
  have hclosed := Keeps.closed Retains.stable p
  have hall : p.RunsOnly fun _ => True := fun _ _ _ _ => trivial
  have hfiles := keeps_writeBuildFile Retains.stable.toLasting fun _ _ => .of_eq rfl rfl
  have hperform : ∀ package a, Keeps Retains (discard (perform p depth package a)) := fun package a =>
    hclosed.perform hall (fun _ _ _ _ => trivial) (fun directory fileName _ => hfiles directory fileName) depth package
      trivial
  have hwithin : ∀ package a, True → Keeps Retains (reported (perform p depth) package a) := fun package a _ =>
    hclosed.reported (hperform package a)
  exact (hclosed.forM fun name _ => hclosed.processTarget hall hwithin name).ok h

end Retains

/-! ### All targets -/

theorem targetRules_processTarget (hnative : p.IsNative)
    (h : processTarget p (reported (perform p depth)) name s = .ok () s') :
    ∃ rules, s'.graph.targetRules = s.graph.targetRules ++ rules ∧ ∀ rule ∈ rules, rule.name = name := by
  rcases processTarget_eq_ok h with ⟨-, rfl⟩ | ⟨id, e, hid, he, ⟨-, rfl⟩ | ⟨-, hhandle⟩⟩
  · exact ⟨[], by simp, by simp⟩
  · exact ⟨[], by simp, by simp⟩
  · have hcustom : ∀ c, p.entities[id]? ≠ some (.custom c) := fun c hc =>
      not_custom_of_native hnative hid he c (Option.some.inj (he.symm.trans hc))
    by_cases hexported : isExported name = true
    · obtain ⟨_, _, rule, -, hrules, hname, -⟩ := exists_rule hcustom hexported hhandle
      exact ⟨[rule], hrules, by simpa using hname⟩
    · obtain ⟨reply, t, hbuild, -, hnone⟩ := handleTarget_eq_ok hhandle
      obtain ⟨steps, hsteps⟩ := (addsSome_buildEntity (p.handlesNoTargets_of_native hcustom) depth).ok hbuild
      refine ⟨[], ?_, by simp⟩
      rw [hnone (Bool.eq_false_iff.mpr hexported), List.append_nil]
      exact hsteps.asked.2

theorem targetRules_forM_processTarget {names : List String} (hnative : p.IsNative)
    (h : names.forM (processTarget p (reported (perform p depth))) s = .ok () s') :
    ∃ rules, s'.graph.targetRules = s.graph.targetRules ++ rules ∧ ∀ rule ∈ rules, rule.name ∈ names := by
  induction names generalizing s with
  | nil =>
    cases h
    exact ⟨[], by simp, by simp⟩
  | cons name rest ih =>
    obtain ⟨_, t, hname, hrest⟩ := bind_eq_ok_iff.mp
      (show (processTarget p _ name >>= fun _ => rest.forM (processTarget p _)) s = _ from h)
    obtain ⟨rules, hrules, hnames⟩ := targetRules_processTarget hnative hname
    obtain ⟨more, hmore, hrest⟩ := ih hrest
    refine ⟨rules ++ more, by rw [hmore, hrules, List.append_assoc], fun rule hrule => ?_⟩
    rcases List.mem_append.mp hrule with hrule | hrule
    · exact hnames rule hrule ▸ List.mem_cons_self
    · exact List.mem_cons_of_mem _ (hrest rule hrule)

theorem forM_append_eq_ok {names more : List String} {f : String → SessionM Unit}
    (h : (names ++ more).forM f s = .ok () s') : ∃ t, names.forM f s = .ok () t ∧ more.forM f t = .ok () s' := by
  have happend : (names ++ more).forM f = (do names.forM f; more.forM f) := List.forM_append
  rw [happend] at h
  obtain ⟨_, t, hnames, hmore⟩ := bind_eq_ok_iff.mp h
  exact ⟨t, hnames, hmore⟩

/-- A run up to the first time that a target is handled, and from there on. -/
theorem exists_split_of_finalGraph {settings : Settings} {g : Graph} {e : Entity}
    (hrun : finalGraph p (p.start settings) = .ok g s) (hid : Assoc.find? p.targets name = some id)
    (he : p.entities[id]? = some e) (htarget : e.isTarget = true) :
    ∃ (before after : List String) (t u : Session), p.targetNames = before ++ name :: after ∧ name ∉ before ∧
      before.forM (processTarget p (reported (perform p (nestingLimit - 1)))) (p.start settings) = .ok () t ∧
      handleTarget p (reported (perform p (nestingLimit - 1))) name id t = .ok () u ∧
      after.forM (processTarget p (reported (perform p (nestingLimit - 1)))) u = .ok () s := by
  obtain ⟨hprocess, -⟩ := finalGraph_eq_ok_iff.mp hrun
  have hmem : name ∈ p.targetNames := Text.mem_sortOn.mpr (Assoc.mem_keys_of_find? hid)
  obtain ⟨before, after, hsplit, hnew⟩ := List.eq_append_cons_of_mem hmem
  rw [hsplit] at hprocess
  obtain ⟨t, hbefore, hrest⟩ := forM_append_eq_ok hprocess
  obtain ⟨_, u, hname, hafter⟩ := bind_eq_ok_iff.mp
    (show (processTarget p _ name >>= fun _ => after.forM (processTarget p _)) t = _ from hrest)
  refine ⟨before, after, t, u, hsplit, hnew, hbefore, ?_, hafter⟩
  rcases processTarget_eq_ok hname with ⟨hnone, -⟩ | ⟨id', e', hid', he', hhandled⟩
  · rw [hid] at hnone
    cases hnone
  · cases hid.symm.trans hid'
    cases he.symm.trans he'
    rcases hhandled with ⟨hinert, -⟩ | ⟨-, hhandle⟩
    · rw [htarget] at hinert
      cases hinert
    · exact hhandle

theorem executable_of_finalGraph {settings : Settings} {g : Graph} (hrun : finalGraph p (p.start settings) = .ok g s)
    (hid : Assoc.find? p.targets name = some id) (he : p.entities[id]? = some (.executable x)) :
    p.linkRequest (p.directoryFor name) x ∈ g.statements ∧
      (isExported name = true → ∃ rule ∈ g.targetRules, p.Commands name x rule) := by
  obtain ⟨before, after, t, u, -, -, -, hhandle, hafter⟩ := exists_split_of_finalGraph hrun hid he rfl
  obtain ⟨hlink, hcommands⟩ := of_handleTarget_executable he hhandle
  have hretains := Retains.forM_processTarget hafter
  obtain ⟨-, rfl⟩ := finalGraph_eq_ok_iff.mp hrun
  refine ⟨hretains.statements hlink, fun hexported => ?_⟩
  obtain ⟨rule, hrule, hfacts⟩ := hcommands hexported
  exact ⟨rule, hretains.targetRules hrule, hfacts⟩

theorem exists_of_finalGraph {settings : Settings} {g : Graph} {e : Entity} (hnative : p.IsNative)
    (hrun : finalGraph p (p.start settings) = .ok g s) (hid : Assoc.find? p.targets name = some id)
    (he : p.entities[id]? = some e) (htarget : e.isTarget = true) :
    ∃ (before : List String) (t : Session) (log : Log) (u : Session),
      (∀ earlier, earlier ∈ before ↔ earlier ∈ p.targetNames ∧ earlier < name) ∧
      Did (before.flatMap p.targetRequests) (p.start settings) t log ∧
      handleTarget p (reported (perform p (nestingLimit - 1))) name id t = .ok () u ∧
      ∀ rule, u.graph.targetRules = t.graph.targetRules ++ [rule] → rule.name = name →
        g.targetRules.find? (·.name = name) = some rule := by
  obtain ⟨-, rfl⟩ := finalGraph_eq_ok_iff.mp hrun
  -- the first place of the name, so that no rule added before has this name
  obtain ⟨before, after, t, u, hsplit, hnew, hbefore, hhandle, hafter⟩ :=
    exists_split_of_finalGraph hrun hid he htarget
  have hsorted : p.targetNames.Pairwise (· ≤ ·) := Text.pairwise_sortOn (fun text => text) (Assoc.keys p.targets)
  rw [hsplit] at hsorted
  obtain ⟨-, log, hdid, -⟩ := of_forM_processTarget hnative hbefore
  obtain ⟨earlierRules, hearlier, hearlierNames⟩ := targetRules_forM_processTarget hnative hbefore
  obtain ⟨laterRules, hlater, -⟩ := targetRules_forM_processTarget hnative hafter
  refine ⟨before, t, log, u, fun earlier => ?_, hdid, hhandle, fun rule hrule hrulename => ?_⟩
  · rw [hsplit]
    exact Text.mem_before_iff hsorted hnew
  · have hnone : earlierRules.find? (·.name = name) = none := by
      refine List.find?_eq_none.mpr fun other hother heq => hnew ?_
      exact of_decide_eq_true heq ▸ hearlierNames other hother
    have hstart : t.graph.targetRules = earlierRules := hearlier
    rw [hlater, hrule, hstart, List.find?_append, List.find?_append, hnone]
    simp [hrulename]

end Session

/-- **The first rule of an exported executable stands for the file that is linked, and the first rule of an exported
library stands for its archive exactly if the project forgets what has been built or no target with a smaller name
reaches an archive in the same place.** -/
theorem finalGraph_reaches (p : Project) (hnative : p.IsNative) (settings : Settings) (g : Graph) (s : Session)
    (hrun : finalGraph p (p.start settings) = .ok g s) {name : String} {id : Nat} (hexported : isExported name = true)
    (hid : Assoc.find? p.targets name = some id) :
    (∀ x, p.entities[id]? = some (.executable x) → ∃ rule, g.targetRules.find? (·.name = name) = some rule ∧
      .out (Executable.out x p.workspace (p.directoryFor name)) ∈ rule.inputs) ∧
    (∀ l, p.entities[id]? = some (.library l) → ∃ rule, g.targetRules.find? (·.name = name) = some rule ∧
      (.out (Library.out l p.workspace (p.directoryFor name)) ∈ rule.inputs ↔
        (p.remembers = true → ∀ earlier ∈ p.targetNames, earlier < name → ∀ archive ∈ p.archives earlier,
          archive.absolute ≠ (Library.out l p.workspace (p.directoryFor name)).absolute))) := by
  refine ⟨fun x he => ?_, fun l he => ?_⟩
  · obtain ⟨before, t, log, u, -, hdid, hhandle, hfind⟩ := Session.exists_of_finalGraph hnative hrun hid he rfl
    obtain ⟨rule, hrules, hname, hinput | huses⟩ := Session.exists_rule_executable he hexported hhandle
    · exact ⟨rule, hfind rule hrules hname, hinput⟩
    · -- what a link uses has been made by some other statement, and outputs are made by one statement only
      obtain ⟨-, log', hdid', -, hlink⟩ := Session.of_handleTarget he (by rintro c ⟨⟩) hhandle
      have hmem : p.linkRequest (p.directoryFor name) x ∈ (log ++ log').statements := by
        rw [Log.statements_append]
        exact List.mem_append_right _ (hlink x rfl)
      have hunused := (hdid.trans hdid').notMem_uses_of_isLink rfl (.empty p.workspace) hmem
        (p.isLink_linkRequest _ x) rfl List.mem_cons_self
      exact absurd huses hunused
  · obtain ⟨before, t, log, u, hbefore, hdid, hhandle, hfind⟩ := Session.exists_of_finalGraph hnative hrun hid he rfl
    obtain ⟨rule, hrules, hname, hinput⟩ := Session.exists_rule_library he hexported hhandle
    refine ⟨rule, hfind rule hrules hname, hinput.trans ?_⟩
    rw [hdid.marked_iff rfl]
    constructor
    · rintro hunmarked hremembers earlier hearlier hlt archive harchive heq
      exact hunmarked ⟨hremembers, earlier, (hbefore earlier).mpr ⟨hearlier, hlt⟩, archive, harchive, heq⟩
    · rintro hunreached ⟨hremembers, earlier, hearlier, archive, harchive, heq⟩
      obtain ⟨hmem, hlt⟩ := (hbefore earlier).mp hearlier
      exact hunreached hremembers earlier hmem hlt archive harchive heq

/-- A library with the name `Util`, and an executable that needs it. -/
def libraryAndUser (user : String) : Project :=
  let w : Workspace := { sourceDir := "/src", buildRoot := "/out/build", hash := "H" }
  { workspace := w
    entities := [.executable { name := "app", srcs := [w.source "app/main.cc"], deps := [1] },
      .library { name := "util", srcs := [w.source "util/util.cc"] }]
    targets := [(user, 0), ("Util", 1)] }

theorem isNative_libraryAndUser (user : String) : (libraryAndUser user).IsNative := by
  rintro entry hentry c hc
  rcases List.mem_cons.mp hentry with rfl | hentry
  · cases hc
  · rw [List.mem_singleton.mp hentry] at hc
    cases hc

theorem finalGraph_reaches_sample : ∃ g s,
    finalGraph (libraryAndUser "Zip") ((libraryAndUser "Zip").start {}) = .ok g s ∧
      ∃ rule, g.targetRules.find? (·.name = "Util") = some rule ∧
        .out ((libraryAndUser "Zip").workspace.out "util/libutil.a") ∈ rule.inputs := by
  have hruns : Succeeds (finalGraph (libraryAndUser "Zip")) ((libraryAndUser "Zip").start {}) := by decide +kernel
  obtain ⟨g, s, hrun⟩ := hruns
  have hexported : isExported "Util" = true := by decide +kernel
  have hid : Assoc.find? (libraryAndUser "Zip").targets "Util" = some 1 := by decide +kernel
  have hreaches := (finalGraph_reaches _ (isNative_libraryAndUser "Zip") {} g s hrun hexported hid).2
  obtain ⟨rule, hrule, hinput⟩ := hreaches { name := "util", srcs := [.source "/src" "util/util.cc"] } rfl
  exact ⟨g, s, hrun, rule, hrule, hinput.mpr (by decide +kernel)⟩

/-- A library stands for nothing if an executable that needs it has a smaller name. -/
theorem library_can_stand_for_nothing : (libraryAndUser "App").IsNative ∧
    ∃ g s, finalGraph (libraryAndUser "App") ((libraryAndUser "App").start {}) = .ok g s ∧
      g.targetRules.map (fun rule => (rule.name, rule.inputs)) =
        [("App", [.out ((libraryAndUser "App").workspace.out "app/app")]), ("Util", [])] := by
  refine ⟨isNative_libraryAndUser "App", ?_⟩
  have hrules : (match finalGraph (libraryAndUser "App") ((libraryAndUser "App").start {}) with
      | .ok g _ => some (g.targetRules.map fun rule => (rule.name, rule.inputs))
      | .error _ _ => none) =
      some [("App", [.out ((libraryAndUser "App").workspace.out "app/app")]), ("Util", [])] := by decide +kernel
  cases hrun : finalGraph (libraryAndUser "App") ((libraryAndUser "App").start {}) with
  | ok g s =>
    rw [hrun] at hrules
    exact ⟨g, s, rfl, Option.some.inj hrules⟩
  | error e s =>
    rw [hrun] at hrules
    cases hrules

end BuildPlan
