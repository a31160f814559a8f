import BuildPlan.Proofs.Build.Reach
import BuildPlan.Proofs.Shell.RoundTrip
import BuildPlan.Proofs.Target.Closure

/-!
# Object files and archives are made

The build of an object file or a library answers with a path without asking for anything when the path is marked, and
the mark is set before the step is added. Still all that archives and links use is made in the end: at the end of a run
every mark is backed by a statement that is no link (`Session.Did.backed`), and what is packed or linked is marked. The
name of a file tells what made it: `finalGraph_backed`.
-/

namespace BuildPlan

/-- The statement compiles a source file. -/
def Statement.IsCompile (s : Statement) : Prop := s.rule.compdb = true

/-- An edge of a certain sort makes a file. -/
def Graph.MakesFile (g : Graph) (sort : Statement → Prop) (file : Path) : Prop :=
  ∃ e ∈ g.sortedEdges, sort e.toStatement ∧ ∃ out ∈ e.outs, out.absolute = file.absolute

namespace Project

variable {p : Project} {directory : OutPath} {id : Nat} {r : Statement} {i : Path}

/-! ### Sorts of requests -/

/-- The object files of a thing, with those of the libraries that it needs. -/
def entityObjects (p : Project) (id : Nat) : Entity → List ObjectFile
  | .objectFile o => [o]
  | .library l => p.libraryObjects id l
  | .executable x =>
    p.executableObjects x ++
      (p.entities.libraryClosure (ExecutableOf.deps x)).flatMap fun dep => p.libraryObjects dep.1 dep.2
  | .group _ | .custom _ | .inert => []

/-- An object file that some target needs. -/
def NeedsObject (p : Project) (o : ObjectFile) : Prop :=
  ∃ name id e, Assoc.find? p.targets name = some id ∧ p.entities[id]? = some e ∧ o ∈ p.entityObjects id e

/-- A statement that targets ask for compiles an object file that one of them needs, packs an archive, or links an
executable that is a target. -/
inductive AsksFor (p : Project) : Statement → Prop
  | compile {o : ObjectFile} (hneeds : p.NeedsObject o) : AsksFor p (o.request p.workspace)
  | archive (directory : OutPath) (id : Nat) (l : Library) : AsksFor p (p.archiveRequest directory id l)
  | link {name : String} {id : Nat} {x : Executable} (hid : Assoc.find? p.targets name = some id)
      (he : p.entities[id]? = some (.executable x)) : AsksFor p (p.linkRequest (p.directoryFor name) x)

theorem mem_requests_iff : r ∈ p.requests ↔ ∃ name ∈ p.targetNames, r ∈ p.targetRequests name := List.mem_flatMap

theorem asksFor_of_mem_requests (h : r ∈ p.requests) : p.AsksFor r := by
  obtain ⟨name, -, hr⟩ := mem_requests_iff.mp h
  obtain ⟨id, e, hid, he, hr⟩ := mem_targetRequests_iff.mp hr
  have hobject : ∀ o ∈ p.entityObjects id e, p.AsksFor (o.request p.workspace) := fun o ho =>
    .compile ⟨name, id, e, hid, he, ho⟩
  have hlibrary : ∀ dep l, (∀ o ∈ p.libraryObjects dep l, o ∈ p.entityObjects id e) →
      r ∈ p.libraryRequests (p.directoryFor name) dep l → p.AsksFor r := by
    intro dep l hsub hr
    rcases List.mem_append.mp hr with hr | hr
    · obtain ⟨o, ho, rfl⟩ := List.mem_map.mp hr
      exact hobject o (hsub o ho)
    · rw [List.mem_singleton.mp hr]
      exact .archive _ dep l
  cases e with
  | objectFile o =>
    rw [List.mem_singleton.mp hr]
    exact hobject o List.mem_cons_self
  | library l => exact hlibrary id l (fun _ ho => ho) hr
  | executable x =>
    rcases List.mem_append.mp hr with hr | hr
    · rcases List.mem_append.mp hr with hr | hr
      · obtain ⟨o, ho, rfl⟩ := List.mem_map.mp hr
        exact hobject o (List.mem_append_left _ ho)
      · obtain ⟨dep, hdep, hr⟩ := List.mem_flatMap.mp hr
        refine hlibrary dep.1 dep.2 (fun o ho => ?_) hr
        exact List.mem_append_right _ (List.mem_flatMap.mpr ⟨dep, hdep, ho⟩)
    · rw [List.mem_singleton.mp hr]
      exact .link hid he
  | group _ | custom _ | inert => cases hr

theorem AsksFor.isCompile {o : ObjectFile} (h : p.AsksFor r) (hlink : ¬r.IsLink) (hi : i ∈ r.outs)
    (heq : i.absolute = (ObjectFile.out o p.workspace).absolute) : r.IsCompile := by
  cases h with
  | compile _ => rfl
  | archive directory _ l =>
    rw [List.mem_singleton.mp hi] at heq
    exact absurd heq.symm (o.absolute_out_ne l _ _)
  | link _ _ => exact absurd (p.isLink_linkRequest _ _) hlink

theorem AsksFor.isArchive {l : Library} (h : p.AsksFor r) (hlink : ¬r.IsLink) (hi : i ∈ r.outs)
    (heq : i.absolute = (Library.out l p.workspace directory).absolute) : r.IsArchive := by
  cases h with
  | compile _ => exact absurd heq (ObjectFile.absolute_ne_of_request hi l directory)
  | archive _ _ _ => exact p.isArchive_archiveRequest _ _ _
  | link _ _ => exact absurd (p.isLink_linkRequest _ _) hlink

/-- Archives and links take object files, and links take archives next to them. -/
structure Takes (p : Project) (r : Statement) : Prop where
  compdb : r.rule.compdb = false
  ins : ∀ i ∈ r.ins, ∃ o : ObjectFile, i = .out (o.out p.workspace)
  implicit : ∀ i ∈ r.implicit, ∃ (l : Library) (directory : OutPath), i = .out (l.out p.workspace directory)

theorem AsksFor.takes (h : p.AsksFor r) (hsort : r.IsArchive ∨ r.IsLink) : p.Takes r := by
  cases h with
  | @compile o _ => exact absurd hsort (not_or.mpr ⟨o.not_isArchive_request _, o.not_isLink_request _⟩)
  | archive directory id l =>
    refine ⟨rfl, fun i hi => ?_, nofun⟩
    have huses : i ∈ (p.archiveRequest directory id l).uses := List.mem_append_left _ (List.mem_append_left _ hi)
    rw [uses_archiveRequest] at huses
    obtain ⟨o, -, rfl⟩ := List.mem_map.mp huses
    exact ⟨o, rfl⟩
  | @link name id x _ _ =>
    refine ⟨rfl, fun i hi => ?_, fun i hi => ?_⟩
    · obtain ⟨out, hout, rfl⟩ := List.mem_map.mp hi
      obtain ⟨o, -, rfl⟩ := List.mem_map.mp hout
      exact ⟨o, rfl⟩
    · obtain ⟨out, hout, rfl⟩ := List.mem_map.mp hi
      obtain ⟨dep, -, rfl⟩ := List.mem_map.mp hout
      exact ⟨dep.2, _, rfl⟩

/-! ### What is used is asked for -/

/-- No file that targets ask for is spelled in two ways. -/
def SpellsOnce (p : Project) : Prop :=
  ∀ r ∈ p.requests, ∀ r' ∈ p.requests, ∀ out ∈ r.outs, ∀ out' ∈ r'.outs, out.absolute = out'.absolute → out = out'

instance (p : Project) : Decidable p.SpellsOnce :=
  inferInstanceAs (Decidable (∀ r ∈ p.requests, ∀ r' ∈ p.requests, ∀ out ∈ r.outs, ∀ out' ∈ r'.outs,
    out.absolute = out'.absolute → out = out'))

theorem exists_request_of_mem_uses {e : Entity} (hr : r ∈ p.entityRequests directory id e)
    (hsort : r.IsArchive ∨ r.IsLink) (hi : i ∈ r.uses) : ∃ m ∈ p.entityRequests directory id e, i ∈ m.outs := by
  have hobject : ∀ {o : ObjectFile}, ¬((o.request p.workspace).IsArchive ∨ (o.request p.workspace).IsLink) :=
    fun {o} => not_or.mpr ⟨o.not_isArchive_request _, o.not_isLink_request _⟩
  have hlibrary : ∀ dep l, r ∈ p.libraryRequests directory dep l →
      ∃ m ∈ p.libraryRequests directory dep l, i ∈ m.outs := by
    intro dep l hr
    rcases List.mem_append.mp hr with hr | hr
    · obtain ⟨o, -, rfl⟩ := List.mem_map.mp hr
      exact absurd hsort hobject
    · rw [List.mem_singleton.mp hr, uses_archiveRequest] at hi
      obtain ⟨o, ho, rfl⟩ := List.mem_map.mp hi
      exact ⟨_, List.mem_append_left _ (List.mem_map_of_mem ho), List.mem_cons_self⟩
  cases e with
  | objectFile o =>
    rw [List.mem_singleton.mp hr] at hsort
    exact absurd hsort hobject
  | library l => exact hlibrary id l hr
  | executable x =>
    suffices hinputs : ∃ m ∈ p.inputRequests directory x, i ∈ m.outs by
      obtain ⟨m, hm, hout⟩ := hinputs
      exact ⟨m, List.mem_append_left _ hm, hout⟩
    rcases List.mem_append.mp hr with hr | hr
    · rcases List.mem_append.mp hr with hr | hr
      · obtain ⟨o, -, rfl⟩ := List.mem_map.mp hr
        exact absurd hsort hobject
      · obtain ⟨dep, hdep, hr⟩ := List.mem_flatMap.mp hr
        obtain ⟨m, hm, hout⟩ := hlibrary dep.1 dep.2 hr
        exact ⟨m, List.mem_append_right _ (List.mem_flatMap.mpr ⟨dep, hdep, hm⟩), hout⟩
    · rw [List.mem_singleton.mp hr, uses_linkRequest] at hi
      rcases List.mem_append.mp hi with hi | hi
      · obtain ⟨o, ho, rfl⟩ := List.mem_map.mp hi
        exact ⟨_, List.mem_append_left _ (List.mem_map_of_mem ho), List.mem_cons_self⟩
      · obtain ⟨dep, hdep, rfl⟩ := List.mem_map.mp hi
        refine ⟨p.archiveRequest directory dep.1 dep.2, List.mem_append_right _ ?_, List.mem_cons_self⟩
        exact List.mem_flatMap.mpr ⟨dep, hdep, List.mem_append_right _ List.mem_cons_self⟩
  | group _ | custom _ | inert => cases hr

/-! ### Links -/

/-- The statement links an executable with its object files and with the archives of all libraries that it needs, which
the command names in the same order. -/
structure Links (p : Project) (directory : OutPath) (x : Executable) (s : Statement) : Prop where
  rule : s.rule = x.toolchain.linkRule
  outs : s.outs = [.out (x.out p.workspace directory)]
  ins : s.ins = (p.executableObjects x).map fun o => .out (o.out p.workspace)
  implicit : s.implicit = (p.entities.libraryClosure x.deps).map fun dep => .out (dep.2.out p.workspace directory)
  libs : ∃ libs, Assoc.find? s.bindings "libs" = some libs ∧
    Shell.splitWords libs = some (s.implicit.map Path.absolute)

theorem bindings_linkRequest (p : Project) (directory : OutPath) (x : Executable) :
    (p.linkRequest directory x).bindings =
      [("flags", Shell.joinWords (x.toolchain.linkerFlags ++ x.linkerFlags)),
        ("libs", Shell.joinWords ((p.linkRequest directory x).implicit.map Path.absolute))] := by
  have hle : ("flags" : String) ≤ "libs" := by decide
  have hlibs : (p.linkRequest directory x).implicit.map Path.absolute =
      ((p.entities.libraryClosure x.deps).map fun dep => dep.2.out p.workspace directory).map OutPath.absolute := by
    rw [linkRequest, RuleStep.statement, Executable.step, List.map_map]
    rfl
  rw [hlibs]
  exact if_pos (decide_eq_true hle)

theorem links_linkRequest (p : Project) (directory : OutPath) (x : Executable) :
    p.Links directory x (p.linkRequest directory x) where
  rule := rfl
  outs := rfl
  ins := List.map_map
  implicit := List.map_map
  libs := by
    rw [bindings_linkRequest]
    exact ⟨_, rfl, Shell.splitWords_joinWords _⟩

end Project

namespace Session

variable {p : Project} {s t : Session} {log : Log}

theorem Did.makes_of_mem_uses {requests : List Statement} (h : Did requests s t log) (hbuilt : s.graph.built = [])
    {r : Statement} (hr : r ∈ log.statements) (hpack : r.rule.compdb = false) {i : Path} (hi : i ∈ r.uses) :
    Makes log.statements i.absolute := by
  refine (h.backed _ (h.inputs r hr hpack i hi)).resolve_left ?_
  rw [hbuilt]
  exact List.not_mem_nil

/-- At the end of a run, the statements of the graph are some of those that the targets ask for, and what archives and
links use is made by statements of the graph other than links. -/
theorem of_finalGraph {settings : Settings} {g : Graph} (hnative : p.IsNative)
    (hrun : finalGraph p (p.start settings) = .ok g s) :
    g.WellFormed ∧ (∀ r ∈ g.statements, r ∈ p.requests) ∧
      ∀ r ∈ g.statements, r.rule.compdb = false → ∀ i ∈ r.uses, Makes g.statements i.absolute := by
  obtain ⟨hprocess, rfl⟩ := finalGraph_eq_ok_iff.mp hrun
  obtain ⟨-, log, hdid, -⟩ := of_forM_processTarget hnative hprocess
  have hrecords : s.graph.Records log := hdid.records [] (.empty p.workspace)
  have hmem : ∀ r, r ∈ s.graph.statements ↔ r ∈ log.statements := hrecords.mem_statements
  refine ⟨hrecords.edges.wellFormed, fun r hr => hdid.taken ((hmem r).mp hr), fun r hr hpack i hi => ?_⟩
  obtain ⟨m, hm, hmakes⟩ := hdid.makes_of_mem_uses rfl ((hmem r).mp hr) hpack hi
  exact ⟨m, (hmem m).mpr hm, hmakes⟩

end Session

theorem Graph.mem_statements_of_mem_sortedEdges {g : Graph} {e : Edge} (he : e ∈ g.sortedEdges) :
    e.toStatement ∈ g.statements := List.mem_map_of_mem (Graph.mem_sortedEdges.mp he)

theorem Graph.exists_sortedEdge {g : Graph} {r : Statement} (hr : r ∈ g.statements) :
    ∃ e ∈ g.sortedEdges, e.toStatement = r := by
  obtain ⟨e, he, heq⟩ := List.mem_map.mp hr
  exact ⟨e, Graph.mem_sortedEdges.mpr he, heq⟩

/-- A file that a statement of the graph makes is made by an edge of the sort that only such a statement can have. -/
theorem Graph.makesFile_of_makes {g : Graph} {sort : Statement → Prop} {i : Path} (h : Makes g.statements i.absolute)
    (hsort : ∀ m ∈ g.statements, ¬m.IsLink → ∀ out ∈ m.outs, out.absolute = i.absolute → sort m) :
    g.MakesFile sort i := by
  obtain ⟨m, hm, hlink, out, hout, heq⟩ := h
  obtain ⟨maker, hmaker, rfl⟩ := Graph.exists_sortedEdge hm
  exact ⟨maker, hmaker, hsort _ hm hlink out hout heq, out, hout, heq⟩

/-- **In the graph of a run, no archive and no link takes a file that nothing makes.** What is named among its inputs is
made by a compile, and the archives next to them are packed; and if no file is spelled in two ways, then each of them is
among the outputs of an edge as it stands. The edge of each executable links it with the archives of all libraries that
it needs, in their order, and its command names the same ones. -/
theorem finalGraph_backed (p : Project) (hnative : p.IsNative) (settings : Settings) (g : Graph) (s : Session)
    (hrun : finalGraph p (p.start settings) = .ok g s) :
    (∀ e ∈ g.sortedEdges, e.IsArchive ∨ e.IsLink →
      (∀ i ∈ e.ins, g.MakesFile Statement.IsCompile i) ∧ ∀ i ∈ e.implicit, g.MakesFile Statement.IsArchive i) ∧
    (p.SpellsOnce → ∀ e ∈ g.sortedEdges, e.IsArchive ∨ e.IsLink →
      ∀ i ∈ e.ins ++ e.implicit, ∃ maker ∈ g.sortedEdges, i ∈ maker.outs) ∧
    ∀ name id x, Assoc.find? p.targets name = some id → p.entities[id]? = some (.executable x) →
      (∃ e ∈ g.sortedEdges, g.edgeFor? (Executable.out x p.workspace (p.directoryFor name)).absolute = some e ∧
        p.Links (p.directoryFor name) x e.toStatement) ∧
        ∀ dep l, (dep, l) ∈ p.entities.libraryClosure x.deps ↔
          p.entities.library? dep = some l ∧ ∃ root ∈ x.deps, Reaches p.entities.libraryDeps root dep := by
  obtain ⟨hwell, hrequests, hmakes⟩ := Session.of_finalGraph hnative hrun
  have hasked : ∀ r ∈ g.statements, p.AsksFor r := fun r hr => Project.asksFor_of_mem_requests (hrequests r hr)
  refine ⟨fun e he hsort => ?_, fun hspells e he hsort i hi => ?_, fun name id x hid hx => ⟨?_, fun dep l => ?_⟩⟩
  · have hr := Graph.mem_statements_of_mem_sortedEdges he
    have htakes := (hasked _ hr).takes hsort
    constructor
    · intro i hi
      obtain ⟨o, rfl⟩ := htakes.ins i hi
      have huses : .out (o.out p.workspace) ∈ e.uses := List.mem_append_left _ (List.mem_append_left _ hi)
      refine Graph.makesFile_of_makes (hmakes _ hr htakes.compdb _ huses) fun m hm hlink out hout heq => ?_
      exact (hasked m hm).isCompile hlink hout heq
    · intro i hi
      obtain ⟨l, directory, rfl⟩ := htakes.implicit i hi
      have huses : .out (l.out p.workspace directory) ∈ e.uses := List.mem_append_left _ (List.mem_append_right _ hi)
      refine Graph.makesFile_of_makes (hmakes _ hr htakes.compdb _ huses) fun m hm hlink out hout heq => ?_
      exact (hasked m hm).isArchive hlink hout heq
  · have hr := Graph.mem_statements_of_mem_sortedEdges he
    have huses : i ∈ e.uses := List.mem_append_left _ hi
    obtain ⟨m, hm, -, out, hout, heq⟩ := hmakes _ hr ((hasked _ hr).takes hsort).compdb i huses
    obtain ⟨maker, hmaker, rfl⟩ := Graph.exists_sortedEdge hm
    -- some request has the file itself among its outputs, and the maker spells it in the same way
    obtain ⟨name, hname, hr⟩ := Project.mem_requests_iff.mp (hrequests _ hr)
    obtain ⟨id, entity, hid, hentity, hr⟩ := Project.mem_targetRequests_iff.mp hr
    obtain ⟨m', hm', hout'⟩ := Project.exists_request_of_mem_uses hr hsort huses
    have hm' : m' ∈ p.requests :=
      Project.mem_requests_iff.mpr ⟨name, hname, Project.mem_targetRequests_iff.mpr ⟨id, entity, hid, hentity, hm'⟩⟩
    exact ⟨maker, hmaker, hspells _ (hrequests _ hm) m' hm' out hout i hout' heq ▸ hout⟩
  · obtain ⟨e, he, heq⟩ := Graph.exists_sortedEdge (Session.executable_of_finalGraph hrun hid hx).1
    have hlinks : p.Links (p.directoryFor name) x e.toStatement := heq ▸ p.links_linkRequest _ x
    have hout : Path.out (Executable.out x p.workspace (p.directoryFor name)) ∈ e.outs :=
      hlinks.outs ▸ List.mem_cons_self
    exact ⟨e, he, hwell.edgeFor?_eq_some (Graph.mem_sortedEdges.mp he) hout, hlinks⟩
  · exact p.entities.mem_libraryClosure_iff x.deps

/-- An executable that needs two libraries that need each other, one of which is a target too. -/
def mutualLibraries : Project :=
  let w : Workspace := { sourceDir := "/src", buildRoot := "/out" }
  { workspace := w
    entities := [.executable { name := "app", srcs := [w.source "main.cc"], deps := [1] },
      .library { name := "left", srcs := [w.source "left.cc"], deps := [2] },
      .library { name := "right", srcs := [w.source "right.cc"], deps := [1] }, .group [0, 2]]
    targets := [("App", 0), ("Right", 2), ("All", 3)] }

theorem isNative_mutualLibraries : mutualLibraries.IsNative := by
  intro entry hentry c hc
  have hentry : entry ∈ [("App", 0), ("Right", 2), ("All", 3)] := hentry
  simp only [List.mem_cons, List.not_mem_nil, or_false] at hentry
  rcases hentry with rfl | rfl | rfl <;> cases hc

theorem finalGraph_backed_sample : ∃ g s,
    finalGraph mutualLibraries (mutualLibraries.start {}) = .ok g s ∧
      ∃ e ∈ g.sortedEdges, e.IsLink ∧
        e.implicit =
          [.out (mutualLibraries.workspace.out "libleft.a"), .out (mutualLibraries.workspace.out "libright.a")] ∧
        ∀ i ∈ e.implicit, g.MakesFile Statement.IsArchive i ∧ ∃ maker ∈ g.sortedEdges, i ∈ maker.outs := by
  have hruns : Succeeds (finalGraph mutualLibraries) (mutualLibraries.start {}) := by decide +kernel
  obtain ⟨g, s, hrun⟩ := hruns
  obtain ⟨hmade, hspelled, hlinks⟩ := finalGraph_backed mutualLibraries isNative_mutualLibraries {} g s hrun
  have hid : Assoc.find? mutualLibraries.targets "App" = some 0 := by decide +kernel
  obtain ⟨⟨e, he, -, hlink⟩, -⟩ :=
    hlinks "App" 0 { name := "app", srcs := [.source "/src" "main.cc"], deps := [1] } hid rfl
  have hsort : e.IsLink := congrArg Rule.description hlink.rule
  refine ⟨g, s, hrun, e, he, hsort, hlink.implicit.trans (by decide +kernel), fun i hi => ⟨?_, ?_⟩⟩
  · exact (hmade e he (.inr hsort)).2 i hi
  · exact hspelled (by decide +kernel) e he (.inr hsort) i (List.mem_append_right _ hi)

end BuildPlan
