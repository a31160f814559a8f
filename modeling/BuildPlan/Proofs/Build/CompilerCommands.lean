import BuildPlan.Proofs.Build.Backing
import BuildPlan.Proofs.Ninja.Expansion
import BuildPlan.Proofs.Ninja.OutputNames

/-!
# What the commands of C and C++ targets come to

The flags of compiles and links, the archives of links, and the commands that run and test executables are quoted for
the shell and not escaped for Ninja. So what comes to the programs is what is meant exactly as long as there are no
dollar signs in it: `finalGraph_commandWords`. A linker flag with a dollar sign is lost: `linkerFlag_can_be_lost`.
-/

namespace BuildPlan

namespace Ninja

variable {g : Graph}

/-! ### What stands in a file -/

theorem exists_buildBlock {e : Edge} (he : e ∈ g.sortedEdges) :
    ∃ m : NamedEdge, m.edge = e ∧ m.buildBlock ∈ blocks g := by
  have hedge : e ∈ (namedEdges g).map (·.edge) := by rwa [namedEdges, map_edge_nameEdges]
  obtain ⟨m, hm, rfl⟩ := List.mem_map.mp hedge
  exact ⟨m, rfl, buildBlock_mem_blocks hm⟩

theorem exists_targetBlocks_of_mem {t : TargetRule} {targets : List TargetRule} (ht : t ∈ targets) (next : Nat) :
    ∃ next', targetBlocks t next' ⊆ targetsBlocks targets next := by
  induction targets generalizing next with
  | nil => cases ht
  | cons first rest ih =>
    rcases List.mem_cons.mp ht with rfl | ht
    · exact ⟨next, List.subset_append_left _ _⟩
    · obtain ⟨next', hsub⟩ := ih ht (next + ruleCount first)
      exact ⟨next', List.subset_append_of_subset_right _ hsub⟩

theorem exists_targetBlocks {t : TargetRule} (ht : t ∈ g.targetRules) : ∃ next, targetBlocks t next ⊆ blocks g := by
  obtain ⟨next, hsub⟩ := exists_targetBlocks_of_mem ht (naming g).next
  exact ⟨next, List.Subset.trans hsub (lastBlocks_subset_blocks g)⟩

theorem exists_extraBlocks_run {t : TargetRule} {command : String} (h : t.run = some command) (next : Nat) :
    ∃ ruleName, extraBlocks t.name "run" "Running" command ruleName ⊆ targetBlocks t next := by
  refine ⟨anonymousRuleName (next + 1), ?_⟩
  rw [targetBlocks, h]
  exact List.subset_append_of_subset_left _ (List.subset_append_right _ _)

theorem exists_extraBlocks_test {t : TargetRule} {command : String} (h : t.test = some command) (next : Nat) :
    ∃ ruleName, extraBlocks t.name "test" "Testing" command ruleName ⊆ targetBlocks t next := by
  refine ⟨anonymousRuleName (next + 1 + if t.run.isSome then 1 else 0), ?_⟩
  rw [targetBlocks, h]
  exact List.subset_append_right _ _

end Ninja

/-! ### Words in files -/

namespace Graph

variable {g : Graph} {e : Edge} {words : List String}

/-- The file of a graph passes words to the command of an edge, in the value of a variable. They are passed as they are
as long as there is no dollar sign in them. -/
def Passes (g : Graph) (e : Edge) (key : String) (words : List String) : Prop :=
  ∃ line value, .build line ∈ Ninja.blocks g ∧ line.outs = e.outs.map Path.absolute ∧
    Assoc.find? line.bindings key = some value ∧ CarriesPlain value words

/-- The file of a graph has a command under a further name of a target. It is carried out as it is meant as long as
there is no dollar sign in it. -/
def Offers (g : Graph) (name extra : String) (words : List String) : Prop :=
  ∃ rule bindings command line, .rule rule bindings ∈ Ninja.blocks g ∧
    Assoc.find? bindings "command" = some command ∧ CarriesPlain command words ∧
    .build line ∈ Ninja.blocks g ∧ line.outs = [name ++ "#" ++ extra] ∧ line.rule = rule

theorem passes_of_bindings {key : String} (he : e ∈ g.sortedEdges) (hdepfile : e.depfile = none)
    (hvalue : Assoc.find? e.bindings key = some (Shell.joinWords words)) : g.Passes e key words := by
  obtain ⟨m, rfl, hblock⟩ := Ninja.exists_buildBlock he
  refine ⟨_, _, hblock, rfl, ?_, carriesPlain_joinWords words⟩
  show Assoc.find? ((m.edge.depfile.map _).toList ++ m.edge.bindings) key = _
  rw [hdepfile]
  exact hvalue

theorem offers_of_extraBlocks {t : TargetRule} {extra verb : String} (ht : t ∈ g.targetRules)
    (h : ∀ next, ∃ ruleName,
      Ninja.extraBlocks t.name extra verb (Shell.joinWords words) ruleName ⊆ Ninja.targetBlocks t next) :
    g.Offers t.name extra words := by
  obtain ⟨next, hsub⟩ := Ninja.exists_targetBlocks ht
  obtain ⟨ruleName, hextra⟩ := h next
  obtain ⟨hrule, hline⟩ := List.forall_mem_cons.mp (List.Subset.trans hextra hsub)
  exact ⟨_, _, _, _, hrule, rfl, carriesPlain_joinWords words, hline _ List.mem_cons_self, rfl, rfl⟩

theorem offers_run {t : TargetRule} (ht : t ∈ g.targetRules) (h : t.run = some (Shell.joinWords words)) :
    g.Offers t.name "run" words := offers_of_extraBlocks ht (Ninja.exists_extraBlocks_run h)

theorem offers_test {t : TargetRule} (ht : t ∈ g.targetRules) (h : t.test = some (Shell.joinWords words)) :
    g.Offers t.name "test" words := offers_of_extraBlocks ht (Ninja.exists_extraBlocks_test h)

theorem passes_compile {o : ObjectFile} {w : Workspace} (he : e ∈ g.sortedEdges)
    (hrequest : e.toStatement = o.request w) : g.Passes e "flags" o.allFlags := by
  refine passes_of_bindings he (congrArg Statement.depfile hrequest) ?_
  rw [hrequest]
  rfl

theorem passes_link {p : Project} {directory : OutPath} {x : Executable} (he : e ∈ g.sortedEdges)
    (hrequest : e.toStatement = p.linkRequest directory x) :
    g.Passes e "flags" (x.toolchain.linkerFlags ++ x.linkerFlags) ∧
      g.Passes e "libs" ((p.entities.libraryClosure x.deps).map fun dep =>
        (Library.out dep.2 p.workspace directory).absolute) := by
  have hdepfile : e.depfile = none := congrArg Statement.depfile hrequest
  constructor
  · refine passes_of_bindings he hdepfile ?_
    rw [hrequest, Project.bindings_linkRequest]
    rfl
  · refine passes_of_bindings he hdepfile ?_
    rw [hrequest, Project.bindings_linkRequest, (p.links_linkRequest directory x).implicit, List.map_map]
    rfl

end Graph

/-- **The words of compiles, links and executables come to the programs as they are exactly as long as they have no
dollar signs.** This goes for the flags of each compile and link, for the archives of each link, and for the commands
that run and test an executable. Each executable that is a target has its link, and if no target has a program of its
own, then all compiles and links are of this sort. -/
theorem finalGraph_commandWords (p : Project) (settings : Settings) (g : Graph) (s : Session)
    (hrun : finalGraph p (p.start settings) = .ok g s) :
    (∀ e ∈ g.sortedEdges, ∀ o : ObjectFile, e.toStatement = o.request p.workspace →
      g.Passes e "flags" (o.toolchain.compilerFlags ++ o.flags ++ o.includes.map fun path => "-I" ++ path.absolute)) ∧
    (∀ e ∈ g.sortedEdges, ∀ directory x, e.toStatement = p.linkRequest directory x →
      g.Passes e "flags" (x.toolchain.linkerFlags ++ x.linkerFlags) ∧
      g.Passes e "libs" ((p.entities.libraryClosure x.deps).map fun dep =>
        (Library.out dep.2 p.workspace directory).absolute)) ∧
    (∀ name id x, Assoc.find? p.targets name = some id → p.entities[id]? = some (.executable x) →
      (∃ e ∈ g.sortedEdges, e.toStatement = p.linkRequest (p.directoryFor name) x) ∧
      (isExported name = true →
        g.Offers name "run" ((Executable.out x p.workspace (p.directoryFor name)).absolute :: p.runArguments) ∧
        (x.isTest = true →
          g.Offers name "test" ((Executable.out x p.workspace (p.directoryFor name)).absolute :: p.testArguments)))) ∧
    (p.IsNative → ∀ e ∈ g.sortedEdges,
      (e.IsCompile → ∃ o, p.NeedsObject o ∧ e.toStatement = o.request p.workspace) ∧
      (e.IsLink → ∃ name id x, Assoc.find? p.targets name = some id ∧ p.entities[id]? = some (.executable x) ∧
        e.toStatement = p.linkRequest (p.directoryFor name) x)) := by
  refine ⟨fun e he o hrequest => Graph.passes_compile he hrequest,
    fun e he directory x hrequest => Graph.passes_link he hrequest, fun name id x hid hx => ?_, fun hnative e he => ?_⟩
  · obtain ⟨hlink, hcommands⟩ := Session.executable_of_finalGraph hrun hid hx
    refine ⟨Graph.exists_sortedEdge hlink, fun hexported => ?_⟩
    obtain ⟨rule, hrule, rfl, hcommand, htest⟩ := hcommands hexported
    exact ⟨Graph.offers_run hrule hcommand, fun hx => Graph.offers_test hrule (htest hx)⟩
  · obtain ⟨-, hrequests, -⟩ := Session.of_finalGraph hnative hrun
    have hasked := Project.asksFor_of_mem_requests (hrequests _ (Graph.mem_statements_of_mem_sortedEdges he))
    generalize hstatement : e.toStatement = r at hasked ⊢
    cases hasked with
    | compile hneeds => exact ⟨fun _ => ⟨_, hneeds, rfl⟩, fun hlink => absurd hlink (ObjectFile.not_isLink_request _ _)⟩
    | archive directory id l => exact ⟨nofun, fun hlink => absurd hlink (p.not_isLink_archiveRequest directory id l)⟩
    | link hid hx => exact ⟨nofun, fun _ => ⟨_, _, _, hid, hx, rfl⟩⟩

/-- A test that needs a library, with one flag for the link. -/
def testProgram (flag : String) : Project :=
  let w : Workspace := { sourceDir := "/src", buildRoot := "/out/build", hash := "H" }
  { workspace := w
    entities := [.executable
        { name := "check", srcs := [w.source "check.cc"], compilerFlags := ["-DWHO=\"it's me\""], linkerFlags := [flag]
          deps := [1], isTest := true },
      .library { name := "util", srcs := [w.source "util.cc"] }]
    targets := [("Check", 0)]
    testArguments := ["--only", "a b"] }

theorem finalGraph_commandWords_sample : ∃ g s,
    finalGraph (testProgram "-L/my libs") ((testProgram "-L/my libs").start {}) = .ok g s ∧
      (∃ e ∈ g.sortedEdges, e.IsCompile ∧ g.Passes e "flags" ["-O2", "-DWHO=\"it's me\"", "-I/src/"]) ∧
      (∃ e ∈ g.sortedEdges, e.IsLink ∧ g.Passes e "flags" ["-L/my libs"] ∧
        g.Passes e "libs" ["/out/build-H/libutil.a"]) ∧
      g.Offers "Check" "test" ["/out/build-H/check", "--only", "a b"] := by
  let o : ObjectFile :=
    { src := .source "/src" "check.cc", includes := [.source "/src" ""], flags := ["-DWHO=\"it's me\""] }
  have hobject : (answer (finalGraph (testProgram "-L/my libs")) ((testProgram "-L/my libs").start {})).toOption.map
      (fun g => decide (o.request (testProgram "-L/my libs").workspace ∈ g.statements)) = some true := by decide +kernel
  obtain ⟨g, s, hrun, hobject⟩ := exists_of_answer hobject
  obtain ⟨hcompiles, hlinks, hexecutables, -⟩ := finalGraph_commandWords _ {} g s hrun
  obtain ⟨⟨e, he, hlink⟩, hcommands⟩ := hexecutables "Check" 0 _ (by decide +kernel) rfl
  obtain ⟨compile, hcompile, hrequest⟩ := Graph.exists_sortedEdge (of_decide_eq_true hobject)
  refine ⟨g, s, hrun, ⟨compile, hcompile, ?_, ?_⟩, ⟨e, he, ?_, ?_⟩, ?_⟩
  · rw [Statement.IsCompile, hrequest]
    rfl
  · have hflags : o.allFlags = ["-O2", "-DWHO=\"it's me\"", "-I/src/"] := by decide +kernel
    exact hflags ▸ hcompiles compile hcompile o hrequest
  · rw [hlink]
    exact Project.isLink_linkRequest _ _ _
  · have harchives : ((testProgram "-L/my libs").entities.libraryClosure [1]).map (fun dep =>
        (Library.out dep.2 (testProgram "-L/my libs").workspace
          ((testProgram "-L/my libs").directoryFor "Check")).absolute) = ["/out/build-H/libutil.a"] := by decide +kernel
    exact harchives ▸ hlinks e he _ _ hlink
  · exact (hcommands (by decide +kernel)).2 rfl

/-- A flag with a dollar sign does not come to the linker as it is. -/
theorem linkerFlag_can_be_lost : ∃ g s,
    finalGraph (testProgram "-Wl,-rpath,$ORIGIN") ((testProgram "-Wl,-rpath,$ORIGIN").start {}) = .ok g s ∧
      ∃ e ∈ g.sortedEdges, e.outs.map Path.absolute = ["/out/build-H/check"] ∧
        Assoc.find? e.bindings "flags" = some "'-Wl,-rpath,$ORIGIN'" ∧
        valueWords (fun _ => "") "'-Wl,-rpath,$ORIGIN'" = some ["-Wl,-rpath,"] := by
  have hedges : (answer (finalGraph (testProgram "-Wl,-rpath,$ORIGIN"))
      ((testProgram "-Wl,-rpath,$ORIGIN").start {})).toOption.map
      (fun g => decide ((["/out/build-H/check"], some "'-Wl,-rpath,$ORIGIN'") ∈
        g.sortedEdges.map fun e => (e.outs.map Path.absolute, Assoc.find? e.bindings "flags"))) = some true := by
    decide +kernel
  obtain ⟨g, s, hrun, hedges⟩ := exists_of_answer hedges
  obtain ⟨e, he, heq⟩ := List.mem_map.mp (of_decide_eq_true hedges)
  obtain ⟨houts, hflags⟩ := Prod.mk.inj heq
  exact ⟨g, s, hrun, e, he, houts, hflags, by decide +kernel⟩

end BuildPlan
