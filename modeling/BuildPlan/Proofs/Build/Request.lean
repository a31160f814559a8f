import BuildPlan.Build.Compile
import BuildPlan.Proofs.Graph.Records

/-!
# What targets ask for

`Project.requests` lists the statements of all compiles, archives and links that the targets of a project reach, each
as often as it is reached. It is read off the targets alone, with no graph in which something could be built
already.
-/

namespace BuildPlan

/-- The statement packs an archive. -/
def Statement.IsArchive (s : Statement) : Prop := s.rule.description = "AR $out"

/-- The statement links an executable. -/
def Statement.IsLink (s : Statement) : Prop := s.rule.description = "LD $out"

/-- Some of the statements, other than links, make the file with this absolute path. -/
def Makes (statements : List Statement) (absolute : String) : Prop :=
  ∃ s ∈ statements, ¬s.IsLink ∧ ∃ out ∈ s.outs, out.absolute = absolute

/-- What the compile of a source file asks for. -/
def ObjectFile.request (o : ObjectFile) (w : Workspace) : Statement := (o.step w).statement

namespace Project

/-- The object files of a library. -/
def libraryObjects (p : Project) (id : Nat) (l : Library) : List ObjectFile :=
  objectFiles p.workspace l.srcs l.compilerFlags ((p.entities.libraryClosure [id]).map (·.2)) l.toolchain

/-- What the archive of a library asks for. -/
def archiveRequest (p : Project) (directory : OutPath) (id : Nat) (l : Library) : Statement :=
  (l.step (l.out p.workspace directory) ((p.libraryObjects id l).map (·.out p.workspace))).statement

/-- What a library asks for. -/
def libraryRequests (p : Project) (directory : OutPath) (id : Nat) (l : Library) : List Statement :=
  (p.libraryObjects id l).map (·.request p.workspace) ++ [p.archiveRequest directory id l]

/-- The object files of an executable. -/
def executableObjects (p : Project) (x : Executable) : List ObjectFile :=
  objectFiles p.workspace x.srcs x.compilerFlags ((p.entities.libraryClosure x.deps).map (·.2)) x.toolchain

/-- What goes into an executable asks for: its object files, and the libraries that it needs. -/
def inputRequests (p : Project) (directory : OutPath) (x : Executable) : List Statement :=
  (p.executableObjects x).map (·.request p.workspace) ++
    (p.entities.libraryClosure x.deps).flatMap fun dep => p.libraryRequests directory dep.1 dep.2

/-- What the link of an executable asks for. -/
def linkRequest (p : Project) (directory : OutPath) (x : Executable) : Statement :=
  (x.step (x.out p.workspace directory) ((p.executableObjects x).map (·.out p.workspace))
    ((p.entities.libraryClosure x.deps).map fun dep => dep.2.out p.workspace directory)).statement

/-- What an executable asks for. -/
def executableRequests (p : Project) (directory : OutPath) (x : Executable) : List Statement :=
  p.inputRequests directory x ++ [p.linkRequest directory x]

/-- What a thing asks for. -/
def entityRequests (p : Project) (directory : OutPath) (id : Nat) : Entity → List Statement
  | .objectFile o => [ObjectFile.request o p.workspace]
  | .library l => p.libraryRequests directory id l
  | .executable x => p.executableRequests directory x
  | .group _ | .custom _ | .inert => []

/-- The build directory of a target. -/
def directoryFor (p : Project) (name : String) : OutPath := p.workspace.out (directoryOf name)

/-- What a target asks for. -/
def targetRequests (p : Project) (name : String) : List Statement :=
  match Assoc.find? p.targets name with
  | some id => ((p.entities[id]?).map (p.entityRequests (p.directoryFor name) id)).getD []
  | none => []

/-- What all targets ask for, in the order in which they are built. -/
def requests (p : Project) : List Statement := p.targetNames.flatMap p.targetRequests

/-- No target has a program of its own: all are object files, libraries, executables or groups. -/
def IsNative (p : Project) : Prop := ∀ entry ∈ p.targets, ∀ c, p.entities[entry.2]? ≠ some (.custom c)

end Project

/-! ### Sorts of requests -/

theorem ObjectFile.not_isArchive_request (o : ObjectFile) (w : Workspace) : ¬(o.request w).IsArchive := by
  show ¬((if Toolchain.isC o.src then "CC" else "CXX") ++ " $out" = "AR $out")
  split <;> decide

theorem ObjectFile.not_isLink_request (o : ObjectFile) (w : Workspace) : ¬(o.request w).IsLink := by
  show ¬((if Toolchain.isC o.src then "CC" else "CXX") ++ " $out" = "LD $out")
  split <;> decide

namespace Project

variable (p : Project) (directory : OutPath)

theorem isArchive_archiveRequest (id : Nat) (l : Library) : (p.archiveRequest directory id l).IsArchive := rfl

theorem not_isLink_archiveRequest (id : Nat) (l : Library) : ¬(p.archiveRequest directory id l).IsLink := by
  show ¬("AR $out" = "LD $out")
  decide

theorem isLink_linkRequest (x : Executable) : (p.linkRequest directory x).IsLink := rfl

theorem not_isArchive_linkRequest (x : Executable) : ¬(p.linkRequest directory x).IsArchive := by
  show ¬("LD $out" = "AR $out")
  decide

theorem uses_archiveRequest (id : Nat) (l : Library) :
    (p.archiveRequest directory id l).uses = (p.libraryObjects id l).map fun o => .out (o.out p.workspace) := by
  simp [Statement.uses, archiveRequest, RuleStep.statement, Library.step]

theorem uses_linkRequest (x : Executable) :
    (p.linkRequest directory x).uses =
      (p.executableObjects x).map (fun o => .out (o.out p.workspace)) ++
        (p.entities.libraryClosure x.deps).map fun dep => .out (dep.2.out p.workspace directory) := by
  simp [Statement.uses, linkRequest, RuleStep.statement, Executable.step, Function.comp_def]

end Project

/-! ### Names of object files and archives -/

theorem Lexical.getLast?_join {a b : List Char} (hb : b ≠ []) : (Lexical.join a b).getLast? = b.getLast? := by
  have hlast : b.getLast? = some (b.getLast hb) := List.getLast?_eq_some_getLast hb
  unfold join
  split
  · rfl
  · split <;> simp [List.getLast?_cons, hlast]

theorem getLast?_joinText {a b : String} (hb : b ≠ "") : (joinText a b).toList.getLast? = b.toList.getLast? := by
  have hlist : b.toList ≠ [] := by simpa using hb
  simpa [joinText] using Lexical.getLast?_join hlist

theorem ObjectFile.getLast?_absolute_out (o : ObjectFile) (w : Workspace) :
    (o.out w).absolute.toList.getLast? = some 'o' := by
  have hrel : (o.out w).rel.toList.getLast? = some 'o' := by simp [ObjectFile.out, OutPath.withExtension]
  rw [← hrel]
  exact getLast?_joinText fun h => by simp [h] at hrel

theorem Library.getLast?_absolute_out (l : Library) (w : Workspace) (directory : OutPath) :
    (l.out w directory).absolute.toList.getLast? = some 'a' := by
  have hname : ("lib" ++ l.name ++ ".a").toList.getLast? = some 'a' := by
    rw [String.toList_append, List.getLast?_append]
    rfl
  have hne : ("lib" ++ l.name ++ ".a").toList ≠ [] := fun h => by simp [h] at hname
  have hrel : (l.out w directory).rel.toList.getLast? = some 'a' := by
    rw [← hname]
    cases hsrcs : l.srcs with
    | nil => simpa [Library.out, besideSource, hsrcs, OutPath.join, joinText] using Lexical.getLast?_join hne
    | cons src rest =>
      simpa [Library.out, besideSource, hsrcs, OutPath.withFileName] using Lexical.getLast?_join hne
  rw [← hrel]
  exact getLast?_joinText fun h => by simp [h] at hrel

theorem ObjectFile.absolute_out_ne_empty (o : ObjectFile) (w : Workspace) : (o.out w).absolute ≠ "" := fun h => by
  simpa [h] using o.getLast?_absolute_out w

theorem Library.absolute_out_ne_empty (l : Library) (w : Workspace) (directory : OutPath) :
    (l.out w directory).absolute ≠ "" := fun h => by
  simpa [h] using l.getLast?_absolute_out w directory

theorem ObjectFile.absolute_out_ne (o : ObjectFile) (l : Library) (w : Workspace) (directory : OutPath) :
    (o.out w).absolute ≠ (Library.out l w directory).absolute := fun h => by
  have hlast := o.getLast?_absolute_out w
  rw [h, Library.getLast?_absolute_out l w directory] at hlast
  simp at hlast

theorem ObjectFile.absolute_ne_of_request {o : ObjectFile} {w : Workspace} {path : Path}
    (hpath : path ∈ (o.request w).outs) (l : Library) (directory : OutPath) :
    path.absolute ≠ (Library.out l w directory).absolute := by
  rw [List.mem_singleton.mp hpath]
  exact o.absolute_out_ne l w directory

namespace Project

variable {p : Project} {directory : OutPath} {path : Path}

theorem absolute_ne_empty_of_libraryRequests {id : Nat} {l : Library} {r : Statement}
    (hr : r ∈ p.libraryRequests directory id l) (hpath : path ∈ r.outs) : path.absolute ≠ "" := by
  rcases List.mem_append.mp hr with hr | hr
  · obtain ⟨o, -, rfl⟩ := List.mem_map.mp hr
    rw [List.mem_singleton.mp hpath]
    exact o.absolute_out_ne_empty p.workspace
  · rw [List.mem_singleton.mp hr] at hpath
    rw [List.mem_singleton.mp hpath]
    exact l.absolute_out_ne_empty p.workspace directory

theorem absolute_ne_empty_of_inputRequests {x : Executable} {r : Statement}
    (hr : r ∈ p.inputRequests directory x) (hpath : path ∈ r.outs) : path.absolute ≠ "" := by
  rcases List.mem_append.mp hr with hr | hr
  · obtain ⟨o, -, rfl⟩ := List.mem_map.mp hr
    rw [List.mem_singleton.mp hpath]
    exact o.absolute_out_ne_empty p.workspace
  · obtain ⟨dep, -, hr⟩ := List.mem_flatMap.mp hr
    exact absolute_ne_empty_of_libraryRequests hr hpath

theorem absolute_ne_empty_or {id : Nat} {e : Entity} {r : Statement} (hr : r ∈ p.entityRequests directory id e)
    (hpath : path ∈ r.outs) :
    path.absolute ≠ "" ∨ ∃ x, e = .executable x ∧ path = .out (Executable.out x p.workspace directory) := by
  cases e with
  | objectFile o =>
    rw [List.mem_singleton.mp hr] at hpath
    rw [List.mem_singleton.mp hpath]
    exact .inl (ObjectFile.absolute_out_ne_empty o p.workspace)
  | library l => exact .inl (absolute_ne_empty_of_libraryRequests hr hpath)
  | executable x =>
    rcases List.mem_append.mp hr with hr | hr
    · exact .inl (absolute_ne_empty_of_inputRequests hr hpath)
    · rw [List.mem_singleton.mp hr] at hpath
      exact .inr ⟨x, rfl, List.mem_singleton.mp hpath⟩
  | group _ | custom _ | inert => cases hr

/-- What a link uses never has an empty path. -/
theorem absolute_ne_empty_of_linkRequest {x : Executable} (hpath : path ∈ (p.linkRequest directory x).uses) :
    path.absolute ≠ "" := by
  rw [uses_linkRequest] at hpath
  rcases List.mem_append.mp hpath with hpath | hpath
  · obtain ⟨o, -, rfl⟩ := List.mem_map.mp hpath
    exact o.absolute_out_ne_empty p.workspace
  · obtain ⟨dep, -, rfl⟩ := List.mem_map.mp hpath
    exact Library.absolute_out_ne_empty dep.2 p.workspace directory

end Project

end BuildPlan
