import BuildPlan.Build.Session

/-!
# Building C and C++ files

The steps of object files, libraries and executables. Object files and archives are marked as built by their
absolute paths, so each is asked for once, however many targets reach it.
-/

namespace BuildPlan

/-- The object file of a source file. -/
def ObjectFile.out (o : ObjectFile) (w : Workspace) : OutPath := (w.outPath o.src).withExtension "o"

/-- The words of the flags of a compilation. -/
def ObjectFile.allFlags (o : ObjectFile) : List String :=
  o.toolchain.compilerFlags ++ o.flags ++ o.includes.map fun path => "-I" ++ path.absolute

/-- The step that compiles a source file. -/
def ObjectFile.step (o : ObjectFile) (w : Workspace) : RuleStep :=
  { rule := o.toolchain.compileRule o.src
    outs := [.out (o.out w)]
    ins := [o.src]
    bindings := [("flags", Shell.joinWords o.allFlags)] }

/-- A file with a name beside the first source file, or else in the build directory of the target. -/
def besideSource (w : Workspace) (directory : OutPath) (srcs : List Path) (fileName : String) : OutPath :=
  match srcs with
  | src :: _ => (w.outPath src).withFileName fileName
  | [] => directory.join fileName

/-- The archive of a library. -/
def Library.out (l : Library) (w : Workspace) (directory : OutPath) : OutPath :=
  besideSource w directory l.srcs ("lib" ++ l.name ++ ".a")

/-- The step that packs an archive. -/
def Library.step (l : Library) (out : OutPath) (objects : List OutPath) : RuleStep :=
  { rule := l.toolchain.archiveRule, outs := [.out out], ins := objects.map .out }

/-- The executable file. -/
def Executable.out (x : Executable) (w : Workspace) (directory : OutPath) : OutPath :=
  besideSource w directory x.srcs x.name

/-- The step that links an executable. -/
def Executable.step (x : Executable) (out : OutPath) (objects archives : List OutPath) : RuleStep :=
  { rule := x.toolchain.linkRule
    outs := [.out out]
    ins := objects.map .out
    implicit := archives.map .out
    bindings :=
      [("flags", Shell.joinWords (x.toolchain.linkerFlags ++ x.linkerFlags)),
        ("libs", Shell.joinWords (archives.map OutPath.absolute))] }

/-- The object files of source files that are compiled with the include directories of some libraries. -/
def objectFiles (w : Workspace) (srcs : List Path) (flags : List String) (deps : List Library)
    (toolchain : Toolchain) : List ObjectFile :=
  srcs.map fun src =>
    { src, flags, toolchain, includes := w.source "" :: deps.flatMap (·.includes) }

namespace Session

/-- Something is built unless its file has been built before. -/
def unlessBuilt (p : Project) (out : OutPath) (build : SessionM Unit) : SessionM OutPath := do
  if ← isBuilt p out.absolute then return out
  build
  return out

/-- An object file is built. -/
def buildObjectFile (p : Project) (o : ObjectFile) : SessionM OutPath :=
  let w := p.workspace
  let out := o.out w
  unlessBuilt p out (traced ("obj:" ++ out.rel) (addStep w (.ruled (o.step w))))

/-- A library is built, with the object files that it needs. -/
def buildLibrary (p : Project) (id : Nat) (l : Library) : SessionM OutPath := do
  let w := p.workspace
  let out := l.out w (← currentGraph).directory
  unlessBuilt p out (traced ("lib:" ++ out.rel) do
    let deps := (p.entities.libraryClosure [id]).map (·.2)
    let objects ← (objectFiles w l.srcs l.compilerFlags deps l.toolchain).mapM (buildObjectFile p)
    addStep w (.ruled (l.step out objects)))

/-- An executable is linked, and is known from now on. -/
def linkExecutable (p : Project) (id : Nat) (x : Executable) (objects archives : List OutPath) : SessionM Unit := do
  let out := x.out p.workspace (← currentGraph).directory
  addStep p.workspace (.ruled (x.step out objects archives))
  modify fun s => { s with executables := Assoc.insert s.executables id (.out out) }

/-- An executable is built, with the object files and libraries that it needs. -/
def buildExecutable (p : Project) (id : Nat) (x : Executable) : SessionM Unit := do
  let w := p.workspace
  let deps := p.entities.libraryClosure x.deps
  let objects ← (objectFiles w x.srcs x.compilerFlags (deps.map (·.2)) x.toolchain).mapM (buildObjectFile p)
  let archives ← deps.mapM fun (id, library) => buildLibrary p id library
  linkExecutable p id x objects archives

/-- The command that runs an executable, which must have been linked. -/
def executableCommand (id : Nat) (x : Executable) (arguments : List String) : SessionM String := do
  match Assoc.find? (← knownExecutables) id with
  | some path => return Shell.joinWords (path.absolute :: arguments)
  | none => raise (.notBuilt x.name)

end Session

end BuildPlan
