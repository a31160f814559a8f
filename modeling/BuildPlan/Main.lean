import BuildPlan.CommandLine.Command
import BuildPlan.Description.Entity

/-!
# The program

`main` carries out a command line on the files of the machine. It copies what the run may look at into a store,
carries the run out on the store, and writes the files that are different then. Build files hold descriptions, as
`Description.buildFileOf` reads them.
-/

namespace BuildPlan.CommandLine

/-! ### From the machine to a store -/

/-- The mode of a copied file, which stands for whatever mode the file has. -/
def unknownMode : Nat := 0

/-- What the machine has at a place is copied; a file that is no text counts as empty. -/
def copyNode (store : Store) (place : Location) : IO Store := do
  if place = [] then return store
  let file := (← IO.currentDir) / Location.path place
  if ← file.isDir then return store.put place .directory
  if ← file.pathExists then
    let text ← try IO.FS.readFile file catch _ => pure ""
    return store.put place (.file text unknownMode)
  return store

/-- What the machine has at a path and above it is copied. -/
def copyPath (store : Store) (path : String) : IO Store :=
  let place := locate path
  (Store.ancestors place ++ [place]).foldlM copyNode store

/-- The files of a directory are copied. -/
def copyFiles (store : Store) (directory : String) : IO Store := do
  let place := locate directory
  if !store.isDirectory place then return store
  let entries ← ((← IO.currentDir) / directory).readDir
  entries.toList.foldlM (fun store entry => copyNode store (place ++ [entry.fileName])) store

/-- The build files below a place are copied, with the directories on the way to them. -/
partial def copyTree (store : Store) (place : Location) : IO Store := do
  let entries ← ((← IO.currentDir) / Location.path place).readDir
  entries.toList.foldlM (fun store entry => do
    let below := place ++ [entry.fileName]
    match (← entry.path.symlinkMetadata).type with
    | .dir =>
      let store := store.put below .directory
      if isVisible entry.fileName then copyTree store below else return store
    | _ => if entry.fileName = buildFileName then copyNode store below else return store) store

/-- Everything that a run may look at is copied. -/
def copyInput (store : Store) (a : Arguments) (input : Input) : IO Store := do
  let w := input.workspace
  let store ← ([input.sourceDir, w.flagsFile, w.dataDir, a.output] ++ a.ninjaFile.toList).foldlM copyPath store
  let store ← copyFiles store w.dataDir
  let root := locate input.sourceDir
  if store.isDirectory root then copyTree store root else return store

/-- The build files of a store. -/
def buildFilesOf (store : Store) : BuildFiles :=
  store.entries.filterMap fun (place, node) =>
    match node with
    | .file text _ =>
      if place.getLast? = some buildFileName then some (place, Description.buildFileOf text) else none
    | .directory => none

/-! ### From a store to the machine -/

/-- The rights that the digits of a mode stand for. -/
def rightsOf (mode : Nat) : IO.FileRight :=
  let rights (digit : Nat) : IO.AccessRight :=
    ⟨mode.testBit (digit + 2), mode.testBit (digit + 1), mode.testBit digit⟩
  ⟨rights 6, rights 3, rights 0⟩

/-- A file of the machine is replaced, by way of another one unless it keeps its mode. -/
def writeFile (path text : String) (mode : Nat) : IO Unit := do
  let file := (← IO.currentDir) / path
  if let some parent := file.parent then IO.FS.createDirAll parent
  if mode = unknownMode then IO.FS.writeFile file text
  else
    let temporary := (← IO.currentDir) / (path ++ ".new")
    IO.FS.writeFile temporary text
    IO.setAccessRights temporary (rightsOf mode)
    IO.FS.rename temporary file

/-! ### Runs -/

/-- The arguments of a command line are carried out on the files of the machine. -/
def carryOutHere (a : Arguments) : IO (Except Failure Outcome) := do
  let directory := (← IO.currentDir).toString
  let a := a.within directory
  let store ← a.input.toList.foldlM copyPath {}
  match a.toInput store with
  | .error e => return failed [] e
  | .ok input =>
    let input := inputWithin directory input
    let store ← copyInput store a input
    let (outcome, after) := carryOut (buildFilesOf store) store a input
    (after.changedSince store).forM fun (path, text, mode) => writeFile path text mode
    return outcome

/-- How the command is used. -/
def usage : String := "usage: buildgraph [OPTION ...] MODE SOURCE_DIR BUILD_DIR_PREFIX WORKING_DIR [FLAG[=VALUE] ...]"

/-- A command line is carried out on the files of the machine. -/
def commandHere (words : List String) : IO (Except Failure Outcome) := do
  match Request.read words with
  | .run arguments => carryOutHere arguments
  | .invalid =>
    IO.eprintln usage
    return .ok usageError
  | .showHelp => return .ok { exitCode := 0, stdout := usage ++ "\n" }
  | .showVersion => return .ok { exitCode := 0, stdout := versionText }

end BuildPlan.CommandLine

/-- The exit code is zero when everything has been done. -/
def main (words : List String) : IO UInt32 := do
  match ← BuildPlan.CommandLine.commandHere words with
  | .ok outcome =>
    outcome.log.forM fun line => IO.eprintln line
    IO.print outcome.stdout
    return outcome.exitCode.toUInt32
  | .error failure =>
    IO.eprintln failure.message
    return 1
