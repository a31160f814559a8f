import BuildPlan.CommandLine.Arguments
import BuildPlan.Generate

/-!
# The command

`command` carries out a command line on a store and a source tree. The output document goes to the standard
output or to a file, and the Ninja file to a file if one is named. Neither is written before the run has
succeeded.
-/

namespace BuildPlan.CommandLine

/-- How a command ends. -/
structure Outcome where
  exitCode : Nat
  stdout : String := ""
  /-- The warnings and errors. -/
  log : List String := []
  deriving DecidableEq, Repr

/-- What the command says of its version. -/
def versionText : String := "buildgraph 0.3.0\n"

/-- A command line that cannot be understood. -/
def usageError : Outcome := { exitCode := 2 }

/-- What the run is to do as the operands say. -/
def Arguments.inputOfOperands (a : Arguments) : Except Cause Input := do
  return {
    mode := a.mode.getD .build
    sourceDir := absoluteText (a.sourceDir.getD "")
    buildRoot := absoluteText (a.buildRoot.getD "")
    workingDir := absoluteText (a.workingDir.getD "")
    flags := ← parseFlagArguments a.flags }

/-- A list, or another one if it is empty. -/
def orElse (first second : List String) : List String := if first = [] then second else first

/-- The input with what the options say. Without positive patterns all targets are selected. -/
def Arguments.adjust (a : Arguments) (input : Input) : Input :=
  { input with
    runArguments := orElse a.runArguments input.runArguments
    testArguments := orElse a.testArguments input.testArguments
    positive := orElse a.select (orElse input.positive [".*"])
    negative := orElse a.exclude input.negative
    persist := input.persist && a.persist }

/-- What the run is to do. -/
def Arguments.toInput (a : Arguments) (store : Store) : Except Failure Input :=
  let input :=
    if isGiven a.input then Input.load store (a.input.getD "") else a.inputOfOperands.mapError .of
  input.map a.adjust

/-- A path below a directory, unless it is empty. -/
def below (directory path : String) : String := if path = "" then "" else joinText directory path

/-- The input with its directories taken below a directory. -/
def inputWithin (directory : String) (input : Input) : Input :=
  { input with
    sourceDir := joinText directory input.sourceDir
    buildRoot := joinText directory input.buildRoot
    workingDir := below directory input.workingDir }

/-- The arguments with their paths taken below a directory. -/
def Arguments.within (directory : String) (a : Arguments) : Arguments :=
  { a with
    input := a.input.map (below directory)
    output := if a.output = "-" then "-" else below directory a.output
    ninjaFile := a.ninjaFile.map (below directory)
    sourceDir := a.sourceDir.map (below directory)
    buildRoot := a.buildRoot.map (below directory)
    workingDir := a.workingDir.map (below directory) }

/-- A file of the results is written. -/
def writeResult (path text : String) : LoadM Unit :=
  LoadState.onSettings (Settings.onStore fun store =>
    let path := tidyText path
    match store.writeAtomically path text with
    | (.ok (), store) => (.ok (), store)
    | (.error e, store) => (.error (.ofFile (.unwritable path) e), store))

/-- The warnings of a run: there may be no Ninja file to write. -/
def warnings (a : Arguments) (mode : Mode) : List String :=
  if isGiven a.ninjaFile && !mode.generates then
    ["WARNING: Mode " ++ marked mode.name ++ " does not generate a build file"]
  else []

/-- The results of a run are written. The answer is what goes to the standard output. -/
def writeResults (a : Arguments) (mode : Mode) (output : Output) : LoadM String := do
  if let some path := a.ninjaFile then
    if path ≠ "" ∧ mode.generates then writeResult path output.ninjaFile
  if a.output = "-" then return output.text
  writeResult a.output output.text
  return ""

/-- The end of a command after a failure. -/
def failed (log : List String) : Failure → Except Failure Outcome
  | .build e => .ok { exitCode := 1, log := log ++ ["ERROR: " ++ e.message] }
  | .fault f => .error (.fault f)

/-- A run is carried out, and its results are written. -/
def carryOut (files : BuildFiles) (store : Store) (a : Arguments) (input : Input) :
    Except Failure Outcome × Store :=
  match generateFromTree files input { store } with
  | .error e s => (failed [] e, s.store)
  | .ok output s =>
    let log := warnings a input.mode
    match writeResults a input.mode output s with
    | .error e s => (failed log e, s.store)
    | .ok stdout s => (.ok { exitCode := 0, stdout, log }, s.store)

/-- The arguments of a command line are carried out. -/
def runArguments (files : BuildFiles) (store : Store) (a : Arguments) : Except Failure Outcome × Store :=
  match a.toInput store with
  | .error e => (failed [] e, store)
  | .ok input => carryOut files store a input

/-- A command line is carried out. The second component is the store afterwards. -/
def command (files : BuildFiles) (store : Store) (words : List String) : Except Failure Outcome × Store :=
  match Request.read words with
  | .invalid => (.ok usageError, store)
  | .showVersion => (.ok { exitCode := 0, stdout := versionText }, store)
  | .showHelp => (.ok { exitCode := 0 }, store)
  | .run arguments => runArguments files store arguments

end BuildPlan.CommandLine
