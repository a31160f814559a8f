import BuildPlan.Error
import BuildPlan.Flag.Memory
import BuildPlan.Workspace

/-!
# Input documents

An `Input` says what a run is to do. `Input.ofJson` takes it from a JSON document and names the first thing that
is wrong with the document, `Input.load` from a file.
-/

namespace BuildPlan

/-- What the user wants to do. -/
inductive Mode where
  | build
  | run
  | test
  | list
  | flags
  deriving DecidableEq, Repr

namespace Mode

/-- All modes. -/
def all : List Mode := [.build, .run, .test, .list, .flags]

/-- The name of a mode. -/
def name : Mode → String
  | .build => "build"
  | .run => "run"
  | .test => "test"
  | .list => "list"
  | .flags => "flags"

/-- The mode with a name. -/
def ofName? (name : String) : Option Mode := all.find? (·.name = name)

/-- The mode needs a build file. -/
def generates : Mode → Bool
  | .build | .run | .test => true
  | .list | .flags => false

end Mode

/-- What a run is to do. -/
structure Input where
  mode : Mode := .build
  sourceDir : String
  buildRoot : String
  workingDir : String
  /-- Texts for flags. -/
  flags : Assoc String String := []
  runArguments : List String := []
  testArguments : List String := []
  /-- Targets that match one of these are selected, -/
  positive : List String := []
  /-- unless they match one of these. -/
  negative : List String := []
  /-- The values of the flags are remembered. -/
  persist : Bool := true
  deriving DecidableEq, Repr

namespace Input

/-- The workspace of the run, before its configuration is known. -/
def workspace (i : Input) : Workspace :=
  { sourceDir := i.sourceDir, buildRoot := i.buildRoot, workingDir := i.workingDir }

/-- A field as `read` reads it, or its default where it is missing. A field without a default has to be there. -/
def readField {α : Type} (read : Json → Option α) (default : Option α) (complaint : Json → Cause)
    (fields : List (String × Json)) (name : String) : Except Cause α :=
  match Json.field? fields name with
  | some json => (read json).elim (.error (complaint json)) .ok
  | none => default.elim (.error (complaint .null)) .ok

/-- The mode of a document. -/
def modeField (fields : List (String × Json)) : Except Cause Mode :=
  readField (·.string?.bind Mode.ofName?) (some .build) (fun json => .unknownMode json.display) fields "mode"

/-- A field that has to be a string. -/
def stringField (fields : List (String × Json)) (name : String) : Except Cause String :=
  readField Json.string? none (fun _ => .fieldNotString name) fields name

/-- A field that has to be a list of strings; without it the list is empty. -/
def listField (fields : List (String × Json)) (name : String) : Except Cause (List String) :=
  readField Json.stringList? (some []) (fun _ => .fieldNotStringList name) fields name

/-- A field that has to be an object of strings; without it the object is empty. -/
def mapField (fields : List (String × Json)) (name : String) : Except Cause (Assoc String String) :=
  readField Json.stringMap? (some []) (fun _ => .fieldNotStringMap name) fields name

/-- The fields of a document of the right version. -/
def fieldsOf : Json → Except Cause (List (String × Json))
  | .object fields =>
    let version := (Json.field? fields "version").getD .null
    if version.isOne then .ok fields else .error (.inputVersion version.text)
  | _ => .error .inputNotObject

/-- The input that a JSON document describes. -/
def ofJson (document : Json) : Except Cause Input := do
  let fields ← fieldsOf document
  let mode ← modeField fields
  let sourceDir ← stringField fields "source_dir"
  let buildRoot ← stringField fields "build_dir_prefix"
  let workingDir ← stringField fields "working_dir"
  let flags ← mapField fields "cmdline_flags"
  let runArguments ← listField fields "run_args"
  let testArguments ← listField fields "test_args"
  let positive ← listField fields "positive_patterns"
  let negative ← listField fields "negative_patterns"
  let persist := ((Json.field? fields "persist_flags").map Json.isTruthy).getD true
  return { mode, sourceDir, buildRoot, workingDir, flags, runArguments, testArguments, positive, negative, persist }

/-- The input that a file describes. -/
def load (store : Store) (path : String) : Except Failure Input :=
  match store.readText path with
  | .error e => .error (.ofFile .inputUnreadable e)
  | .ok text =>
    match Json.read text with
    | .error e => .error (.ofReadError .inputUnparsable e)
    | .ok document => (ofJson document).mapError .of

end Input

end BuildPlan
