import BuildPlan.Numeral.Integer
import BuildPlan.Store.Error
import BuildPlan.Text.Quoted

/-!
# Errors

A run fails with a `Failure`. Nearly all of them are a `BuildError`: a `Cause`, and the target that was being
processed when it arose. `Cause.message` holds the wording of every cause in one place. The others are faults,
which no step of a run recovers from.
-/

namespace BuildPlan

/-- The families of errors. -/
inductive ErrorKind where
  | general
  | config
  | duplicateFlag
  | missingFlagValue
  | disallowedFlagValue
  | generate
  | buildStep
  | redefinition
  | ruleConflict
  | targetReference
  | input
  | load
  | template
  deriving DecidableEq, Repr

/-- Why a file of data cannot be used. -/
inductive Unusable where
  /-- The file system reports an error. -/
  | unreadable (error : FileError)
  /-- The text is not in the expected format. -/
  | unparsable
  deriving DecidableEq, Repr

/-- The stand-in for the details of a text that is not in the expected format. -/
def detail : String := "<detail>"

/-- What a message says of a file that cannot be used. -/
def Unusable.message : Unusable → String
  | .unreadable error => error.message
  | .unparsable => detail

/-- The causes of errors. -/
inductive Cause where
  -- flags
  | invalidBool (text flag : String)
  | invalidInteger (text flag : String) (why : Numeral.IntegerError)
  | invalidDecimal (text flag : String)
  | hashBeforeLock
  | registeredAfterLock (flag : String)
  | readAfterLock (flag : String)
  | notRegistered (flag : String)
  | invalidFlagArgument (argument : String)
  | duplicateFlag (name : String)
  | missingFlagValue (name : String)
  | disallowedFlagValue (name value : String) (allowed : List String)
  | flagsUnusable (file : String) (why : Unusable)
  | flagsNotTable (file : String)
  | flagsUnwritable (file : String) (error : FileError)
  -- steps
  | commandAndScript
  | commandAndData
  | dataWithoutSingleOutput
  | payloadUnwritable (file : String) (error : FileError)
  | reservedRule (name : String)
  | ruleConflict (rule : String)
  | redefinition (output : String) (traces : List String) (trace : String)
  -- targets
  | notTarget
  | notExported (name : String)
  | notBuilt (executable : String)
  -- documents and files
  | inputNotObject
  | inputVersion (shown : String)
  | unknownMode (shown : String)
  | fieldNotString (field : String)
  | fieldNotStringList (field : String)
  | fieldNotStringMap (field : String)
  | inputUnreadable (error : FileError)
  | inputUnparsable
  | invalidPattern (pattern : String)
  | unwritable (file : String) (error : FileError)
  | loadFailed (file text : String)
  | templateFailed (name : String)
  /-- An error that a build program raises itself. -/
  | reported (kind : ErrorKind) (message : String)
  deriving DecidableEq, Repr

/-- The family of a cause. -/
def Cause.kind : Cause → ErrorKind
  | .invalidBool .. | .invalidInteger .. | .invalidDecimal .. | .hashBeforeLock | .registeredAfterLock _
  | .readAfterLock _ | .notRegistered _ | .invalidFlagArgument _ | .flagsUnusable .. | .flagsNotTable _
  | .flagsUnwritable .. => .config
  | .duplicateFlag _ => .duplicateFlag
  | .missingFlagValue _ => .missingFlagValue
  | .disallowedFlagValue .. => .disallowedFlagValue
  | .commandAndScript | .commandAndData | .dataWithoutSingleOutput | .reservedRule _ => .buildStep
  | .ruleConflict _ => .ruleConflict
  | .redefinition .. => .redefinition
  | .notTarget | .notExported _ => .targetReference
  | .payloadUnwritable .. | .notBuilt _ | .unwritable .. => .generate
  | .inputNotObject | .inputVersion _ | .unknownMode _ | .fieldNotString _ | .fieldNotStringList _
  | .fieldNotStringMap _ | .inputUnreadable _ | .inputUnparsable | .invalidPattern _ => .input
  | .loadFailed .. => .load
  | .templateFailed _ => .template
  | .reported kind _ => kind

/-- A text between plain single quotation marks. -/
def marked (text : String) : String := "\x27" ++ text ++ "\x27"

/-- What a message says of a number with too many digits. -/
def tooManyDigits (digits : Nat) : String :=
  "Exceeds the limit (" ++ toString Numeral.digitLimit ++
    " digits) for integer string conversion: value has " ++ toString digits ++
    " digits; use sys.set_int_max_str_digits() to increase the limit"

/-- What a message says of a number with too many digits to be written. -/
def tooLongToWrite : String :=
  "Exceeds the limit (" ++ toString Numeral.digitLimit ++
    " digits) for integer string conversion; use sys.set_int_max_str_digits() to increase the limit"

/-- Why a text is not an integer; a long text is cut. -/
def integerErrorText (text : String) : Numeral.IntegerError → String
  | .malformed =>
    "invalid literal for int() with base 10: " ++ String.ofList ((Text.quoted text).toList.take 200)
  | .tooLong digits => tooManyDigits digits

/-- The version of the documents that are read and written. -/
def documentVersion : Nat := 1

/-- The wording of a cause. -/
def Cause.message : Cause → String
  | .invalidBool text flag => "invalid value " ++ marked text ++ " for boolean flag " ++ marked flag
  | .invalidInteger text flag why =>
    "invalid value " ++ marked text ++ " for integer flag " ++ marked flag ++ ": " ++
      integerErrorText text why
  | .invalidDecimal text flag =>
    "invalid value " ++ marked text ++ " for floating-point flag " ++ marked flag ++
      ": could not convert string to float: " ++ Text.quoted text
  | .hashBeforeLock => "configuration hash requested before flags were locked"
  | .registeredAfterLock flag => "flag " ++ marked flag ++ " registered after flags were locked"
  | .readAfterLock flag =>
    "flag " ++ marked flag ++ " accessed, but not registered before flags were locked"
  | .notRegistered flag => "flag " ++ marked flag ++ " is not registered"
  | .invalidFlagArgument argument => "invalid flag argument " ++ marked argument
  | .duplicateFlag name => "multiple flags with name " ++ marked name
  | .missingFlagValue name => "flag " ++ marked name ++ " has no value"
  | .disallowedFlagValue name value allowed =>
    "flag " ++ marked name ++ " has unallowed value " ++ marked value ++ " (allowed: " ++
      ", ".intercalate allowed ++ ")"
  | .flagsUnusable file why => "failed to read persisted flags from " ++ file ++ ": " ++ why.message
  | .flagsNotTable file => "persisted flags in " ++ file ++ " are not a name/value object"
  | .flagsUnwritable file error => "failed to write persisted flags to " ++ file ++ ": " ++ error.message
  | .commandAndScript => "cannot specify both Cmd and Script in a build step"
  | .commandAndData => "cannot specify both Cmd and Data in a build step"
  | .dataWithoutSingleOutput => "a single Out is required for Data in a build step"
  | .payloadUnwritable file error => "failed to write data file " ++ file ++ ": " ++ error.message
  | .reservedRule name => "rule name " ++ marked name ++ " is reserved"
  | .ruleConflict rule => "conflicting definitions of rule " ++ marked rule
  | .redefinition output traces trace =>
    "incompatible redefinition of output " ++ marked output ++ " (first defined at " ++
      marked (traces.headD "<unknown>") ++ ", redefined at " ++ marked trace ++ ")"
  | .notTarget => "adding target dependency to invalid target"
  | .notExported name => "adding target dependency to non-exported target " ++ marked name
  | .notBuilt executable => "binary " ++ marked executable ++ " was not built"
  | .inputNotObject => "input document must be a JSON object"
  | .inputVersion shown =>
    "unexpected version of input: " ++ shown ++ ", expected " ++ toString documentVersion
  | .unknownMode shown => "unknown mode: " ++ shown
  | .fieldNotString field => "input field " ++ marked field ++ " must be a string"
  | .fieldNotStringList field => "input field " ++ marked field ++ " must be a list of strings"
  | .fieldNotStringMap field => "input field " ++ marked field ++ " must be a string mapping"
  | .inputUnreadable error => "could not read input file: " ++ error.message
  | .inputUnparsable => "could not parse input: " ++ detail
  | .invalidPattern pattern =>
    "target pattern " ++ marked pattern ++ " is not a valid regular expression: " ++ detail
  | .unwritable file error => "failed to write " ++ file ++ ": " ++ error.message
  | .loadFailed file text => "failed to load " ++ file ++ ": " ++ text
  | .templateFailed name => "cannot render template " ++ marked name ++ ": " ++ detail
  | .reported _ message => message

/-- An error of a run. -/
structure BuildError where
  cause : Cause
  /-- The target that was being processed. -/
  target : Option String := none
  deriving DecidableEq, Repr

/-- The error as it is shown: the cause, after the target when there is one with a name. -/
def BuildError.message (e : BuildError) : String :=
  match e.target with
  | some target => if target = "" then e.cause.message else "target " ++ marked target ++ ": " ++ e.cause.message
  | none => e.cause.message

/-- The error with a target, unless it has one already. -/
def BuildError.during (e : BuildError) (target : String) : BuildError :=
  { e with target := some (e.target.getD target) }

/-- Failures outside the families of errors. -/
inductive Fault where
  /-- A value that an operation cannot take. -/
  | value (text : String)
  /-- A state in which an operation makes no sense. -/
  | state (text : String)
  /-- An operation that a thing does not have. -/
  | absent (text : String)
  /-- A value of a type that an operation cannot take. -/
  | mismatch (text : String)
  /-- Build programs call each other too deep. -/
  | tooDeep
  deriving DecidableEq, Repr

/-- The wording of a fault. -/
def Fault.message : Fault → String
  | .value text | .state text | .absent text | .mismatch text => text
  | .tooDeep => "maximum recursion depth exceeded"

/-- How a run can fail. -/
inductive Failure where
  | build (error : BuildError)
  | fault (fault : Fault)
  deriving DecidableEq, Repr

/-- The wording of a failure. -/
def Failure.message : Failure → String
  | .build e => e.message
  | .fault f => f.message

/-- A failure with a cause and no target. -/
def Failure.of (cause : Cause) : Failure := .build { cause }

/-- A path that no file can have. -/
def Failure.badName : Failure := .fault (.value "embedded null byte")

/-- Something does not have an operation. -/
def Failure.lacking (thing operation : String) : Failure :=
  .fault (.absent (marked thing ++ " object has no attribute " ++ marked operation))

/-- No path leads to the empty path. -/
def Failure.noPath : Failure := .fault (.value "no path specified")

/-- The failure of a file operation, where `cause` says what the operation was for. -/
def Failure.ofFile (cause : FileError → Cause) : FileFailure → Failure
  | .reported error => .of (cause error)
  | .badName => .badName

end BuildPlan
