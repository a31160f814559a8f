import BuildPlan.Text.Quoted

/-!
# Errors of a file store

The errors that a file system reports, with their numbers and texts.
-/

namespace BuildPlan

/-- What a file system reports. -/
inductive FileErrorCode where
  | noEntry
  | denied
  | alreadyExists
  | notDirectory
  | isDirectory
  deriving DecidableEq, Repr

/-- The number of an error. -/
def FileErrorCode.number : FileErrorCode → Nat
  | .noEntry => 2
  | .denied => 13
  | .alreadyExists => 17
  | .notDirectory => 20
  | .isDirectory => 21

/-- The text of an error. -/
def FileErrorCode.text : FileErrorCode → String
  | .noEntry => "No such file or directory"
  | .denied => "Permission denied"
  | .alreadyExists => "File exists"
  | .notDirectory => "Not a directory"
  | .isDirectory => "Is a directory"

/-- An error at a path, and at the path that a file was to be moved to. -/
structure FileError where
  code : FileErrorCode
  path : String
  destination : Option String := none
  deriving DecidableEq, Repr

/-- The error as messages show it. -/
def FileError.message (e : FileError) : String :=
  "[Errno " ++ toString e.code.number ++ "] " ++ e.code.text ++ ": " ++ Text.quoted e.path ++
    match e.destination with
    | some path => " -> " ++ Text.quoted path
    | none => ""

/-- Why a file operation fails. -/
inductive FileFailure where
  /-- The file system reports an error. -/
  | reported (error : FileError)
  /-- The path holds the character U+0000, which no file name can. -/
  | badName
  deriving DecidableEq, Repr

end BuildPlan
