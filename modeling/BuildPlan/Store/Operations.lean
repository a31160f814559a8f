import BuildPlan.Store.Basic
import BuildPlan.Store.Error

/-!
# File operations

Each operation takes a path as text and either changes the store or reports why it cannot. `writeAtomically`
goes through a temporary file in the same directory, so that the old file stays as it is unless everything
succeeds.
-/

namespace BuildPlan.Store

/-- The result of an operation that only looks, or that makes a new store. -/
abbrev Outcome (α : Type) := Except FileFailure α

/-- The failure at a path. -/
def failAt {α : Type} (code : FileErrorCode) (path : String) : Outcome α := .error (.reported ⟨code, path, none⟩)

/-- The path can be a file name. -/
def checkName (path : String) : Outcome Unit :=
  if path.toList.contains '\x00' then .error .badName else .ok ()

/-- The places above a place are directories; otherwise the first that is not says why. -/
def checkAncestors (s : Store) (path : String) (place : Location) : Outcome Unit :=
  match (ancestors place).find? fun above => !s.isDirectory above with
  | none => .ok ()
  | some above => failAt (if (s.find? above).isSome then .notDirectory else .noEntry) path

/-- The file system lets the place be used. -/
def checkAccess (s : Store) (access : Access) (path : String) (place : Location) : Outcome Unit :=
  if s.refuses access place then failAt .denied path else .ok ()

/-- Something is at the path. -/
def hasEntry (s : Store) (path : String) : Bool :=
  let place := locate path
  !path.toList.contains '\x00' && (s.find? place).isSome && (ancestors place).all s.isDirectory

/-- The text of a file. -/
def readText (s : Store) (path : String) : Outcome String := do
  checkName path
  let place := locate path
  s.checkAncestors path place
  match s.find? place with
  | none => failAt .noEntry path
  | some .directory => failAt .isDirectory path
  | some (.file text _) =>
    s.checkAccess .read path place
    return text

/-- The store with a file's text set. A new file has the plain mode and an old one keeps its own. -/
def writeText (s : Store) (path text : String) : Outcome Store := do
  checkName path
  let place := locate path
  s.checkAncestors path place
  match s.find? place with
  | none =>
    s.checkAccess .create path place
    return s.put place (.file text plainMode)
  | some .directory => failAt .isDirectory path
  | some (.file _ mode) =>
    s.checkAccess .write path place
    return s.put place (.file text mode)

/-- The store with a file's mode set; only the rights and the three special bits count. -/
def setMode (s : Store) (path : String) (mode : Nat) : Outcome Store := do
  checkName path
  let place := locate path
  s.checkAncestors path place
  s.checkAccess .changeMode path place
  match s.find? place with
  | none => failAt .noEntry path
  | some .directory => return s
  | some (.file text _) => return s.put place (.file text (mode % 0o10000))

/-- The store with directories at a place and at all places above it. Of a file in the way, the error is that
it exists when it is at the place itself, and that the place is in no directory when it is above. -/
def makeDirectories (s : Store) (path : String) : Outcome Store := do
  checkName path
  let place := locate path
  match s.find? place with
  | some .directory => return s
  | some (.file _ _) => failAt .alreadyExists path
  | none =>
    let missing := (ancestors place ++ [place]).filter fun above => (s.find? above).isNone
    if (ancestors place).all fun above => (s.find? above).isNone || s.isDirectory above then
      missing.forM fun above => s.checkAccess .makeDirectory path above
      return missing.foldl (fun s above => s.put above .directory) s
    else failAt .notDirectory path

/-- The directory of a file name, as names are shown. -/
def parentPath (path : String) : String :=
  tidyText (directoryOf (tidyText path))

/-- The name of a temporary file, as messages have it. -/
def temporaryName : String := "<tmp>"

/-- A place in a directory where nothing is: a dot, the name, and dots until it is free. -/
def freshPlace (s : Store) (directory : Location) (name : String) : Nat → Location
  | 0 => directory ++ ["." ++ name ++ "."]
  | fuel + 1 =>
    let place := directory ++ ["." ++ name ++ "."]
    if (s.find? place).isNone then place else freshPlace s directory (name ++ ".") fuel

/-- The store in which a temporary file has taken the place of the one at `path`. -/
def moveOnto (s : Store) (temporary place : Location) (path : String) : Outcome Store :=
  let failure (code : FileErrorCode) : Outcome Store :=
    .error (.reported ⟨code, temporaryName, some path⟩)
  if s.refuses .rename place then failure .denied
  else
    match s.find? place, s.find? temporary with
    | some .directory, _ => failure .isDirectory
    | _, none => failure .noEntry
    | _, some node => .ok ((s.remove temporary).put place node)

/-- The temporary file is written, made readable by all and moved to `path`. -/
def fillAndMove (s : Store) (temporary place : Location) (path text : String) : Outcome Store := do
  s.checkAccess .write temporaryName temporary
  let s := s.put temporary (.file text 0o600)
  s.checkAccess .changeMode temporaryName temporary
  let s := s.put temporary (.file text plainMode)
  s.moveOnto temporary place path

/-- The file at `path` is replaced by one with the text, by way of a temporary file in its directory. The
second component is the store afterwards: a failure leaves at most new directories, and no temporary file. -/
def writeAtomically (s : Store) (path text : String) : Outcome Unit × Store :=
  match s.makeDirectories (parentPath path) with
  | .error e => (.error e, s)
  | .ok s =>
    match checkName path with
    | .error e => (.error e, s)
    | .ok () =>
      let place := locate path
      let directory := locate (parentPath path)
      let name := lastComponent (tidyText path)
      let temporary := s.freshPlace directory name s.entries.length
      if s.refuses .create temporary then (failAt .denied temporaryName, s)
      else
        let begun := s.put temporary (.file "" 0o600)
        match begun.fillAndMove temporary place path text with
        | .ok s => (.ok (), s)
        | .error e => (.error e, begun.remove temporary)

end BuildPlan.Store
