import BuildPlan.Assoc
import BuildPlan.Path.Basic

/-!
# File stores

A `Store` is the part of a file system that a run can see: directories and text files with their modes, each at
a `Location` below the root. A store may refuse any kind of access anywhere, as a real one does when rights are
missing. `Store.WellFormed` says that whatever exists lies in directories, and `Store.OwnsWhatItMakes` that files which
may be made may also be used.
-/

namespace BuildPlan

/-- A place in the file system: the components of its path from the root. -/
abbrev Location := List String

/-- The place that a path leads to; a relative path starts at the root. -/
def locate (path : String) : Location := (Lexical.components path.toList).map String.ofList

/-- The path from the root to a place. -/
def Location.path (at' : Location) : String := "/" ++ "/".intercalate at'

/-- What can be at a place. -/
inductive Node where
  | directory
  | file (text : String) (mode : Nat)
  deriving DecidableEq, Repr

/-- The mode of a file that is newly made: readable by all, writable by its owner. -/
def plainMode : Nat := 0o644

/-- The mode of a file that can be run. -/
def scriptMode : Nat := 0o755

/-- Ways to use a place. -/
inductive Access where
  | makeDirectory
  | create
  | write
  | changeMode
  | rename
  | read
  deriving DecidableEq, Repr

/-- Directories and files by their places. -/
structure Store where
  entries : Assoc Location Node := []
  /-- The accesses that the file system refuses. -/
  refuses : Access → Location → Bool := fun _ _ => false

namespace Store

/-- What is at a place; the root is a directory. -/
def find? (s : Store) (place : Location) : Option Node :=
  if place = [] then some .directory else Assoc.find? s.entries place

/-- The place holds a directory. -/
def isDirectory (s : Store) (place : Location) : Bool := s.find? place = some .directory

/-- The store with something put at a place. -/
def put (s : Store) (place : Location) (node : Node) : Store :=
  { s with entries := Assoc.insert s.entries place node }

/-- The store with nothing at a place. -/
def remove (s : Store) (place : Location) : Store := { s with entries := Assoc.erase s.entries place }

/-- The places above a place, from the root down. -/
def ancestors (place : Location) : List Location := (List.range place.length).map (place.take ·)

/-- Whatever exists lies in directories. -/
def WellFormed (s : Store) : Prop :=
  ∀ place, (s.find? place).isSome → ∀ above ∈ ancestors place, s.find? above = some .directory

/-- A run may read and write the files that it makes: it owns them, and they get the plain mode. -/
def OwnsWhatItMakes (s : Store) : Prop :=
  ∀ place, s.refuses .create place = false → s.refuses .read place = false ∧ s.refuses .write place = false

/-- The text files with their modes, by path. -/
def files (s : Store) : List (String × String × Nat) :=
  s.entries.filterMap fun (place, node) =>
    match node with
    | .file text mode => some (Location.path place, text, mode)
    | .directory => none

/-- The files of the store that are not, or not the same, in an earlier one. -/
def changedSince (s earlier : Store) : List (String × String × Nat) :=
  s.files.filter fun entry => !earlier.files.contains entry

theorem find?_put (s : Store) (place other : Location) (node : Node) (h : place ≠ []) :
    (s.put place node).find? other = if other = place then some node else s.find? other := by
  unfold find? put
  by_cases ho : other = []
  · simp [ho, h.symm]
  · simp [ho, Assoc.find?_insert]

end Store

end BuildPlan
