import BuildPlan.Flag.Registry
import BuildPlan.Json.Reader
import BuildPlan.Json.Writer
import BuildPlan.Store.Operations

/-!
# Remembered flags

A run remembers the values of its flags in a file, an object of texts. `loadFlags` reads such a file and
`saveFlags` writes it; `Settings.lock` locks a registry and remembers its values if it is told where.
-/

namespace BuildPlan

/-- The failure of reading JSON, where `cause` says what was read. -/
def Failure.ofReadError (cause : Cause) : Json.ReadError → Failure
  | .malformed => .of cause
  | .tooLong digits => .fault (.value (tooManyDigits digits))

/-- The values that a file remembers; without a file there are none. -/
def loadFlags (store : Store) (path : String) : Except Failure (Assoc String String) :=
  let path := tidyText path
  if !store.hasEntry path then .ok []
  else
    match store.readText path with
    | .error e => .error (.ofFile (fun error => .flagsUnusable path (.unreadable error)) e)
    | .ok text =>
      match Json.read text with
      | .error e => .error (.ofReadError (.flagsUnusable path .unparsable) e)
      | .ok value =>
        match value.stringMap? with
        | some values => .ok values
        | none => .error (.of (.flagsNotTable path))

/-- The text of a file that remembers values, in the order of their names. -/
def flagsText (values : Assoc String String) : String :=
  (Json.object ((Text.sortOn (·.1) values).map fun (name, value) => (name, .string value))).pretty ++ "\n"

/-- The store in which a file remembers the values. The directories for the file stay even if it cannot be
written. -/
def saveFlags (store : Store) (path : String) (values : Assoc String String) : Except Failure Unit × Store :=
  let path := tidyText path
  let failure := Failure.ofFile (.flagsUnwritable path)
  match store.makeDirectories (Store.parentPath path) with
  | .error e => (.error (failure e), store)
  | .ok store =>
    match store.writeText path (flagsText values) with
    | .error e => (.error (failure e), store)
    | .ok store => (.ok (), store)

/-- A registry, and the files in which values are remembered. -/
structure Settings where
  registry : Registry := {}
  store : Store := {}

/-- Operations on a registry and its files. -/
abbrev SettingsM := EStateM Failure Settings

namespace Settings

/-- An operation on the registry alone. -/
def onRegistry {α : Type} (operation : RegistryM α) : SettingsM α := fun s =>
  match operation s.registry with
  | .ok a registry => .ok a { s with registry }
  | .error e registry => .error e { s with registry }

/-- An operation on the files alone. -/
def onStore {α : Type} (operation : Store → Except Failure α × Store) : SettingsM α := fun s =>
  match operation s.store with
  | (.ok a, store) => .ok a { s with store }
  | (.error e, store) => .error e { s with store }

/-- The registry is locked, and its values are remembered if a file for them is given. A registry that is
locked already stays as it is. -/
def lock (file : Option String) : SettingsM LockedFlags := do
  match (← get).registry.locked with
  | some locked => return locked
  | none =>
    let locked ← onRegistry Registry.settle
    if let some path := file then onStore fun store => saveFlags store path locked.values
    modify fun s => { s with registry := { s.registry with locked := some locked } }
    return locked

/-- The values that a file remembers. -/
def load (path : String) : SettingsM (Assoc String String) := onStore fun store => (loadFlags store path, store)

end Settings

end BuildPlan
