import BuildPlan.Flag.Digest
import BuildPlan.Flag.Factory

/-!
# The flag registry

A `Registry` holds the flags of one run with the values that the command line and the last run give them. A flag
is resolved when it is first read: by the text of the command line, else by the remembered text, else by its
default. `Registry.settle` resolves all of them, and once its result is recorded the registry is locked: no flag
can be added any more.

A factory that is called for a default may use the registry in its turn, so the operations that may call one take as
`inner` how it does so. `Registry.access` ties the knot, with a bound on how deep factories call each other.

An operation that fails keeps what it has found out, so all operations have the type `RegistryM`.
-/

namespace BuildPlan

/-- The flags with their values, in the order of their names, and the hash of the configuration. -/
structure LockedFlags where
  hash : String
  info : Assoc String FlagInfo
  deriving DecidableEq, Repr

/-- The texts of the values by name. -/
def LockedFlags.values (l : LockedFlags) : Assoc String String := l.info.map fun (name, info) => (name, info.value)

/-- A call of a factory for the default of a flag. -/
structure FactoryCall where
  factory : String
  flag : String
  deriving DecidableEq, Repr

/-- The flags of one run. -/
structure Registry where
  /-- Texts from the command line. -/
  commandLine : Assoc String String := []
  /-- Texts from the last run. -/
  remembered : Assoc String String := []
  /-- The definitions by name, in the order of their registration. -/
  flags : Assoc String Flag := []
  /-- The values of the flags that have been read. -/
  values : Assoc String FlagValue := []
  /-- The result of locking. -/
  locked : Option LockedFlags := none
  /-- The calls of factories, the first one first. -/
  calls : List FactoryCall := []
  /-- What each factory does. -/
  factories : Assoc String FactoryBehavior := []

/-- Operations on a registry. A failure keeps the registry as it is then. -/
abbrev RegistryM := EStateM Failure Registry

/-- How deep expressions, actions and factories may nest. -/
def nestingLimit : Nat := 1000

namespace Registry

/-- The result of a check as an operation. -/
def raise {α : Type} (cause : Cause) : RegistryM α := throw (.of cause)

/-- The result of a check as an operation. -/
def ofExcept {α : Type} : Except Cause α → RegistryM α
  | .ok a => pure a
  | .error cause => raise cause

/-- How an operation ends, as an answer. -/
def caught {α : Type} (operation : RegistryM α) : RegistryM (Except Failure α) := fun r =>
  match operation r with
  | .ok a s => .ok (.ok a) s
  | .error e s => .ok (.error e) s

/-- The registry knows what the factory of a definition does. What is said first of a factory counts. -/
def learn (r : Registry) (source : FlagSource) : Registry :=
  match source.flag.factory with
  | none => r
  | some id =>
    if Assoc.contains r.factories id then r
    else { r with factories := Assoc.insert r.factories id source.behavior }

/-- The definition that a program gives, whose factory is known from now on. -/
def adopt (source : FlagSource) : RegistryM Flag := do
  modify fun r => r.learn source
  return source.flag

/-- How often a factory has been called. -/
def callsOf (r : Registry) (id : String) : Nat := r.calls.countP (·.factory = id)

/-- What a factory does. -/
def behavior (r : Registry) (id : String) : FactoryBehavior := (Assoc.find? r.factories id).getD fun _ => .gives none

/-- A flag is registered. Doing so again with a definition that says the same has no effect. -/
def register (flag : Flag) : RegistryM Unit := do
  let r ← get
  if r.locked.isSome then raise (.registeredAfterLock flag.name)
  match Assoc.find? r.flags flag.name with
  | some known => if known.same flag then return else raise (.duplicateFlag flag.name)
  | none => set { r with flags := Assoc.insert r.flags flag.name flag }

/-- The text that the command line or else the last run gives a flag. -/
def textFor? (r : Registry) (name : String) : Option String :=
  (Assoc.find? r.commandLine name).or (Assoc.find? r.remembered name)

/-- Values of a flag can be written. -/
def checkLengths (flag : Flag) (values : List FlagValue) : RegistryM Unit :=
  if values.any flag.isTooLong then throw (.fault (.value tooLongToWrite)) else return ()

/-- The names of the flags in ascending order. -/
def names (r : Registry) : List String := Text.sortTexts (Assoc.keys r.flags)

/-! ### Reading flags -/

/-- The operations of a registry that factories use. -/
structure Access where
  read : FlagReference → RegistryM FlagValue
  info : RegistryM (Assoc String FlagInfo)

section reading

variable (inner : Access)

/-- A factory carries out its program. -/
def runFactory : FactoryProgram → RegistryM (Option FlagValue)
  | .gives value => return value
  | .fails failure => throw failure
  | .registers flag next => do runFactory (next (← caught (register flag)))
  | .reads reference next => do runFactory (next (← caught (inner.read reference)))
  | .describes next => do runFactory (next (← caught inner.info))
  | .looks next => do
    let r ← get
    runFactory (next (Assoc.keys r.flags) (r.locked.map (·.hash)))

/-- The default of a definition. -/
def defaultValue (flag : Flag) : RegistryM (Option FlagValue) := do
  match flag.factory with
  | none => return flag.default
  | some factory =>
    let r ← get
    set ({ r with calls := r.calls ++ [{ factory, flag := flag.name }] } : Registry)
    runFactory inner (r.behavior factory (r.callsOf factory))

/-- The value that a definition has in this run. -/
def resolve (flag : Flag) : RegistryM FlagValue := do
  match (← get).textFor? flag.name with
  | some text => ofExcept (flag.parse text)
  | none =>
    match ← defaultValue inner flag with
    | some value => return value
    | none => raise (.missingFlagValue flag.name)

/-- The value of a flag, resolved by this definition if it has not been read before. -/
def valueBy (flag : Flag) : RegistryM FlagValue := do
  match Assoc.find? (← get).values flag.name with
  | some value => return value
  | none =>
    let value ← resolve inner flag
    modify fun r => { r with values := Assoc.insert r.values flag.name value }
    return value

/-- The value of a flag by a definition, which is registered if it is not known yet. Otherwise `agrees` says
whether the known definition is taken for this one. -/
def readBy (flag : Flag) (agrees : Flag → Bool) : RegistryM FlagValue := do
  let r ← get
  match Assoc.find? r.flags flag.name with
  | some known => if agrees known then valueBy inner flag else raise (.duplicateFlag flag.name)
  | none =>
    if r.locked.isSome then raise (.readAfterLock flag.name)
    register flag
    valueBy inner flag

/-- The value of a flag. A handle always agrees with the definition that it was given out for, even if that
mentions a NaN. -/
def readVia : FlagReference → RegistryM FlagValue
  | .name name => do
    match Assoc.find? (← get).flags name with
    | some flag => valueBy inner flag
    | none => raise (.notRegistered name)
  | .handle flag => readBy inner flag fun known => known.same flag || known = flag
  | .definition flag => readBy inner flag fun known => known.same flag

/-- What is known of one registered flag. -/
def infoFor (name : String) : RegistryM (String × FlagInfo) := do
  match Assoc.find? (← get).flags name with
  | none => raise (.notRegistered name)
  | some flag =>
    checkLengths flag flag.allowed
    let value ← valueBy inner flag
    checkLengths flag [value]
    return (name, ⟨flag.description, flag.kind.name, flag.allowedTexts, flag.format value⟩)

/-- What is known of all flags, in the order of their names. -/
def infoVia : RegistryM (Assoc String FlagInfo) := do (← get).names.mapM (infoFor inner)

end reading

/-- What factories can do; `depth` bounds how deep they call each other. -/
def access : Nat → Access
  | 0 => { read := fun _ => throw (.fault .tooDeep), info := throw (.fault .tooDeep) }
  | depth + 1 => { read := readVia (access depth), info := infoVia (access depth) }

/-- What the factories of a run can do. -/
def factoryAccess : Access := access nestingLimit

/-- The value of a flag. -/
def read (reference : FlagReference) : RegistryM FlagValue := readVia factoryAccess reference

/-- What is known of all flags, in the order of their names. -/
def info : RegistryM (Assoc String FlagInfo) := infoVia factoryAccess

/-! ### Locking -/

/-- The first flag whose value is not one of those that it may have. -/
def firstDisallowed (info : Assoc String FlagInfo) : Option (String × FlagInfo) :=
  List.find? (fun (_, i) => !i.allowed.isEmpty && !i.allowed.contains i.value) info

/-- What locking the registry now would record. -/
def settle : RegistryM LockedFlags := do
  let info ← info
  match firstDisallowed info with
  | some (name, i) => raise (.disallowedFlagValue name i.value i.allowed)
  | none => return ⟨configHash (info.map fun (name, i) => (name, i.value)), info⟩

/-- The hash of the configuration. -/
def hash (r : Registry) : Except Cause String :=
  match r.locked with
  | some locked => .ok locked.hash
  | none => .error .hashBeforeLock

end Registry

/-- How the handle of a registered flag is shown. -/
def Flag.shownHandle (flag : Flag) : String := "FlagHandle(" ++ Text.quoted flag.name ++ ")"

end BuildPlan
