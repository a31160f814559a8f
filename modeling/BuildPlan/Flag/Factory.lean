import BuildPlan.Assoc
import BuildPlan.Error
import BuildPlan.Flag.Definition

/-!
# Factories

A factory computes the default of a flag when it is needed. It is a program that may use the registry of the run: a
`FactoryProgram` looks which flags there are, registers flags, reads them and asks what is known of all of them, and goes
on with what comes of that, until it gives a value or fails.
-/

namespace BuildPlan

/-- The ways to name a flag that is to be read. -/
inductive FlagReference where
  /-- A definition, which is registered if need be. -/
  | definition (flag : Flag)
  /-- What registering a definition has given out for it. -/
  | handle (flag : Flag)
  | name (name : String)

/-- What a factory does when it is called. An operation on the registry may fail without the factory failing. -/
inductive FactoryProgram where
  /-- It gives a value, or none. -/
  | gives (value : Option FlagValue)
  | fails (failure : Failure)
  | registers (flag : Flag) (next : Except Failure Unit → FactoryProgram)
  | reads (reference : FlagReference) (next : Except Failure FlagValue → FactoryProgram)
  | describes (next : Except Failure (Assoc String FlagInfo) → FactoryProgram)
  /-- It looks at the names of the registered flags, and at the hash if the registry is locked. -/
  | looks (next : List String → Option String → FactoryProgram)

/-- The program of a factory that does not use the registry. -/
def FactoryProgram.ofOutcome : Except Failure (Option FlagValue) → FactoryProgram
  | .ok value => .gives value
  | .error failure => .fails failure

/-- What a factory does at each of its calls, which are counted from zero. -/
abbrev FactoryBehavior := Nat → FactoryProgram

/-- A definition as a build program gives it, with what its factory does. -/
structure FlagSource where
  flag : Flag
  behavior : FactoryBehavior := fun _ => .gives none

end BuildPlan
