/-!
# Escapes of Ninja files

A dollar sign starts an escape in a Ninja file. `escapeValue` protects a literal text in a command or a value,
and `escapePath` one that stands in a build line.
-/

namespace BuildPlan.Ninja

/-- Characters that a build line would not take as part of a path. -/
def isPathSpecial (c : Char) : Bool := c = ' ' || c = '\n' || c = ':' || c = '$'

/-- One character of a path. -/
def escapePathChar (c : Char) : List Char := if isPathSpecial c then ['$', c] else [c]

/-- One character of a value. -/
def escapeValueChar (c : Char) : List Char := if c = '$' then ['$', '$'] else [c]

/-- A path as a build line has it. -/
def escapePath (path : String) : String := String.ofList (path.toList.flatMap escapePathChar)

/-- A literal text as a command or a value has it. -/
def escapeValue (value : String) : String := String.ofList (value.toList.flatMap escapeValueChar)

end BuildPlan.Ninja
