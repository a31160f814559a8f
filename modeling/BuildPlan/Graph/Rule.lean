import BuildPlan.Assoc
import BuildPlan.Text.Order

/-!
# Rules

A `Rule` is a command line that build steps share, with the settings that go with it. The names `phony` and those
that start with `__rule` are not for rules of users: the first is built in and the others are made up for rules
without a name.
-/

namespace BuildPlan

/-- A recipe of build steps. -/
structure Rule where
  /-- The name; it is empty when the rule has none. -/
  name : String := ""
  command : String := ""
  description : String := ""
  /-- Where a command writes what else it has read. -/
  depfile : String := ""
  /-- The format of that file. -/
  deps : String := ""
  pool : String := ""
  /-- Look at the outputs again after the command. -/
  restat : Bool := false
  /-- The rule makes the build file itself. -/
  generator : Bool := false
  /-- The rule belongs into a compilation database. -/
  compdb : Bool := false
  /-- More variables with their values, in the order of their names. -/
  bindings : List (String × String) := []
  deriving DecidableEq, Repr

namespace Rule

/-- The rule with the variables and values of a table. -/
def withBindings (rule : Rule) (table : Assoc String String) : Rule :=
  { rule with bindings := Text.sortOn (·.1) table }

/-- A variable that is written only when it has a value. -/
def optional (name value : String) : List (String × String) := if value = "" then [] else [(name, value)]

/-- A variable that is written only when it is set. -/
def switch (name : String) (isSet : Bool) : List (String × String) := if isSet then [(name, "1")] else []

/-- The variables of the rule, in the order in which they are written. -/
def block (rule : Rule) : List (String × String) :=
  ("command", rule.command) :: optional "description" rule.description ++ optional "depfile" rule.depfile ++
    optional "deps" rule.deps ++ optional "pool" rule.pool ++ switch "restat" rule.restat ++
    switch "generator" rule.generator ++ rule.bindings

end Rule

/-- What the made-up names of rules start with. -/
def anonymousRuleStart : String := "__rule"

/-- The made-up name with a number. -/
def anonymousRuleName (n : Nat) : String := anonymousRuleStart ++ toString n

/-- The name is not for rules of users. -/
def isReservedRuleName (name : String) : Bool :=
  name = "phony" || anonymousRuleStart.toList.isPrefixOf name.toList

end BuildPlan
