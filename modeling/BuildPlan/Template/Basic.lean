import BuildPlan.Json.Value

/-!
# Templates

A template is a text with places for values, loops, alternatives and other templates. `Template` is the list of
its parts.
-/

namespace BuildPlan.Template

/-- What stands for a value. -/
inductive Expr where
  | constant (value : Json)
  | variable (name : String)
  /-- Whether one text ends with another. -/
  | hasSuffix (value suffix : Expr)
  /-- The same question asked of another number of texts than two. -/
  | miscounted (count : Nat)
  /-- A call of something that is no function. -/
  | call (name : String)
  | not (operand : Expr)
  | and (first second : Expr)
  | or (first second : Expr)

/-- A part of a template. -/
inductive Part where
  | text (text : String)
  | print (value : Expr)
  /-- The body for each item that passes the filter, or else the other parts if there is none. -/
  | loop (variableName : String) (items : Expr) (filter : Option Expr) (body otherwise : List Part)
  | branch (test : Expr) (body otherwise : List Part)
  /-- The template in another file. -/
  | include (file : Expr)

end BuildPlan.Template

namespace BuildPlan

/-- The parts of a template. -/
abbrev Template := List Template.Part

end BuildPlan
