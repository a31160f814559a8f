import BuildPlan.Json.Value

/-!
# Fields of descriptions

Descriptions of builds are JSON objects. The functions here read one field of such an object; a field that is
missing or null has a default, and one of the wrong type makes the description unusable.
-/

namespace BuildPlan.Description

/-- A field that is there and not null. -/
def given? (j : Json) (name : String) : Option Json :=
  match j with
  | .object fields =>
    match Json.field? fields name with
    | some .null => none
    | found => found
  | _ => none

/-- A field read by `read`, where it is given. -/
def optional {α : Type} (read : Json → Option α) (j : Json) (name : String) : Option (Option α) :=
  match given? j name with
  | none => some none
  | some value => (read value).map some

/-- A field read by `read`, or a default. -/
def withDefault {α : Type} (value : α) (read : Json → Option α) (j : Json) (name : String) : Option α :=
  (optional read j name).map (·.getD value)

/-- A field that has to be given, read by `read`. -/
def required {α : Type} (read : Json → Option α) (j : Json) (name : String) : Option α :=
  (given? j name).bind read

/-- The items of an array, each read by `read`. -/
def listOf {α : Type} (read : Json → Option α) : Json → Option (List α)
  | .array items => items.mapM read
  | _ => none

/-- The fields of an object, each read by `read`. -/
def tableOf {α : Type} (read : Json → Option α) : Json → Option (Assoc String α)
  | .object fields => fields.mapM fun (name, value) => (read value).map (name, ·)
  | _ => none

/-- A truth value. -/
def bool? : Json → Option Bool
  | .bool b => some b
  | _ => none

/-- A number without sign, which may be written as a text. -/
def nat? : Json → Option Nat
  | .integer n => if 0 ≤ n then some n.toNat else none
  | .string s => s.toNat?
  | _ => none

/-- A field with a text; without it the text is empty. -/
def text (j : Json) (name : String) : Option String := withDefault "" Json.string? j name

/-- A field with a list of texts; without it the list is empty. -/
def texts (j : Json) (name : String) : Option (List String) := withDefault [] Json.stringList? j name

/-- A field with a truth value; without it the value is false. -/
def bool (j : Json) (name : String) : Option Bool := withDefault false bool? j name

/-- An object with one field: the name of the field and its value. -/
def tagged? : Json → Option (String × Json)
  | .object [field] => some field
  | _ => none

end BuildPlan.Description
