import BuildPlan.Assoc
import BuildPlan.Numeral.Shortest
import BuildPlan.Text.Quoted

/-!
# JSON values

Integers and numbers with a fraction or an exponent are kept apart, and the fields of an object keep the order
in which they came. `Json.display` shows a value in a message.
-/

namespace BuildPlan

/-- A JSON value. -/
inductive Json where
  | null
  | bool (value : Bool)
  | integer (value : Int)
  | real (value : Numeral.Binary64)
  | string (value : String)
  | array (items : List Json)
  | object (fields : List (String × Json))

namespace Json

/-- A field of an object. -/
def field? (fields : List (String × Json)) (name : String) : Option Json := Assoc.find? fields name

/-- The value counts as true: it is not null, false, zero or empty. -/
def isTruthy : Json → Bool
  | .null => false
  | .bool b => b
  | .integer n => n != 0
  | .real x => !x.isZero
  | .string s => !s.isEmpty
  | .array items => !items.isEmpty
  | .object fields => !fields.isEmpty

/-- The value is the number one, in whatever way it is written. -/
def isOne : Json → Bool
  | .bool b => b
  | .integer n => n == 1
  | .real x => x.sameValue (Numeral.Binary64.ofInt 1)
  | _ => false

/-- The text of a string value. -/
def string? : Json → Option String
  | .string s => some s
  | _ => none

/-- The texts of an array of strings. -/
def stringList? : Json → Option (List String)
  | .array items => items.mapM string?
  | _ => none

/-- The fields of an object of strings. -/
def stringMap? : Json → Option (Assoc String String)
  | .object fields => fields.mapM fun (name, value) => value.string?.map (name, ·)
  | _ => none

mutual

/-- The value as a message shows it. -/
def display : Json → String
  | .null => "None"
  | .bool b => if b then "True" else "False"
  | .integer n => toString n
  | .real x => x.render
  | .string s => Text.quoted s
  | .array items => "[" ++ ", ".intercalate (displayItems items) ++ "]"
  | .object fields => "\x7b" ++ ", ".intercalate (displayFields fields) ++ "\x7d"

/-- The items of an array as a message shows them. -/
def displayItems : List Json → List String
  | [] => []
  | item :: rest => item.display :: displayItems rest

/-- The fields of an object as a message shows them. -/
def displayFields : List (String × Json) → List String
  | [] => []
  | (name, value) :: rest => (Text.quoted name ++ ": " ++ value.display) :: displayFields rest

end

/-- The value as a text: a string stands for itself, and anything else is shown. -/
def text : Json → String
  | .string s => s
  | value => value.display

/-- The name of the type of a value in messages. -/
def typeName : Json → String
  | .null => "NoneType"
  | .bool _ => "bool"
  | .integer _ => "int"
  | .real _ => "float"
  | .string _ => "str"
  | .array _ => "list"
  | .object _ => "dict"

end Json

end BuildPlan
