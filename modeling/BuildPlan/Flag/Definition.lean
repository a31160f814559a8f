import BuildPlan.Error
import BuildPlan.Numeral.Decimal

/-!
# Flag definitions

A `Flag` is a named setting of one `FlagKind`. Its value is given as a text, which `Flag.parse` reads and
`Flag.format` writes, or by the definition: by a default or by a factory that computes one. A definition knows its
factory by an id; what factories do is said apart from the definitions.
-/

namespace BuildPlan

/-- The types of flags. -/
inductive FlagKind where
  | string
  | bool
  | int
  | float
  deriving DecidableEq, Repr

/-- The name of a type of flags. -/
def FlagKind.name : FlagKind → String
  | .string => "string"
  | .bool => "bool"
  | .int => "int"
  | .float => "float"

/-- The value of a flag. -/
inductive FlagValue where
  | string (value : String)
  | bool (value : Bool)
  | int (value : Int)
  | float (value : Numeral.Binary64)
  deriving DecidableEq, Repr

namespace FlagValue

/-- The type that a value belongs to. -/
def kind : FlagValue → FlagKind
  | .string _ => .string
  | .bool _ => .bool
  | .int _ => .int
  | .float _ => .float

/-- Equality as flags see it: numbers are equal when they have the same value, so a NaN is never equal to
anything. -/
def same : FlagValue → FlagValue → Bool
  | .string a, .string b => a == b
  | .bool a, .bool b => a == b
  | .bool a, .int b | .int b, .bool a => b == a.toNat
  | .bool a, .float b | .float b, .bool a => b.equalsInt a.toNat
  | .int a, .int b => a == b
  | .int a, .float b | .float b, .int a => b.equalsInt a
  | .float a, .float b => a.sameValue b
  | _, _ => false

/-- The value counts as true: it is not false, zero or empty. -/
def isTruthy : FlagValue → Bool
  | .string s => s != ""
  | .bool b => b
  | .int n => n != 0
  | .float x => !x.isZero

/-- The text of a value by itself. -/
def text : FlagValue → String
  | .string s => s
  | .bool b => if b then "True" else "False"
  | .int n => toString n
  | .float x => x.render

/-- The value is an integer of more digits than can be written. -/
def isTooLong : FlagValue → Bool
  | .int n => Numeral.digitLimit < (Nat.toDigits 10 n.natAbs).length
  | _ => false

/-- The value as a number with a fraction, where it is a number. -/
def widened : FlagValue → FlagValue
  | .bool b => .float (.ofInt b.toNat)
  | .int n => .float (.ofInt n)
  | value => value

end FlagValue

/-- The definition of a flag. -/
structure Flag where
  kind : FlagKind
  name : String
  description : String := ""
  /-- The values that the flag may have; without any it may have all. -/
  allowed : List FlagValue := []
  default : Option FlagValue := none
  /-- The factory that computes the default; it wins over `default`. -/
  factory : Option String := none
  deriving DecidableEq, Repr

namespace Flag

/-- Two lists of values are equal, place by place. -/
def sameValues : List FlagValue → List FlagValue → Bool
  | [], [] => true
  | a :: as, b :: bs => a.same b && sameValues as bs
  | _, _ => false

/-- Two optional values are equal, or both are missing. -/
def sameDefault : Option FlagValue → Option FlagValue → Bool
  | none, none => true
  | some a, some b => a.same b
  | _, _ => false

/-- Two definitions say the same. -/
def same (a b : Flag) : Bool :=
  a.kind == b.kind && a.name == b.name && a.description == b.description && sameValues a.allowed b.allowed &&
    sameDefault a.default b.default && a.factory == b.factory

/-- The value that a text gives the flag. -/
def parse (f : Flag) (text : String) : Except Cause FlagValue :=
  match f.kind with
  | .string => .ok (.string text)
  | .bool =>
    if text = "true" then .ok (.bool true)
    else if text = "false" then .ok (.bool false)
    else .error (.invalidBool text f.name)
  | .int =>
    match Numeral.readInteger text with
    | .ok n => .ok (.int n)
    | .error why => .error (.invalidInteger text f.name why)
  | .float =>
    match Numeral.readDecimal text with
    | some x => .ok (.float x)
    | none => .error (.invalidDecimal text f.name)

/-- The text of a value of the flag. -/
def format (f : Flag) (value : FlagValue) : String :=
  match f.kind with
  | .string | .int => value.text
  | .bool => if value.isTruthy then "true" else "false"
  | .float => value.widened.text

/-- The value cannot be written as a value of the flag. -/
def isTooLong (f : Flag) (value : FlagValue) : Bool :=
  match f.kind with
  | .string | .int => value.isTooLong
  | .bool | .float => false

/-- The texts of the values that the flag may have. -/
def allowedTexts (f : Flag) : List String :=
  match f.kind with
  | .bool => ["true", "false"]
  | _ => f.allowed.map f.format

end Flag

/-- What is known of a flag with a value. -/
structure FlagInfo where
  description : String
  /-- The name of the type. -/
  type : String
  allowed : List String
  value : String
  deriving DecidableEq, Repr

end BuildPlan
