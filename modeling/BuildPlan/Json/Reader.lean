import BuildPlan.Json.Value
import BuildPlan.Numeral.Decimal

/-!
# Reading JSON

`Json.read` reads one JSON value with white space around it. `NaN`, `Infinity` and `-Infinity` are numbers, a
field that comes twice has the later value in the earlier place, and integers of more digits than
`Numeral.digitLimit` are refused.
-/

namespace BuildPlan.Json

/-- Why a text is not read as a JSON value. -/
inductive ReadError where
  /-- The text is not JSON. -/
  | malformed
  /-- An integer has more digits than are read. -/
  | tooLong (digits : Nat)
  deriving DecidableEq, Repr

/-- A value read from the front of a text, with the rest of the text. -/
abbrev Reading (α : Type) := Except ReadError (α × List Char)

/-- The white space of JSON. -/
def isSpace (c : Char) : Bool := c = ' ' || c = '\t' || c = '\n' || c = '\r'

/-- The text without white space in front. -/
def skipSpace (chars : List Char) : List Char := chars.dropWhile isSpace

/-- The code unit of four hexadecimal digits. -/
def readUnit (a b c d : Char) : Option Nat := do
  let a ← Text.hexValue? a
  let b ← Text.hexValue? b
  let c ← Text.hexValue? c
  let d ← Text.hexValue? d
  return ((a * 16 + b) * 16 + c) * 16 + d

/-- The unit is the first of a surrogate pair. -/
def isHighSurrogate (unit : Nat) : Bool := 0xD800 ≤ unit && unit < 0xDC00

/-- The unit is the second of a surrogate pair. -/
def isLowSurrogate (unit : Nat) : Bool := 0xDC00 ≤ unit && unit < 0xE000

/-- The character of a surrogate pair. -/
def ofSurrogates (high low : Nat) : Char := Char.ofNat (0x10000 + (high - 0xD800) * 0x400 + (low - 0xDC00))

/-- The character of an escape of one letter. -/
def ofEscapeLetter : Char → Option Char
  | '"' => some '"'
  | '\\' => some '\\'
  | '/' => some '/'
  | 'b' => some '\x08'
  | 'f' => some '\x0c'
  | 'n' => some '\n'
  | 'r' => some '\r'
  | 't' => some '\t'
  | _ => none

/-- The characters of a string up to its closing quotation mark. -/
def readString : List Char → Reading (List Char)
  | [] => .error .malformed
  | '"' :: rest => .ok ([], rest)
  | '\\' :: 'u' :: a :: b :: c :: d :: rest =>
    match readUnit a b c d with
    | none => .error .malformed
    | some unit =>
      if isHighSurrogate unit then
        match rest with
        | '\\' :: 'u' :: a :: b :: c :: d :: rest =>
          match readUnit a b c d with
          | some low =>
            if isLowSurrogate low then
              (readString rest).map fun (s, rest) => (ofSurrogates unit low :: s, rest)
            else .error .malformed
          | none => .error .malformed
        | _ => .error .malformed
      else if isLowSurrogate unit then .error .malformed
      else (readString rest).map fun (s, rest) => (Char.ofNat unit :: s, rest)
  | '\\' :: letter :: rest =>
    match ofEscapeLetter letter with
    | some c => (readString rest).map fun (s, rest) => (c :: s, rest)
    | none => .error .malformed
  | c :: rest =>
    if c.toNat < 0x20 || c = '\\' then .error .malformed
    else (readString rest).map fun (s, rest) => (c :: s, rest)

/-- The exponent of a number, if there is a whole one, and the rest. -/
def takeExponent : List Char → Option Int × List Char
  | mark :: rest =>
    if mark = 'e' || mark = 'E' then
      let (negative, digits) := Numeral.takeSign rest
      let run := digits.takeWhile Char.isDigit
      let value : Int := Numeral.valueOfDigits (run.filterMap Text.decimalValue?)
      if run.isEmpty then (none, mark :: rest)
      else (some (if negative then -value else value), digits.dropWhile Char.isDigit)
    else (none, mark :: rest)
  | [] => (none, [])

/-- The fraction of a number, if there is one, and the rest. -/
def takeFraction : List Char → Option (List Char) × List Char
  | '.' :: rest =>
    let run := rest.takeWhile Char.isDigit
    if run.isEmpty then (none, '.' :: rest) else (some run, rest.dropWhile Char.isDigit)
  | chars => (none, chars)

/-- A number without its sign: no zero in front of other digits, and an integer when it has neither fraction
nor exponent. -/
def readUnsigned (negative : Bool) (chars : List Char) : Reading Json :=
  let run := if chars.head? = some '0' then ['0'] else chars.takeWhile Char.isDigit
  if run.isEmpty then .error .malformed
  else
    let (fraction, rest) := takeFraction (chars.drop run.length)
    let (exponent, rest) := takeExponent rest
    match fraction, exponent with
    | none, none =>
      let value : Int := Numeral.valueOfDigits (run.filterMap Text.decimalValue?)
      if Numeral.digitLimit < run.length then .error (.tooLong run.length)
      else .ok (.integer (if negative then -value else value), rest)
    | _, _ =>
      let fraction := fraction.getD []
      let digits := Numeral.valueOfDigits ((run ++ fraction).filterMap Text.decimalValue?)
      .ok (.real (.ofDecimal negative digits (exponent.getD 0 - fraction.length)), rest)

/-- A value that is neither an array nor an object nor a string. -/
def readScalar : List Char → Reading Json
  | 'n' :: 'u' :: 'l' :: 'l' :: rest => .ok (.null, rest)
  | 't' :: 'r' :: 'u' :: 'e' :: rest => .ok (.bool true, rest)
  | 'f' :: 'a' :: 'l' :: 's' :: 'e' :: rest => .ok (.bool false, rest)
  | 'N' :: 'a' :: 'N' :: rest => .ok (.real .nan, rest)
  | 'I' :: 'n' :: 'f' :: 'i' :: 'n' :: 'i' :: 't' :: 'y' :: rest => .ok (.real (.infinite false), rest)
  | '-' :: 'I' :: 'n' :: 'f' :: 'i' :: 'n' :: 'i' :: 't' :: 'y' :: rest =>
    .ok (.real (.infinite true), rest)
  | '-' :: rest => readUnsigned true rest
  | chars => readUnsigned false chars

mutual

/-- A value at the front of a text; `fuel` bounds the number of values, items and fields. -/
def readValue : Nat → List Char → Reading Json
  | 0, _ => .error .malformed
  | fuel + 1, chars =>
    match chars with
    | '"' :: rest => (readString rest).map fun (s, rest) => (.string (String.ofList s), rest)
    | '[' :: rest =>
      match skipSpace rest with
      | ']' :: rest => .ok (.array [], rest)
      | rest => (readItems fuel rest).map fun (items, rest) => (.array items, rest)
    | '\x7b' :: rest =>
      match skipSpace rest with
      | '\x7d' :: rest => .ok (.object [], rest)
      | rest => (readFields fuel rest).map fun (fields, rest) => (.object (Assoc.ofList fields), rest)
    | chars => readScalar chars

/-- The items of an array from the next one to the closing bracket. -/
def readItems : Nat → List Char → Except ReadError (List Json × List Char)
  | 0, _ => .error .malformed
  | fuel + 1, chars => do
    let (item, rest) ← readValue fuel chars
    match skipSpace rest with
    | ']' :: rest => return ([item], rest)
    | ',' :: rest =>
      let (items, rest) ← readItems fuel (skipSpace rest)
      return (item :: items, rest)
    | _ => throw .malformed

/-- The fields of an object from the next one to the closing brace. -/
def readFields : Nat → List Char → Except ReadError (List (String × Json) × List Char)
  | 0, _ => .error .malformed
  | fuel + 1, chars => do
    let '"' :: rest := chars | throw .malformed
    let (name, rest) ← readString rest
    let ':' :: rest := skipSpace rest | throw .malformed
    let (value, rest) ← readValue fuel (skipSpace rest)
    let entry := (String.ofList name, value)
    match skipSpace rest with
    | '\x7d' :: rest => return ([entry], rest)
    | ',' :: rest =>
      let (entries, rest) ← readFields fuel (skipSpace rest)
      return (entry :: entries, rest)
    | _ => throw .malformed

end

/-- The JSON value that a text holds. -/
def read (text : String) : Except ReadError Json := do
  let chars := text.toList
  let (value, rest) ← readValue (chars.length + 1) (skipSpace chars)
  if (skipSpace rest).isEmpty then return value else throw .malformed

end BuildPlan.Json
