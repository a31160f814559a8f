import BuildPlan.Numeral.Integer
import BuildPlan.Numeral.Shortest

/-!
# Decimal numbers as people write them

`readDecimal` reads a number with blanks around it, a sign, digits of any script before or after a point, an
exponent, and a single low line between neighbouring digits; or one of the words `inf`, `infinity` and `nan` in
any case. The result is the nearest number of the binary64 format.
-/

namespace BuildPlan.Numeral

open Text (isNumeralBlank isDecimalDigit decimalValue?)

/-- The text without its low lines, which may stand only between two digits. -/
def dropLowLines : List Char → Option (List Char)
  | [] => some []
  | '_' :: _ => none
  | [c] => some [c]
  | c :: '_' :: d :: rest =>
    if isDecimalDigit c && isDecimalDigit d then (dropLowLines (d :: rest)).map (c :: ·) else none
  | c :: rest => (dropLowLines rest).map (c :: ·)

/-- The exponent of a number: nothing, or a letter, a sign and at least one digit. -/
def readExponent : List Char → Option Int
  | [] => some 0
  | mark :: rest =>
    let (negative, digits) := takeSign rest
    if (mark = 'e' || mark = 'E') && !digits.isEmpty && digits.all isDecimalDigit then
      let value : Int := valueOfDigits (digits.filterMap decimalValue?)
      some (if negative then -value else value)
    else none

/-- A number without sign: digits with a point among them or at either end, then the exponent. -/
def readUnsigned (negative : Bool) (body : List Char) : Option Binary64 :=
  let whole := body.takeWhile isDecimalDigit
  let rest := body.dropWhile isDecimalDigit
  let (fraction, rest) :=
    match rest with
    | '.' :: rest => (rest.takeWhile isDecimalDigit, rest.dropWhile isDecimalDigit)
    | rest => ([], rest)
  if whole.isEmpty && fraction.isEmpty then none
  else
    (readExponent rest).map fun exponent =>
      Binary64.ofDecimal negative (valueOfDigits ((whole ++ fraction).filterMap decimalValue?))
        (exponent - fraction.length)

/-- The number that a text stands for. -/
def readDecimal (text : String) : Option Binary64 := do
  let trimmed := ((text.toList.dropWhile isNumeralBlank).reverse.dropWhile isNumeralBlank).reverse
  let (negative, body) := takeSign (← dropLowLines trimmed)
  match String.ofList (body.map Char.toLower) with
  | "inf" | "infinity" => some (.infinite negative)
  | "nan" => some .nan
  | _ => readUnsigned negative body

end BuildPlan.Numeral
