import BuildPlan.Text.Blank
import BuildPlan.Text.DecimalDigit

/-!
# Integers as people write them

`Integer.read` reads a whole number: blanks around it, a sign, decimal digits of any script, and a single low
line between neighbouring digits. Numbers of more than `digitLimit` digits are refused.
-/

namespace BuildPlan.Numeral

open Text (isNumeralBlank isDecimalDigit decimalValue?)

/-- Why a text is not read as an integer. -/
inductive IntegerError where
  /-- The text is not written like an integer. -/
  | malformed
  /-- The number has more digits than are read. -/
  | tooLong (digits : Nat)
  deriving DecidableEq, Repr

/-- The number of digits that an integer may have. -/
def digitLimit : Nat := 4300

/-- One or more digits, with at most one low line between neighbours. -/
def isDigitRun : List Char → Bool
  | [] => false
  | [c] => isDecimalDigit c
  | c :: '_' :: rest => isDecimalDigit c && isDigitRun rest
  | c :: rest => isDecimalDigit c && isDigitRun rest

/-- The number that digits stand for, most significant first. -/
def valueOfDigits (digits : List Nat) : Nat := digits.foldl (fun n d => 10 * n + d) 0

/-- A sign in front of a number, `true` for minus, and what follows it. -/
def takeSign : List Char → Bool × List Char
  | '-' :: rest => (true, rest)
  | '+' :: rest => (false, rest)
  | chars => (false, chars)

/-- The integer that a text stands for. -/
def readInteger (text : String) : Except IntegerError Int :=
  let (negative, body) := takeSign (text.toList.dropWhile isNumeralBlank)
  let isPart (c : Char) : Bool := c = '_' || isDecimalDigit c
  let run := body.takeWhile isPart
  let digits := run.filterMap decimalValue?
  if !isDigitRun run then .error .malformed
  else if digitLimit < digits.length then .error (.tooLong digits.length)
  else if !(body.dropWhile isPart).all isNumeralBlank then .error .malformed
  else
    let value : Int := valueOfDigits digits
    .ok (if negative then -value else value)

end BuildPlan.Numeral
