/-!
# Double-precision numbers

`Binary64` holds the numbers of the IEEE 754 binary64 format as sign, mantissa and exponent, so that rounding
and printing are exact arithmetic. `ofDecimal` rounds a decimal number to the nearest one, ties to the even
mantissa.
-/

namespace BuildPlan.Numeral

/-- A number of the binary64 format. A finite one is `mantissa * 2 ^ exponent`, where the mantissa is below
`2 ^ 53` and the exponent is the least for which it is, but not less than `-1074`. -/
inductive Binary64 where
  | nan
  | infinite (negative : Bool)
  | finite (negative : Bool) (mantissa : Nat) (exponent : Int)
  deriving DecidableEq, Repr

namespace Binary64

/-- The exponent of the numbers nearest to zero. -/
def minExponent : Int := -1074

/-- The greatest exponent of a finite number. -/
def maxExponent : Int := 971

/-- Zero with a sign. -/
def zero (negative : Bool) : Binary64 := .finite negative 0 minExponent

/-- A quotient rounded to the nearest integer, ties to the even one. -/
def roundedQuotient (num den : Nat) : Nat :=
  let q := num / den
  let r := num % den
  if 2 * r < den then q
  else if den < 2 * r then q + 1
  else if q % 2 = 0 then q else q + 1

/-- The numerator and denominator of `num / den / 2 ^ exponent`. -/
def scaleDown (num den : Nat) (exponent : Int) : Nat × Nat :=
  if 0 ≤ exponent then (num, den * Nat.pow 2 exponent.toNat) else (num * Nat.pow 2 (-exponent).toNat, den)

/-- The number of the format nearest to `num / den`. -/
def ofRatio (negative : Bool) (num den : Nat) : Binary64 :=
  if num = 0 then zero negative
  else
    let low := max minExponent ((num.log2 : Int) - (den.log2 : Int) - 53)
    let (n, d) := scaleDown num den low
    let exponent := if n / d < Nat.pow 2 53 then low else low + 1
    let (n, d) := scaleDown num den exponent
    let mantissa := roundedQuotient n d
    let (mantissa, exponent) := if mantissa < Nat.pow 2 53 then (mantissa, exponent) else (Nat.pow 2 52, exponent + 1)
    if maxExponent < exponent then .infinite negative else .finite negative mantissa exponent

/-- The number of the format nearest to `digits * 10 ^ exponent`. The first two cases keep the powers of ten
small: such a number is beyond the greatest, or below half of the least. -/
def ofDecimal (negative : Bool) (digits : Nat) (exponent : Int) : Binary64 :=
  let magnitude := ((Nat.toDigits 10 digits).length : Int) + exponent
  if digits = 0 then zero negative
  else if 310 < magnitude then .infinite negative
  else if magnitude < -330 then zero negative
  else if 0 ≤ exponent then ofRatio negative (digits * Nat.pow 10 exponent.toNat) 1
  else ofRatio negative digits (Nat.pow 10 (-exponent).toNat)

/-- The number of the format nearest to an integer. -/
def ofInt (n : Int) : Binary64 := ofRatio (n < 0) n.natAbs 1

/-- Equality of the values: zeros are equal whatever their signs, and a NaN differs from every number. -/
def sameValue : Binary64 → Binary64 → Bool
  | .finite s m e, .finite s' m' e' => (m = 0 && m' = 0) || (s = s' && m = m' && e = e')
  | .infinite s, .infinite s' => s = s'
  | _, _ => false

/-- The number is the integer. -/
def equalsInt : Binary64 → Int → Bool
  | .finite negative mantissa exponent, n =>
    let value : Int := if negative then -mantissa else mantissa
    if 0 ≤ exponent then value * Nat.pow 2 exponent.toNat = n else value = n * Nat.pow 2 (-exponent).toNat
  | _, _ => false

/-- The number is zero. -/
def isZero : Binary64 → Bool
  | .finite _ 0 _ => true
  | _ => false

end Binary64

end BuildPlan.Numeral
