import BuildPlan.Numeral.Binary64

/-!
# Shortest decimal text

Every finite number of the binary64 format is the nearest one to an interval of real numbers. `shortestDecimal`
finds the decimal number in that interval with the fewest digits, the nearest of those, the one with the even
last digit of two equally near. `Binary64.render` writes it, positionally unless the number is very large or
very small.
-/

namespace BuildPlan.Numeral

/-- The interval of real numbers that round to `mantissa * 2 ^ exponent`, with the number itself, as multiples
of the quarter of the last place over `den`. -/
structure RoundingInterval where
  low : Nat
  value : Nat
  high : Nat
  den : Nat
  closed : Bool

/-- The rounding interval of a positive number. Below a power of two the neighbour is half as far. -/
def RoundingInterval.of (mantissa : Nat) (exponent : Int) : RoundingInterval :=
  let quarter := exponent - 2
  let gap := if mantissa = Nat.pow 2 52 ∧ Binary64.minExponent < exponent then 1 else 2
  let scale := Nat.pow 2 quarter.toNat
  { low := (4 * mantissa - gap) * scale
    value := 4 * mantissa * scale
    high := (4 * mantissa + 2) * scale
    den := Nat.pow 2 (-quarter).toNat
    closed := mantissa % 2 = 0 }

/-- The interval divided by `10 ^ power`. -/
def RoundingInterval.scaled (i : RoundingInterval) (power : Int) : RoundingInterval :=
  let up := Nat.pow 10 (-power).toNat
  { i with low := i.low * up, value := i.value * up, high := i.high * up, den := i.den * Nat.pow 10 power.toNat }

/-- The integer is in the interval. -/
def RoundingInterval.holds (i : RoundingInterval) (n : Nat) : Bool :=
  let x := n * i.den
  if i.closed then i.low ≤ x && x ≤ i.high else i.low < x && x < i.high

/-- The integer of the interval nearest to its number, if there is one among the two neighbours. -/
def RoundingInterval.nearest? (i : RoundingInterval) : Option Nat :=
  let below := i.value / i.den
  let above := below + 1
  if i.holds below && i.holds above then some (Binary64.roundedQuotient i.value i.den)
  else if i.holds below then some below
  else if i.holds above then some above
  else none

/-- The first decimal grid from `power` downwards with a point in the interval, and that point. -/
def searchGrid (i : RoundingInterval) : Nat → Int → Nat × Int
  | 0, power => (0, power)
  | fuel + 1, power =>
    match (i.scaled power).nearest? with
    | some digits => (digits, power)
    | none => searchGrid i fuel (power - 1)

/-- The digits and the power of ten of the shortest decimal that rounds to a positive number. The search
starts above the number's magnitude and ends at the latest with seventeen digits. -/
def shortestDecimal (mantissa : Nat) (exponent : Int) : Nat × Int :=
  let i := RoundingInterval.of mantissa exponent
  let magnitude := ((i.value.log2 : Int) - (i.den.log2 : Int)) * 30103 / 100000
  searchGrid i 24 (magnitude + 3)

/-- How a decimal number is laid out. -/
structure DecimalLayout where
  /-- The powers of ten of the first digit of numbers that are written positionally. -/
  firstPositional : Int
  lastPositional : Int
  /-- The fewest digits of an exponent. -/
  exponentDigits : Nat

/-- Positional from `0.0001` to below `10 ^ 16`, otherwise with an exponent of two digits or more. -/
def standardLayout : DecimalLayout := ⟨-4, 15, 2⟩

/-- Digits filled up with zeros on the left. -/
def zeroPadded (width n : Nat) : List Char :=
  let digits := Nat.toDigits 10 n
  List.replicate (width - digits.length) '0' ++ digits

/-- The decimal `digits * 10 ^ power` as a text; a positional one has a digit on each side of the point. -/
def DecimalLayout.write (layout : DecimalLayout) (digits : List Char) (power : Int) : List Char :=
  let first := power + digits.length - 1
  if layout.firstPositional ≤ first ∧ first ≤ layout.lastPositional then
    if first < 0 then '0' :: '.' :: List.replicate (-first - 1).toNat '0' ++ digits
    else
      let whole := digits.take (first + 1).toNat
      let fraction := digits.drop (first + 1).toNat
      whole ++ List.replicate (first + 1 - digits.length).toNat '0' ++ '.' ::
        (if fraction.isEmpty then ['0'] else fraction)
  else
    let head := digits.take 1
    let tail := digits.drop 1
    head ++ (if tail.isEmpty then [] else '.' :: tail) ++
      'e' :: (if first < 0 then '-' else '+') :: zeroPadded layout.exponentDigits first.natAbs

/-- The shortest text that reads back as the number. -/
def Binary64.render : Binary64 → String
  | .nan => "nan"
  | .infinite negative => if negative then "-inf" else "inf"
  | .finite negative mantissa exponent =>
    let body :=
      if mantissa = 0 then ['0', '.', '0']
      else
        let (digits, power) := shortestDecimal mantissa exponent
        standardLayout.write (Nat.toDigits 10 digits) power
    String.ofList (if negative then '-' :: body else body)

end BuildPlan.Numeral
