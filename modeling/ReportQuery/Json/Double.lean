import ReportQuery.Text.Digits

set_option autoImplicit false
set_option relaxedAutoImplicit false

/-!
Numbers of double precision: the nearest one to a decimal number, and the fewest digits that read
back as the same one. All arithmetic is on exact fractions.
-/

namespace ReportQuery.Json

/-- The fraction `n` times `base` to an exponent. -/
def scaled (base n : Nat) : Int → Nat × Nat
  | .ofNat k => (n * Nat.pow base k, 1)
  | .negSucc k => (n, Nat.pow base (k + 1))

/-- The nearest natural number to a fraction; of two that are equally near, the even one. -/
def roundFraction (numerator denominator : Nat) : Nat :=
  let low := numerator / denominator
  let rest := 2 * (numerator % denominator)
  if denominator < rest || (rest = denominator && low % 2 = 1) then low + 1 else low

/-- A finite number of double precision that is not negative: the significand times two to the
exponent. -/
structure Double where
  significand : Nat
  exponent : Int
deriving Repr, DecidableEq

namespace Double

/-- The significands are below this number, and at least half of it but for the least exponent. -/
def limit : Nat := 0x20000000000000

/-- The least exponent. -/
def leastExponent : Int := -1074

/-- The greatest exponent. -/
def greatestExponent : Int := 971

/-- Zero. -/
def zero : Double := ⟨0, leastExponent⟩

/-- The exponent with which a positive fraction fills the significand, or the least one. -/
def exponentFor (numerator denominator : Nat) : Int :=
  let guess : Int := numerator.log2 - denominator.log2
  let (high, low) := scaled 2 denominator guess
  max leastExponent ((if high ≤ numerator * low then guess else guess - 1) - 52)

/-- The nearest number to a fraction, if it is not too large. -/
def ofFraction? (numerator denominator : Nat) : Option Double :=
  let exponent := exponentFor numerator denominator
  let (high, low) := scaled 2 denominator exponent
  let significand := roundFraction (numerator * low) high
  let rounded : Double :=
    if significand = limit then ⟨limit / 2, exponent + 1⟩ else ⟨significand, exponent⟩
  if greatestExponent < rounded.exponent then none else some rounded

/-- The number of decimal digits. -/
def digitCount (n : Nat) : Nat :=
  (Text.digitsOf n).length

/-- The nearest number to a decimal number, if it is not too large. Exponents far outside the range
are decided without computing the power. -/
def ofDecimal? (digits : Nat) (exponent : Int) : Option Double :=
  let size := digitCount digits + exponent
  if digits = 0 || size < -330 then some zero
  else if 310 < size then none
  else
    let (numerator, denominator) := scaled 10 digits exponent
    ofFraction? numerator denominator

/-- The number as a fraction. -/
def fraction (x : Double) : Nat × Nat :=
  scaled 2 x.significand x.exponent

/-- How many digits a positive number has before the point; zero or less counts the zeros that
follow the point. -/
def place (x : Double) : Int :=
  let (numerator, denominator) := x.fraction
  if denominator ≤ numerator then digitCount (numerator / denominator)
  else 1 - digitCount ((denominator - 1) / numerator)

/-- The decimal number of the given exponent that reads back as the number and is nearest to it; of
two that are equally near, the even one. -/
def onGrid? (x : Double) (exponent : Int) : Option (Nat × Int) :=
  let (numerator, denominator) := x.fraction
  let (high, low) := scaled 10 denominator exponent
  let below := numerator * low / high
  let nearest := roundFraction (numerator * low) high
  [nearest, below, below + 1].findSome? fun digits =>
    if ofDecimal? digits exponent = some x then some (digits, exponent) else none

/-- The number with all its digits. -/
def exactDecimal (x : Double) : Nat × Int :=
  match x.exponent with
  | .ofNat k => (x.significand * Nat.pow 2 k, 0)
  | .negSucc k => (x.significand * Nat.pow 5 (k + 1), x.exponent)

/-- The decimal number of the fewest digits that reads back as the number. Seventeen digits are
enough. -/
def shortest (x : Double) : Nat × Int :=
  ((List.range 17).findSome? fun (n : Nat) => x.onGrid? (x.place - (n + 1))).getD x.exactDecimal

end Double

end ReportQuery.Json
