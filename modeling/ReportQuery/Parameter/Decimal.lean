import ReportQuery.Text.Digits

set_option autoImplicit false
set_option relaxedAutoImplicit false

/-!
Decimal numbers that keep their exponent and trailing zeros, and their scientific text.
-/

namespace ReportQuery.Parameter

open Text (isAsciiDigit digitsValue digitsOf toAsciiDigit)

/-- A decimal number: its coefficient times ten to the exponent. Zero has a sign too. -/
structure Decimal where
  negative : Bool
  coefficient : Nat
  exponent : Int
deriving Repr, DecidableEq

namespace Decimal

/-- The greatest exponent of a number's first digit. -/
def maxAdjusted : Int := 999999999999999999

/-- The least exponent of a number's last digit. -/
def minExponent : Int := -1999999999999999997

/-- The exponent of the first digit. -/
def adjusted (number : Decimal) : Int :=
  number.exponent + (digitsOf number.coefficient).length - 1

/-- Whether the number's exponents are within their bounds. -/
def inRange (number : Decimal) : Bool :=
  number.adjusted ≤ maxAdjusted && minExponent ≤ number.exponent

/-- Reads a sign, if there is one: whether it is a minus, and the text after it. -/
def readSign : List Char → Bool × List Char
  | '-' :: cs => (true, cs)
  | '+' :: cs => (false, cs)
  | cs => (false, cs)

/-- Reads an exponent that ends the text. -/
def readExponent? : List Char → Option Int
  | [] => some 0
  | c :: cs =>
    if c = 'e' ∨ c = 'E' then
      let (negative, digits) := readSign cs
      if digits.isEmpty || !digits.all isAsciiDigit then none
      else
        let size : Int := digitsValue digits
        some (if negative then -size else size)
    else none

/-- Reads a number in ASCII digits: a sign, digits with at most one point, and an exponent. -/
def readAscii? (cs : List Char) : Option Decimal :=
  let (negative, unsigned) := readSign cs
  let whole := unsigned.takeWhile isAsciiDigit
  let (fraction, rest) :=
    match unsigned.dropWhile isAsciiDigit with
    | '.' :: more => (more.takeWhile isAsciiDigit, more.dropWhile isAsciiDigit)
    | more => ([], more)
  if whole.isEmpty && fraction.isEmpty then none
  else
    (readExponent? rest).map fun exponent =>
      ⟨negative, digitsValue (whole ++ fraction), exponent - fraction.length⟩

/-- Reads a number. Digits of any script count, underscores do not, and a number whose exponents
are out of bounds is none. -/
def read? (cs : List Char) : Option Decimal :=
  (readAscii? ((cs.filter (· != '_')).map toAsciiDigit)).filter inRange

/-- The digits with a point before the last `places` of them. -/
def withPoint (digits : List Char) (places : Nat) : List Char :=
  let all := List.replicate (places + 1 - digits.length) '0' ++ digits
  all.take (all.length - places) ++ '.' :: all.drop (all.length - places)

/-- The coefficient with a point after its first digit, if it has more than one. -/
def mantissa (digits : List Char) : List Char :=
  match digits with
  | first :: second :: rest => first :: '.' :: second :: rest
  | _ => digits

/-- A number's sign, written for a negative one only. -/
def signText (negative : Bool) : List Char :=
  if negative then ['-'] else []

/-- An exponent with its sign. -/
def exponentText (exponent : Int) : List Char :=
  'E' :: (if exponent < 0 then '-' else '+') :: digitsOf exponent.natAbs

/-- The scientific text: a number with no digits left of its exponent and at most six zeros after
the point is written without an exponent. -/
def text (number : Decimal) : List Char :=
  let digits := digitsOf number.coefficient
  signText number.negative ++
    if 0 < number.exponent || number.adjusted < -6 then
      mantissa digits ++ exponentText number.adjusted
    else if number.exponent = 0 then digits
    else withPoint digits number.exponent.natAbs

end Decimal

end ReportQuery.Parameter
