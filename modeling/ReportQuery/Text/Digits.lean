import ReportQuery.Text.Character

set_option autoImplicit false
set_option relaxedAutoImplicit false

/-!
Numbers written in decimal digits, and the digits of the hexadecimal notation.
-/

namespace ReportQuery.Text

/-- The value of an ASCII digit. -/
def asciiDigitValue (c : Char) : Nat :=
  c.toNat - '0'.toNat

/-- The value of a run of ASCII digits. -/
def digitsValue (digits : List Char) : Nat :=
  digits.foldl (fun value c => 10 * value + asciiDigitValue c) 0

/-- The ASCII digit of a value below ten. -/
def asciiDigit (n : Nat) : Char :=
  Char.ofNat (n + '0'.toNat)

/-- The ASCII digit for a decimal digit of any script; other characters stay. -/
def toAsciiDigit (c : Char) : Char :=
  match digitValue? c with
  | some n => asciiDigit n
  | none => c

/-- The digits of a number. -/
def digitsOf (n : Nat) : List Char :=
  Nat.toDigits 10 n

/-- The digits of a number, led by zeros up to the given width. -/
def padded (width n : Nat) : List Char :=
  List.replicate (width - (digitsOf n).length) '0' ++ digitsOf n

/-- A digit of the hexadecimal notation. -/
def hexDigit (n : Nat) : Char :=
  if n < 10 then asciiDigit n else Char.ofNat (n - 10 + 'a'.toNat)

/-- The last hexadecimal digits of a number, as many as are asked for. -/
def lastHexDigits (n : Nat) : Nat → List Char
  | 0 => []
  | count + 1 => lastHexDigits (n / 16) count ++ [hexDigit (n % 16)]

end ReportQuery.Text
