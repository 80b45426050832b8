import ReportQuery.Json.Basic
import ReportQuery.Json.Double

set_option autoImplicit false
set_option relaxedAutoImplicit false

/-!
Writing JSON values: compactly on one line, or indented by two blanks a level.
-/

namespace ReportQuery.Json

open Text (digitsOf lastHexDigits)

/-- Which characters a text is written with. -/
inductive Charset where
  /-- Printable ASCII; everything else is escaped. -/
  | ascii
  /-- Every character but quotes, backslashes and control characters. -/
  | unicode
deriving Repr, DecidableEq

/-- The escape of a 16-bit unit. -/
def unitEscape (n : Nat) : List Char :=
  ['\\', 'u'] ++ lastHexDigits n 4

/-- A character written inside a text. Beyond the first 65536 characters an escape takes two
units. -/
def writeChar (charset : Charset) (c : Char) : List Char :=
  if c = '"' then ['\\', '"']
  else if c = '\\' then ['\\', '\\']
  else if c = '\n' then ['\\', 'n']
  else if c = '\r' then ['\\', 'r']
  else if c = '\t' then ['\\', 't']
  else if c = '\x08' then ['\\', 'b']
  else if c = '\x0c' then ['\\', 'f']
  else if c.toNat < 0x20 then unitEscape c.toNat
  else if charset = .unicode || c.toNat < 0x7F then [c]
  else if c.toNat < 0x10000 then unitEscape c.toNat
  else
    unitEscape (0xD800 + (c.toNat - 0x10000) / 0x400) ++
      unitEscape (0xDC00 + (c.toNat - 0x10000) % 0x400)

/-- A text between quotes. -/
def writeText (charset : Charset) (s : String) : List Char :=
  '"' :: s.toList.flatMap (writeChar charset) ++ ['"']

/-- The digits of a decimal number without the zeros at their end, and the exponent that goes with
them; `digits` are given last first. -/
def withoutTrailingZeros (exponent : Int) : List Char → List Char × Int
  | [] => (['0'], exponent)
  | d :: rest =>
    if d = '0' && !rest.isEmpty then withoutTrailingZeros (exponent + 1) rest
    else ((d :: rest).reverse, exponent)

/-- An exponent: its sign and at least two digits. -/
def writeExponent (exponent : Int) : List Char :=
  let digits := digitsOf exponent.natAbs
  (if exponent < 0 then '-' else '+') :: (if digits.length < 2 then '0' :: digits else digits)

/-- A number of double precision: in the fewest digits, with a point and a digit after it. Numbers
from a ten-thousandth up to 10000000000000000 are written without an exponent. -/
def Double.write (x : Double) : List Char :=
  if x.significand = 0 then ['0', '.', '0']
  else
    let (value, scale) := x.shortest
    let (digits, exponent) := withoutTrailingZeros scale (digitsOf value).reverse
    let place := digits.length + exponent
    if place ≤ -4 || 16 < place then
      let fraction := digits.drop 1
      digits.take 1 ++ (if fraction.isEmpty then [] else '.' :: fraction) ++
        'e' :: writeExponent (place - 1)
    else if place ≤ 0 then ['0', '.'] ++ List.replicate place.natAbs '0' ++ digits
    else if 0 ≤ exponent then digits ++ List.replicate exponent.natAbs '0' ++ ['.', '0']
    else digits.take place.natAbs ++ '.' :: digits.drop place.natAbs

/-- The text of a number, given the words for numbers that are too large and for those that are
none. -/
def Number.writeWith (infinity undefined : String) : Number → List Char
  | integer n => (toString n).toList
  | decimal negative digits exponent =>
    let size :=
      match Double.ofDecimal? digits exponent with
      | some x => x.write
      | none => infinity.toList
    if negative then '-' :: size else size
  | infinite negative => if negative then '-' :: infinity.toList else infinity.toList
  | notANumber => undefined.toList

/-- The text of a number. -/
def Number.write (n : Number) : List Char :=
  n.writeWith "Infinity" "NaN"

/-- The text of a value without parts. -/
def writeWord (b : Bool) : List Char :=
  (if b then "true" else "false").toList

mutual

/-- Writes a value without blanks. -/
def compact (charset : Charset) : Json → List Char
  | null | brokenText => "null".toList
  | bool b => writeWord b
  | number n => n.write
  | text s => writeText charset s
  | array [] => ['[', ']']
  | array (item :: items) => '[' :: compact charset item ++ compactItems charset items
  | object [] => ['\x7b', '\x7d']
  | object (field :: fields) =>
    '\x7b' :: compactField charset field ++ compactFields charset fields

/-- Writes the items after the first and closes the array. -/
def compactItems (charset : Charset) : List Json → List Char
  | [] => [']']
  | item :: items => ',' :: compact charset item ++ compactItems charset items

/-- Writes a key and its value. -/
def compactField (charset : Charset) : String × Json → List Char
  | (key, value) => writeText charset key ++ ':' :: compact charset value

/-- Writes the fields after the first and closes the object. -/
def compactFields (charset : Charset) : List (String × Json) → List Char
  | [] => ['\x7d']
  | field :: fields => ',' :: compactField charset field ++ compactFields charset fields

end

/-- A new line at a depth of nesting. -/
def newLine (depth : Nat) : List Char :=
  '\n' :: List.replicate (2 * depth) ' '

mutual

/-- Writes a value with every item and field on a line of its own. -/
def indented (charset : Charset) (depth : Nat) : Json → List Char
  | null | brokenText => "null".toList
  | bool b => writeWord b
  | number n => n.write
  | text s => writeText charset s
  | array [] => ['[', ']']
  | array (item :: items) =>
    '[' :: newLine (depth + 1) ++ indented charset (depth + 1) item ++
      indentedItems charset depth items
  | object [] => ['\x7b', '\x7d']
  | object (field :: fields) =>
    '\x7b' :: newLine (depth + 1) ++ indentedField charset (depth + 1) field ++
      indentedFields charset depth fields

/-- Writes the items after the first and closes the array. -/
def indentedItems (charset : Charset) (depth : Nat) : List Json → List Char
  | [] => newLine depth ++ [']']
  | item :: items =>
    ',' :: newLine (depth + 1) ++ indented charset (depth + 1) item ++
      indentedItems charset depth items

/-- Writes a key and its value. -/
def indentedField (charset : Charset) (depth : Nat) : String × Json → List Char
  | (key, value) => writeText charset key ++ ':' :: ' ' :: indented charset depth value

/-- Writes the fields after the first and closes the object. -/
def indentedFields (charset : Charset) (depth : Nat) : List (String × Json) → List Char
  | [] => newLine depth ++ ['\x7d']
  | field :: fields =>
    ',' :: newLine (depth + 1) ++ indentedField charset (depth + 1) field ++
      indentedFields charset depth fields

end

/-- The compact text of a value. -/
def write (charset : Charset) (value : Json) : String :=
  String.ofList (compact charset value)

/-- The indented text of a value. -/
def writeIndented (charset : Charset) (value : Json) : String :=
  String.ofList (indented charset 0 value)

end ReportQuery.Json
