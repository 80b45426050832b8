import ReportQuery.Json.Basic
import ReportQuery.Json.Double
import ReportQuery.Json.Token
import ReportQuery.Shape.Problem
import ReportQuery.Text.Case
import ReportQuery.Text.Digits

set_option autoImplicit false
set_option relaxedAutoImplicit false

/-!
Checks of JSON values: texts, flags, integers, lists and records.

A record's field is looked up by two names, and the first of them wins where both are there.
Unknown fields are ignored.
-/

namespace ReportQuery.Shape

open Text (isAsciiDigit digitsValue lower)
open Json (Number maxIntegerDigits)

variable {α : Type}

/-- A text. -/
def text : Json → Checked String
  | .text s => .valid s
  | _ => .fail .notText

/-- A text of at least one character. -/
def nonemptyText (value : Json) : Checked String :=
  (text value).andThen fun s => if s.isEmpty then .fail .tooShort else .valid s

/-- A value that may be null. -/
def nullable (check : Json → Checked α) : Json → Checked (Option α)
  | .null => .valid none
  | value =>
    match check value with
    | .valid a => .valid (some a)
    | .invalid problems => .invalid problems

/-- Checks the items of a list from the given index on. -/
def items (check : Json → Checked α) (index : Nat) : List Json → Checked (List α)
  | [] => .valid []
  | value :: values =>
    List.cons <$> (check value).under (.index index) <*> items check (index + 1) values

/-- A list. -/
def list (check : Json → Checked α) : Json → Checked (List α)
  | .array values => items check 0 values
  | _ => .fail .notList

/-- A record of the given kind, checked by its fields. -/
def record (kind : String) (check : List (String × Json) → Checked α) : Json → Checked α
  | .object fields => check fields
  | _ => .fail (.notRecord kind)

/-- The names of a field: the one it is written with, and another one that is read too. -/
structure FieldName where
  written : String
  other : String := written
deriving Repr, DecidableEq

/-- A field that a record has, under the name that was found. -/
def FieldName.find? (name : FieldName) (fields : List (String × Json)) : Option (String × Json) :=
  match Json.field? fields name.written with
  | some value => some (name.written, value)
  | none => (Json.field? fields name.other).map fun value => (name.other, value)

/-- A field that must be there. -/
def required (fields : List (String × Json)) (name : FieldName) (check : Json → Checked α) :
    Checked α :=
  match name.find? fields with
  | some (key, value) => (check value).under (.key key)
  | none => (Checked.fail .missing).under (.key name.written)

/-- A field that may be left out. -/
def optional (fields : List (String × Json)) (name : FieldName) (default : α)
    (check : Json → Checked α) : Checked α :=
  match name.find? fields with
  | some (key, value) => (check value).under (.key key)
  | none => .valid default

/-- Whether an integer is one of a machine word's. -/
def fitsWord (n : Int) : Bool :=
  -0x8000000000000000 ≤ n && n ≤ 0x7FFFFFFFFFFFFFFF

/-- A number with a fraction or an exponent, as it is kept: to double precision. -/
inductive Rounded where
  | infinite
  | fractional
  /-- A whole number beyond those of a machine word. -/
  | huge
  | whole (n : Int)
deriving Repr, DecidableEq

/-- What becomes of a number written in decimal digits. -/
def roundDecimal (negative : Bool) (digits : Nat) (exponent : Int) : Rounded :=
  match Json.Double.ofDecimal? digits exponent with
  | none => .infinite
  | some x =>
    let (numerator, denominator) := x.fraction
    let size := numerator / denominator
    if numerator % denominator ≠ 0 then .fractional
    else if size ≤ 0x7FFFFFFFFFFFFFFF then .whole (if negative then -size else size)
    else .huge

/-- A flag given as a whole number. -/
def flagOfInteger (n : Int) : Checked Bool :=
  if n = 0 then .valid false
  else if n = 1 then .valid true
  else if fitsWord n then .fail .unreadableFlag
  else .fail .notFlag

/-- The words for a flag that is off. -/
def offWords : List String := ["0", "off", "f", "false", "n", "no"]

/-- The words for a flag that is on. -/
def onWords : List String := ["1", "on", "t", "true", "y", "yes"]

/-- A flag: a truth value, zero or one, or one of the words for them in any case. -/
def flag : Json → Checked Bool
  | .bool b => .valid b
  | .number (.integer n) => flagOfInteger n
  | .number (.decimal negative digits exponent) =>
    match roundDecimal negative digits exponent with
    | .whole n => flagOfInteger n
    | .fractional | .huge | .infinite => .fail .notFlag
  | .text s =>
    let word := lower s
    if offWords.contains word then .valid false
    else if onWords.contains word then .valid true
    else .fail .unreadableFlag
  | .brokenText => .fail .unreadableFlag
  | _ => .fail .notFlag

/-- The white space that may stand around an integer in a text. -/
def isOuterBlank (c : Char) : Bool :=
  Text.isBlank c && !(0x1C ≤ c.toNat && c.toNat ≤ 0x1F)

/-- Drops leading zeros and the underscores among them, but for the last zero of a number that has
no other digit before its point. `last` is the character before. -/
def dropLeadingZeros (last : Char) : List Char → Option (List Char)
  | [] => some [last]
  | c :: cs =>
    if c = '0' then dropLeadingZeros c cs
    else if c = '_' then if last = '_' then none else dropLeadingZeros c cs
    else if isAsciiDigit c then some (c :: cs)
    else if c = '.' then some (last :: c :: cs)
    else none

/-- Drops a point with zeros after it, at least one and nothing else. -/
def dropZeroFraction (cs : List Char) : List Char :=
  match cs.span (· != '.') with
  | (whole, '.' :: '0' :: fraction) => if fraction.all (· == '0') then whole else cs
  | _ => cs

/-- Drops underscores that stand alone; `last` is the character before. There is no answer if one
stands beside another or at the end. -/
def dropUnderscores? (last : Char) : List Char → Option (List Char)
  | [] => if last = '_' then none else some []
  | c :: cs =>
    if c = '_' then if last = '_' then none else dropUnderscores? c cs
    else (dropUnderscores? c cs).map (c :: ·)

/-- The value of an integer without superfluous zeros. -/
def plainInteger? (cs : List Char) : Option Int :=
  let magnitude (digits : List Char) : Option Nat :=
    match digits with
    | ['0'] => some 0
    | d :: _ =>
      if d != '0' && digits.all isAsciiDigit then
        some (digitsValue digits)
      else none
    | [] => none
  match cs with
  | '-' :: digits => (magnitude digits).map fun n => -(n : Int)
  | digits => (magnitude digits).map fun n => (n : Int)

/-- An integer in a text without what may be left out: a plus sign, leading zeros, a fraction of
zeros and underscores between digits. -/
def plainText? (cs : List Char) : Option (List Char) :=
  let unsigned :=
    match cs with
    | '+' :: c :: rest => if isAsciiDigit c then c :: rest else cs
    | _ => cs
  let significant : Option (List Char) :=
    match unsigned with
    | '0' :: rest => dropLeadingZeros '0' rest
    | c :: _ => if isAsciiDigit c || c == '-' then some unsigned else none
    | [] => none
  significant.map fun cs =>
    let whole := dropZeroFraction cs
    (dropUnderscores? '_' whole).getD whole

/-- Whether a text begins with too many digits. A sign counts as one of them. -/
def isTooLong (cs : List Char) : Bool :=
  let (signLength, digits) :=
    match cs with
    | '-' :: rest => (1, rest)
    | _ => (0, cs)
  digits.head? != some '0' &&
    maxIntegerDigits < signLength + (digits.takeWhile isAsciiDigit).length

/-- Reads an integer from a text. -/
def readInteger (cs : List Char) : Checked Int :=
  match plainText? cs with
  | none => .fail .unreadableInteger
  | some plain =>
    if isTooLong plain then .fail .longInteger
    else
      match plainInteger? plain with
      | some n => .valid n
      | none => .fail .unreadableInteger

/-- An integer: a whole number, a truth value as zero or one, or a text that writes one. -/
def integer : Json → Checked Int
  | .number (.integer n) => .valid n
  | .bool b => .valid (if b then 1 else 0)
  | .number (.decimal negative digits exponent) =>
    match roundDecimal negative digits exponent with
    | .whole n => .valid n
    | .huge => .fail .longInteger
    | .fractional => .fail .fractional
    | .infinite => .fail .infinite
  | .number (.infinite _) | .number .notANumber => .fail .infinite
  | .text s =>
    readInteger ((s.toList.dropWhile isOuterBlank).reverse.dropWhile isOuterBlank).reverse
  | .brokenText => .fail .unreadableInteger
  | _ => .fail .notInteger

/-- A positive integer. -/
def positive (value : Json) : Checked {n : Nat // 0 < n} :=
  (integer value).andThen fun n =>
    if h : 0 < n.toNat then .valid ⟨n.toNat, h⟩ else .fail .notPositive

end ReportQuery.Shape
