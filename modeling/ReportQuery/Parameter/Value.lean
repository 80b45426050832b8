import ReportQuery.Parameter.DateText
import ReportQuery.Parameter.Decimal
import ReportQuery.Parameter.Kind

set_option autoImplicit false
set_option relaxedAutoImplicit false

/-!
Typed parameter values. A value is given as text; a text that does not fit the declared type counts
as no value.
-/

namespace ReportQuery.Parameter

open Text (trimChars lowerChars isAsciiDigit digitsValue digitsOf toAsciiDigit)

/-- A typed value. -/
inductive Value where
  | int (n : Int)
  | decimal (number : Decimal)
  | date (date : Date)
  | bool (b : Bool)
  | string (s : String)
deriving Repr, DecidableEq

/-- The type of a value. -/
def Value.kind : Value → Kind
  | int _ => .int
  | decimal _ => .decimal
  | date _ => .date
  | bool _ => .bool
  | string _ => .string

/-- The digits of a text in which single underscores may stand between digits; `last` is the
character before. -/
def groupedDigits? (last : Char) : List Char → Option (List Char)
  | [] => if last = '_' then none else some []
  | c :: cs =>
    if c = '_' then if last = '_' then none else groupedDigits? c cs
    else if isAsciiDigit c then (groupedDigits? c cs).map (c :: ·)
    else none

/-- The greatest number of digits of an integer. -/
def maxIntDigits : Nat := 4300

/-- Reads an integer: a sign and digits of any script, with single underscores between them. -/
def readInt? (cs : List Char) : Option Int :=
  let (negative, unsigned) := Decimal.readSign (cs.map toAsciiDigit)
  match groupedDigits? '_' unsigned with
  | some [] | none => none
  | some digits =>
    if maxIntDigits < digits.length then none
    else
      let size : Int := digitsValue digits
      some (if negative then -size else size)

/-- Reads a truth value, in any case. -/
def readBool? (cs : List Char) : Option Bool :=
  let word := lowerChars cs
  if word = "true".toList then some true
  else if word = "false".toList then some false
  else none

/-- The value of a text as the given type. Blanks around it are ignored, but belong to a text that
is wanted as text. -/
def Value.ofText? (kind : Kind) (text : String) : Option Value :=
  let cs := trimChars text.toList
  match kind with
  | .int => (readInt? cs).map int
  | .decimal => (Decimal.read? cs).map decimal
  | .date => (DateText.read? cs).map date
  | .bool => (readBool? cs).map bool
  | .string => some (string text)

/-- The value of a text that may be missing. -/
def coerce (kind : Kind) (text? : Option String) : Option Value :=
  text?.bind (Value.ofText? kind)

/-- The text of an integer. -/
def intText (n : Int) : List Char :=
  Decimal.signText (n < 0) ++ digitsOf n.natAbs

/-- The canonical text of a value. -/
def Value.text : Value → String
  | int n => String.ofList (intText n)
  | decimal number => String.ofList number.text
  | date day => String.ofList day.text
  | bool b => if b then "true" else "false"
  | string s => s

end ReportQuery.Parameter
