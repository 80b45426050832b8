set_option autoImplicit false
set_option relaxedAutoImplicit false

/-!
JSON values. Objects keep their fields in the order in which the keys first appeared; a number
written with a fraction or an exponent keeps its decimal digits.
-/

namespace ReportQuery.Json

/-- A number as a text writes it. -/
inductive Number where
  | integer (n : Int)
  /-- The digits times ten to the exponent. -/
  | decimal (negative : Bool) (digits : Nat) (exponent : Int)
  | infinite (negative : Bool)
  | notANumber
deriving Repr, DecidableEq

end ReportQuery.Json

namespace ReportQuery

open Json (Number)

/-- A JSON value. -/
inductive Json where
  | null
  | bool (b : Bool)
  | number (n : Number)
  | text (s : String)
  /-- A text that holds half of a surrogate pair and so is no string of characters. -/
  | brokenText
  | array (items : List Json)
  | object (fields : List (String × Json))
deriving Repr

namespace Json

/-- The value of a field. -/
def field? (fields : List (String × Json)) (key : String) : Option Json :=
  fields.lookup key

/-- An integer. -/
def integer (n : Int) : Json := number (.integer n)

/-- The text, or null where there is none. -/
def ofText? : Option String → Json
  | none => null
  | some s => text s

/-- An array of texts. -/
def texts (ss : List String) : Json := array (ss.map text)

end Json

end ReportQuery
