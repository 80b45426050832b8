import ReportQuery.Text.Case

set_option autoImplicit false
set_option relaxedAutoImplicit false

/-!
The types that a parameter can be declared with.
-/

namespace ReportQuery.Parameter

open Text (lower trim)

/-- The type of a parameter. -/
inductive Kind where
  | string
  | int
  | decimal
  | date
  | bool
deriving Repr, DecidableEq

namespace Kind

/-- All types. -/
def all : List Kind := [string, int, decimal, date, bool]

/-- The name of a type. -/
def name : Kind → String
  | string => "string"
  | int => "int"
  | decimal => "decimal"
  | date => "date"
  | bool => "bool"

/-- The names that declare a type other than text. -/
def declaredNames : List (String × Kind) :=
  [("int", int), ("integer", int), ("decimal", decimal), ("numeric", decimal), ("date", date),
    ("bool", bool), ("boolean", bool)]

/-- The type that a name declares: blanks around it and case are ignored, and a name that is not
known declares a text. -/
def ofName (name : String) : Kind :=
  (declaredNames.lookup (lower (trim name))).getD string

/-- The database's name of the type. -/
def sqlName : Kind → String
  | string => "String"
  | int => "Integer"
  | decimal => "Numeric"
  | date => "Date"
  | bool => "Boolean"

end Kind

end ReportQuery.Parameter
