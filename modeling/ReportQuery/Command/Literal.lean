import ReportQuery.Json.Printer
import ReportQuery.Text.Literal

set_option autoImplicit false
set_option relaxedAutoImplicit false

/-!
The text of a value on a screen: a text by itself is shown as it is, inside a list or record it
stands between quotes.
-/

namespace ReportQuery.Command

open Text (literalText)

mutual

/-- A value inside a list or record. -/
def literal : Json → List Char
  | .null | .brokenText => "None".toList
  | .bool b => (if b then "True" else "False").toList
  | .number n => n.writeWith "inf" "nan"
  | .text s => literalText s
  | .array [] => ['[', ']']
  | .array (item :: items) => '[' :: literal item ++ literalItems items
  | .object [] => ['\x7b', '\x7d']
  | .object (field :: fields) => '\x7b' :: literalField field ++ literalFields fields

/-- The items after the first. -/
def literalItems : List Json → List Char
  | [] => [']']
  | item :: items => ',' :: ' ' :: literal item ++ literalItems items

/-- A key and its value. -/
def literalField : String × Json → List Char
  | (key, value) => literalText key ++ ':' :: ' ' :: literal value

/-- The fields after the first. -/
def literalFields : List (String × Json) → List Char
  | [] => ['\x7d']
  | field :: fields => ',' :: ' ' :: literalField field ++ literalFields fields

end

/-- The text of a value by itself. -/
def plainText : Json → String
  | .text s => s
  | value => String.ofList (literal value)

/-- The text of a value in a table. -/
def cellText : Json → String
  | .null => "NULL"
  | value => plainText value

end ReportQuery.Command
