import ReportQuery.Text.Character
import ReportQuery.Text.Order
import ReportQuery.Text.Scan

set_option autoImplicit false
set_option relaxedAutoImplicit false

/-!
How a database driver reads a prepared statement: its binds, and its text once the escapes of
colons are dropped.
-/

namespace ReportQuery.Sql

open Text

/-- Whether a neighbour is a colon or a word character. -/
def isColonOrWord : Option Char → Bool
  | none => false
  | some c => isWordChar c || c == ':'

/-- Reads a bind of a prepared statement: a colon and the word after it. -/
def boundName : Matcher (List Char)
  | before, ':' :: cs =>
    let name := cs.takeWhile isWordChar
    if isColonOrWord before || before == some '\\' || name.isEmpty ||
        isColonOrWord (cs.drop name.length).head? then none
    else some (name.length + 1, name)
  | _, _ => none

/-- The names of the binds of a prepared statement, in order of first appearance. -/
def bindNames (text : List Char) : List String :=
  distinct ((findAll boundName text).map String.ofList)

/-- Reads an escaped colon with the word after it, if any. -/
def escapedColon : Matcher Unit
  | _, '\\' :: ':' :: cs =>
    let name := cs.takeWhile isWordChar
    if isColonOrWord (cs.drop name.length).head? then none else some (name.length + 2, ())
  | _, _ => none

/-- The statement that the database receives: escaped colons lose their backslash. -/
def unescapeColons (text : List Char) : List Char :=
  replaceAll escapedColon (fun source _ => source.drop 1) text

end ReportQuery.Sql
