import ReportQuery.Command.Layout
import ReportQuery.Command.Literal
import ReportQuery.Execution.Encoding
import ReportQuery.Failure
import ReportQuery.Schema.Encoding

set_option autoImplicit false
set_option relaxedAutoImplicit false

/-!
What commands print: JSON for programs, or text for a screen.
-/

namespace ReportQuery.Command

open Execution (Result)
open Schema (Table Relation)

/-- The form of a command's output. -/
inductive Style where
  | json
  | screen
deriving Repr, DecidableEq

/-- What went wrong in a command: a failure of the library, or a plain sentence. -/
inductive Trouble where
  | library (failure : Failure)
  | plain (message : String)
deriving Repr

/-- The sentence that reports what went wrong. -/
def Trouble.message : Trouble → String
  | library failure => failure.message
  | plain message => message

/-- What the trouble is about, by name. -/
def Trouble.context : Trouble → List (String × String)
  | library failure => failure.context
  | plain _ => []

/-- Indented JSON in ASCII, and the end of the line. -/
def jsonText (value : Json) : String :=
  Json.writeIndented .ascii value ++ "\n"

/-- Lines, each with its end. -/
def linesText (lines : List (List Char)) : String :=
  String.ofList (lines.flatMap fun line => line ++ ['\n'])

/-- A text that stands on the screen by itself. -/
def screenText (s : String) : String :=
  linesText (paragraph s)

/-- A title and rows of values by column. -/
def printTable (style : Style) (title : String) (rows : List (List (String × Json)))
    (columns : List String) : String :=
  match style with
  | .json => jsonText (.array (rows.map Json.object))
  | .screen =>
    linesText (Grid.lines ⟨some title, columns,
      rows.map fun row => columns.map fun name => cellText ((row.lookup name).getD .null)⟩)

/-- A table's columns, and the relations that have it on either side. -/
def printTableInfo (style : Style) (table : Table) (relations : List Relation) : String :=
  match style, table.toJson with
  | .json, .object fields =>
    jsonText (.object (fields ++ [("relations", .array (relations.map Relation.toJson))]))
  | _, _ =>
    let columns : Grid :=
      ⟨none, ["Name", "Type", "Nullable"], table.columns.map fun column =>
        [column.name, column.dataType, if column.isNullable then "✓" else ""]⟩
    let links : Grid :=
      ⟨none, ["Id", "From", "To", "Join"], relations.map fun relation =>
        [relation.id, relation.fromTable, relation.toTable, relation.join.name]⟩
    screenText ("\nTable: " ++ table.key) ++
      (if table.displayName.isEmpty then ""
      else screenText ("Display name: " ++ table.displayName)) ++
      screenText ("\nColumns (" ++ toString table.columns.length ++ "):") ++
      linesText columns.lines ++
      (if relations.isEmpty then ""
      else
        screenText ("\nRelations (" ++ toString relations.length ++ "):") ++ linesText links.lines)

/-- A statement and the names of its parameters. -/
def printSql (style : Style) (sql : String) (parameterNames : List String) : String :=
  match style with
  | .json =>
    jsonText (.object [("sql", .text sql), ("parameterNames", Json.texts parameterNames)])
  | .screen =>
    linesText (listing sql) ++
      (if parameterNames.isEmpty then ""
      else screenText ("\nParameters: " ++ ", ".intercalate parameterNames))

/-- The table that a run returned. -/
def printResult (style : Style) (result : Result) : String :=
  match style with
  | .json => jsonText result.toJson
  | .screen =>
    if result.rows.isEmpty then "Query executed successfully (no results)\n"
    else printTable style ("Rows (" ++ toString result.totalRows ++ ")") result.rows result.columns

/-- That something succeeded, with details. -/
def printSuccess (style : Style) (message : String) (details : List (String × Json)) : String :=
  match style with
  | .json =>
    jsonText (.object (Mapping.ofEntries
      ([("success", .bool true), ("message", .text message)] ++ details)))
  | .screen =>
    screenText ("✓ " ++ message) ++
      String.join (details.map fun (key, value) =>
        screenText ("  " ++ key ++ ": " ++ plainText value))

/-- What went wrong. -/
def printTrouble (style : Style) (trouble : Trouble) : String :=
  match style, trouble with
  | .json, .library failure =>
    match failure.kind? with
    | some kind =>
      jsonText (.object [("error", .text kind), ("message", .text failure.message),
        ("context", .object (failure.context.map fun (key, value) => (key, .text value)))])
    | none => jsonText (.object [("error", .text failure.message)])
  | .json, .plain message => jsonText (.object [("error", .text message)])
  | .screen, _ =>
    let context := trouble.context.map fun (key, value) => "\n" ++ key ++ ": " ++ value
    linesText (panel "Error"
      (trouble.message ++ if context.isEmpty then "" else "\n" ++ String.join context))

/-- Any value. -/
def printData (style : Style) (value : Json) : String :=
  match style with
  | .json => jsonText value
  | .screen => Json.writeIndented .unicode value ++ "\n"

end ReportQuery.Command
