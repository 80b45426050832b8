import ReportQuery.Mapping
import ReportQuery.Parameter.Definition
import ReportQuery.Text.Order

set_option autoImplicit false
set_option relaxedAutoImplicit false

/-!
Parameter values and types as given on the command line, and the definitions made from them.
-/

namespace ReportQuery.Command

open Parameter (Definition Kind Values)
open Text (trim trimChars lower distinct)

/-- Why an assignment cannot be used. -/
inductive AssignmentFault where
  | malformed (text : String)
  | unknownType (name : String)
deriving Repr, DecidableEq

/-- The sentence that reports the fault. -/
def AssignmentFault.message : AssignmentFault → String
  | malformed text => "Invalid assignment: '" ++ text ++ "'. Expected format: name=value"
  | unknownType name =>
    "Invalid parameter type: '" ++ name ++ "'. Supported: " ++
      ", ".intercalate (Kind.all.map Kind.name)

/-- Reads a name and a value with the first equals sign between them. Blanks around the name and at
signs before it are dropped. -/
def readAssignment (text : String) : Except AssignmentFault (String × String) :=
  let (before, after) := text.toList.span (· != '=')
  let name := (trimChars before).dropWhile (· == '@')
  match after, name with
  | _ :: value, _ :: _ => .ok (String.ofList name, String.ofList value)
  | _, _ => .error (.malformed text)

/-- Reads assignments of values. A repeated name keeps its place and takes the last value. -/
def readValues (texts : List String) : Except AssignmentFault (List (String × String)) :=
  Mapping.ofEntries <$> texts.mapM readAssignment

/-- Reads an assignment of a type. -/
def readType (text : String) : Except AssignmentFault (String × String) := do
  let (name, value) ← readAssignment text
  let word := lower (trim value)
  let kind := Kind.ofName word
  if kind = .string ∧ ¬ ["", "string", "text"].contains word then .error (.unknownType value)
  else return (name, kind.name)

/-- Reads assignments of types. A repeated name keeps its place and takes the last type. -/
def readTypes (texts : List String) : Except AssignmentFault (List (String × String)) :=
  Mapping.ofEntries <$> texts.mapM readType

/-- One definition for every placeholder and every name that has a value or a type. -/
def definitionsFor (values types : List (String × String)) (placeholders : List String) :
    List Definition :=
  (distinct (placeholders ++ values.map Prod.fst ++ types.map Prod.fst)).map fun name =>
    ⟨name, (types.lookup name).getD Kind.string.name, none⟩

/-- The values as a caller gives them. -/
def givenValues (values : List (String × String)) : Values :=
  values.map fun (name, value) => (name, some value)

end ReportQuery.Command
