import ReportQuery.Parameter.Value
import ReportQuery.Shape.Check

set_option autoImplicit false
set_option relaxedAutoImplicit false

/-!
Declared parameters, and the values that callers give for them. Names are compared without leading
at signs and without case.
-/

namespace ReportQuery.Parameter

open Text (lower)
open Shape (Checked record required optional nullable text nonemptyText)

/-- A declared parameter. -/
structure Definition where
  name : String
  type : String := Kind.string.name
  default? : Option String := none
deriving Repr, DecidableEq

/-- The values that a caller gives, in order; a value may be none. -/
abbrev Values := List (String × Option String)

/-- A name without leading at signs. -/
def bareName (name : String) : String :=
  String.ofList (name.toList.dropWhile (· == '@'))

/-- The name by which parameters are compared. -/
def foldedName (name : String) : String :=
  lower (bareName name)

namespace Definition

/-- The type that the parameter is declared with. -/
def kind (definition : Definition) : Kind :=
  Kind.ofName definition.type

/-- The text that a parameter takes: a value given under exactly its name, with or without its at
signs, else the first one under a name that compares equal, else the default. -/
def resolve (definition : Definition) (values : Values) : Option String :=
  let exact := (values.lookup definition.name).orElse fun _ =>
    values.lookup (bareName definition.name)
  match exact with
  | some value? => value?
  | none =>
    match values.find? fun (name, _) => foldedName name = foldedName definition.name with
    | some (_, value?) => value?
    | none => definition.default?

/-- The value that a parameter takes. -/
def value? (definition : Definition) (values : Values) : Option Value :=
  coerce definition.kind (definition.resolve values)

def toJson (definition : Definition) : Json :=
  .object [("name", .text definition.name), ("type", .text definition.type),
    ("defaultValue", Json.ofText? definition.default?)]

def ofJson : Json → Checked Definition :=
  record "ReportParameterDefinition" fun fields =>
    Definition.mk <$> required fields ⟨"name", "name"⟩ nonemptyText
      <*> optional fields ⟨"type", "type"⟩ Kind.string.name text
      <*> optional fields ⟨"defaultValue", "default_value"⟩ none (nullable text)

end Definition

end ReportQuery.Parameter
