import ReportQuery.Text.Case
import ReportQuery.Text.Identifier

set_option autoImplicit false
set_option relaxedAutoImplicit false

/-!
Query descriptions: which tables, fields, relations, filters and sorts a caller asks for, and their
normal form.
-/

namespace ReportQuery.Query

open Text (trim isBlankText isSafeIdentifier upper words upperChars)

/-- An entry of the select list. -/
structure Field where
  tableKey : String
  columnName : String
  alias? : Option String := none
  aggregate? : Option String := none
deriving Repr, DecidableEq

/-- A condition on a column, with a parameter on its right side. -/
structure Filter where
  tableKey : String
  columnName : String
  operator : String := "="
  parameterName : String
deriving Repr, DecidableEq

/-- An entry of the order. -/
structure SortKey where
  tableKey : String
  columnName : String
  direction : String := "ASC"
deriving Repr, DecidableEq

/-- What a caller asks for. The first table is the anchor, from which the others are joined. -/
structure Description where
  tables : List String := []
  fields : List Field := []
  relations : List String := []
  filters : List Filter := []
  sorts : List SortKey := []
  useDistinct : Bool := false
deriving Repr, DecidableEq

/-- An operator's words in upper case, one blank between them. No word at all means equality. -/
def normalOperator (operator : String) : String :=
  match words operator.toList with
  | [] => "="
  | ws => String.ofList (upperChars ([' '].intercalate ws))

/-- A parameter's name without blanks around it and one leading at sign. -/
def normalParameterName (name : String) : String :=
  match (trim name).toList with
  | '@' :: cs => String.ofList cs
  | cs => String.ofList cs

/-- A direction in upper case. No text at all means ascending. -/
def normalDirection (direction : String) : String :=
  upper (trim (if direction.isEmpty then "ASC" else direction))

/-- The alias, if it is a plain name once trimmed. -/
def safeAlias? (alias? : Option String) : Option String :=
  match alias? with
  | some text => if isSafeIdentifier (trim text) then some (trim text) else none
  | none => none

/-- The name of an aggregate in upper case. A blank text means none. -/
def aggregateName? (aggregate? : Option String) : Option String :=
  match aggregate? with
  | some text => if isBlankText text then none else some (upper (trim text))
  | none => none

/-- A field with its texts in normal form. -/
def Field.normalize (field : Field) : Field where
  tableKey := trim field.tableKey
  columnName := trim field.columnName
  alias? := safeAlias? field.alias?
  aggregate? := aggregateName? field.aggregate?

/-- A filter with its texts in normal form. -/
def Filter.normalize (filter : Filter) : Filter where
  tableKey := trim filter.tableKey
  columnName := trim filter.columnName
  operator := normalOperator filter.operator
  parameterName := normalParameterName filter.parameterName

/-- A sort with its texts in normal form. -/
def SortKey.normalize (sort : SortKey) : SortKey where
  tableKey := trim sort.tableKey
  columnName := trim sort.columnName
  direction := normalDirection sort.direction

/-- The normal form of a description: trimmed keys, canonical operators, plain aliases only and no
blank relation. -/
def Description.normalize (description : Description) : Description where
  tables := description.tables.map trim
  fields := description.fields.map Field.normalize
  relations := (description.relations.filter fun id => !isBlankText id).map trim
  filters := description.filters.map Filter.normalize
  sorts := description.sorts.map SortKey.normalize
  useDistinct := description.useDistinct

end ReportQuery.Query
