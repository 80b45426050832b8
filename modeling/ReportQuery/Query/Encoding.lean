import ReportQuery.Query.Description
import ReportQuery.Shape.Check

set_option autoImplicit false
set_option relaxedAutoImplicit false

/-!
Query descriptions as JSON values, and the checks of values that should be descriptions.
-/

namespace ReportQuery.Query

open Shape (Checked record required optional list nullable text flag)

def Field.toJson (field : Field) : Json :=
  .object [("tableKey", .text field.tableKey), ("columnName", .text field.columnName),
    ("alias", Json.ofText? field.alias?), ("aggregate", Json.ofText? field.aggregate?)]

def Field.ofJson : Json → Checked Field :=
  record "FieldSelection" fun fields =>
    Field.mk <$> required fields ⟨"tableKey", "table_key"⟩ text
      <*> required fields ⟨"columnName", "column_name"⟩ text
      <*> optional fields ⟨"alias", "alias"⟩ none (nullable text)
      <*> optional fields ⟨"aggregate", "aggregate"⟩ none (nullable text)

def Filter.toJson (filter : Filter) : Json :=
  .object [("tableKey", .text filter.tableKey), ("columnName", .text filter.columnName),
    ("operator", .text filter.operator), ("parameterName", .text filter.parameterName)]

def Filter.ofJson : Json → Checked Filter :=
  record "QueryFilter" fun fields =>
    Filter.mk <$> required fields ⟨"tableKey", "table_key"⟩ text
      <*> required fields ⟨"columnName", "column_name"⟩ text
      <*> optional fields ⟨"operator", "operator"⟩ "=" text
      <*> required fields ⟨"parameterName", "parameter_name"⟩ text

def SortKey.toJson (sort : SortKey) : Json :=
  .object [("tableKey", .text sort.tableKey), ("columnName", .text sort.columnName),
    ("direction", .text sort.direction)]

def SortKey.ofJson : Json → Checked SortKey :=
  record "SortSelection" fun fields =>
    SortKey.mk <$> required fields ⟨"tableKey", "table_key"⟩ text
      <*> required fields ⟨"columnName", "column_name"⟩ text
      <*> optional fields ⟨"direction", "direction"⟩ "ASC" text

def Description.toJson (description : Description) : Json :=
  .object [("tables", Json.texts description.tables),
    ("fields", .array (description.fields.map (·.toJson))),
    ("relations", Json.texts description.relations),
    ("filters", .array (description.filters.map (·.toJson))),
    ("sorts", .array (description.sorts.map (·.toJson))),
    ("useDistinct", .bool description.useDistinct)]

def Description.ofJson : Json → Checked Description :=
  record "QueryDescription" fun fields =>
    Description.mk <$> optional fields ⟨"tables", "tables"⟩ [] (list text)
      <*> optional fields ⟨"fields", "fields"⟩ [] (list Field.ofJson)
      <*> optional fields ⟨"relations", "relations"⟩ [] (list text)
      <*> optional fields ⟨"filters", "filters"⟩ [] (list Filter.ofJson)
      <*> optional fields ⟨"sorts", "sorts"⟩ [] (list SortKey.ofJson)
      <*> optional fields ⟨"useDistinct", "use_distinct"⟩ false flag

end ReportQuery.Query
