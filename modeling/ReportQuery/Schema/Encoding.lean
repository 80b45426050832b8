import ReportQuery.Schema.Snapshot
import ReportQuery.Shape.Check

set_option autoImplicit false
set_option relaxedAutoImplicit false

/-!
Snapshots as JSON values, and the checks of values that should be snapshots.
-/

namespace ReportQuery.Schema

open Shape (Checked record required optional list text flag)

/-- The word for a join kind. -/
def JoinKind.name : JoinKind → String
  | inner => "Inner"
  | left => "Left"

/-- All join kinds. -/
def JoinKind.all : List JoinKind := [.inner, .left]

/-- Checks a join kind. -/
def JoinKind.ofJson : Json → Checked JoinKind
  | .text s =>
    match all.find? fun kind => kind.name = s with
    | some kind => .valid kind
    | none => .fail .notJoinKind
  | _ => .fail .notJoinKind

def Column.toJson (column : Column) : Json :=
  .object [("name", .text column.name), ("dataType", .text column.dataType),
    ("isNullable", .bool column.isNullable)]

def Column.ofJson : Json → Checked Column :=
  record "ColumnInfo" fun fields =>
    Column.mk <$> required fields ⟨"name", "name"⟩ text
      <*> optional fields ⟨"dataType", "data_type"⟩ "" text
      <*> optional fields ⟨"isNullable", "is_nullable"⟩ true flag

def Table.toJson (table : Table) : Json :=
  .object [("key", .text table.key), ("schema", .text table.schema), ("table", .text table.name),
    ("displayName", .text table.displayName), ("columns", .array (table.columns.map (·.toJson)))]

def Table.ofJson : Json → Checked Table :=
  record "TableInfo" fun fields =>
    Table.mk <$> required fields ⟨"key", "key"⟩ text
      <*> required fields ⟨"schema", "schema_name"⟩ text
      <*> required fields ⟨"table", "table"⟩ text
      <*> optional fields ⟨"displayName", "display_name"⟩ "" text
      <*> optional fields ⟨"columns", "columns"⟩ [] (list Column.ofJson)

def ColumnPair.toJson (pair : ColumnPair) : Json :=
  .object [("fromColumn", .text pair.fromColumn), ("toColumn", .text pair.toColumn)]

def ColumnPair.ofJson : Json → Checked ColumnPair :=
  record "ColumnPair" fun fields =>
    ColumnPair.mk <$> required fields ⟨"fromColumn", "from_column"⟩ text
      <*> required fields ⟨"toColumn", "to_column"⟩ text

def Relation.toJson (relation : Relation) : Json :=
  .object [("id", .text relation.id), ("fromTableKey", .text relation.fromTable),
    ("toTableKey", .text relation.toTable), ("joinType", .text relation.join.name),
    ("columns", .array (relation.columns.map (·.toJson)))]

def Relation.ofJson : Json → Checked Relation :=
  record "RelationInfo" fun fields =>
    Relation.mk <$> required fields ⟨"id", "id"⟩ text
      <*> required fields ⟨"fromTableKey", "from_table_key"⟩ text
      <*> required fields ⟨"toTableKey", "to_table_key"⟩ text
      <*> optional fields ⟨"joinType", "join_type"⟩ .inner JoinKind.ofJson
      <*> optional fields ⟨"columns", "columns"⟩ [] (list ColumnPair.ofJson)

def SchemaGroup.toJson (group : SchemaGroup) : Json :=
  .object [("name", .text group.name), ("tableKeys", Json.texts group.tableKeys)]

def SchemaGroup.ofJson : Json → Checked SchemaGroup :=
  record "SchemaInfo" fun fields =>
    SchemaGroup.mk <$> required fields ⟨"name", "name"⟩ text
      <*> optional fields ⟨"tableKeys", "table_keys"⟩ [] (list text)

def Snapshot.toJson (snapshot : Snapshot) : Json :=
  .object [("schemas", .array (snapshot.schemas.map (·.toJson))),
    ("tables", .array (snapshot.tables.map (·.toJson))),
    ("relations", .array (snapshot.relations.map (·.toJson)))]

/-- Checks a snapshot and its relations. -/
def Snapshot.ofJson : Json → Checked Snapshot :=
  record "SchemaSnapshot" fun fields =>
    (Snapshot.mk <$> optional fields ⟨"schemas", "schemas"⟩ [] (list SchemaGroup.ofJson)
      <*> optional fields ⟨"tables", "tables"⟩ [] (list Table.ofJson)
      <*> optional fields ⟨"relations", "relations"⟩ [] (list Relation.ofJson)).andThen
    fun snapshot =>
      match snapshot.fault? with
      | some fault => .fail (.inconsistent fault.message)
      | none => .valid snapshot

end ReportQuery.Schema
