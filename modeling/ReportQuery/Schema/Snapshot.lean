import ReportQuery.Text.Case

set_option autoImplicit false
set_option relaxedAutoImplicit false

/-!
The schema that queries are built on: tables with their columns, and relations between tables.
Tables and relations are found by key and id without regard to case.
-/

namespace ReportQuery.Schema

open Text (lower)

/-- A column of a table. -/
structure Column where
  name : String
  dataType : String := ""
  isNullable : Bool := true
deriving Repr, DecidableEq

/-- A table. Its key is its schema and its name, joined by a dot. -/
structure Table where
  key : String
  schema : String
  name : String
  displayName : String := ""
  columns : List Column := []
deriving Repr, DecidableEq

/-- How a relation is joined: `inner` where the foreign key is required, else `left`. -/
inductive JoinKind where
  | inner
  | left
deriving Repr, DecidableEq

/-- Columns that are equal in joined rows. -/
structure ColumnPair where
  fromColumn : String
  toColumn : String
deriving Repr, DecidableEq

/-- A relation between two tables, which are named by their keys. -/
structure Relation where
  id : String
  fromTable : String
  toTable : String
  join : JoinKind := .inner
  columns : List ColumnPair := []
deriving Repr, DecidableEq

/-- The keys of the tables of one schema. -/
structure SchemaGroup where
  name : String
  tableKeys : List String := []
deriving Repr, DecidableEq

/-- The schema at one moment. -/
structure Snapshot where
  schemas : List SchemaGroup := []
  tables : List Table := []
  relations : List Relation := []
deriving Repr, DecidableEq

/-- The key of a table. -/
def tableKey (schema table : String) : String :=
  schema ++ "." ++ table

/-- The id of a relation: its two table keys and its columns on the referring side. -/
def relationId (fromKey toKey : String) (fromColumns : List String) : String :=
  fromKey ++ "->" ++ toKey ++ ":" ++ ",".intercalate fromColumns

/-- A column by its name: an exact match is preferred to one that ignores case. -/
def Table.column? (table : Table) (name : String) : Option Column :=
  (table.columns.find? fun column => column.name = name).orElse fun _ =>
    table.columns.find? fun column => lower column.name = lower name

namespace Snapshot

/-- A table by its key. Of tables with the same key the last one counts. -/
def table? (snapshot : Snapshot) (key : String) : Option Table :=
  snapshot.tables.reverse.find? fun table => lower table.key = lower key

/-- A relation by its id. Of relations with the same id the last one counts. -/
def relation? (snapshot : Snapshot) (id : String) : Option Relation :=
  snapshot.relations.reverse.find? fun relation => lower relation.id = lower id

/-- The relations that have the table on either side. -/
def relationsFor (snapshot : Snapshot) (key : String) : List Relation :=
  snapshot.relations.filter fun relation =>
    lower relation.fromTable = lower key || lower relation.toTable = lower key

/-- The names of the schemas. -/
def schemaNames (snapshot : Snapshot) : List String :=
  snapshot.schemas.map SchemaGroup.name

end Snapshot

/-- What keeps a relation from being joined. -/
inductive RelationFault where
  | noColumns (id : String)
  | unknownTable (id key : String)
deriving Repr, DecidableEq

/-- The sentence that reports a relation's fault. -/
def RelationFault.message : RelationFault → String
  | noColumns id => "Relation '" ++ id ++ "' has no column pairs"
  | unknownTable id key => "Relation '" ++ id ++ "' references unknown table '" ++ key ++ "'"

/-- The first fault of a relation among tables of the given keys, which are in lower case. -/
def Relation.fault? (known : List String) (relation : Relation) : Option RelationFault :=
  if relation.columns.isEmpty then some (.noColumns relation.id)
  else
    ([relation.fromTable, relation.toTable].find? fun key => !known.contains (lower key)).map
      fun key => .unknownTable relation.id key

/-- The first fault of a snapshot's relations. -/
def Snapshot.fault? (snapshot : Snapshot) : Option RelationFault :=
  snapshot.relations.findSome? (Relation.fault? (snapshot.tables.map fun table => lower table.key))

/-- Every relation joins tables of the snapshot by at least one pair of columns. -/
def Snapshot.IsValid (snapshot : Snapshot) : Prop :=
  snapshot.fault? = none

instance (snapshot : Snapshot) : Decidable snapshot.IsValid :=
  inferInstanceAs (Decidable (snapshot.fault? = none))

end ReportQuery.Schema
