import ReportQuery.Options
import ReportQuery.Schema.Catalog
import ReportQuery.Schema.Snapshot
import ReportQuery.Text.Order

set_option autoImplicit false
set_option relaxedAutoImplicit false

/-!
The snapshot of a catalog: its visible tables and the relations between them, each in order without
regard to case.
-/

namespace ReportQuery.Schema

open Text (lower upper upperChars isLowercaseText distinct distinctBy sortBy)

/-- The name, if it is there and not empty. -/
def named? (name? : Option String) : Option String :=
  name?.filter (· != "")

/-- Splits at runs of underscores; `current` is the word read so far, last character first. -/
private def underscoreWords (current : List Char) : List Char → List (List Char)
  | [] => if current.isEmpty then [] else [current.reverse]
  | c :: cs =>
    if c = '_' then
      if current.isEmpty then underscoreWords [] cs
      else current.reverse :: underscoreWords [] cs
    else underscoreWords (c :: current) cs

/-- A word with its first character in upper case. -/
def capitalize : List Char → List Char
  | [] => []
  | c :: cs => upperChars [c] ++ cs

/-- The name that a table is shown with: the words between underscores, capitalized. A name that
has no underscore and is not all in lower case is kept. -/
def displayName (table : String) : String :=
  let cs := table.toList
  if !cs.contains '_' && !isLowercaseText cs then table
  else
    match underscoreWords [] cs with
    | [] => table
    | ws => String.ofList ([' '].intercalate (ws.map capitalize))

/-- The text of a column's type. -/
def CatalogType.text : CatalogType → String
  | unknown => ""
  | printed text => text
  | unprintable kind => upper kind

/-- The column, if it has a name. -/
def CatalogColumn.column? (column : CatalogColumn) : Option Column :=
  (named? column.name?).map fun name => ⟨name, column.type.text, column.isNullable⟩

/-- A table's columns that have a name, in order. -/
def CatalogTable.visibleColumns (table : CatalogTable) : List Column :=
  sortBy (fun column => lower column.name) (table.columns.filterMap CatalogColumn.column?)

/-- The schemas that are not hidden. Where the catalog lists none, its default schema counts. -/
def Catalog.visibleSchemas (catalog : Catalog) (options : Options) : List String :=
  let names :=
    if catalog.schemas.isEmpty then [catalog.default?] else catalog.schemas
  (names.filterMap named?).filter fun schema => !options.isHiddenSchema schema

/-- A table as listed, with its foreign keys. -/
structure ListedTable where
  table : Table
  foreignKeys : List ForeignKey
deriving Repr, DecidableEq

/-- The table of a schema, if it has a name and is not hidden. -/
def CatalogTable.listed? (table : CatalogTable) (options : Options) (schema : String) :
    Option ListedTable :=
  if table.schema? = some schema then
    match named? table.name? with
    | none => none
    | some name =>
      if options.isHiddenTable name then none
      else
        some ⟨⟨tableKey schema name, schema, name, displayName name, table.visibleColumns⟩,
          table.foreignKeys⟩
  else none

/-- The visible tables, schema by schema. -/
def Catalog.listedTables (catalog : Catalog) (options : Options) : List ListedTable :=
  (catalog.visibleSchemas options).flatMap fun schema =>
    catalog.tables.filterMap fun table => table.listed? options schema

/-- The tables in order. Of tables with the same key the last one counts. -/
def tablesInOrder (listed : List ListedTable) : List Table :=
  sortBy (fun table => lower table.key)
    (distinctBy (fun table => lower table.key) (listed.map ListedTable.table).reverse)

/-- The table with the given key. -/
def tableWithKey? (tables : List Table) (key : String) : Option Table :=
  tables.find? fun table => lower table.key = lower key

/-- The pairs of columns of a foreign key that are named on both sides. -/
def ForeignKey.pairs (foreignKey : ForeignKey) : List ColumnPair :=
  (foreignKey.constrained.zip foreignKey.referred).filterMap fun (fromName?, toName?) =>
    match named? fromName?, named? toName? with
    | some fromColumn, some toColumn => some ⟨fromColumn, toColumn⟩
    | _, _ => none

/-- Whether a table has a column of the name that must not be null. -/
def Table.requires (table : Table) (name : String) : Bool :=
  match table.column? name with
  | some column => !column.isNullable
  | none => false

/-- The relation for a foreign key of a table. There is none without a visible table to refer to or
without a pair of columns. -/
def ForeignKey.relation? (foreignKey : ForeignKey) (tables : List Table) (dependent : Table) :
    Option Relation :=
  match named? foreignKey.table? with
  | none => none
  | some name =>
    let schema := (named? foreignKey.schema?).getD dependent.schema
    match tableWithKey? tables (tableKey schema name) with
    | none => none
    | some principal =>
      let pairs := foreignKey.pairs
      let columns := pairs.map ColumnPair.fromColumn
      if pairs.isEmpty then none
      else
        some ⟨relationId dependent.key principal.key columns, dependent.key, principal.key,
          if columns.all dependent.requires then .inner else .left, pairs⟩

/-- The relations of listed tables in order. Of relations with the same id the first one counts. -/
def relationsInOrder (tables : List Table) (listed : List ListedTable) : List Relation :=
  let relations := listed.flatMap fun entry =>
    match tableWithKey? tables entry.table.key with
    | none => []
    | some dependent => entry.foreignKeys.filterMap fun key => key.relation? tables dependent
  sortBy (fun relation => lower relation.id)
    (distinctBy (fun relation => lower relation.id) relations)

/-- The keys of tables by schema. Tables keep their order, schemas are put in order. -/
def groupBySchema (tables : List Table) : List SchemaGroup :=
  sortBy (fun group => lower group.name)
    ((distinct (tables.map Table.schema)).map fun name =>
      ⟨name, (tables.filter fun table => table.schema = name).map Table.key⟩)

/-- The snapshot of a catalog. -/
def introspect (catalog : Catalog) (options : Options) : Snapshot :=
  let listed := catalog.listedTables options
  let tables := tablesInOrder listed
  ⟨groupBySchema tables, tables, relationsInOrder tables listed⟩

end ReportQuery.Schema
