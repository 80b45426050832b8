import ReportQuery.Proofs.Query.Aliases
import ReportQuery.Proofs.Schema.Listing
import ReportQuery.Proofs.Text.Blank

set_option autoImplicit false
set_option relaxedAutoImplicit false

/-!
What the metadata lists can be asked for in its own words. A description trims the keys, names and ids
that it is given, so that a column is found under its table's key and its own name exactly if neither
has a blank at its ends.
-/

namespace ReportQuery.Query

open Schema (Snapshot Catalog CatalogTable Table Column Relation introspect tableKey relationId
  isShown_of_mem_listedTables exists_of_mem_tablesInOrder joins_of_mem_relationsInOrder
  tableWithKey?_eq_some_iff table?_introspect relation?_introspect_eq_some_iff name_ne_of_mem_columns
  id_of_mem_relations listed?_eq_some_iff)
open Text (lower trim quoteIdentifier isBlankText IsTrimmed distinctBy sortBy_eq_self isTrimmed_trim
  trim_eq_self lower_trim_eq_lower_iff isBlankText_iff)

/-- The description that asks for a column, by the key of its table and its name. -/
def columnQuery (table : Table) (column : Column) : Description where
  tables := [table.key]
  fields := [⟨table.key, column.name, none, none⟩]

/-- The statement that selects a column from its table. -/
def columnAnswer (table : Table) (column : Column) : Compiled where
  statement := {
    isDistinct := false
    selection := .items [⟨⟨0, column.name⟩, none, none⟩]
    anchor := ⟨table.schema, table.name, 0⟩
    joins := []
    conditions := []
    grouping := []
    order := []
  }
  parameterNames := []

/-- The description that asks for the two tables of a relation, by their keys and the relation's id. -/
def relationQuery (relation : Relation) : Description where
  tables := [relation.fromTable, relation.toTable]
  relations := [relation.id]

/-- The join of the second table of a relation to the first one. -/
def relationJoin (relation : Relation) (principal : Table) : Join :=
  ⟨relation.join, ⟨principal.schema, principal.name, 1⟩,
    relation.columns.map fun pair => ⟨⟨0, pair.fromColumn⟩, ⟨1, pair.toColumn⟩⟩⟩

/-- The statement that joins the two tables of a relation. -/
def relationAnswer (relation : Relation) (dependent principal : Table) : Compiled where
  statement := {
    isDistinct := false
    selection := .everything 0
    anchor := ⟨dependent.schema, dependent.name, 0⟩
    joins := [relationJoin relation principal]
    conditions := []
    grouping := []
    order := []
  }
  parameterNames := []

theorem sql_columnAnswer (table : Table) (column : Column) :
    (columnAnswer table column).sql = "SELECT t0." ++ quoteIdentifier column.name ++ "\nFROM " ++
      quoteIdentifier table.schema ++ "." ++ quoteIdentifier table.name ++ " t0" := by
  have first : aliasText 0 = "t0" := by decide
  have rendered : (columnAnswer table column).sql = "SELECT " ++ ("t0." ++
      (quoteIdentifier column.name ++ ("\n" ++ ("FROM " ++ (quoteIdentifier table.schema ++
        ("." ++ (quoteIdentifier table.name ++ " t0"))))))) := by
    simp [columnAnswer, Compiled.sql, Statement.render, Statement.lines, clause, Selection.render,
      SelectItem.render, ColumnRef.render, TableRef.render, first, String.append_assoc]
  have select : "SELECT t0." = "SELECT " ++ "t0." := rfl
  have from_ : "\nFROM " = "\n" ++ "FROM " := rfl
  rw [rendered, select, from_]
  simp only [String.append_assoc]

section Columns

variable {snapshot : Snapshot} {table : Table} {column : Column} {name : String}

/-- A column that is found by a name has that name, up to case. -/
theorem lower_name_of_column? (found : table.column? name = some column) :
    lower column.name = lower name := by
  unfold Table.column? at found
  cases exact : table.columns.find? fun column => column.name = name with
  | some other =>
    rw [exact, Option.orElse_some] at found
    have spelled : other.name = name := by simpa using List.find?_some exact
    rw [← Option.some.inj found, spelled]
  | none =>
    rw [exact, Option.orElse_none] at found
    simpa using List.find?_some found

/-- Under the name of a column, in that spelling, a column of the same name is found. -/
theorem column?_of_mem (member : column ∈ table.columns) :
    ∃ other, table.column? column.name = some other ∧ other.name = column.name := by
  have here : (table.columns.find? fun other => other.name = column.name).isSome :=
    List.find?_isSome.mpr ⟨column, member, by simp⟩
  obtain ⟨other, found⟩ := Option.isSome_iff_exists.mp here
  refine ⟨other, ?_, by simpa using List.find?_some found⟩
  rw [Table.column?, found, Option.orElse_some]

/-- The only selected table is known by its key, and the column by its name, as both are found. -/
theorem resolveColumn_singleton {key : String} (same : lower table.key = lower (trim key))
    (nonempty : trim name ≠ "") (found : table.column? (trim name) = some column) (usage : Usage) :
    resolveColumn [table] usage key name = .ok ⟨0, column.name⟩ := by
  simp [resolveColumn, selected?, same, nonempty, found]

theorem resolveColumn_singleton_eq_ok {key : String} {usage : Usage} {ref : ColumnRef}
    (resolved : resolveColumn [table] usage key name = .ok ref) :
    ∃ column, table.column? (trim name) = some column ∧ ref = ⟨0, column.name⟩ := by
  unfold resolveColumn at resolved
  split at resolved
  · cases resolved
  · rename_i other number chosen
    obtain ⟨rfl, rfl⟩ : other = table ∧ number = 0 := by
      simpa [selected?] using List.mem_of_find?_eq_some chosen
    dsimp only at resolved
    split at resolved
    · rename_i column found
      refine ⟨column, ?_, (Except.ok.inj resolved).symm⟩
      split at found
      · cases found
      · exact found
    · cases resolved

/-- What is selected for a single plain field is a column that is found by the field's name. -/
theorem column?_of_compileSelection {field : Field} {item : SelectItem}
    (compiled : compileSelection [table] [field] = .ok (.items [item])) :
    ∃ column, table.column? (trim field.columnName) = some column ∧
      column.name = item.source.column := by
  obtain ⟨none, -⟩ | ⟨-, entries, read, same⟩ := compileSelection_cases compiled
  · cases none
  · obtain rfl := Selection.items.inj same
    obtain ⟨here, -⟩ := List.forall₂_cons.mp (mapM_eq_ok_iff.mp read)
    obtain ⟨source, resolved, here⟩ := bind_eq_ok.mp here
    obtain ⟨aggregate?, -, here⟩ := bind_eq_ok.mp here
    obtain rfl := Except.ok.inj here
    obtain ⟨column, found, rfl⟩ := resolveColumn_singleton_eq_ok resolved
    exact ⟨column, found, rfl⟩

theorem resolveTables_singleton {key : String} (nonempty : trim key ≠ "")
    (found : snapshot.table? (trim key) = some table) : resolveTables snapshot [key] = .ok [table] := by
  simp [resolveTables, nonempty, found, distinctBy, Text.addNewBy]

theorem eq_nil_of_resolveTables_singleton {key : String} {others : List Table}
    (resolved : resolveTables snapshot [key] = .ok (table :: others)) :
    others = [] ∧ snapshot.table? (trim key) = some table := by
  have selected := eq_selectedTables resolved
  cases found : snapshot.table? (trim key) with
  | none => simp [selectedTables, found, distinctBy] at selected
  | some other =>
    simpa [selectedTables, found, distinctBy, Text.addNewBy, and_comm, eq_comm] using selected

theorem tableKey_ne_empty (schema name : String) : tableKey schema name ≠ "" := by
  intro empty
  simpa [tableKey] using congrArg String.toList empty

theorem parameterNames_nil : parameterNames [] = [] := by
  simp [parameterNames, Text.sortBy, distinctBy]

theorem run_nil (snapshot : Snapshot) (state : Joining) : state.run snapshot [] = .ok (state, []) := by
  rw [Joining.run]
  rfl

theorem compileJoins_nil (snapshot : Snapshot) (anchor : Table) :
    compileJoins snapshot anchor [anchor] [] = .ok [] := by
  refine compileJoins_eq_ok_iff.mpr ⟨[], .start anchor [anchor], rfl, run_nil _ _, ?_, rfl⟩
  simp [Joining.hasJoined, Joining.start]

/-- A column can be asked for in its own words exactly if these are trimmed already. -/
theorem compile_columnQuery_iff
    (keys : ∀ table ∈ snapshot.tables, table.key = tableKey table.schema table.name)
    (found : IsFound snapshot table) (member : column ∈ table.columns) (named : column.name ≠ "") :
    compile snapshot (columnQuery table column) = .ok (columnAnswer table column) ↔
      IsTrimmed table.key.toList ∧ IsTrimmed column.name.toList := by
  have listed : table ∈ snapshot.tables := mem_tables_of_table? found
  constructor
  · intro done
    obtain ⟨anchor, others, parts⟩ := compiledFrom_of_compile done
    obtain ⟨rfl, foundAnchor⟩ := eq_nil_of_resolveTables_singleton parts.tables
    -- the table that is found has the schema and the name of the one that is asked for
    have spelled : TableRef.mk table.schema table.name 0 = ⟨anchor.schema, anchor.name, 0⟩ :=
      parts.anchor
    obtain ⟨schema, name, -⟩ := TableRef.mk.inj spelled
    have sameKey : anchor.key = table.key := by
      rw [keys table listed, keys anchor (mem_tables_of_table? foundAnchor), schema, name]
    have trimmedKey : IsTrimmed table.key.toList := by
      rw [← lower_trim_eq_lower_iff, ← lower_key_of_table? foundAnchor, sameKey]
    refine ⟨trimmedKey, ?_⟩
    obtain ⟨other, foundColumn, same⟩ := column?_of_compileSelection parts.selection
    rw [← lower_trim_eq_lower_iff, ← lower_name_of_column? foundColumn, same]
  · rintro ⟨trimmedKey, trimmedName⟩
    have key := trim_eq_self trimmedKey
    have name := trim_eq_self trimmedName
    have keyed : table.key ≠ "" := by
      rw [keys table listed]
      exact tableKey_ne_empty _ _
    obtain ⟨other, foundColumn, same⟩ := column?_of_mem member
    have tables : resolveTables snapshot [table.key] = .ok [table] :=
      resolveTables_singleton (by rw [key]; exact keyed) (by rw [key]; exact found)
    have source : resolveColumn [table] .field table.key column.name = .ok ⟨0, other.name⟩ :=
      resolveColumn_singleton (by rw [key]) (by rw [name]; exact named)
        (by rw [name]; exact foundColumn) _
    simp [compile, columnQuery, columnAnswer, tables, compileSelection, compileField, source,
      compileJoins_nil, same, resolveAggregate, safeAlias?, Selection.grouping, parameterNames_nil,
      bind, Except.bind, pure, Except.pure]

end Columns

section Relations

variable {snapshot : Snapshot} {state next : Joining} {relation : Relation}
  {dependent principal : Table}

/-- A run over one relation that can be applied applies it. -/
theorem run_singleton (half : state.hasJoined relation.fromTable ≠ state.hasJoined relation.toTable)
    (step : state.apply snapshot relation (state.hasJoined relation.fromTable) = .ok next) :
    state.run snapshot [relation] = .ok (next, []) := by
  have passed : state.pass snapshot [relation] = .ok (next, []) := by
    simp [Joining.pass, half, step, bind, Except.bind]
  rw [Joining.run, passed]
  exact run_nil snapshot next

theorem resolveTables_pair {fromKey toKey : String} (fromNonempty : trim fromKey ≠ "")
    (toNonempty : trim toKey ≠ "") (fromFound : snapshot.table? (trim fromKey) = some dependent)
    (toFound : snapshot.table? (trim toKey) = some principal)
    (apart : lower dependent.key ≠ lower principal.key) :
    resolveTables snapshot [fromKey, toKey] = .ok [dependent, principal] := by
  simp [resolveTables, fromNonempty, toNonempty, fromFound, toFound, distinctBy, Text.addNewBy]
  exact congrArg Except.ok (if_neg apart)

theorem resolveRelations_singleton {id : String} (nonblank : isBlankText id = false)
    (found : snapshot.relation? (trim id) = some relation) :
    resolveRelations snapshot [id] = .ok [relation] := by
  simp [resolveRelations, nonblank, found, distinctBy, Text.addNewBy]

/-- From the first table of a relation the second one is joined by the pairs of columns. -/
theorem compileJoins_relation {id : String} (nonblank : isBlankText id = false)
    (found : snapshot.relation? (trim id) = some relation)
    (fromFound : snapshot.table? relation.fromTable = some dependent)
    (toFound : snapshot.table? relation.toTable = some principal)
    (apart : lower dependent.key ≠ lower principal.key) :
    compileJoins snapshot dependent [dependent, principal] [id] =
      .ok [relationJoin relation principal] := by
  have fromKey := lower_key_of_table? fromFound
  have toKey := lower_key_of_table? toFound
  have fromJoined :
      (Joining.start dependent [dependent, principal]).hasJoined relation.fromTable = true := by
    simp [Joining.hasJoined, Joining.start, fromKey]
  have toLeft :
      (Joining.start dependent [dependent, principal]).hasJoined relation.toTable = false := by
    simp [Joining.hasJoined, Joining.start, ← toKey, apart.symm]
  have step : (Joining.start dependent [dependent, principal]).apply snapshot relation true =
      .ok ⟨[lower dependent.key, lower principal.key], [lower dependent.key, lower principal.key],
        [relationJoin relation principal]⟩ := by
    simp [Joining.apply, resolveEndpoint, fromFound, toFound, Joining.start, Joining.withAlias,
      Joining.aliasOf, Text.addNew, relationJoin, ← toKey, apart, bind, Except.bind, pure,
      Except.pure]
  have ran := run_singleton (by rw [fromJoined, toLeft]; decide) (by rw [fromJoined]; exact step)
  refine compileJoins_eq_ok_iff.mpr
    ⟨[relation], _, resolveRelations_singleton nonblank found, ran, ?_, rfl⟩
  simp [Joining.hasJoined]

/-- Two tables can be asked for with a relation between them, if none of the three is called by a text
with a blank at its ends. -/
theorem compile_relationQuery (fromFound : snapshot.table? relation.fromTable = some dependent)
    (toFound : snapshot.table? relation.toTable = some principal)
    (found : snapshot.relation? relation.id = some relation)
    (apart : lower dependent.key ≠ lower principal.key) (fromNonempty : relation.fromTable ≠ "")
    (toNonempty : relation.toTable ≠ "") (idNonempty : relation.id ≠ "")
    (fromTrimmed : IsTrimmed relation.fromTable.toList) (toTrimmed : IsTrimmed relation.toTable.toList)
    (idTrimmed : IsTrimmed relation.id.toList) :
    compile snapshot (relationQuery relation) = .ok (relationAnswer relation dependent principal) := by
  have fromKey := trim_eq_self fromTrimmed
  have toKey := trim_eq_self toTrimmed
  have id := trim_eq_self idTrimmed
  have nonblank : isBlankText relation.id = false := by
    rw [Bool.eq_false_iff, ne_eq, isBlankText_iff, id, String.toList_eq_nil_iff]
    exact idNonempty
  have tables : resolveTables snapshot [relation.fromTable, relation.toTable] =
      .ok [dependent, principal] :=
    resolveTables_pair (by rw [fromKey]; exact fromNonempty) (by rw [toKey]; exact toNonempty)
      (by rw [fromKey]; exact fromFound) (by rw [toKey]; exact toFound) apart
  have joins := compileJoins_relation nonblank (by rw [id]; exact found) fromFound toFound apart
  simp [compile, relationQuery, relationAnswer, tables, joins, compileSelection, Selection.grouping,
    parameterNames_nil, bind, Except.bind, pure, Except.pure]

end Relations

section Metadata

variable {catalog : Catalog} {options : Options} {table other : Table}

theorem isFound_of_mem_tables (member : table ∈ (introspect catalog options).tables) :
    IsFound (introspect catalog options) table := by
  rw [IsFound, table?_introspect]
  exact tableWithKey?_eq_some_iff.mpr member

theorem key_of_mem_tables (member : table ∈ (introspect catalog options).tables) :
    table.key = tableKey table.schema table.name := by
  obtain ⟨entry, listed, rfl⟩ := exists_of_mem_tablesInOrder member
  exact (isShown_of_mem_listedTables listed).key

theorem relationId_ne_empty (fromKey toKey : String) (columns : List String) :
    relationId fromKey toKey columns ≠ "" := by
  intro empty
  simpa [relationId] using congrArg String.toList empty

end Metadata

/-- A column that the metadata lists can be asked for by the key of its table and its name exactly if
neither has a blank at its ends, and then it is selected from its table. A relation between two tables
can be asked for by its id and their keys if none of them has a blank at its ends, and then the second
table is joined to the first by the pairs of columns. -/
theorem metadata_compiles (catalog : Catalog) (options : Options) :
    let snapshot := introspect catalog options
    (∀ table ∈ snapshot.tables, ∀ column ∈ table.columns,
      (compile snapshot (columnQuery table column) = .ok (columnAnswer table column) ↔
        IsTrimmed table.key.toList ∧ IsTrimmed column.name.toList) ∧
      (columnAnswer table column).sql = "SELECT t0." ++ quoteIdentifier column.name ++ "\nFROM " ++
        quoteIdentifier table.schema ++ "." ++ quoteIdentifier table.name ++ " t0") ∧
    ∀ relation ∈ snapshot.relations, relation.fromTable ≠ relation.toTable →
      IsTrimmed relation.fromTable.toList → IsTrimmed relation.toTable.toList →
      IsTrimmed relation.id.toList →
      ∃ dependent ∈ snapshot.tables, ∃ principal ∈ snapshot.tables,
        dependent.key = relation.fromTable ∧ principal.key = relation.toTable ∧
        compile snapshot (relationQuery relation) =
          .ok (relationAnswer relation dependent principal) := by
  intro snapshot
  refine ⟨fun table listed column member => ⟨?_, sql_columnAnswer table column⟩, ?_⟩
  · exact compile_columnQuery_iff (fun other among => key_of_mem_tables among)
      (isFound_of_mem_tables listed) member (name_ne_of_mem_columns listed member)
  · intro relation member apart fromTrimmed toTrimmed idTrimmed
    obtain ⟨-, ⟨dependent, fromListed, fromKey⟩, ⟨principal, toListed, toKey⟩⟩ :=
      joins_of_mem_relationsInOrder member
    have fromFound := isFound_of_mem_tables fromListed
    have toFound := isFound_of_mem_tables toListed
    have differ : lower dependent.key ≠ lower principal.key := by
      intro same
      rw [← fromKey, ← toKey, fromFound.eq toFound same] at apart
      exact apart rfl
    refine ⟨dependent, fromListed, principal, toListed, fromKey, toKey, ?_⟩
    refine compile_relationQuery (fromKey ▸ fromFound) (toKey ▸ toFound)
      (relation?_introspect_eq_some_iff.mpr member) differ ?_ ?_ ?_ fromTrimmed toTrimmed idTrimmed
    · rw [← fromKey, key_of_mem_tables fromListed]
      exact tableKey_ne_empty _ _
    · rw [← toKey, key_of_mem_tables toListed]
      exact tableKey_ne_empty _ _
    · rw [id_of_mem_relations member]
      exact relationId_ne_empty _ _ _

/-- Items with two columns, lines that refer to them by two columns, and old lines: the names of each
two differ by a blank at the end. -/
def spacedItemSource : CatalogTable :=
  ⟨some "shop", some "Item", [⟨some "Id", .printed "INTEGER", false⟩,
    ⟨some "Id ", .printed "TEXT", true⟩], []⟩

def lineSource : CatalogTable :=
  ⟨some "shop", some "Line", [⟨some "ItemId", .printed "INTEGER", false⟩,
    ⟨some "ItemId ", .printed "INTEGER", true⟩],
    [⟨none, some "Item", [some "ItemId"], [some "Id"]⟩,
      ⟨none, some "Item", [some "ItemId "], [some "Id"]⟩]⟩

def oldLineSource : CatalogTable :=
  ⟨some "shop", some "Line ", [⟨some "ItemId", .printed "INTEGER", false⟩], []⟩

def lineCatalog : Catalog where
  schemas := [some "shop"]
  tables := [oldLineSource, lineSource, spacedItemSource]

def spacedItemTable : Table :=
  ⟨"shop.Item", "shop", "Item", "Item", [⟨"Id", "INTEGER", false⟩, ⟨"Id ", "TEXT", true⟩]⟩

def lineTable : Table :=
  ⟨"shop.Line", "shop", "Line", "Line", [⟨"ItemId", "INTEGER", false⟩, ⟨"ItemId ", "INTEGER", true⟩]⟩

def oldLineTable : Table :=
  ⟨"shop.Line ", "shop", "Line ", "Line ", [⟨"ItemId", "INTEGER", false⟩]⟩

def itemOfLine : Relation :=
  ⟨"shop.Line->shop.Item:ItemId", "shop.Line", "shop.Item", .inner, [⟨"ItemId", "Id"⟩]⟩

def otherItemOfLine : Relation :=
  ⟨"shop.Line->shop.Item:ItemId ", "shop.Line", "shop.Item", .left, [⟨"ItemId ", "Id"⟩]⟩

/-- What the metadata of lines and items lists. -/
theorem introspect_lineCatalog :
    introspect lineCatalog .standard = ⟨(introspect lineCatalog .standard).schemas,
      [spacedItemTable, lineTable, oldLineTable], [itemOfLine, otherItemOfLine]⟩ := by
  have schemas : lineCatalog.visibleSchemas .standard = ["shop"] := by decide
  have columns : ∀ source ∈ lineCatalog.tables,
      source.visibleColumns = source.columns.filterMap Schema.CatalogColumn.column? := by
    refine fun source member => sortBy_eq_self ?_
    revert source
    decide
  have listed : lineCatalog.listedTables .standard =
      [⟨oldLineTable, []⟩, ⟨lineTable, lineSource.foreignKeys⟩, ⟨spacedItemTable, []⟩] := by
    have oldLine : oldLineSource.listed? .standard "shop" = some ⟨oldLineTable, []⟩ := by
      refine listed?_eq_some_iff.mpr ⟨rfl, "Line ", rfl, by decide, by decide, ?_⟩
      rw [CatalogTable.entry, columns _ (by simp [lineCatalog])]
      decide
    have line : lineSource.listed? .standard "shop" = some ⟨lineTable, lineSource.foreignKeys⟩ := by
      refine listed?_eq_some_iff.mpr ⟨rfl, "Line", rfl, by decide, by decide, ?_⟩
      rw [CatalogTable.entry, columns _ (by simp [lineCatalog])]
      decide
    have item : spacedItemSource.listed? .standard "shop" = some ⟨spacedItemTable, []⟩ := by
      refine listed?_eq_some_iff.mpr ⟨rfl, "Item", rfl, by decide, by decide, ?_⟩
      rw [CatalogTable.entry, columns _ (by simp [lineCatalog])]
      decide
    rw [Catalog.listedTables, schemas]
    simp [lineCatalog, oldLine, line, item]
  have tables : Schema.tablesInOrder [⟨oldLineTable, []⟩, ⟨lineTable, lineSource.foreignKeys⟩,
      ⟨spacedItemTable, []⟩] = [spacedItemTable, lineTable, oldLineTable] := by
    rw [Schema.tablesInOrder, sortBy_eq_self (by decide)]
    decide
  have relations : Schema.relationsInOrder [spacedItemTable, lineTable, oldLineTable]
      [⟨oldLineTable, []⟩, ⟨lineTable, lineSource.foreignKeys⟩, ⟨spacedItemTable, []⟩] =
      [itemOfLine, otherItemOfLine] := by
    rw [Schema.relationsInOrder, sortBy_eq_self (by decide)]
    decide
  rw [introspect, listed, tables, relations]

/-- The first column of the items and the first relation of the lines can be asked for. -/
theorem lines_compile :
    compile (introspect lineCatalog .standard) (columnQuery spacedItemTable ⟨"Id", "INTEGER", false⟩) =
      .ok (columnAnswer spacedItemTable ⟨"Id", "INTEGER", false⟩) ∧
    itemOfLine.fromTable ≠ itemOfLine.toTable ∧ IsTrimmed itemOfLine.fromTable.toList ∧
    IsTrimmed itemOfLine.toTable.toList ∧ IsTrimmed itemOfLine.id.toList ∧
    ∃ dependent principal, compile (introspect lineCatalog .standard) (relationQuery itemOfLine) =
      .ok (relationAnswer itemOfLine dependent principal) := by
  have trimmed {s : String} (same : trim s = s) : IsTrimmed s.toList := same ▸ isTrimmed_trim s
  have fromTrimmed : IsTrimmed itemOfLine.fromTable.toList := trimmed (by decide)
  have toTrimmed : IsTrimmed itemOfLine.toTable.toList := trimmed (by decide)
  have idTrimmed : IsTrimmed itemOfLine.id.toList := trimmed (by decide)
  have tables : spacedItemTable ∈ (introspect lineCatalog .standard).tables := by
    rw [introspect_lineCatalog]
    exact List.mem_cons_self
  have relations : itemOfLine ∈ (introspect lineCatalog .standard).relations := by
    rw [introspect_lineCatalog]
    exact List.mem_cons_self
  obtain ⟨columns, joined⟩ := metadata_compiles lineCatalog .standard
  obtain ⟨dependent, -, principal, -, -, -, done⟩ :=
    joined itemOfLine relations (by decide) fromTrimmed toTrimmed idTrimmed
  refine ⟨?_, by decide, fromTrimmed, toTrimmed, idTrimmed, dependent, principal, done⟩
  exact (columns spacedItemTable tables _ List.mem_cons_self).1.mpr
    ⟨trimmed (by decide), trimmed (by decide)⟩

/-- Asking for the second column of the items selects the first one, asking for the old lines selects
from the lines, and asking for the second relation joins by the first one. -/
theorem spaced_names_displaced :
    let snapshot := introspect lineCatalog .standard
    (spacedItemTable ∈ snapshot.tables ∧ ⟨"Id ", "TEXT", true⟩ ∈ spacedItemTable.columns ∧
      compile snapshot (columnQuery spacedItemTable ⟨"Id ", "TEXT", true⟩) =
        .ok (columnAnswer spacedItemTable ⟨"Id", "INTEGER", false⟩) ∧
      columnAnswer spacedItemTable ⟨"Id", "INTEGER", false⟩ ≠
        columnAnswer spacedItemTable ⟨"Id ", "TEXT", true⟩) ∧
    (oldLineTable ∈ snapshot.tables ∧ ⟨"ItemId", "INTEGER", false⟩ ∈ oldLineTable.columns ∧
      compile snapshot (columnQuery oldLineTable ⟨"ItemId", "INTEGER", false⟩) =
        .ok (columnAnswer lineTable ⟨"ItemId", "INTEGER", false⟩) ∧
      columnAnswer lineTable ⟨"ItemId", "INTEGER", false⟩ ≠
        columnAnswer oldLineTable ⟨"ItemId", "INTEGER", false⟩) ∧
    (otherItemOfLine ∈ snapshot.relations ∧
      compile snapshot (relationQuery otherItemOfLine) =
        .ok (relationAnswer itemOfLine lineTable spacedItemTable) ∧
      relationAnswer itemOfLine lineTable spacedItemTable ≠
        relationAnswer otherItemOfLine lineTable spacedItemTable) := by
  intro snapshot
  have listed : snapshot = ⟨snapshot.schemas, [spacedItemTable, lineTable, oldLineTable],
    [itemOfLine, otherItemOfLine]⟩ := introspect_lineCatalog
  rw [listed]
  refine ⟨⟨by simp, by simp [spacedItemTable], ?_, by decide⟩,
    ⟨by simp, by simp [oldLineTable], ?_, by decide⟩, by simp, ?_, by decide⟩
  · decide +kernel
  · decide +kernel
  · decide +kernel

end ReportQuery.Query
