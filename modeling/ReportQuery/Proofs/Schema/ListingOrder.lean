import Mathlib.Data.List.Perm.Basic
import ReportQuery.Proofs.Schema.Listing

set_option autoImplicit false
set_option relaxedAutoImplicit false

/-!
The order in which a catalog lists its schemas, tables, columns and foreign keys. Where names tell
these things apart, case ignored, the snapshot does not show it: every list of a snapshot is sorted,
and what it consists of depends on what the catalog holds alone.
-/

namespace ReportQuery.Schema

open Text (lower sortBy_eq_of_perm sortBy_distinctBy_eq exists_of_mem_forall₂)

/-- Tables that differ at most in the order of their columns and foreign keys. -/
structure CatalogTable.Reordered (source other : CatalogTable) : Prop where
  schema : other.schema? = source.schema?
  name : other.name? = source.name?
  columns : source.columns.Perm other.columns
  foreignKeys : source.foreignKeys.Perm other.foreignKeys

/-- Catalogs that differ at most in the order in which they list schemas, tables, and the columns and
foreign keys of a table. -/
structure Catalog.Reordered (catalog other : Catalog) : Prop where
  schemas : catalog.schemas.Perm other.schemas
  default : other.default? = catalog.default?
  tables : ∃ tables, catalog.tables.Perm tables ∧
    List.Forall₂ CatalogTable.Reordered tables other.tables

/-- Names tell apart, case ignored, what a snapshot is made of: the visible tables, their columns and
the relations that their foreign keys give. -/
structure Catalog.TellsApart (catalog : Catalog) (options : Options) : Prop where
  tables {source other : CatalogTable} {schema name schema' name' : String} :
    CatalogTable.IsVisible catalog options schema name source →
    CatalogTable.IsVisible catalog options schema' name' other →
    lower (tableKey schema name) = lower (tableKey schema' name') → source = other
  columns {source : CatalogTable} {schema name : String} :
    CatalogTable.IsVisible catalog options schema name source →
    ∀ a ∈ source.columns.filterMap CatalogColumn.column?,
    ∀ b ∈ source.columns.filterMap CatalogColumn.column?, lower a.name = lower b.name → a = b
  relations :
    ∀ a ∈ givenRelations (introspect catalog options).tables (catalog.listedTables options),
    ∀ b ∈ givenRelations (introspect catalog options).tables (catalog.listedTables options),
    lower a.id = lower b.id → a = b

variable {catalog other : Catalog} {options : Options} {source source' : CatalogTable}
  {schema name : String}

section Catalogs

theorem CatalogTable.Reordered.symm (same : source.Reordered source') :
    source'.Reordered source :=
  ⟨same.schema.symm, same.name.symm, same.columns.symm, same.foreignKeys.symm⟩

theorem Catalog.Reordered.symm (same : catalog.Reordered other) : other.Reordered catalog := by
  obtain ⟨tables, perm, each⟩ := same.tables
  obtain ⟨tables', each', perm'⟩ := List.perm_comp_forall₂ perm each
  exact ⟨same.schemas.symm, same.default.symm, tables', perm'.symm,
    (each'.imp fun _ _ here => here.symm).flip⟩

/-- A visible table stays visible under its name. -/
theorem CatalogTable.IsVisible.exists_reordered
    (visible : CatalogTable.IsVisible catalog options schema name source)
    (reordered : catalog.Reordered other) :
    ∃ source', CatalogTable.IsVisible other options schema name source' ∧
      source.Reordered source' := by
  obtain ⟨tables, perm, each⟩ := reordered.tables
  obtain ⟨source', among, same⟩ := exists_of_mem_forall₂ each (perm.mem_iff.mp visible.member)
  refine ⟨source', ⟨among, same.schema.trans visible.schemaSpelled,
    same.name.trans visible.nameSpelled, visible.schemaNamed, visible.tableNamed, ?_,
    visible.schemaShown, visible.tableShown⟩, same⟩
  rcases visible.schemaListed with listed | ⟨none, isDefault⟩
  · exact .inl (reordered.schemas.mem_iff.mp listed)
  · refine .inr ⟨?_, reordered.default.trans isDefault⟩
    rw [← List.nil_perm, ← none]
    exact reordered.schemas

/-- A table is listed alike where its columns are told apart. -/
theorem CatalogTable.Reordered.entry_table (same : source.Reordered source')
    (apart : ∀ a ∈ source.columns.filterMap CatalogColumn.column?,
      ∀ b ∈ source.columns.filterMap CatalogColumn.column?, lower a.name = lower b.name → a = b) :
    (source'.entry schema name).table = (source.entry schema name).table := by
  have columns : source'.visibleColumns = source.visibleColumns :=
    (sortBy_eq_of_perm apart (same.columns.filterMap CatalogColumn.column?)).symm
  rw [CatalogTable.entry, CatalogTable.entry, columns]

end Catalogs

section Listings

/-- Every table of one listing is in the other one with the same foreign keys. -/
def Covers (listed listed' : List ListedTable) : Prop :=
  ∀ entry ∈ listed, ∃ entry' ∈ listed',
    entry'.table = entry.table ∧ entry.foreignKeys.Perm entry'.foreignKeys

variable {listed listed' : List ListedTable}

theorem Covers.table_mem (covers : Covers listed listed') {table : Table}
    (member : table ∈ listed.map ListedTable.table) : table ∈ listed'.map ListedTable.table := by
  obtain ⟨entry, among, rfl⟩ := List.mem_map.mp member
  obtain ⟨entry', among', same, -⟩ := covers entry among
  exact List.mem_map.mpr ⟨entry', among', same⟩

theorem Covers.relation_mem (covers : Covers listed listed') {tables : List Table}
    {relation : Relation} (member : relation ∈ givenRelations tables listed) :
    relation ∈ givenRelations tables listed' := by
  obtain ⟨entry, among, given⟩ := List.mem_flatMap.mp member
  obtain ⟨entry', among', same, keys⟩ := covers entry among
  refine List.mem_flatMap.mpr ⟨entry', among', ?_⟩
  obtain ⟨dependent, found, inside⟩ := List.mem_flatMap.mp given
  rw [← same] at found
  exact List.mem_flatMap.mpr ⟨dependent, found, (keys.filterMap _).mem_iff.mp inside⟩

theorem covers_of_reordered (reordered : catalog.Reordered other)
    (apart : catalog.TellsApart options) :
    Covers (catalog.listedTables options) (other.listedTables options) := by
  intro entry member
  obtain ⟨source, schema, name, visible, rfl⟩ := mem_listedTables_iff.mp member
  obtain ⟨source', visible', same⟩ := visible.exists_reordered reordered
  exact ⟨source'.entry schema name, mem_listedTables_iff.mpr ⟨source', schema, name, visible', rfl⟩,
    same.entry_table (apart.columns visible), same.foreignKeys⟩

theorem reordered_covers (reordered : catalog.Reordered other)
    (apart : catalog.TellsApart options) :
    Covers (other.listedTables options) (catalog.listedTables options) := by
  intro entry member
  obtain ⟨source', schema, name, visible', rfl⟩ := mem_listedTables_iff.mp member
  obtain ⟨source, visible, same⟩ := visible'.exists_reordered reordered.symm
  exact ⟨source.entry schema name, mem_listedTables_iff.mpr ⟨source, schema, name, visible, rfl⟩,
    (same.symm.entry_table (apart.columns visible)).symm, same.foreignKeys⟩

end Listings

section Snapshots

/-- Listed tables with the same key are the same. -/
theorem Catalog.TellsApart.table_eq (apart : catalog.TellsApart options) :
    ∀ a ∈ (catalog.listedTables options).map ListedTable.table,
    ∀ b ∈ (catalog.listedTables options).map ListedTable.table,
      lower a.key = lower b.key → a = b := by
  intro a here b there same
  obtain ⟨entry, listed, rfl⟩ := List.mem_map.mp here
  obtain ⟨entry', listed', rfl⟩ := List.mem_map.mp there
  obtain ⟨source, schema, name, visible, rfl⟩ := mem_listedTables_iff.mp listed
  obtain ⟨source', schema', name', visible', rfl⟩ := mem_listedTables_iff.mp listed'
  obtain rfl := apart.tables visible visible' same
  obtain rfl := Option.some.inj (visible.schemaSpelled.symm.trans visible'.schemaSpelled)
  obtain rfl := Option.some.inj (visible.nameSpelled.symm.trans visible'.nameSpelled)
  rfl

private theorem tablesInOrder_eq (reordered : catalog.Reordered other)
    (apart : catalog.TellsApart options) :
    tablesInOrder (catalog.listedTables options) = tablesInOrder (other.listedTables options) := by
  refine sortBy_distinctBy_eq ?_ fun table => ?_
  · intro a here b there
    exact apart.table_eq a (List.mem_reverse.mp here) b (List.mem_reverse.mp there)
  · rw [List.mem_reverse, List.mem_reverse]
    exact ⟨(covers_of_reordered reordered apart).table_mem,
      (reordered_covers reordered apart).table_mem⟩

/-- Catalogs that list the same things in different orders have the same snapshot, where names tell
the visible tables, the columns of each of them and the relations of its foreign keys apart. -/
theorem introspect_reordered (reordered : catalog.Reordered other)
    (apart : catalog.TellsApart options) :
    introspect catalog options = introspect other options := by
  have tables := tablesInOrder_eq reordered apart
  have relations :
      relationsInOrder (tablesInOrder (catalog.listedTables options))
          (catalog.listedTables options) =
        relationsInOrder (tablesInOrder (catalog.listedTables options))
          (other.listedTables options) := by
    rw [relationsInOrder_eq, relationsInOrder_eq]
    exact sortBy_distinctBy_eq apart.relations fun relation =>
      ⟨(covers_of_reordered reordered apart).relation_mem,
        (reordered_covers reordered apart).relation_mem⟩
  rw [introspect, introspect, relations, tables]

/-- A foreign key to the items by the given column. -/
def itemKey (column : String) : ForeignKey :=
  ⟨some "shop", some "Item", [some column], [some "Id"]⟩

/-- Sales that refer to the items twice. -/
def saleSource : CatalogTable :=
  ⟨some "base", some "Sale", [⟨some "ItemId", .printed "INTEGER", false⟩,
    ⟨some "GiftId", .printed "INTEGER", true⟩], [itemKey "ItemId", itemKey "GiftId"]⟩

/-- Items and sales. -/
def saleCatalog : Catalog where
  schemas := [some "shop", some "base"]
  tables := [itemSource, saleSource]

/-- The same catalog, every list of it turned around. -/
def turnedCatalog : Catalog where
  schemas := saleCatalog.schemas.reverse
  tables := (saleCatalog.tables.map fun table =>
    { table with columns := table.columns.reverse,
                 foreignKeys := table.foreignKeys.reverse }).reverse

private theorem turnedCatalog_reordered : saleCatalog.Reordered turnedCatalog where
  schemas := (List.reverse_perm _).symm
  default := rfl
  tables := by
    have turned (table : CatalogTable) : table.Reordered { table with
        columns := table.columns.reverse, foreignKeys := table.foreignKeys.reverse } :=
      ⟨rfl, rfl, (List.reverse_perm _).symm, (List.reverse_perm _).symm⟩
    exact ⟨[saleSource, itemSource], (List.reverse_perm _).symm,
      .cons (turned saleSource) (.cons (turned itemSource) .nil)⟩

private theorem saleCatalog_listed : saleCatalog.listedTables .standard =
    [itemSource.entry "shop" "Item", saleSource.entry "base" "Sale"] := by
  have schemas : saleCatalog.visibleSchemas .standard = ["shop", "base"] := by decide
  have item : itemSource.listed? .standard "shop" = some (itemSource.entry "shop" "Item") :=
    listed?_eq_some_iff.mpr ⟨rfl, _, rfl, by decide, by decide, rfl⟩
  have sale : saleSource.listed? .standard "base" = some (saleSource.entry "base" "Sale") :=
    listed?_eq_some_iff.mpr ⟨rfl, _, rfl, by decide, by decide, rfl⟩
  have otherItem : itemSource.listed? .standard "base" = none := by decide
  have otherSale : saleSource.listed? .standard "shop" = none := by decide
  rw [Catalog.listedTables, schemas]
  simp [saleCatalog, item, sale, otherItem, otherSale]

private theorem saleCatalog_visible {source : CatalogTable} {schema name : String}
    (visible : CatalogTable.IsVisible saleCatalog .standard schema name source) :
    source = itemSource ∧ schema = "shop" ∧ name = "Item" ∨
      source = saleSource ∧ schema = "base" ∧ name = "Sale" := by
  have member := visible.member
  simp only [saleCatalog, List.mem_cons, List.not_mem_nil, or_false] at member
  rcases member with rfl | rfl
  · exact .inl ⟨rfl, (Option.some.inj visible.schemaSpelled).symm,
      (Option.some.inj visible.nameSpelled).symm⟩
  · exact .inr ⟨rfl, (Option.some.inj visible.schemaSpelled).symm,
      (Option.some.inj visible.nameSpelled).symm⟩

private theorem saleCatalog_relationIds :
    (givenRelations (introspect saleCatalog .standard).tables
      (saleCatalog.listedTables .standard)).map Relation.id =
        ["base.Sale->shop.Item:ItemId", "base.Sale->shop.Item:GiftId"] := by
  have sales : HoldsKey (saleCatalog.listedTables .standard) (saleSource.entry "base" "Sale") :=
    ⟨[_], [], saleCatalog_listed, by simp⟩
  have items : HoldsKey (saleCatalog.listedTables .standard) (itemSource.entry "shop" "Item") := by
    refine ⟨[], [_], saleCatalog_listed, ?_⟩
    have differ : lower (tableKey "base" "Sale") ≠ lower (tableKey "shop" "Item") := by decide
    intro other among
    rw [List.mem_singleton.mp among]
    exact differ
  have first : (itemKey "ItemId").relation? (tablesInOrder (saleCatalog.listedTables .standard))
      (saleSource.entry "base" "Sale").table = _ := relation?_eq_some rfl items.found (by decide)
  have second : (itemKey "GiftId").relation? (tablesInOrder (saleCatalog.listedTables .standard))
      (saleSource.entry "base" "Sale").table = _ := relation?_eq_some rfl items.found (by decide)
  have salesGive : (saleSource.entry "base" "Sale").relations
      (tablesInOrder (saleCatalog.listedTables .standard)) =
        [itemKey "ItemId", itemKey "GiftId"].filterMap fun key =>
          key.relation? (tablesInOrder (saleCatalog.listedTables .standard))
            (saleSource.entry "base" "Sale").table := by
    rw [ListedTable.relations, sales.found, Option.toList_some, List.flatMap_singleton]
    rfl
  have itemsGive : (itemSource.entry "shop" "Item").relations
      (tablesInOrder (saleCatalog.listedTables .standard)) = [] := ListedTable.relations_nil _ _
  have whole (tables : List Table) :
      givenRelations tables (saleCatalog.listedTables .standard) =
        (itemSource.entry "shop" "Item").relations tables ++
          (saleSource.entry "base" "Sale").relations tables := by
    rw [saleCatalog_listed]
    simp [givenRelations]
  show (givenRelations (tablesInOrder (saleCatalog.listedTables .standard)) _).map _ = _
  rw [whole, itemsGive, salesGive]
  simp only [List.filterMap_cons, List.filterMap_nil, first, second]
  decide

private theorem saleCatalog_tellsApart : saleCatalog.TellsApart .standard where
  tables {source other schema name schema' name'} visible visible' same := by
    rcases saleCatalog_visible visible with ⟨rfl, rfl, rfl⟩ | ⟨rfl, rfl, rfl⟩ <;>
      rcases saleCatalog_visible visible' with ⟨rfl, rfl, rfl⟩ | ⟨rfl, rfl, rfl⟩
    · rfl
    · exact absurd same (by decide)
    · exact absurd same (by decide)
    · rfl
  columns {source schema name} visible := by
    rcases saleCatalog_visible visible with ⟨rfl, -⟩ | ⟨rfl, -⟩ <;> decide
  relations a here b there same := by
    have apart : (((givenRelations (introspect saleCatalog .standard).tables
        (saleCatalog.listedTables .standard)).map Relation.id).map lower).Nodup := by
      rw [saleCatalog_relationIds]
      decide
    rw [List.map_map] at apart
    exact List.inj_on_of_nodup_map apart here there same

/-- Both catalogs, which list their tables and columns in different orders, have one snapshot. -/
theorem turnedCatalog_introspected :
    saleCatalog.Reordered turnedCatalog ∧ saleCatalog.TellsApart .standard ∧
      saleCatalog ≠ turnedCatalog ∧
      introspect saleCatalog .standard = introspect turnedCatalog .standard :=
  ⟨turnedCatalog_reordered, saleCatalog_tellsApart, by decide,
    introspect_reordered turnedCatalog_reordered saleCatalog_tellsApart⟩

end Snapshots

end ReportQuery.Schema
