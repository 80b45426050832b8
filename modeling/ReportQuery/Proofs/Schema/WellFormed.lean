import Mathlib.Data.List.Dedup
import ReportQuery.Proofs.Text.Order
import ReportQuery.Schema.Introspection

set_option autoImplicit false
set_option relaxedAutoImplicit false

/-!
The snapshot of any catalog is well formed: its lists are in order and without repeats, and its
parts fit together.
-/

namespace ReportQuery.Schema

open Text (lower distinct distinctBy sortBy sortBy_perm pairwise_sortBy pairwise_sortBy_distinctBy
  mem_of_mem_distinctBy mem_distinct nodup_distinct)

/-- A table is shown under its schema and name, with its columns in order. -/
structure Table.IsShown (options : Options) (table : Table) : Prop where
  key : table.key = tableKey table.schema table.name
  columnOrder : (table.columns.map fun column => lower column.name).Pairwise (· ≤ ·)
  schemaShown : options.isHiddenSchema table.schema = false
  tableShown : options.isHiddenTable table.name = false

/-- A relation joins two of the tables by at least one pair of columns. -/
structure Relation.Joins (tables : List Table) (relation : Relation) : Prop where
  columns : relation.columns ≠ []
  fromTable : ∃ table ∈ tables, table.key = relation.fromTable
  toTable : ∃ table ∈ tables, table.key = relation.toTable

/-- The groups share out the keys of the tables by schema, each in the order of the tables. -/
structure SharesOut (groups : List SchemaGroup) (tables : List Table) : Prop where
  names : (groups.map SchemaGroup.name).Nodup
  nonempty : ∀ group ∈ groups, group.tableKeys ≠ []
  keys : ∀ group ∈ groups, group.tableKeys =
    (tables.filter fun table => table.schema = group.name).map Table.key
  whole : (groups.flatMap SchemaGroup.tableKeys).Perm (tables.map Table.key)

/-- Tables and relations are in order and without repeats, ignoring case, the parts of the snapshot
fit together, and tables and relations are found by what they are called. -/
structure Snapshot.IsWellFormed (options : Options) (snapshot : Snapshot) : Prop where
  valid : snapshot.IsValid
  tableOrder : (snapshot.tables.map fun table => lower table.key).Pairwise (· < ·)
  relationOrder : (snapshot.relations.map fun relation => lower relation.id).Pairwise (· < ·)
  tables : ∀ table ∈ snapshot.tables, table.IsShown options
  relations : ∀ relation ∈ snapshot.relations, relation.Joins snapshot.tables
  groups : SharesOut snapshot.schemas snapshot.tables
  tableFound : ∀ table ∈ snapshot.tables, snapshot.table? table.key = some table
  relationFound : ∀ relation ∈ snapshot.relations, snapshot.relation? relation.id = some relation

section Keys

variable {α : Type} {key : α → String} {as : List α} {a : α}

private theorem nodup_of_ascending (order : (as.map key).Pairwise (· < ·)) : (as.map key).Nodup :=
  order.imp fun less => by
    rintro rfl
    exact String.lt_irrefl _ less

/-- Where no two elements have the same key, an element is found by its key. -/
private theorem find?_reverse_of_ascending (order : (as.map key).Pairwise (· < ·))
    (member : a ∈ as) : (as.reverse.find? fun b => key b = key a) = some a := by
  cases found : as.reverse.find? fun b => key b = key a with
  | none =>
    have missed := List.find?_eq_none.mp found a (List.mem_reverse.mpr member)
    simp at missed
  | some b =>
    have same : key b = key a := by simpa using List.find?_some found
    have among := List.mem_reverse.mp (List.mem_of_find?_eq_some found)
    rw [List.inj_on_of_nodup_map (nodup_of_ascending order) among member same]

end Keys

section Groups

variable {tables : List Table} {group : SchemaGroup}

/-- The group of a schema. -/
def schemaGroup (tables : List Table) (name : String) : SchemaGroup :=
  ⟨name, (tables.filter fun table => table.schema = name).map Table.key⟩

private theorem groupBySchema_perm (tables : List Table) :
    (groupBySchema tables).Perm
      ((distinct (tables.map Table.schema)).map (schemaGroup tables)) :=
  sortBy_perm _ _

theorem mem_groupBySchema :
    group ∈ groupBySchema tables ↔ ∃ table ∈ tables, schemaGroup tables table.schema = group := by
  rw [(groupBySchema_perm tables).mem_iff]
  simp only [List.mem_map, mem_distinct, exists_exists_and_eq_and]

private theorem nodup_names_groupBySchema (tables : List Table) :
    ((groupBySchema tables).map SchemaGroup.name).Nodup := by
  have names : ((distinct (tables.map Table.schema)).map (schemaGroup tables)).map
      SchemaGroup.name = distinct (tables.map Table.schema) := by
    simp [schemaGroup, Function.comp_def]
  rw [((groupBySchema_perm tables).map SchemaGroup.name).nodup_iff, names]
  exact nodup_distinct _

private theorem keys_of_mem_groupBySchema (member : group ∈ groupBySchema tables) :
    group.tableKeys = (tables.filter fun table => table.schema = group.name).map Table.key := by
  obtain ⟨table, -, rfl⟩ := mem_groupBySchema.mp member
  rfl

/-- A key belongs to a group through a table of the group's schema. -/
private theorem exists_of_mem_tableKeys (member : group ∈ groupBySchema tables) {key : String}
    (among : key ∈ group.tableKeys) :
    ∃ table ∈ tables, table.schema = group.name ∧ table.key = key := by
  rw [keys_of_mem_groupBySchema member] at among
  obtain ⟨table, filtered, rfl⟩ := List.mem_map.mp among
  obtain ⟨inside, same⟩ := List.mem_filter.mp filtered
  exact ⟨table, inside, of_decide_eq_true same, rfl⟩

/-- Groups of different schemas have no key in common, since no two tables have the same key. -/
private theorem nodup_flatMap_groupBySchema (apart : (tables.map Table.key).Nodup) :
    ((groupBySchema tables).flatMap SchemaGroup.tableKeys).Nodup := by
  refine List.nodup_flatMap.mpr ⟨fun group member => ?_, ?_⟩
  · rw [keys_of_mem_groupBySchema member]
    exact apart.sublist (List.filter_sublist.map Table.key)
  · refine (List.pairwise_map.mp (nodup_names_groupBySchema tables)).imp_of_mem
      fun {one other} member among different => ?_
    intro key here there
    obtain ⟨table, inside, schema, rfl⟩ := exists_of_mem_tableKeys member here
    obtain ⟨same, inside', schema', spelled⟩ := exists_of_mem_tableKeys among there
    obtain rfl := List.inj_on_of_nodup_map apart inside' inside spelled
    exact different (schema.symm.trans schema')

theorem sharesOut_groupBySchema (apart : (tables.map Table.key).Nodup) :
    SharesOut (groupBySchema tables) tables where
  names := nodup_names_groupBySchema tables
  nonempty group member := by
    obtain ⟨table, inside, rfl⟩ := mem_groupBySchema.mp member
    exact List.ne_nil_of_mem
      (List.mem_map_of_mem (List.mem_filter.mpr ⟨inside, decide_eq_true rfl⟩))
  keys group member := keys_of_mem_groupBySchema member
  whole := by
    refine (List.perm_ext_iff_of_nodup (nodup_flatMap_groupBySchema apart) apart).mpr fun key => ?_
    constructor
    · intro shared
      obtain ⟨group, member, among⟩ := List.mem_flatMap.mp shared
      obtain ⟨table, inside, -, rfl⟩ := exists_of_mem_tableKeys member among
      exact List.mem_map_of_mem inside
    · intro known
      obtain ⟨table, inside, rfl⟩ := List.mem_map.mp known
      exact List.mem_flatMap.mpr ⟨_, mem_groupBySchema.mpr ⟨table, inside, rfl⟩,
        List.mem_map_of_mem (List.mem_filter.mpr ⟨inside, decide_eq_true rfl⟩)⟩

end Groups

section Tables

variable {catalog : Catalog} {options : Options} {tables : List Table}
  {listed : List ListedTable} {table : Table} {relation : Relation}

theorem isShown_of_mem_listedTables {entry : ListedTable}
    (member : entry ∈ catalog.listedTables options) : entry.table.IsShown options := by
  obtain ⟨schema, visible, inside⟩ := List.mem_flatMap.mp member
  obtain ⟨source, -, listed⟩ := List.mem_filterMap.mp inside
  have shown : options.isHiddenSchema schema = false := by
    simpa using (List.mem_filter.mp visible).2
  unfold CatalogTable.listed? at listed
  split at listed
  · split at listed
    · cases listed
    · split at listed
      · cases listed
      · rename_i name _ open_
        obtain rfl := Option.some.inj listed
        exact ⟨rfl, pairwise_sortBy _ _, shown, Bool.eq_false_iff.mpr open_⟩
  · cases listed

theorem exists_of_mem_tablesInOrder (member : table ∈ tablesInOrder listed) :
    ∃ entry ∈ listed, entry.table = table := by
  have among := mem_of_mem_distinctBy ((sortBy_perm _ _).mem_iff.mp member)
  exact List.mem_map.mp (List.mem_reverse.mp among)

theorem mem_of_tableWithKey? {key : String} (found : tableWithKey? tables key = some table) :
    table ∈ tables :=
  List.mem_of_find?_eq_some found

theorem joins_of_relation? {foreignKey : ForeignKey} (dependent : table ∈ tables)
    (found : foreignKey.relation? tables table = some relation) : relation.Joins tables := by
  unfold ForeignKey.relation? at found
  split at found
  · cases found
  · dsimp only at found
    split at found
    · cases found
    · rename_i principal known
      split at found
      · cases found
      · rename_i some_
        obtain rfl := Option.some.inj found
        exact ⟨fun none => some_ (List.isEmpty_iff.mpr none), ⟨table, dependent, rfl⟩,
          ⟨principal, mem_of_tableWithKey? known, rfl⟩⟩

theorem joins_of_mem_relationsInOrder (member : relation ∈ relationsInOrder tables listed) :
    relation.Joins tables := by
  have among := mem_of_mem_distinctBy ((sortBy_perm _ _).mem_iff.mp member)
  obtain ⟨entry, -, inside⟩ := List.mem_flatMap.mp among
  split at inside
  · cases inside
  · rename_i dependent known
    obtain ⟨foreignKey, -, found⟩ := List.mem_filterMap.mp inside
    exact joins_of_relation? (mem_of_tableWithKey? known) found

/-- A relation between tables has no fault among their keys. -/
private theorem fault?_of_joins (joins : relation.Joins tables) :
    relation.fault? (tables.map fun table => lower table.key) = none := by
  have known {key : String} (found : ∃ table ∈ tables, table.key = key) :
      ∃ table ∈ tables, lower table.key = lower key := by
    obtain ⟨table, inside, rfl⟩ := found
    exact ⟨table, inside, rfl⟩
  rw [Relation.fault?, if_neg (mt List.isEmpty_iff.mp joins.columns), Option.map_eq_none_iff]
  simpa using And.intro (known joins.fromTable) (known joins.toTable)

theorem isValid_of_joins {snapshot : Snapshot}
    (joins : ∀ relation ∈ snapshot.relations, relation.Joins snapshot.tables) :
    snapshot.IsValid :=
  List.findSome?_eq_none_iff.mpr fun relation member => fault?_of_joins (joins relation member)

end Tables

/-- The snapshot of any catalog is well formed. -/
theorem introspect_isWellFormed (catalog : Catalog) (options : Options) :
    (introspect catalog options).IsWellFormed options := by
  let listed := catalog.listedTables options
  have tableOrder : ((tablesInOrder listed).map fun table => lower table.key).Pairwise (· < ·) :=
    pairwise_sortBy_distinctBy _ _
  have relationOrder : ((relationsInOrder (tablesInOrder listed) listed).map
      fun relation => lower relation.id).Pairwise (· < ·) :=
    pairwise_sortBy_distinctBy _ _
  have joins : ∀ relation ∈ relationsInOrder (tablesInOrder listed) listed,
      relation.Joins (tablesInOrder listed) :=
    fun relation member => joins_of_mem_relationsInOrder member
  have apart : ((tablesInOrder listed).map Table.key).Nodup := by
    refine List.Nodup.of_map lower ?_
    rw [List.map_map]
    exact nodup_of_ascending tableOrder
  exact {
    valid := isValid_of_joins joins
    tableOrder := tableOrder
    relationOrder := relationOrder
    tables := fun table member => by
      obtain ⟨entry, among, rfl⟩ := exists_of_mem_tablesInOrder member
      exact isShown_of_mem_listedTables among
    relations := joins
    groups := sharesOut_groupBySchema apart
    tableFound := fun table member => find?_reverse_of_ascending tableOrder member
    relationFound := fun relation member => find?_reverse_of_ascending relationOrder member }

end ReportQuery.Schema
