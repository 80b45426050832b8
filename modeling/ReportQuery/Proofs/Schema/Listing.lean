import ReportQuery.Proofs.Schema.WellFormed

set_option autoImplicit false
set_option relaxedAutoImplicit false

/-!
What becomes of the visible tables of a catalog and of their foreign keys. Under a key the snapshot has
the table that was listed last with it, under an id the relation that was given first with it. So a
table is shown unless a later one has its key, and then each of its foreign keys that can be used is
represented unless an earlier one gives a relation with the same id.
-/

namespace ReportQuery.Schema

open Text (lower distinctBy sortBy sortBy_perm filter_sortBy find?_key_eq_some_iff find?_key_perm
  find?_distinctBy mem_of_mem_distinctBy nodup_map_distinctBy)

/-- A table of a catalog that is to be shown under a schema and a name. -/
structure CatalogTable.IsVisible (catalog : Catalog) (options : Options) (schema name : String)
    (source : CatalogTable) : Prop where
  member : source ∈ catalog.tables
  schemaSpelled : source.schema? = some schema
  nameSpelled : source.name? = some name
  schemaNamed : schema ≠ ""
  tableNamed : name ≠ ""
  /-- The default schema counts only where the catalog lists none. -/
  schemaListed : some schema ∈ catalog.schemas ∨ catalog.schemas = [] ∧ catalog.default? = some schema
  schemaShown : options.isHiddenSchema schema = false
  tableShown : options.isHiddenTable name = false

/-- A table as it is listed under a schema and a name. -/
def CatalogTable.entry (source : CatalogTable) (schema name : String) : ListedTable :=
  ⟨⟨tableKey schema name, schema, name, displayName name, source.visibleColumns⟩, source.foreignKeys⟩

/-- A listed table whose key no table that is listed later has. Case is ignored. -/
def HoldsKey (listed : List ListedTable) (entry : ListedTable) : Prop :=
  ∃ before after, listed = before ++ entry :: after ∧
    ∀ other ∈ after, lower other.table.key ≠ lower entry.table.key

/-- The relations that the foreign keys of a listed table give. -/
def ListedTable.relations (tables : List Table) (entry : ListedTable) : List Relation :=
  (tableWithKey? tables entry.table.key).toList.flatMap fun dependent =>
    entry.foreignKeys.filterMap fun key => key.relation? tables dependent

@[simp] theorem ListedTable.relations_nil (tables : List Table) (table : Table) :
    ListedTable.relations tables ⟨table, []⟩ = [] := by
  simp [ListedTable.relations]

/-- The relations that the foreign keys of listed tables give, in the order of the listing. -/
def givenRelations (tables : List Table) (listed : List ListedTable) : List Relation :=
  listed.flatMap (ListedTable.relations tables)

variable {catalog : Catalog} {options : Options} {listed : List ListedTable} {tables : List Table}
  {source : CatalogTable} {schema name : String} {entry : ListedTable}

section Listing

theorem named?_eq_some_iff {name? : Option String} :
    named? name? = some name ↔ name? = some name ∧ name ≠ "" := by
  simp [named?, Option.filter_eq_some_iff]

private theorem mem_visibleSchemas_iff :
    schema ∈ catalog.visibleSchemas options ↔
      (some schema ∈ catalog.schemas ∨ catalog.schemas = [] ∧ catalog.default? = some schema) ∧
        schema ≠ "" ∧ options.isHiddenSchema schema = false := by
  have names_iff : some schema ∈ (if catalog.schemas.isEmpty then [catalog.default?]
      else catalog.schemas) ↔
      some schema ∈ catalog.schemas ∨ catalog.schemas = [] ∧ catalog.default? = some schema := by
    cases catalog.schemas with
    | nil => simp [eq_comm]
    | cons first rest => simp
  rw [Catalog.visibleSchemas, List.mem_filter, List.mem_filterMap, ← names_iff]
  simp only [named?_eq_some_iff, Bool.not_eq_true']
  constructor
  · rintro ⟨⟨name?, member, rfl, named⟩, shown⟩
    exact ⟨member, named, shown⟩
  · rintro ⟨member, named, shown⟩
    exact ⟨⟨_, member, rfl, named⟩, shown⟩

theorem listed?_eq_some_iff :
    source.listed? options schema = some entry ↔ source.schema? = some schema ∧
      ∃ name, source.name? = some name ∧ name ≠ "" ∧ options.isHiddenTable name = false ∧
        source.entry schema name = entry := by
  unfold CatalogTable.listed?
  by_cases same : source.schema? = some schema
  · rw [if_pos same]
    cases named : named? source.name? with
    | none =>
      refine iff_of_false (by simp) ?_
      rintro ⟨-, name, spelled, nonempty, -, -⟩
      rw [named?_eq_some_iff.mpr ⟨spelled, nonempty⟩] at named
      cases named
    | some name =>
      obtain ⟨spelled, nonempty⟩ := named?_eq_some_iff.mp named
      cases hidden : options.isHiddenTable name <;>
        simp [same, spelled, nonempty, hidden, CatalogTable.entry]
  · simp [same]

/-- The listing holds the visible tables and no others. -/
theorem mem_listedTables_iff :
    entry ∈ catalog.listedTables options ↔
      ∃ source schema name, CatalogTable.IsVisible catalog options schema name source ∧
        source.entry schema name = entry := by
  simp only [Catalog.listedTables, List.mem_flatMap, List.mem_filterMap, mem_visibleSchemas_iff,
    listed?_eq_some_iff]
  constructor
  · rintro ⟨schema, ⟨inList, schemaNamed, shown⟩, source, member, spelled, name, called, named, open_,
      rfl⟩
    exact ⟨source, schema, name,
      ⟨member, spelled, called, schemaNamed, named, inList, shown, open_⟩, rfl⟩
  · rintro ⟨source, schema, name, visible, rfl⟩
    exact ⟨schema, ⟨visible.schemaListed, visible.schemaNamed, visible.schemaShown⟩, source,
      visible.member, visible.schemaSpelled, name, visible.nameSpelled, visible.tableNamed,
      visible.tableShown, rfl⟩

end Listing

section Tables

private theorem nodup_keys (listed : List ListedTable) :
    ((tablesInOrder listed).map fun table => lower table.key).Nodup :=
  ((sortBy_perm _ _).map _).nodup_iff.mpr (nodup_map_distinctBy _ _)

/-- Under a key the table is found that was listed last with it. -/
theorem tableWithKey?_tablesInOrder (listed : List ListedTable) (key : String) :
    tableWithKey? (tablesInOrder listed) key =
      (listed.map ListedTable.table).reverse.find? fun table => lower table.key = lower key := by
  rw [tableWithKey?, find?_key_perm (nodup_keys listed) (sortBy_perm _ _), find?_distinctBy]

/-- Every column that is shown has a name. -/
theorem name_ne_of_mem_columns {table : Table} {column : Column}
    (shown : table ∈ (introspect catalog options).tables) (member : column ∈ table.columns) :
    column.name ≠ "" := by
  obtain ⟨entry, listed, rfl⟩ := exists_of_mem_tablesInOrder shown
  obtain ⟨source, schema, name, -, rfl⟩ := mem_listedTables_iff.mp listed
  obtain ⟨original, -, found⟩ := List.mem_filterMap.mp ((sortBy_perm _ _).mem_iff.mp member)
  obtain ⟨name, named, rfl⟩ := Option.map_eq_some_iff.mp found
  exact (named?_eq_some_iff.mp named).2

theorem tableWithKey?_eq_some_iff {table : Table} :
    tableWithKey? (tablesInOrder listed) table.key = some table ↔ table ∈ tablesInOrder listed := by
  simp [tableWithKey?, find?_key_eq_some_iff (nodup_keys listed)]

/-- The look-up in a snapshot agrees with the look-up during its making. -/
theorem table?_introspect (catalog : Catalog) (options : Options) (key : String) :
    (introspect catalog options).table? key =
      tableWithKey? (introspect catalog options).tables key :=
  (find?_key_perm (nodup_keys _) (List.reverse_perm _).symm).symm

theorem HoldsKey.mem (holds : HoldsKey listed entry) : entry ∈ listed := by
  obtain ⟨before, after, rfl, -⟩ := holds
  simp

theorem HoldsKey.found (holds : HoldsKey listed entry) :
    tableWithKey? (tablesInOrder listed) entry.table.key = some entry.table := by
  obtain ⟨before, after, rfl, last⟩ := holds
  have later : (after.map ListedTable.table).reverse.find?
      (fun table => lower table.key = lower entry.table.key) = none := by
    simpa using last
  rw [tableWithKey?_tablesInOrder]
  simp [later]

/-- Two tables that hold the same key are the same. -/
theorem HoldsKey.table_eq {other : ListedTable} (holds : HoldsKey listed entry)
    (others : HoldsKey listed other) (same : lower entry.table.key = lower other.table.key) :
    entry.table = other.table := by
  have found := holds.found
  rw [tableWithKey?, same, ← tableWithKey?, others.found] at found
  exact (Option.some.inj found).symm

/-- A shown table comes from a listed one that holds its key. -/
private theorem exists_holdsKey {table : Table} (member : table ∈ tablesInOrder listed) :
    ∃ entry, HoldsKey listed entry ∧ entry.table = table := by
  rw [← tableWithKey?_eq_some_iff, tableWithKey?_tablesInOrder, ← List.map_reverse,
    List.find?_map, Option.map_eq_some_iff] at member
  obtain ⟨entry, found, rfl⟩ := member
  obtain ⟨-, front, back, split, missed⟩ := List.find?_eq_some_iff_append.mp found
  refine ⟨entry, ⟨back.reverse, front.reverse, ?_, fun other among => ?_⟩, rfl⟩
  · simpa using congrArg List.reverse split
  · simpa using missed other (List.mem_reverse.mp among)

/-- Where no two tables of a catalog have the same schema and name, a visible table is shown exactly
if it holds its key. -/
theorem mem_tables_introspect_iff
    (distinct : (catalog.tables.map fun table => (table.schema?, table.name?)).Nodup)
    (visible : CatalogTable.IsVisible catalog options schema name source) :
    (source.entry schema name).table ∈ (introspect catalog options).tables ↔
      HoldsKey (catalog.listedTables options) (source.entry schema name) := by
  constructor
  · intro member
    obtain ⟨entry, holds, same⟩ := exists_holdsKey member
    obtain ⟨other, schema', name', visible', rfl⟩ := mem_listedTables_iff.mp holds.mem
    obtain rfl : schema' = schema := congrArg Table.schema same
    obtain rfl : name' = name := congrArg Table.name same
    have spelled : (other.schema?, other.name?) = (source.schema?, source.name?) := by
      rw [visible'.schemaSpelled, visible'.nameSpelled, visible.schemaSpelled, visible.nameSpelled]
    obtain rfl := List.inj_on_of_nodup_map distinct visible'.member visible.member spelled
    exact holds
  · intro holds
    exact tableWithKey?_eq_some_iff.mp holds.found

end Tables

section Relations

variable {before after : List ListedTable} {front back : List ForeignKey} {key : ForeignKey}
  {relation : Relation} {dependent principal : Table}

theorem relationsInOrder_eq (tables : List Table) (listed : List ListedTable) :
    relationsInOrder tables listed = sortBy (fun relation => lower relation.id)
      (distinctBy (fun relation => lower relation.id) (givenRelations tables listed)) := by
  refine congrArg (fun given => sortBy (fun relation : Relation => lower relation.id)
    (distinctBy (fun relation => lower relation.id) given)) ?_
  refine congrArg (fun relations => List.flatMap relations listed) (funext fun entry => ?_)
  rw [ListedTable.relations]
  cases tableWithKey? tables entry.table.key <;> simp

/-- Under an id the relation is found that was given first with it. -/
theorem relation?_introspect (catalog : Catalog) (options : Options) (id : String) :
    (introspect catalog options).relation? id =
      (givenRelations (introspect catalog options).tables (catalog.listedTables options)).find?
        fun relation => lower relation.id = lower id := by
  have apart : ((introspect catalog options).relations.map fun relation => lower relation.id).Nodup :=
    ((sortBy_perm _ _).map _).nodup_iff.mpr (nodup_map_distinctBy _ _)
  rw [Snapshot.relation?, ← find?_key_perm apart (List.reverse_perm _).symm]
  rw [introspect, relationsInOrder_eq, find?_key_perm ?_ (sortBy_perm _ _), find?_distinctBy]
  exact ((sortBy_perm _ _).map _).nodup_iff.mpr (nodup_map_distinctBy _ _)

theorem relation?_introspect_eq_some_iff :
    (introspect catalog options).relation? relation.id = some relation ↔
      relation ∈ (introspect catalog options).relations := by
  have apart : ((introspect catalog options).relations.map fun relation => lower relation.id).Nodup :=
    ((sortBy_perm _ _).map _).nodup_iff.mpr (nodup_map_distinctBy _ _)
  rw [Snapshot.relation?, ← find?_key_perm apart (List.reverse_perm _).symm]
  simp [find?_key_eq_some_iff apart]

/-- The pairs of a foreign key are the columns beside each other that both have a name. -/
theorem mem_pairs_iff {pair : ColumnPair} :
    pair ∈ key.pairs ↔ (some pair.fromColumn, some pair.toColumn) ∈ key.constrained.zip key.referred ∧
      pair.fromColumn ≠ "" ∧ pair.toColumn ≠ "" := by
  rw [ForeignKey.pairs, List.mem_filterMap]
  constructor
  · rintro ⟨⟨fromName?, toName?⟩, member, found⟩
    dsimp only at found
    split at found
    · rename_i fromColumn toColumn fromNamed toNamed
      obtain rfl := Option.some.inj found
      obtain ⟨rfl, fromNonempty⟩ := named?_eq_some_iff.mp fromNamed
      obtain ⟨rfl, toNonempty⟩ := named?_eq_some_iff.mp toNamed
      exact ⟨member, fromNonempty, toNonempty⟩
    · cases found
  · rintro ⟨member, fromNonempty, toNonempty⟩
    refine ⟨_, member, ?_⟩
    simp only [named?_eq_some_iff.mpr ⟨rfl, fromNonempty⟩, named?_eq_some_iff.mpr ⟨rfl, toNonempty⟩]

/-- A column of a table that must not be null. Of columns with the same name the one that is listed
first counts. -/
def CatalogTable.Requires (source : CatalogTable) (name : String) : Prop :=
  ∃ column, (source.columns.find? fun column => column.name? = some name) = some column ∧
    column.isNullable = false

private theorem column?_entry {column : CatalogColumn} {table : String} (nonempty : name ≠ "")
    (found : (source.columns.find? fun column => column.name? = some name) = some column) :
    (source.entry schema table).table.column? name =
      some ⟨name, column.type.text, column.isNullable⟩ := by
  have called : (fun column : CatalogColumn => column.column?.any fun shown => shown.name = name) =
      fun column : CatalogColumn => decide (column.name? = some name) := by
    funext column
    rw [CatalogColumn.column?]
    cases named : named? column.name? with
    | none =>
      have other : column.name? ≠ some name := fun spelled => by
        rw [named?_eq_some_iff.mpr ⟨spelled, nonempty⟩] at named
        cases named
      simp [other]
    | some shown => simp [(named?_eq_some_iff.mp named).1]
  have spelled : column.name? = some name := by simpa using List.find?_some found
  -- the sort keeps columns of one name in the order of the listing
  have first : (source.visibleColumns.find? fun column => column.name = name) =
      some ⟨name, column.type.text, column.isNullable⟩ := by
    rw [CatalogTable.visibleColumns, ← List.head?_filter, filter_sortBy ?_, List.head?_filter,
      List.find?_filterMap, called, found, Option.bind_some, CatalogColumn.column?,
      named?_eq_some_iff.mpr ⟨spelled, nonempty⟩, Option.map_some]
    intro a b here there
    rw [of_decide_eq_true here, of_decide_eq_true there]
  rw [Table.column?, CatalogTable.entry, first, Option.orElse_some]

/-- A column that a foreign key constrains is required as the listing of its table says. -/
private theorem requires_entry_iff {table : String} (nonempty : name ≠ "")
    (known : some name ∈ source.columns.map CatalogColumn.name?) :
    (source.entry schema table).table.requires name ↔ source.Requires name := by
  obtain ⟨column, found⟩ : ∃ column,
      (source.columns.find? fun column => column.name? = some name) = some column := by
    rw [← Option.isSome_iff_exists, List.find?_isSome]
    obtain ⟨column, member, spelled⟩ := List.mem_map.mp known
    exact ⟨column, member, by simpa using spelled⟩
  rw [Table.requires, column?_entry nonempty found]
  simp [CatalogTable.Requires, found]

/-- The relation represents a foreign key of one table that refers to another. -/
structure Relation.Represents (relation : Relation) (key : ForeignKey) (source : CatalogTable)
    (dependent principal : Table) : Prop where
  id : relation.id = relationId dependent.key principal.key (key.pairs.map ColumnPair.fromColumn)
  fromTable : relation.fromTable = dependent.key
  toTable : relation.toTable = principal.key
  columns : relation.columns = key.pairs
  join : relation.join = .inner ↔ ∀ pair ∈ key.pairs, source.Requires pair.fromColumn

/-- A foreign key with a pair of columns that refers to a table of the snapshot gives a relation. -/
theorem relation?_eq_some (refers : named? key.table? = some name)
    (found : tableWithKey? tables (tableKey ((named? key.schema?).getD dependent.schema) name) =
      some principal)
    (paired : key.pairs ≠ []) :
    key.relation? tables dependent =
      some ⟨relationId dependent.key principal.key (key.pairs.map ColumnPair.fromColumn),
        dependent.key, principal.key,
        if (key.pairs.map ColumnPair.fromColumn).all dependent.requires then .inner else .left,
        key.pairs⟩ := by
  simp [ForeignKey.relation?, refers, found, paired]

private theorem exists_represents (table : String)
    (known : ∀ pair ∈ key.pairs, some pair.fromColumn ∈ source.columns.map CatalogColumn.name?)
    (refers : named? key.table? = some name)
    (found : tableWithKey? tables (tableKey ((named? key.schema?).getD schema) name) = some principal)
    (paired : key.pairs ≠ []) :
    ∃ relation, key.relation? tables (source.entry schema table).table = some relation ∧
      relation.Represents key source (source.entry schema table).table principal := by
  have required_iff : (key.pairs.map ColumnPair.fromColumn).all
      (source.entry schema table).table.requires ↔
      ∀ pair ∈ key.pairs, source.Requires pair.fromColumn := by
    rw [List.all_map, List.all_eq_true]
    refine forall₂_congr fun pair member => ?_
    exact requires_entry_iff (mem_pairs_iff.mp member).2.1 (known pair member)
  refine ⟨_, relation?_eq_some refers found paired, rfl, rfl, rfl, rfl, ?_⟩
  rw [← required_iff]
  split <;> simp_all

/-- Up to a foreign key of a table that holds its key these relations are given. -/
private theorem HoldsKey.givenRelations_append (holds : HoldsKey listed entry)
    (before : List ListedTable) (keys : List ForeignKey) :
    givenRelations (tablesInOrder listed) (before ++ [⟨entry.table, keys⟩]) =
      givenRelations (tablesInOrder listed) before ++
        keys.filterMap fun key => key.relation? (tablesInOrder listed) entry.table := by
  simp [givenRelations, ListedTable.relations, holds.found]

/-- Of the relations with an id the one that is given first is found by it. -/
private theorem HoldsKey.relation?_eq (holds : HoldsKey (catalog.listedTables options) entry)
    (placed : catalog.listedTables options = before ++ entry :: after)
    (listing : entry.foreignKeys = front ++ key :: back)
    (given : key.relation? (introspect catalog options).tables entry.table = some relation) :
    (introspect catalog options).relation? relation.id =
      (givenRelations (introspect catalog options).tables (before ++ [⟨entry.table, front⟩]) ++
        [relation]).find? fun other => lower other.id = lower relation.id := by
  have whole : givenRelations (introspect catalog options).tables (catalog.listedTables options) =
      givenRelations (introspect catalog options).tables (before ++ [⟨entry.table, front⟩]) ++
        [relation] ++ (back.filterMap (fun key =>
          key.relation? (introspect catalog options).tables entry.table) ++
        givenRelations (introspect catalog options).tables after) := by
    have split : before ++ entry :: after =
        before ++ [⟨entry.table, front ++ key :: back⟩] ++ after := by
      rw [← listing]
      simp
    have given' : key.relation? (tablesInOrder (catalog.listedTables options)) entry.table =
      some relation := given
    rw [placed, split, givenRelations, List.flatMap_append, ← givenRelations, ← givenRelations,
      introspect, holds.givenRelations_append, holds.givenRelations_append]
    simp [given']
  rw [relation?_introspect, whole, List.find?_append]
  cases found : (givenRelations (introspect catalog options).tables (before ++ [⟨entry.table, front⟩]) ++
    [relation]).find? fun other => lower other.id = lower relation.id with
  | some other => rfl
  | none =>
    have missed := List.find?_eq_none.mp found relation (by simp)
    simp at missed

/-- A foreign key with a pair of columns, of a table that holds its key and to one that does, gives a
relation between the two, and its id leads to the relation that is given first with it. -/
private theorem HoldsKey.represented {referred : CatalogTable} {schema' name' : String}
    (constrained : ∀ key ∈ source.foreignKeys, ∀ pair ∈ key.pairs,
      some pair.fromColumn ∈ source.columns.map CatalogColumn.name?)
    (holds : HoldsKey (catalog.listedTables options) (source.entry schema name))
    (others : HoldsKey (catalog.listedTables options) (referred.entry schema' name'))
    (placed : catalog.listedTables options = before ++ source.entry schema name :: after)
    (keys : source.foreignKeys = front ++ key :: back) (refers : named? key.table? = some name')
    (inSchema : (named? key.schema?).getD schema = schema') (paired : key.pairs ≠ []) :
    ∃ relation : Relation,
      relation.Represents key source (source.entry schema name).table
        (referred.entry schema' name').table ∧
      (introspect catalog options).relation? relation.id =
        (givenRelations (introspect catalog options).tables
          (before ++ [⟨(source.entry schema name).table, front⟩]) ++ [relation]).find?
            fun other => lower other.id = lower relation.id := by
  have found : tableWithKey? (introspect catalog options).tables
      (tableKey ((named? key.schema?).getD schema) name') =
      some (referred.entry schema' name').table := by
    rw [inSchema]
    exact others.found
  have among : key ∈ source.foreignKeys := by
    rw [keys]
    exact List.mem_append_right front List.mem_cons_self
  obtain ⟨relation, given, represents⟩ :=
    exists_represents name (constrained key among) refers found paired
  exact ⟨relation, represents, holds.relation?_eq placed keys given⟩

/-- The id of a relation tells its tables and its columns on the referring side. -/
theorem id_of_mem_relations (member : relation ∈ (introspect catalog options).relations) :
    relation.id = relationId relation.fromTable relation.toTable
      (relation.columns.map ColumnPair.fromColumn) := by
  rw [introspect, relationsInOrder_eq] at member
  have given := mem_of_mem_distinctBy ((sortBy_perm _ _).mem_iff.mp member)
  obtain ⟨entry, -, inside⟩ := List.mem_flatMap.mp given
  obtain ⟨dependent, -, inside⟩ := List.mem_flatMap.mp inside
  obtain ⟨key, -, found⟩ := List.mem_filterMap.mp inside
  unfold ForeignKey.relation? at found
  split at found
  · cases found
  · dsimp only at found
    split at found
    · cases found
    · split at found
      · cases found
      · rw [← Option.some.inj found]

end Relations

/-- Where no two tables of a catalog have the same schema and name, a visible table is shown under its
schema and name with exactly its named columns, unless a table that is listed later has its key. If the
constrained columns of its foreign keys are its own, a foreign key with a pair of columns that refers to
another such table gives a relation from the one to the other that compares exactly these pairs and is
required exactly if all of its columns are. Of the relations with an id the snapshot has the one that is
given first. -/
theorem visible_shown_and_represented {catalog : Catalog} {options : Options} {source : CatalogTable}
    {schema name : String}
    (distinct : (catalog.tables.map fun table => (table.schema?, table.name?)).Nodup)
    (constrained : ∀ key ∈ source.foreignKeys, ∀ pair ∈ key.pairs,
      some pair.fromColumn ∈ source.columns.map CatalogColumn.name?)
    (visible : CatalogTable.IsVisible catalog options schema name source) :
    let listed := catalog.listedTables options
    let snapshot := introspect catalog options
    let entry := source.entry schema name
    entry.table.columns.Perm (source.columns.filterMap CatalogColumn.column?) ∧
    (entry.table ∈ snapshot.tables ↔ HoldsKey listed entry) ∧
    (HoldsKey listed entry → ∀ (referred : CatalogTable) (schema' name' : String),
      HoldsKey listed (referred.entry schema' name') →
      ∀ before after front key back, listed = before ++ entry :: after →
        source.foreignKeys = front ++ key :: back → named? key.table? = some name' →
        (named? key.schema?).getD schema = schema' → key.pairs ≠ [] →
        ∃ relation : Relation,
          relation.Represents key source entry.table (referred.entry schema' name').table ∧
          snapshot.relation? relation.id =
            (givenRelations snapshot.tables (before ++ [⟨entry.table, front⟩]) ++ [relation]).find?
              fun other => lower other.id = lower relation.id) := by
  intro listed snapshot entry
  refine ⟨sortBy_perm _ _, mem_tables_introspect_iff distinct visible, ?_⟩
  intro holds referred schema' name' others before after front key back placed keys refers inSchema
    paired
  exact holds.represented constrained others placed keys refers inSchema paired

/-- Items with a code. -/
def itemSource : CatalogTable :=
  ⟨some "shop", some "Item", [⟨some "Id", .printed "INTEGER", false⟩,
    ⟨some "Code", .printed "TEXT", false⟩], []⟩

/-- A foreign key whose second column refers to nothing. -/
def itemIdKey : ForeignKey :=
  ⟨none, some "Item", [some "ItemId", some "Note"], [some "Id"]⟩

/-- A foreign key by the same column to another column. -/
def itemCodeKey : ForeignKey :=
  ⟨none, some "Item", [some "ItemId"], [some "Code"]⟩

/-- Orders that refer to the items twice. -/
def orderSource : CatalogTable :=
  ⟨some "shop", some "orders", [⟨some "ItemId", .printed "INTEGER", false⟩,
    ⟨some "Note", .printed "TEXT", true⟩], [itemIdKey, itemCodeKey]⟩

/-- Orders under the same name in another case. -/
def oldOrderSource : CatalogTable :=
  ⟨some "shop", some "Orders", [⟨some "Id", .printed "INTEGER", false⟩], []⟩

def orderCatalog : Catalog where
  schemas := [some "shop"]
  tables := [oldOrderSource, itemSource, orderSource]

private theorem isVisible_of_shop {source : CatalogTable} {name : String}
    (member : source ∈ orderCatalog.tables) (schema : source.schema? = some "shop")
    (spelled : source.name? = some name) (nonempty : name ≠ "")
    (shown : Options.standard.isHiddenTable name = false) :
    CatalogTable.IsVisible orderCatalog .standard "shop" name source :=
  ⟨member, schema, spelled, by decide, nonempty, .inl (List.mem_singleton_self _), by decide,
    shown⟩

private theorem orderCatalog_listed :
    orderCatalog.listedTables .standard = [oldOrderSource.entry "shop" "Orders",
      itemSource.entry "shop" "Item", orderSource.entry "shop" "orders"] := by
  have schemas : orderCatalog.visibleSchemas .standard = ["shop"] := by decide
  have old : oldOrderSource.listed? .standard "shop" = some (oldOrderSource.entry "shop" "Orders") :=
    listed?_eq_some_iff.mpr ⟨rfl, _, rfl, by decide, by decide, rfl⟩
  have item : itemSource.listed? .standard "shop" = some (itemSource.entry "shop" "Item") :=
    listed?_eq_some_iff.mpr ⟨rfl, _, rfl, by decide, by decide, rfl⟩
  have order : orderSource.listed? .standard "shop" = some (orderSource.entry "shop" "orders") :=
    listed?_eq_some_iff.mpr ⟨rfl, _, rfl, by decide, by decide, rfl⟩
  rw [Catalog.listedTables, schemas]
  simp [orderCatalog, old, item, order]

private theorem orders_hold :
    HoldsKey (orderCatalog.listedTables .standard) (orderSource.entry "shop" "orders") :=
  ⟨[_, _], [], orderCatalog_listed, by simp⟩

private theorem items_hold :
    HoldsKey (orderCatalog.listedTables .standard) (itemSource.entry "shop" "Item") := by
  refine ⟨[_], [_], orderCatalog_listed, ?_⟩
  have differ : lower (tableKey "shop" "orders") ≠ lower (tableKey "shop" "Item") := by decide
  intro other among
  rw [List.mem_singleton.mp among]
  exact differ

private theorem orderCatalog_distinct :
    (orderCatalog.tables.map fun table => (table.schema?, table.name?)).Nodup := by
  decide

private theorem orderSource_constrained : ∀ key ∈ orderSource.foreignKeys, ∀ pair ∈ key.pairs,
    some pair.fromColumn ∈ orderSource.columns.map CatalogColumn.name? := by
  decide

/-- No relation is given before that for the first foreign key of the orders. -/
private theorem mem_relations_of_first {relation : Relation}
    (first : (introspect orderCatalog .standard).relation? relation.id =
      (givenRelations (introspect orderCatalog .standard).tables
        ([oldOrderSource.entry "shop" "Orders", itemSource.entry "shop" "Item"] ++
          [⟨(orderSource.entry "shop" "orders").table, []⟩]) ++ [relation]).find?
            fun other => lower other.id = lower relation.id) :
    relation ∈ (introspect orderCatalog .standard).relations := by
  refine relation?_introspect_eq_some_iff.mp ?_
  rw [first]
  simp [givenRelations, CatalogTable.entry, oldOrderSource, itemSource]

/-- The orders are shown, and their first foreign key is represented by its complete pair. -/
theorem orders_shown_and_represented :
    (orderCatalog.tables.map fun table => (table.schema?, table.name?)).Nodup ∧
    (∀ key ∈ orderSource.foreignKeys, ∀ pair ∈ key.pairs,
      some pair.fromColumn ∈ orderSource.columns.map CatalogColumn.name?) ∧
    CatalogTable.IsVisible orderCatalog .standard "shop" "orders" orderSource ∧
    HoldsKey (orderCatalog.listedTables .standard) (orderSource.entry "shop" "orders") ∧
    (orderSource.entry "shop" "orders").table ∈ (introspect orderCatalog .standard).tables ∧
    ∃ relation ∈ (introspect orderCatalog .standard).relations,
      relation.Represents itemIdKey orderSource (orderSource.entry "shop" "orders").table
        (itemSource.entry "shop" "Item").table := by
  have visible : CatalogTable.IsVisible orderCatalog .standard "shop" "orders" orderSource :=
    isVisible_of_shop (by simp [orderCatalog]) rfl rfl (by decide) (by decide +kernel)
  obtain ⟨-, shown, represented⟩ :=
    visible_shown_and_represented orderCatalog_distinct orderSource_constrained visible
  obtain ⟨relation, represents, first⟩ := represented orders_hold itemSource "shop" "Item" items_hold
    [_, _] [] [] itemIdKey [itemCodeKey] orderCatalog_listed rfl rfl rfl (by decide)
  exact ⟨orderCatalog_distinct, orderSource_constrained, visible, orders_hold, shown.mpr orders_hold,
    relation, mem_relations_of_first first, represents⟩

/-- The old orders are not shown, since the orders have their key. No relation represents the second
foreign key of the orders, since the first one gives the same id. The relation for the first one is
required though one of its constrained columns is not. -/
theorem introspect_displaces_and_merges :
    (orderCatalog.tables.map fun table => (table.schema?, table.name?)).Nodup ∧
    (∀ table ∈ orderCatalog.tables, ∀ key ∈ table.foreignKeys, ∀ name ∈ key.constrained,
      name ∈ table.columns.map CatalogColumn.name?) ∧
    CatalogTable.IsVisible orderCatalog .standard "shop" "Orders" oldOrderSource ∧
    (∀ table ∈ (introspect orderCatalog .standard).tables,
      ¬ (table.schema = "shop" ∧ table.name = "Orders")) ∧
    (∀ relation ∈ (introspect orderCatalog .standard).relations,
      ¬ relation.Represents itemCodeKey orderSource (orderSource.entry "shop" "orders").table
        (itemSource.entry "shop" "Item").table) ∧
    (∃ relation ∈ (introspect orderCatalog .standard).relations,
      relation.Represents itemIdKey orderSource (orderSource.entry "shop" "orders").table
        (itemSource.entry "shop" "Item").table ∧ relation.join = .inner) ∧
    some "Note" ∈ itemIdKey.constrained ∧ ¬ orderSource.Requires "Note" := by
  have placed : orderCatalog.listedTables .standard =
      [oldOrderSource.entry "shop" "Orders", itemSource.entry "shop" "Item"] ++
        orderSource.entry "shop" "orders" :: [] := orderCatalog_listed
  have keys : orderSource.foreignKeys = [] ++ itemIdKey :: [itemCodeKey] := rfl
  obtain ⟨given, represents, first⟩ :=
    orders_hold.represented orderSource_constrained items_hold placed keys rfl rfl (by decide)
  have member := mem_relations_of_first first
  refine ⟨orderCatalog_distinct, by decide,
    isVisible_of_shop (by simp [orderCatalog]) rfl rfl (by decide) (by decide +kernel), ?_, ?_,
    ⟨given, member, represents, represents.join.mpr ?_⟩, by decide, ?_⟩
  · rintro table shown ⟨schema, name⟩
    obtain ⟨entry, holds, rfl⟩ := exists_holdsKey shown
    have key := (isShown_of_mem_listedTables holds.mem).key
    rw [schema, name] at key
    have same : lower entry.table.key = lower (tableKey "shop" "orders") := by
      rw [key]
      decide +kernel
    rw [holds.table_eq orders_hold same] at name
    exact absurd name (by decide)
  · intro other among merged
    have sameId : other.id = given.id := merged.id.trans represents.id.symm
    have found := relation?_introspect_eq_some_iff.mpr among
    rw [sameId, relation?_introspect_eq_some_iff.mpr member] at found
    have columns := represents.columns
    rw [Option.some.inj found, merged.columns] at columns
    exact absurd columns (by decide)
  · have pairs : itemIdKey.pairs = [⟨"ItemId", "Id"⟩] := by decide
    rw [pairs, List.forall_mem_singleton]
    exact ⟨_, rfl, rfl⟩
  · rintro ⟨column, found, required⟩
    obtain rfl := Option.some.inj found
    cases required

end ReportQuery.Schema
