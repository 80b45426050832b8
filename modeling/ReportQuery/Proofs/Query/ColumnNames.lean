import ReportQuery.Proofs.Query.Aliases
import ReportQuery.Proofs.Query.Renumbering

set_option autoImplicit false
set_option relaxedAutoImplicit false

/-!
The names of the columns of a compiled statement: the labels of the fields, and else the names that the
snapshot has for the columns. Two fields may ask for one name, since the compiler gives no names of its own.
-/

namespace ReportQuery.Query

open Schema (Snapshot Table Column)
open Text (lower trim)

/-- The name that an entry of the select list gives to its column: the label, and else the name of a column
that is selected plainly. The database names what is left. -/
def entryName? (item : SelectItem) : Option String :=
  match item.label?, item.aggregate? with
  | some label, _ => some label
  | none, some _ => none
  | none, none => some item.source.column

/-- The name of the column that a field asks for: its alias where that is a plain name, and else the name
that the snapshot has for the column. -/
def fieldName? (snapshot : Snapshot) (field : Field) : Option String :=
  match safeAlias? field.alias?, aggregateName? field.aggregate? with
  | some label, _ => some label
  | none, some _ => none
  | none, none =>
    ((snapshot.table? (trim field.tableKey)).bind fun table => table.column? (trim field.columnName)).map
      Column.name

/-- The column that a table key and a column name stand for: the key of the table, case aside, and the name
that the snapshot has for the column. -/
def namedColumn? (snapshot : Snapshot) (tableKey columnName : String) : Option (String × String) :=
  (snapshot.table? (trim tableKey)).bind fun table =>
    (table.column? (trim columnName)).map fun column => (lower table.key, column.name)

/-- A cursor whose columns are named by the select list. -/
def NamedBy (entries : List SelectItem) (columns : List String) : Prop :=
  List.Forall₂ (fun item column => ∀ name ∈ entryName? item, column = name) entries columns

variable {snapshot : Snapshot} {tables : List Table} {field : Field} {item : SelectItem}
  {columns : List String}

/-- A column that resolves is the one that the snapshot has under the names, of a selected table that is
known by its place. -/
theorem exists_table_of_resolveColumn {usage : Usage} {tableKey columnName : String}
    {source : ColumnRef} (found : ∀ table ∈ tables, IsFound snapshot table)
    (resolved : resolveColumn tables usage tableKey columnName = .ok source) :
    ∃ table ∈ tables,
      namedColumn? snapshot tableKey columnName = some (lower table.key, source.column) ∧
        source.number = placeOf tables (lower table.key) := by
  unfold resolveColumn at resolved
  rw [selected?_eq] at resolved
  cases chosen : tables.find? fun table => lower table.key = lower (trim tableKey) with
  | none =>
    rw [chosen] at resolved
    cases resolved
  | some table =>
    have member := List.mem_of_find?_eq_some chosen
    have same : lower table.key = lower (trim tableKey) := by simpa using List.find?_some chosen
    have isFound : snapshot.table? table.key = some table := found table member
    rw [table?_congr same] at isFound
    rw [chosen, Option.map_some] at resolved
    dsimp only at resolved
    split at resolved
    · rename_i column column?
      obtain rfl := Except.ok.inj resolved
      refine ⟨table, member, ?_, rfl⟩
      split at column?
      · cases column?
      · rw [namedColumn?, isFound, Option.bind_some, column?, Option.map_some]
    · cases resolved

theorem column_of_resolveColumn {usage : Usage} {tableKey columnName : String}
    {source : ColumnRef} (found : ∀ table ∈ tables, IsFound snapshot table)
    (resolved : resolveColumn tables usage tableKey columnName = .ok source) :
    ((snapshot.table? (trim tableKey)).bind fun table => table.column? (trim columnName)).map
      Column.name = some source.column := by
  obtain ⟨table, -, named, -⟩ := exists_table_of_resolveColumn found resolved
  have spelled := congrArg (Option.map Prod.snd) named
  simpa [namedColumn?, Option.map_bind, Function.comp_def] using spelled

/-- An entry is plain exactly if its field asks for no aggregate function. -/
theorem eq_none_iff_of_resolveAggregate {text? : Option String} {aggregate? : Option Aggregate}
    (resolved : resolveAggregate text? = .ok aggregate?) :
    aggregate? = none ↔ aggregateName? text? = none := by
  cases text? with
  | none =>
    obtain rfl := Except.ok.inj resolved
    exact iff_of_true rfl rfl
  | some text =>
    unfold resolveAggregate at resolved
    cases asked : aggregateName? (some text) with
    | none =>
      rw [asked] at resolved
      obtain rfl := Except.ok.inj resolved
      exact iff_of_true rfl rfl
    | some name =>
      rw [asked] at resolved
      dsimp only at resolved
      split at resolved
      · obtain rfl := Except.ok.inj resolved
        simp
      · cases resolved

/-- The entry for a field gives its column the name that the field asks for. -/
theorem entryName?_of_compileField (found : ∀ table ∈ tables, IsFound snapshot table)
    (done : compileField tables field = .ok item) :
    entryName? item = fieldName? snapshot field := by
  obtain ⟨source, resolved, done⟩ := bind_eq_ok.mp done
  obtain ⟨aggregate?, chosen, done⟩ := bind_eq_ok.mp done
  obtain rfl := Except.ok.inj done
  have plain := eq_none_iff_of_resolveAggregate chosen
  unfold entryName? fieldName?
  rw [column_of_resolveColumn found resolved]
  cases safeAlias? field.alias? with
  | some label => rfl
  | none =>
    cases aggregate? with
    | none => rw [plain.mp rfl]
    | some aggregate =>
      cases asked : aggregateName? field.aggregate? with
      | none => cases plain.mpr asked
      | some name => rfl

/-- A cursor of a compiled statement has the names that the fields ask for, and no others. -/
theorem columns_of_compile {description : Description} {compiled : Compiled} {entries : List SelectItem}
    (done : compile snapshot description = .ok compiled)
    (selects : compiled.statement.selection = .items entries) (named : NamedBy entries columns) :
    List.Forall₂ (fun field column => ∀ name ∈ fieldName? snapshot field, column = name)
      description.fields columns := by
  obtain ⟨anchor, others, parts⟩ := compiledFrom_of_compile done
  have found := isFound_of_resolveTables parts.tables
  obtain ⟨-, everything⟩ | ⟨-, entries', read, same⟩ := compileSelection_cases parts.selection
  · rw [selects] at everything
    cases everything
  · obtain rfl : entries = entries' := by
      rw [selects] at same
      cases same
      rfl
    have each := mapM_eq_ok_iff.mp read
    generalize description.fields = fields at each
    clear parts read same selects done
    induction each generalizing columns with
    | nil =>
      cases named
      exact .nil
    | cons done _ ih =>
      obtain ⟨column, columns, here, there, rfl⟩ := List.forall₂_cons_left_iff.mp named
      rw [entryName?_of_compileField found done] at here
      exact .cons here (ih there)

/-- Names that are all different are asked for by different fields; where every field asks for one, that is
enough. -/
theorem nodup_of_forall₂ {fields : List Field}
    (each : List.Forall₂ (fun field column => ∀ name ∈ fieldName? snapshot field, column = name) fields
      columns) :
    (columns.Nodup → (fields.filterMap (fieldName? snapshot)).Nodup) ∧
      ((∀ field ∈ fields, (fieldName? snapshot field).isSome) →
        columns = fields.filterMap (fieldName? snapshot)) := by
  have within : (fields.filterMap (fieldName? snapshot)).Sublist columns := by
    induction each with
    | nil => exact List.Sublist.refl _
    | @cons field column fields columns here _ ih =>
      cases name : fieldName? snapshot field with
      | none =>
        rw [List.filterMap_cons_none name]
        exact ih.cons column
      | some text =>
        rw [List.filterMap_cons_some name, here text name]
        exact ih.cons_cons text
  refine ⟨fun apart => apart.sublist within, fun all => (within.eq_of_length ?_).symm⟩
  rw [List.length_filterMap_eq_countP, List.countP_eq_length.mpr all, each.length_eq]

end ReportQuery.Query
