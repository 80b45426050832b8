import Mathlib
import ReportQuery.Proofs.Query.ColumnNames
import ReportQuery.Proofs.Query.PlainText
import ReportQuery.Proofs.Sql.Mark

set_option autoImplicit false
set_option relaxedAutoImplicit false

/-!
Grouped queries. A compiled statement with an aggregate function groups by the columns that it selects
plainly. What it sorts by is taken from the description as it stands, so the statement follows the
grouping rule of SQL just where every sort names a column that is selected plainly as well.
-/

namespace ReportQuery.Query

open Schema (Snapshot Table)
open Sql (all_isNameChar_of_isPlainName)
open Text (lower trim isNameChar quoteIdentifier Quoted.inside_enclose mem_distinct nodup_distinct
  takeWhile_append_stop)

/-- The columns that are selected without an aggregate function. -/
def Selection.plainColumns : Selection → List ColumnRef
  | everything _ => []
  | items entries => (entries.filter fun item => item.aggregate?.isNone).map SelectItem.source

namespace Statement

/-- The references of the GROUP BY clause. -/
def groups (statement : Statement) : List String :=
  statement.grouping.map ColumnRef.render

/-- The GROUP BY clause lists the columns that are selected plainly, each of them once. -/
structure GroupsSelection (statement : Statement) : Prop where
  selected : ∀ ref ∈ statement.selection.plainColumns, ref.render ∈ statement.groups
  once : statement.groups.Nodup
  plain : ∀ text ∈ statement.groups, ∃ ref ∈ statement.selection.plainColumns, ref.render = text

/-- The grouping rule: what is selected or sorted by without an aggregate function is grouped by. -/
structure FollowsGroupingRule (statement : Statement) : Prop extends GroupsSelection statement where
  ordered : ∀ entry ∈ statement.order, entry.source.render ∈ statement.groups

end Statement

/-- Some field selects, without an aggregate function, the column that the sort names. -/
def Description.SelectsPlainly (snapshot : Snapshot) (description : Description) (sort : SortKey) :
    Prop :=
  ∃ field ∈ description.fields, aggregateName? field.aggregate? = none ∧
    namedColumn? snapshot field.tableKey field.columnName =
      namedColumn? snapshot sort.tableKey sort.columnName

variable {snapshot : Snapshot} {tables : List Table} {description : Description} {compiled : Compiled}

section References

/-- No two references are written alike. -/
theorem ColumnRef.render_injective : Function.Injective ColumnRef.render := by
  intro ref other same
  have text (ref : ColumnRef) : ref.render.toList =
      (aliasText ref.number).toList ++ '.' :: (quoteIdentifier ref.column).toList := by
    rw [ColumnRef.render, String.toList_append, String.toList_append, List.append_assoc]
    rfl
  have parts (ref : ColumnRef) :
      ref.render.toList.takeWhile isNameChar = (aliasText ref.number).toList ∧
        ref.render.toList.dropWhile isNameChar = '.' :: (quoteIdentifier ref.column).toList := by
    rw [text]
    refine takeWhile_append_stop (all_isNameChar_of_isPlainName (isPlainName_aliasText _)) ?_
    intro c first
    obtain rfl := Option.some.inj first
    decide
  obtain ⟨name, column⟩ := parts ref
  rw [same] at name column
  have number := String.toList_injective (name.symm.trans (parts other).1)
  have quoted := (List.cons.inj (column.symm.trans (parts other).2)).2
  rw [quoteIdentifier, quoteIdentifier, String.toList_ofList, String.toList_ofList] at quoted
  have spelled := congrArg (Text.Quoted.inside '"') quoted
  rw [Text.Quoted.inside_enclose, Text.Quoted.inside_enclose] at spelled
  cases ref
  cases other
  exact congrArg₂ ColumnRef.mk (aliasText_inj number) (String.toList_injective spelled)

/-- References that resolve are the same exactly if the names stand for the same column. -/
theorem eq_iff_namedColumn? {usage usage' : Usage} {tableKey columnName tableKey' columnName' : String}
    {source source' : ColumnRef} (found : ∀ table ∈ tables, IsFound snapshot table)
    (resolved : resolveColumn tables usage tableKey columnName = .ok source)
    (resolved' : resolveColumn tables usage' tableKey' columnName' = .ok source') :
    source = source' ↔
      namedColumn? snapshot tableKey columnName = namedColumn? snapshot tableKey' columnName' := by
  obtain ⟨table, member, named, place⟩ := exists_table_of_resolveColumn found resolved
  obtain ⟨table', member', named', place'⟩ := exists_table_of_resolveColumn found resolved'
  rw [named, named', Option.some.injEq, Prod.mk.injEq]
  constructor
  · rintro rfl
    -- A place is the first one of its key, so keys in the same place are the same.
    have same := place.symm.trans place'
    rw [placeOf, placeOf] at same
    have among : lower table.key ∈ tables.map fun table => lower table.key :=
      List.mem_map_of_mem member
    exact ⟨(List.idxOf_inj among).mp same, rfl⟩
  · rintro ⟨key, column⟩
    rw [key, ← place'] at place
    cases source
    cases source'
    exact congrArg₂ ColumnRef.mk place column

end References

section Grouping

theorem Selection.mem_plainColumns {entries : List SelectItem} {ref : ColumnRef} :
    ref ∈ (Selection.items entries).plainColumns ↔
      ∃ item ∈ entries, item.aggregate? = none ∧ item.source = ref := by
  simp [Selection.plainColumns, and_assoc]

/-- A statement that selects some column through an aggregate function groups by its plain columns. -/
theorem Selection.grouping_of_aggregated {entries : List SelectItem}
    (aggregated : ∃ item ∈ entries, item.aggregate? ≠ none) :
    (Selection.items entries).grouping = Text.distinct (Selection.items entries).plainColumns := by
  have some_ : entries.any fun item => item.aggregate?.isSome := by
    obtain ⟨item, member, aggregate⟩ := aggregated
    exact List.any_eq_true.mpr ⟨item, member, Option.isSome_iff_ne_none.mpr aggregate⟩
  rw [Selection.grouping, if_pos some_, Selection.plainColumns]

theorem Statement.mem_groups {statement : Statement} {ref : ColumnRef}
    (grouped : statement.grouping = Text.distinct statement.selection.plainColumns) :
    ref.render ∈ statement.groups ↔ ref ∈ statement.selection.plainColumns := by
  rw [Statement.groups, List.mem_map_of_injective ColumnRef.render_injective, grouped, mem_distinct]

theorem Statement.groupsSelection {statement : Statement}
    (grouped : statement.grouping = Text.distinct statement.selection.plainColumns) :
    statement.GroupsSelection where
  selected := fun _ member => (mem_groups grouped).mpr member
  once := by
    rw [groups, grouped]
    exact (nodup_distinct _).map ColumnRef.render_injective
  plain := by
    intro text member
    obtain ⟨ref, among, rfl⟩ := List.mem_map.mp member
    rw [grouped, mem_distinct] at among
    exact ⟨ref, among, rfl⟩

/-- The entries of a select list are plain just where their fields ask for no aggregate function. -/
theorem exists_plain_iff {fields : List Field} {entries : List SelectItem} {sort : SortKey}
    {order : OrderEntry} (found : ∀ table ∈ tables, IsFound snapshot table)
    (read : fields.mapM (compileField tables) = .ok entries)
    (sorted : compileSort tables sort = .ok order) :
    (∃ item ∈ entries, item.aggregate? = none ∧ item.source = order.source) ↔
      ∃ field ∈ fields, aggregateName? field.aggregate? = none ∧
        namedColumn? snapshot field.tableKey field.columnName =
          namedColumn? snapshot sort.tableKey sort.columnName := by
  obtain ⟨source, ordered, sorted⟩ := bind_eq_ok.mp sorted
  have same : order.source = source := by
    split at sorted
    · rw [← Except.ok.inj sorted]
    · cases sorted
  have each {field : Field} {item : SelectItem} (done : compileField tables field = .ok item) :
      (item.aggregate? = none ∧ item.source = order.source) ↔
        aggregateName? field.aggregate? = none ∧
          namedColumn? snapshot field.tableKey field.columnName =
            namedColumn? snapshot sort.tableKey sort.columnName := by
    obtain ⟨selected, resolved, done⟩ := bind_eq_ok.mp done
    obtain ⟨aggregate?, chosen, done⟩ := bind_eq_ok.mp done
    obtain rfl := Except.ok.inj done
    rw [same]
    exact and_congr (eq_none_iff_of_resolveAggregate chosen) (eq_iff_namedColumn? found resolved ordered)
  constructor
  · rintro ⟨item, member, plain⟩
    obtain ⟨field, among, done⟩ := exists_of_mem_mapM read member
    exact ⟨field, among, (each done).mp plain⟩
  · rintro ⟨field, member, plain⟩
    obtain ⟨item, among, done⟩ := exists_mem_of_mapM read member
    exact ⟨item, among, (each done).mpr plain⟩

end Grouping

/-- A compiled statement with an aggregate function groups by the columns that it selects plainly, each
once. A column that it sorts by is among them exactly if a field selects it plainly, so the statement
follows the grouping rule exactly if every sort names a column that is selected plainly. -/
theorem compile_grouping (done : compile snapshot description = .ok compiled)
    (aggregated : ∃ field ∈ description.fields, aggregateName? field.aggregate? ≠ none) :
    let statement := compiled.statement
    statement.GroupsSelection ∧
      List.Forall₂ (fun sort entry => entry.source.render ∈ statement.groups ↔
        description.SelectsPlainly snapshot sort) description.sorts statement.order ∧
      (statement.FollowsGroupingRule ↔
        ∀ sort ∈ description.sorts, description.SelectsPlainly snapshot sort) := by
  intro statement
  obtain ⟨anchor, others, parts⟩ := compiledFrom_of_compile done
  have found := isFound_of_resolveTables parts.tables
  obtain ⟨none_, -⟩ | ⟨-, entries, read, selects⟩ := compileSelection_cases parts.selection
  · -- Without fields nothing is aggregated.
    obtain ⟨field, member, -⟩ := aggregated
    rw [none_] at member
    cases member
  · have mixed : ∃ item ∈ entries, item.aggregate? ≠ none := by
      obtain ⟨field, member, asked⟩ := aggregated
      obtain ⟨item, among, done⟩ := exists_mem_of_mapM read member
      obtain ⟨source, -, done⟩ := bind_eq_ok.mp done
      obtain ⟨aggregate?, chosen, done⟩ := bind_eq_ok.mp done
      obtain rfl := Except.ok.inj done
      exact ⟨_, among, fun plain => asked ((eq_none_iff_of_resolveAggregate chosen).mp plain)⟩
    have grouped : statement.grouping = Text.distinct statement.selection.plainColumns := by
      rw [parts.grouping, selects, Selection.grouping_of_aggregated mixed]
    have groups := Statement.groupsSelection grouped
    have each {sort : SortKey} {entry : OrderEntry}
        (sorted : compileSort (anchor :: others) sort = .ok entry) :
        entry.source.render ∈ statement.groups ↔ description.SelectsPlainly snapshot sort := by
      rw [Statement.mem_groups grouped, selects, Selection.mem_plainColumns,
        exists_plain_iff found read sorted]
      rfl
    refine ⟨groups, (mapM_eq_ok_iff.mp parts.order).imp fun _ _ => each, ?_⟩
    constructor
    · intro rule sort member
      obtain ⟨entry, among, sorted⟩ := exists_mem_of_mapM parts.order member
      exact (each sorted).mp (rule.ordered entry among)
    · refine fun plain => ⟨groups, fun entry member => ?_⟩
      obtain ⟨sort, among, sorted⟩ := exists_of_mem_mapM parts.order member
      exact (each sorted).mpr (plain sort among)

/-- Numbered orders with a status and a total. -/
def totalsSnapshot : Snapshot where
  tables := [⟨"shop.Order", "shop", "Order", "",
    [⟨"Number", "", false⟩, ⟨"Status", "", false⟩, ⟨"Total", "", true⟩]⟩]

/-- The totals by status, which is selected a second time in another spelling. -/
def totalsByStatus : Description where
  tables := ["shop.Order"]
  fields := [⟨"shop.Order", "Status", none, none⟩, ⟨"shop.Order", "Total", none, some " sum "⟩,
    ⟨"SHOP.ORDER", " status ", some "again", none⟩]
  sorts := [⟨"shop.order", "STATUS", "desc"⟩]

theorem totalsByStatus_followsGroupingRule :
    ∃ compiled, compile totalsSnapshot totalsByStatus = .ok compiled ∧
      compiled.statement.groups = ["t0.\"Status\""] ∧ compiled.statement.FollowsGroupingRule := by
  have done : ∃ compiled, compile totalsSnapshot totalsByStatus = .ok compiled ∧
      compiled.statement.grouping = [⟨0, "Status"⟩] := by
    refine ⟨⟨⟨false, .items [⟨⟨0, "Status"⟩, none, none⟩, ⟨⟨0, "Total"⟩, some .sum, none⟩,
      ⟨⟨0, "Status"⟩, none, some "again"⟩],
      ⟨"shop", "Order", 0⟩, [], [], [⟨0, "Status"⟩], [⟨⟨0, "Status"⟩, .descending⟩]⟩, []⟩, ?_, rfl⟩
    cbv
  obtain ⟨compiled, done, grouping⟩ := done
  have plain : ∀ sort ∈ totalsByStatus.sorts, totalsByStatus.SelectsPlainly totalsSnapshot sort := by
    intro sort member
    obtain rfl := List.mem_singleton.mp member
    exact ⟨⟨"shop.Order", "Status", none, none⟩, List.mem_cons_self, rfl, by decide⟩
  refine ⟨compiled, done, ?_, (compile_grouping done ?_).2.2.mpr plain⟩
  · rw [Statement.groups, grouping]
    decide
  · exact ⟨⟨"shop.Order", "Total", none, some " sum "⟩, by simp [totalsByStatus], by decide⟩

/-- The sum of all totals, sorted by a number that the single row of the answer does not have. -/
def sumByNumber : Description where
  tables := ["shop.Order"]
  fields := [⟨"shop.Order", "Total", none, some "SUM"⟩]
  sorts := [⟨"shop.Order", "Number", "ASC"⟩]

/-- A sort by a column that no field selects plainly breaks the grouping rule. -/
theorem sumByNumber_not_followsGroupingRule :
    ∃ compiled, compile totalsSnapshot sumByNumber = .ok compiled ∧
      (∃ field ∈ sumByNumber.fields, aggregateName? field.aggregate? ≠ none) ∧
      ¬ compiled.statement.FollowsGroupingRule := by
  refine ⟨⟨⟨false, .items [⟨⟨0, "Total"⟩, some .sum, none⟩], ⟨"shop", "Order", 0⟩, [], [], [],
    [⟨⟨0, "Number"⟩, .ascending⟩]⟩, []⟩, by cbv, ?_, ?_⟩
  · exact ⟨⟨"shop.Order", "Total", none, some "SUM"⟩, List.mem_cons_self, by decide⟩
  · intro rule
    cases rule.ordered _ List.mem_cons_self

end ReportQuery.Query
