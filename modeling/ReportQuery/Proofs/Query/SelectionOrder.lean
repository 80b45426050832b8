import ReportQuery.Proofs.Query.JoinOrder
import ReportQuery.Proofs.Query.Renumbering

set_option autoImplicit false
set_option relaxedAutoImplicit false

/-!
Selection order is irrelevant: descriptions that differ in the order of the relations and of the tables
after the anchor compile to statements that differ in the order of the joins and in the numbers of the
aliases only, or both fail.
-/

namespace ReportQuery.Query

open Schema (Snapshot Table Relation)
open Text (lower trim isBlankText distinctBy distinctBy_perm head?_distinctBy nodup_distinctBy
  nodup_map_distinctBy)

/-- The other description has the same anchor and otherwise its tables and relations in another order. -/
structure Description.IsReordering (description other : Description) : Prop where
  anchor : description.tables.head? = other.tables.head?
  tables : description.tables.Perm other.tables
  relations : description.relations.Perm other.relations
  fields : description.fields = other.fields
  filters : description.filters = other.filters
  sorts : description.sorts = other.sorts
  useDistinct : description.useDistinct = other.useDistinct

theorem Description.IsReordering.symm {description other : Description}
    (reordering : description.IsReordering other) : other.IsReordering description where
  anchor := reordering.anchor.symm
  tables := reordering.tables.symm
  relations := reordering.relations.symm
  fields := reordering.fields.symm
  filters := reordering.filters.symm
  sorts := reordering.sorts.symm
  useDistinct := reordering.useDistinct.symm

/-- With other numbers for the aliases, that of the anchor kept, the statements agree in all but the
order of the joins. -/
structure Compiled.AgreesUpTo (σ : Nat → Nat) (compiled other : Compiled) : Prop where
  anchored : σ 0 = 0
  joins : other.statement.joins.Perm (compiled.statement.renumber σ).joins
  others : other.statement =
    { compiled.statement.renumber σ with joins := other.statement.joins }
  parameterNames : other.parameterNames = compiled.parameterNames

/-- The lines are the same but for the order of those of the joins. -/
theorem Compiled.AgreesUpTo.lines_perm {σ : Nat → Nat} {compiled other : Compiled}
    (agrees : compiled.AgreesUpTo σ other) :
    other.statement.lines.Perm (compiled.statement.renumber σ).lines := by
  rw [agrees.others]
  unfold Statement.lines
  refine .append_right _ (.append_right _ (.append_right _ (.append_left _ ?_)))
  exact agrees.joins.map Join.render

variable {snapshot : Snapshot} {anchor : Table} {selected chosen : List Table}

section Resolution

variable {keys others ids otherIds : List String} {relations : List Relation}

private theorem tells_tables {texts : List String} :
    ∀ table ∈ texts.filterMap fun key => snapshot.table? (trim key),
      ∀ other ∈ texts.filterMap fun key => snapshot.table? (trim key),
        lower table.key = lower other.key → table = other := by
  intro table member other among same
  obtain ⟨key, -, found⟩ := List.mem_filterMap.mp member
  obtain ⟨otherKey, -, otherFound⟩ := List.mem_filterMap.mp among
  exact (isFound_of_table? found).eq (isFound_of_table? otherFound) same

private theorem tells_relations {texts : List String} :
    ∀ relation ∈ texts.filterMap fun id => snapshot.relation? (trim id),
      ∀ other ∈ texts.filterMap fun id => snapshot.relation? (trim id),
        lower relation.id = lower other.id → relation = other := by
  have sameId {id : String} {relation : Relation} (found : snapshot.relation? id = some relation) :
      lower relation.id = lower id := by
    simpa using List.find?_some found
  intro relation member other among same
  obtain ⟨id, -, found⟩ := List.mem_filterMap.mp member
  obtain ⟨otherId, -, otherFound⟩ := List.mem_filterMap.mp among
  have ids : lower (trim id) = lower (trim otherId) := by
    rw [← sameId found, ← sameId otherFound, same]
  rw [Snapshot.relation?, ids] at found
  exact Option.some.inj (found.symm.trans otherFound)

/-- Keys in another order select the same tables. -/
theorem selectedTables_perm (perm : keys.Perm others) :
    (selectedTables snapshot keys).Perm (selectedTables snapshot others) :=
  distinctBy_perm tells_tables (perm.filterMap _)

/-- Ids in another order ask for the same relations. -/
theorem requestedRelations_perm (perm : ids.Perm otherIds) :
    (requestedRelations snapshot ids).Perm (requestedRelations snapshot otherIds) :=
  distinctBy_perm tells_relations ((perm.filter _).filterMap _)

theorem resolveTables_perm (perm : keys.Perm others)
    (resolved : resolveTables snapshot keys = .ok selected) :
    resolveTables snapshot others = .ok (selectedTables snapshot others) := by
  obtain ⟨all, read, -⟩ := bind_eq_ok.mp resolved
  obtain ⟨all', read'⟩ := exists_mapM_eq_ok_iff.mpr fun key member =>
    exists_mapM_eq_ok_iff.mp ⟨all, read⟩ key (perm.mem_iff.mpr member)
  have again : ∃ tables, resolveTables snapshot others = .ok tables :=
    ⟨_, bind_eq_ok.mpr ⟨all', read', rfl⟩⟩
  obtain ⟨tables, again⟩ := again
  rw [again, eq_selectedTables again]

theorem resolveRelations_perm (perm : ids.Perm otherIds)
    (resolved : resolveRelations snapshot ids = .ok relations) :
    resolveRelations snapshot otherIds = .ok (requestedRelations snapshot otherIds) := by
  obtain ⟨all, read, -⟩ := bind_eq_ok.mp resolved
  obtain ⟨all', read'⟩ := exists_mapM_eq_ok_iff.mpr fun id member =>
    exists_mapM_eq_ok_iff.mp ⟨all, read⟩ id ((perm.filter _).mem_iff.mpr member)
  have again : ∃ relations, resolveRelations snapshot otherIds = .ok relations :=
    ⟨_, bind_eq_ok.mpr ⟨all', read', rfl⟩⟩
  obtain ⟨relations, again⟩ := again
  rw [again, eq_requestedRelations again]

/-- Every key that is resolved is the key of a table. -/
theorem exists_table?_of_resolveTables (resolved : resolveTables snapshot keys = .ok selected) :
    ∀ key ∈ keys, ∃ table, snapshot.table? (trim key) = some table := by
  obtain ⟨all, read, -⟩ := bind_eq_ok.mp resolved
  intro key member
  obtain ⟨table, found⟩ := exists_mapM_eq_ok_iff.mp ⟨all, read⟩ key member
  dsimp only at found
  split at found
  · cases found
  · split at found
    · exact ⟨_, by assumption⟩
    · cases found

/-- The anchor is the table of the first key. -/
theorem head?_selectedTables (same : keys.head? = others.head?)
    (resolved : resolveTables snapshot keys = .ok selected) :
    (selectedTables snapshot others).head? = selected.head? := by
  rw [eq_selectedTables resolved, selectedTables, selectedTables, head?_distinctBy, head?_distinctBy]
  cases keys with
  | nil =>
    obtain rfl : others = [] := List.head?_eq_none_iff.mp same.symm
    rfl
  | cons key rest =>
    obtain ⟨rest', rfl⟩ : ∃ rest', others = key :: rest' := List.head?_eq_some_iff.mp same.symm
    obtain ⟨table, found⟩ := exists_table?_of_resolveTables resolved key List.mem_cons_self
    simp only [List.filterMap_cons, found, List.head?_cons]

end Resolution

section Joins

variable {σ : Nat → Nat} {ids otherIds : List String} {joins : List Join} {last : Joining}
  {applied : List Relation}

namespace Joining

theorem renumber_equalityOf (fromJoined : Bool) (old new : Nat) (pair : Schema.ColumnPair) :
    (equalityOf fromJoined old new pair).renumber σ = equalityOf fromJoined (σ old) (σ new) pair := by
  cases fromJoined <;> rfl

/-- Other numbers of the tables are the numbers that a join is made with. -/
theorem renumber_joinOf (number : String → Nat) (side : Relation × Bool) :
    (joinOf snapshot number side).map (Join.renumber σ) =
      joinOf snapshot (fun key => σ (number key)) side := by
  rw [joinOf, joinOf, Option.map_map]
  congr 1
  funext new
  simp [Join.renumber, TableRef.renumber, Function.comp_def, renumber_equalityOf]

/-- Once all selected tables are joined, the tables with an alias are those that are joined. -/
theorem aliased_perm_joined (found : ∀ table ∈ anchor :: selected, IsFound snapshot table)
    (apart : (anchor :: selected).Nodup)
    (steps : Applies snapshot (start anchor (anchor :: selected)) applied last)
    (reached : ∀ table ∈ anchor :: selected, last.hasJoined table.key) :
    last.aliased.Perm last.joined ∧ last.joined.Nodup := by
  obtain ⟨more, numbers, -⟩ := (numbers_start found).applies found steps
  have distinct := numbers.distinct
  refine ⟨?_, distinct⟩
  rw [numbers.joined] at distinct
  rw [numbers.aliased, numbers.joined]
  refine (aliasOrder_perm apart (List.Nodup.of_map _ distinct) fun table member => ?_).map _
  exact numbers.mem_lines_of_joined (found table member) (hasJoined_iff.mp (reached table member))

end Joining

/-- Selected tables in another order, and the same relations: the joins are the same but for their
order and the numbers of the aliases. -/
theorem compileJoins_reorder (found : ∀ table ∈ anchor :: selected, IsFound snapshot table)
    (apart : ((anchor :: selected).map fun table => lower table.key).Nodup)
    (tables : (anchor :: selected).Perm (anchor :: chosen)) (relations : ids.Perm otherIds)
    (done : compileJoins snapshot anchor (anchor :: selected) ids = .ok joins) :
    ∃ (σ : Equiv.Perm Nat) (joins' : List Join),
      compileJoins snapshot anchor (anchor :: chosen) otherIds = .ok joins' ∧ σ 0 = 0 ∧
      Reorders σ (anchor :: selected) (anchor :: chosen) ∧
      joins'.Perm (joins.map (Join.renumber σ)) := by
  obtain ⟨requested, last, resolved, ran, reached, rfl⟩ := compileJoins_eq_ok_iff.mp done
  have perm : requested.Perm (requestedRelations snapshot otherIds) :=
    eq_requestedRelations resolved ▸ requestedRelations_perm relations
  obtain ⟨last', unused', ran', joined, rest⟩ := Joining.run_perm chosen found perm ran
  obtain rfl := rest rfl
  obtain ⟨applied, steps, -, -⟩ := Joining.applies_of_run ran
  obtain ⟨applied', steps', -, -⟩ := Joining.applies_of_run ran'
  have found' : ∀ table ∈ anchor :: chosen, IsFound snapshot table :=
    fun table member => found table (tables.mem_iff.mpr member)
  have reached' : ∀ table ∈ anchor :: chosen, last'.hasJoined table.key := fun table member =>
    Joining.hasJoined_iff.mpr
      ((joined _).mpr (Joining.hasJoined_iff.mp (reached table (tables.mem_iff.mpr member))))
  have distinct : (anchor :: selected).Nodup := List.Nodup.of_map _ apart
  obtain ⟨aliased, once⟩ := Joining.aliased_perm_joined found distinct steps reached
  obtain ⟨aliased', once'⟩ :=
    Joining.aliased_perm_joined found' (tables.nodup_iff.mp distinct) steps' reached'
  have same : last.joined.Perm last'.joined :=
    (List.perm_ext_iff_of_nodup once once').mpr fun key => (joined key).symm
  obtain ⟨σ, numbers⟩ := exists_renumber (aliased.nodup_iff.mpr once)
    ((aliased.trans same).trans aliased'.symm)
  -- the selected tables were given the first aliases
  have place {selected : List Table} {applied : List Relation} {last : Joining}
      (steps : Joining.Applies snapshot (.start anchor selected) applied last) {table : Table}
      (member : table ∈ selected) :
      placeOf selected (lower table.key) = last.aliased.idxOf (lower table.key) :=
    steps.prefix_aliased.idxOf_eq_of_mem (List.mem_map_of_mem member)
  have moved : ∀ table ∈ anchor :: selected, σ (placeOf (anchor :: selected) (lower table.key)) =
      placeOf (anchor :: chosen) (lower table.key) := fun table member => by
    rw [place steps member, place steps' (tables.mem_iff.mp member), numbers]
  obtain ⟨sides, joins, joins'⟩ := Joining.joins_perm perm ran ran'
  refine ⟨σ, last'.joins, ?_, ?_, ⟨apart, tables, moved⟩, ?_⟩
  · exact compileJoins_eq_ok_iff.mpr
      ⟨_, last', resolveRelations_perm relations resolved, ran', reached', rfl⟩
  · simpa [placeOf] using moved anchor List.mem_cons_self
  · rw [joins, List.map_filterMap]
    simp only [Joining.renumber_joinOf, Joining.aliasOf, numbers]
    exact joins'

/-- A missing relation is reported for the first selected table that is not joined. -/
theorem compileJoins_missing_iff {key : String} :
    compileJoins snapshot anchor selected ids = .error (.missingRelation key) ↔
      ∃ relations last unused table, resolveRelations snapshot ids = .ok relations ∧
        (Joining.start anchor selected).run snapshot relations = .ok (last, unused) ∧
        (selected.find? fun table => !last.hasJoined table.key) = some table ∧ table.key = key := by
  constructor
  · intro missing
    obtain failed | ⟨relations, resolved, missing⟩ := bind_eq_error.mp missing
    · obtain failed | ⟨all, -, failed⟩ := bind_eq_error.mp failed
      · obtain ⟨id, -, unknown⟩ := exists_of_mapM_eq_error failed
        split at unknown
        · cases unknown
        · cases unknown
      · cases failed
    · obtain failed | ⟨⟨last, unused⟩, ran, missing⟩ := bind_eq_error.mp missing
      · obtain ⟨id, other, unknown⟩ := Joining.eq_unknownEndpoint_of_run failed
        cases unknown
      · dsimp only at missing
        split at missing
        · rename_i table first
          exact ⟨relations, last, unused, table, resolved, ran, first,
            CompileError.missingRelation.inj (Except.error.inj missing)⟩
        · split at missing
          · cases missing
          · cases missing
  · rintro ⟨relations, last, unused, table, resolved, ran, first, rfl⟩
    simp only [compileJoins, resolved, ran, bind, Except.bind, first]

/-- Which table is reported does not depend on the order of the relations. -/
theorem compileJoins_missing_perm {key : String}
    (found : ∀ table ∈ anchor :: selected, IsFound snapshot table) (perm : ids.Perm otherIds)
    (missing : compileJoins snapshot anchor (anchor :: selected) ids = .error (.missingRelation key)) :
    compileJoins snapshot anchor (anchor :: selected) otherIds = .error (.missingRelation key) := by
  obtain ⟨relations, last, unused, table, resolved, ran, first, same⟩ :=
    compileJoins_missing_iff.mp missing
  have relationsPerm : relations.Perm (requestedRelations snapshot otherIds) :=
    eq_requestedRelations resolved ▸ requestedRelations_perm perm
  obtain ⟨last', unused', ran', joined, -⟩ := Joining.run_perm selected found relationsPerm ran
  have unjoined : (fun table : Table => !last'.hasJoined table.key) =
      fun table => !last.hasJoined table.key := by
    funext table
    rw [Bool.eq_iff_iff.mpr ((Joining.hasJoined_iff.trans (joined _)).trans Joining.hasJoined_iff.symm)]
  refine compileJoins_missing_iff.mpr
    ⟨_, last', unused', table, resolveRelations_perm perm resolved, ran', ?_, same⟩
  rw [unjoined]
  exact first

end Joins

section Compile

variable {description other : Description} {compiled compiled' : Compiled} {key : String}

/-- The other tables are those of the description, with the same anchor. -/
private theorem resolveTables_reorder (reordering : description.IsReordering other)
    (resolved : resolveTables snapshot description.tables = .ok (anchor :: selected)) :
    ∃ chosen, resolveTables snapshot other.tables = .ok (anchor :: chosen) ∧
      (anchor :: selected).Perm (anchor :: chosen) := by
  have first := head?_selectedTables reordering.anchor resolved
  obtain ⟨chosen, whole⟩ := List.head?_eq_some_iff.mp first
  refine ⟨chosen, ?_, ?_⟩
  · rw [resolveTables_perm reordering.tables resolved, whole]
  · rw [eq_selectedTables resolved, ← whole]
    exact selectedTables_perm reordering.tables

theorem compile_reorder (reordering : description.IsReordering other)
    (done : compile snapshot description = .ok compiled) :
    ∃ (σ : Equiv.Perm Nat) (compiled' : Compiled), compile snapshot other = .ok compiled' ∧
      compiled.AgreesUpTo σ compiled' := by
  obtain ⟨tables, resolved, done⟩ := bind_eq_ok.mp done
  cases tables with
  | nil => cases done
  | cons anchor selected =>
    obtain ⟨selection, fields, done⟩ := bind_eq_ok.mp done
    obtain ⟨conditions, filters, done⟩ := bind_eq_ok.mp done
    obtain ⟨order, sorts, done⟩ := bind_eq_ok.mp done
    obtain ⟨joins, joined, done⟩ := bind_eq_ok.mp done
    obtain rfl := Except.ok.inj done
    obtain ⟨chosen, resolved', tables⟩ := resolveTables_reorder reordering resolved
    have apart : ((anchor :: selected).map fun table => lower table.key).Nodup := by
      rw [eq_selectedTables resolved]
      exact nodup_map_distinctBy _ _
    obtain ⟨σ, joins', joined', anchored, reorders, perm⟩ :=
      compileJoins_reorder (isFound_of_resolveTables resolved) apart tables reordering.relations joined
    have fields' : compileSelection (anchor :: chosen) other.fields = .ok (selection.renumber σ) := by
      rw [← reordering.fields, compileSelection_reorder reorders anchored, fields]
      rfl
    have filters' : other.filters.mapM (compileFilter (anchor :: chosen)) =
        .ok (conditions.map (Condition.renumber σ)) := by
      rw [← reordering.filters, mapM_renumber (compileFilter_reorder reorders), filters]
      rfl
    have sorts' : other.sorts.mapM (compileSort (anchor :: chosen)) =
        .ok (order.map (OrderEntry.renumber σ)) := by
      rw [← reordering.sorts, mapM_renumber (compileSort_reorder reorders), sorts]
      rfl
    refine ⟨σ, _, bind_eq_ok.mpr ⟨_, resolved', bind_eq_ok.mpr ⟨_, fields', bind_eq_ok.mpr
      ⟨_, filters', bind_eq_ok.mpr ⟨_, sorts', bind_eq_ok.mpr ⟨_, joined', rfl⟩⟩⟩⟩⟩, ?_⟩
    exact {
      anchored := anchored
      joins := perm
      others := by
        rw [Statement.renumber, ← Selection.grouping_renumber σ.injective, TableRef.renumber]
        simp only [anchored, reordering.useDistinct]
      parameterNames := parameterNames_renumber conditions }

/-- With the tables in the same order the same table is reported to be missing a relation. -/
theorem compile_missing_reorder (reordering : description.IsReordering other)
    (tables : description.tables = other.tables)
    (missing : compile snapshot description = .error (.missingRelation key)) :
    compile snapshot other = .error (.missingRelation key) := by
  unfold compile at missing ⊢
  rw [← tables, ← reordering.fields, ← reordering.filters, ← reordering.sorts]
  obtain failed | ⟨tables, resolved, missing⟩ := bind_eq_error.mp missing
  · exact bind_eq_error.mpr (.inl failed)
  · refine bind_eq_error.mpr (.inr ⟨tables, resolved, ?_⟩)
    cases tables with
    | nil => exact missing
    | cons anchor selected =>
      obtain failed | ⟨selection, fields, missing⟩ := bind_eq_error.mp missing
      · exact bind_eq_error.mpr (.inl failed)
      obtain failed | ⟨conditions, filters, missing⟩ := bind_eq_error.mp missing
      · exact bind_eq_error.mpr (.inr ⟨selection, fields, bind_eq_error.mpr (.inl failed)⟩)
      obtain failed | ⟨order, sorts, missing⟩ := bind_eq_error.mp missing
      · exact bind_eq_error.mpr (.inr ⟨selection, fields, bind_eq_error.mpr (.inr ⟨conditions, filters,
          bind_eq_error.mpr (.inl failed)⟩)⟩)
      obtain failed | ⟨joins, -, missing⟩ := bind_eq_error.mp missing
      · have again := compileJoins_missing_perm (isFound_of_resolveTables resolved) reordering.relations
          failed
        exact bind_eq_error.mpr (.inr ⟨selection, fields, bind_eq_error.mpr (.inr ⟨conditions, filters,
          bind_eq_error.mpr (.inr ⟨order, sorts, bind_eq_error.mpr (.inl again)⟩)⟩)⟩)
      · cases missing

end Compile

/-- Selection order is irrelevant. Of two descriptions that differ only in the order of the relations and
of the tables after the anchor one compiles exactly if the other does, and then the statements agree up
to the numbers of the aliases and the order of the joins. With the tables in the same order, they report
the same table to be missing a relation. -/
theorem compile_selectionOrder {snapshot : Snapshot} {description other : Description}
    (reordering : description.IsReordering other) :
    ((∃ compiled, compile snapshot description = .ok compiled) ↔
      ∃ compiled, compile snapshot other = .ok compiled) ∧
    (∀ compiled compiled', compile snapshot description = .ok compiled →
      compile snapshot other = .ok compiled' → ∃ σ : Equiv.Perm Nat, compiled.AgreesUpTo σ compiled') ∧
    (description.tables = other.tables → ∀ key,
      compile snapshot description = .error (.missingRelation key) ↔
        compile snapshot other = .error (.missingRelation key)) := by
  refine ⟨⟨?_, ?_⟩, ?_, fun tables key => ⟨?_, ?_⟩⟩
  · rintro ⟨compiled, done⟩
    obtain ⟨-, compiled', done', -⟩ := compile_reorder reordering done
    exact ⟨compiled', done'⟩
  · rintro ⟨compiled, done⟩
    obtain ⟨-, compiled', done', -⟩ := compile_reorder reordering.symm done
    exact ⟨compiled', done'⟩
  · intro compiled compiled' done done'
    obtain ⟨σ, compiled'', done'', agrees⟩ := compile_reorder reordering done
    rw [done'] at done''
    obtain rfl := Except.ok.inj done''
    exact ⟨σ, agrees⟩
  · exact compile_missing_reorder reordering tables
  · exact compile_missing_reorder reordering.symm tables.symm

/-- The lines and the items of the orders, in two orders. -/
def linesFirst : Description where
  tables := ["shop.Order", "shop.Line", "shop.Item"]
  fields := [⟨"shop.Item", "Price", none, none⟩]
  relations := ["line->order", "line->item"]

def itemsFirst : Description where
  tables := ["shop.Order", "shop.Item", "shop.Line"]
  fields := [⟨"shop.Item", "Price", none, none⟩]
  relations := ["line->item", "line->order"]

/-- Both compile, and the alias of the items is a different one. -/
theorem priced_selectionOrder :
    linesFirst.IsReordering itemsFirst ∧
    ∃ compiled compiled', compile pricedSnapshot linesFirst = .ok compiled ∧
      compile pricedSnapshot itemsFirst = .ok compiled' ∧
      compiled.statement.selection = .items [⟨⟨2, "Price"⟩, none, none⟩] ∧
      compiled'.statement.selection = .items [⟨⟨1, "Price"⟩, none, none⟩] ∧
      ∃ σ : Equiv.Perm Nat, compiled.AgreesUpTo σ compiled' := by
  have reordering : linesFirst.IsReordering itemsFirst :=
    ⟨rfl, by decide, by decide, rfl, rfl, rfl, rfl⟩
  have first : ∃ compiled, compile pricedSnapshot linesFirst = .ok compiled ∧
      compiled.statement.selection = .items [⟨⟨2, "Price"⟩, none, none⟩] := by
    refine ⟨⟨⟨false, .items [⟨⟨2, "Price"⟩, none, none⟩], ⟨"shop", "Order", 0⟩,
      [⟨.left, ⟨"shop", "Line", 1⟩, [⟨⟨0, "Id"⟩, ⟨1, "OrderId"⟩⟩]⟩,
        ⟨.inner, ⟨"shop", "Item", 2⟩, [⟨⟨1, "ItemId"⟩, ⟨2, "Id"⟩⟩]⟩], [], [], []⟩, []⟩, ?_, rfl⟩
    decide +kernel
  have second : ∃ compiled, compile pricedSnapshot itemsFirst = .ok compiled ∧
      compiled.statement.selection = .items [⟨⟨1, "Price"⟩, none, none⟩] := by
    refine ⟨⟨⟨false, .items [⟨⟨1, "Price"⟩, none, none⟩], ⟨"shop", "Order", 0⟩,
      [⟨.left, ⟨"shop", "Line", 2⟩, [⟨⟨0, "Id"⟩, ⟨2, "OrderId"⟩⟩]⟩,
        ⟨.inner, ⟨"shop", "Item", 1⟩, [⟨⟨2, "ItemId"⟩, ⟨1, "Id"⟩⟩]⟩], [], [], []⟩, []⟩, ?_, rfl⟩
    decide +kernel
  obtain ⟨compiled, done, selected⟩ := first
  obtain ⟨compiled', done', selected'⟩ := second
  exact ⟨reordering, compiled, compiled', done, done', selected, selected',
    (compile_selectionOrder reordering).2.1 compiled compiled' done done'⟩

end ReportQuery.Query
