import ReportQuery.Proofs.Query.CompiledNames
import ReportQuery.Proofs.Query.JoinTree

set_option autoImplicit false
set_option relaxedAutoImplicit false

/-!
Which aliases a compiled statement gives its tables. Selected tables are numbered in the order of
their selection, tables that are reached through relations only in the order in which they are
joined. Every alias is introduced by one line, and no line uses an alias before its introduction.
-/

namespace ReportQuery.Query

open Schema (Snapshot Table Relation)
open Text (lower trim addNew prefix_addNew mem_distinct mem_of_mem_distinctBy nodup_map_distinctBy)

/-- No two numbers give the same alias. -/
theorem aliasText_inj {m n : Nat} (same : aliasText m = aliasText n) : m = n := by
  have digits : Nat.toDigits 10 m = Nat.toDigits 10 n := by
    simpa [aliasText, Nat.toList_repr] using congrArg String.toList same
  calc
    m = Nat.ofDigitChars 10 (Nat.toDigits 10 m) 0 := Nat.ofDigitChars_ten_toDigits.symm
    _ = Nat.ofDigitChars 10 (Nat.toDigits 10 n) 0 := by rw [digits]
    _ = n := Nat.ofDigitChars_ten_toDigits

/-- The numbers of the aliases in a select list. -/
def Selection.numbers : Selection → List Nat
  | everything number => [number]
  | items entries => entries.map fun item => item.source.number

namespace Statement

/-- The tables that the lines introduce: that of FROM and those of the joins. -/
def sources (statement : Statement) : List TableRef :=
  statement.anchor :: statement.joins.map Join.table

/-- The numbers of the aliases in the select list, the conditions, the grouping and the order. -/
def usedNumbers (statement : Statement) : List Nat :=
  statement.selection.numbers ++
  statement.conditions.map (fun condition => condition.source.number) ++
  statement.grouping.map ColumnRef.number ++
  statement.order.map fun entry => entry.source.number

/-- Every alias is introduced once, and what uses it comes after that. -/
structure WellScoped (statement : Statement) : Prop where
  distinct : (statement.sources.map fun source => aliasText source.number).Nodup
  used : ∀ number ∈ statement.usedNumbers, number ∈ statement.sources.map TableRef.number
  /-- A join compares a table of an earlier line with its own. -/
  on : ∀ before join after, statement.joins = before ++ join :: after → ∀ equality ∈ join.on,
    equality.left.number ∈ (statement.anchor :: before.map Join.table).map TableRef.number ∧
      equality.right.number = join.table.number

end Statement

/-- The tables in the order of their aliases: those selected, then the others in the order in which
they are joined. -/
def aliasOrder (selected lines : List Table) : List Table :=
  selected ++ lines.filter fun table => table ∉ selected

variable {snapshot : Snapshot} {tables : List Table}

section Found

/-- The table is the one that the snapshot finds by the table's key. -/
def IsFound (snapshot : Snapshot) (table : Table) : Prop :=
  snapshot.table? table.key = some table

theorem table?_congr {key other : String} (same : lower key = lower other) :
    snapshot.table? key = snapshot.table? other := by
  rw [Snapshot.table?, Snapshot.table?, same]

theorem isFound_of_table? {key : String} {table : Table}
    (found : snapshot.table? key = some table) : IsFound snapshot table := by
  rw [IsFound, table?_congr (lower_key_of_table? found), found]

theorem IsFound.eq {table other : Table} (here : IsFound snapshot table)
    (there : IsFound snapshot other) (same : lower table.key = lower other.key) : table = other := by
  rw [IsFound, table?_congr same, there] at here
  exact (Option.some.inj here).symm

end Found

namespace Joining

variable {state next last : Joining} {relation : Relation} {pending deferred unused : List Relation}

/-- The lines so far have joined these tables, and the aliases are numbered as the tables stand in
the order of aliases. -/
structure Numbers (snapshot : Snapshot) (anchor : TableRef) (selected lines : List Table)
    (state : Joining) : Prop where
  found : ∀ table ∈ lines, IsFound snapshot table
  joined : state.joined = lines.map fun table => lower table.key
  distinct : state.joined.Nodup
  aliased : state.aliased = (aliasOrder selected lines).map fun table => lower table.key
  sources : anchor :: state.joins.map Join.table =
    lines.map fun table => ⟨table.schema, table.name, state.aliasOf (lower table.key)⟩
  on : ∀ before join after, state.joins = before ++ join :: after → ∀ equality ∈ join.on,
    equality.left.number ∈ (anchor :: before.map Join.table).map TableRef.number ∧
      equality.right.number = join.table.number

theorem numbers_start {anchor : Table} {others : List Table}
    (found : ∀ table ∈ anchor :: others, IsFound snapshot table) :
    Numbers snapshot ⟨anchor.schema, anchor.name, 0⟩ (anchor :: others) [anchor]
      (start anchor (anchor :: others)) where
  found := by
    intro table member
    obtain rfl := List.mem_singleton.mp member
    exact found _ List.mem_cons_self
  joined := rfl
  distinct := List.nodup_singleton _
  aliased := by simp [start, aliasOrder]
  sources := by simp [start, aliasOf]
  on := by simp [start]

private theorem addNew_of_mem {keys : List String} {key : String} (member : key ∈ keys) :
    addNew keys key = keys := by
  rw [addNew, if_pos (List.contains_iff_mem.mpr member)]

/-- Giving an alias to two tables, of which one has one, gives one to the other. -/
private theorem addNew_both {keys : List String} {old new : String} (known : old ∈ keys)
    (oldFirst : Bool) :
    (if oldFirst then addNew (addNew keys old) new else addNew (addNew keys new) old) =
      addNew keys new := by
  cases oldFirst with
  | true => rw [if_pos rfl, addNew_of_mem known]
  | false => exact addNew_of_mem ((prefix_addNew keys new).mem known)

/-- Of the tables of a relation that can be applied one was joined. -/
private theorem joined_of_half {old new : Table} (half : ¬ state.IsStuck relation)
    (isOld : snapshot.table? (if state.hasJoined relation.fromTable then relation.fromTable
      else relation.toTable) = some old)
    (isNew : snapshot.table? (if state.hasJoined relation.fromTable then relation.toTable
      else relation.fromTable) = some new) :
    lower old.key ∈ state.joined ∧ lower new.key ∉ state.joined := by
  rw [← newTable_eq_of_old isOld, ← newTable_eq_of_new isNew]
  exact newTable_of_half half

variable {anchor : TableRef} {selected lines : List Table} {applied : List Relation}

/-- A table that was joined is on a line. -/
theorem Numbers.mem_lines_of_joined (numbers : Numbers snapshot anchor selected lines state)
    {table : Table} (isFound : IsFound snapshot table) (joined : lower table.key ∈ state.joined) :
    table ∈ lines := by
  rw [numbers.joined, List.mem_map] at joined
  obtain ⟨other, among, same⟩ := joined
  exact (numbers.found other among).eq isFound same ▸ among

/-- Every table that was joined has an alias. -/
private theorem Numbers.mem_aliased (numbers : Numbers snapshot anchor selected lines state)
    {table : Table} (member : table ∈ lines) : lower table.key ∈ state.aliased := by
  rw [numbers.aliased, aliasOrder]
  refine List.mem_map_of_mem ?_
  by_cases chosen : table ∈ selected
  · exact List.mem_append_left _ chosen
  · exact List.mem_append_right _ (List.mem_filter.mpr ⟨member, by simpa using chosen⟩)

/-- A table that is joined takes the alias that it has been given, or the next one. -/
private theorem Numbers.addNew_aliased (numbers : Numbers snapshot anchor selected lines state)
    (found : ∀ table ∈ selected, IsFound snapshot table) {new : Table}
    (isFound : IsFound snapshot new) (fresh : new ∉ lines) :
    addNew state.aliased (lower new.key) =
      (aliasOrder selected (lines ++ [new])).map fun table => lower table.key := by
  by_cases chosen : new ∈ selected
  · have known : lower new.key ∈ state.aliased := by
      rw [numbers.aliased, aliasOrder]
      exact List.mem_map_of_mem (List.mem_append_left _ chosen)
    rw [addNew_of_mem known, numbers.aliased, aliasOrder, aliasOrder, List.filter_append]
    simp [chosen]
  · have unknown : lower new.key ∉ state.aliased := by
      rw [numbers.aliased, List.mem_map]
      rintro ⟨table, member, same⟩
      rcases List.mem_append.mp member with inSelected | inLines
      · exact chosen ((found table inSelected).eq isFound same ▸ inSelected)
      · have joined := (List.mem_filter.mp inLines).1
        exact fresh ((numbers.found table joined).eq isFound same ▸ joined)
    rw [addNew, if_neg (by simpa using unknown), numbers.aliased, aliasOrder, aliasOrder,
      List.filter_append]
    simp [chosen]

/-- Applying a relation adds a line for its new table and keeps the aliases of the others. -/
theorem Numbers.apply (numbers : Numbers snapshot anchor selected lines state)
    (found : ∀ table ∈ selected, IsFound snapshot table) (half : ¬ state.IsStuck relation)
    (step : state.apply snapshot relation (state.hasJoined relation.fromTable) = .ok next) :
    ∃ new, Numbers snapshot anchor selected (lines ++ [new]) next := by
  obtain ⟨old, new, hold, hnew, joined, aliased, joins⟩ := apply_eq_ok step
  have oldFound := isFound_of_table? hold
  have newFound := isFound_of_table? hnew
  obtain ⟨oldJoined, newJoined⟩ := joined_of_half half hold hnew
  have oldLine : old ∈ lines := numbers.mem_lines_of_joined oldFound oldJoined
  have newLine : new ∉ lines := by
    intro member
    refine newJoined ?_
    rw [numbers.joined]
    exact List.mem_map_of_mem member
  -- the old table has an alias, so that only the new one can be given one
  have grown : next.aliased = addNew state.aliased (lower new.key) := by
    rw [aliased, addNew_both (numbers.mem_aliased oldLine)]
  have kept : ∀ table ∈ lines, next.aliasOf (lower table.key) = state.aliasOf (lower table.key) := by
    intro table member
    have longer : state.aliased <+: next.aliased := grown ▸ prefix_addNew _ _
    exact (longer.idxOf_eq_of_mem (numbers.mem_aliased member)).symm
  have oldSource : next.aliasOf (lower old.key) ∈
      (anchor :: state.joins.map Join.table).map TableRef.number := by
    rw [numbers.sources, kept old oldLine, List.map_map]
    exact List.mem_map_of_mem (f := fun table : Table => state.aliasOf (lower table.key)) oldLine
  refine ⟨new, ?_, ?_, ?_, ?_, ?_, ?_⟩
  · intro table member
    rcases List.mem_append.mp member with early | late
    · exact numbers.found table early
    · exact List.mem_singleton.mp late ▸ newFound
  · rw [joined, numbers.joined, List.map_append]
    rfl
  · rw [joined]
    exact List.nodup_append.mpr ⟨numbers.distinct, List.nodup_singleton _, by
      intro key early other late same
      exact newJoined (List.mem_singleton.mp late ▸ same ▸ early)⟩
  · rw [grown]
    exact numbers.addNew_aliased found newFound newLine
  · rw [joins, List.map_append, ← List.cons_append, numbers.sources, List.map_append]
    congr 1
    exact List.map_congr_left fun table member => by rw [kept table member]
  · intro before join after split equality member
    rw [joins] at split
    rcases List.eq_nil_or_concat after with rfl | ⟨others, last, rfl⟩
    · obtain ⟨rfl, same⟩ := List.append_inj' split rfl
      obtain rfl := (List.cons.inj same).1
      obtain ⟨pair, -, rfl⟩ := List.mem_map.mp member
      rw [left_equalityOf, right_equalityOf]
      exact ⟨oldSource, rfl⟩
    · rw [List.concat_eq_append, ← List.cons_append, ← List.append_assoc] at split
      exact numbers.on before join others (List.append_inj' split rfl).1 equality member

theorem Numbers.applies (numbers : Numbers snapshot anchor selected lines state)
    (found : ∀ table ∈ selected, IsFound snapshot table)
    (steps : Applies snapshot state applied last) :
    ∃ more, Numbers snapshot anchor selected (lines ++ more) last ∧ more.length = applied.length := by
  induction steps generalizing lines with
  | nil => exact ⟨[], by simpa using numbers, rfl⟩
  | cons half step _ ih =>
    obtain ⟨new, numbersNext⟩ := numbers.apply found half step
    obtain ⟨more, numbersLast, count⟩ := ih numbersNext
    exact ⟨new :: more, by simpa using numbersLast, by simp [count]⟩

end Joining

section Used

variable {selected : List Table} {usage : Usage} {tableKey columnName : String} {ref : ColumnRef}

private theorem number_lt_of_resolveColumn
    (resolved : resolveColumn selected usage tableKey columnName = .ok ref) :
    ref.number < selected.length := by
  unfold resolveColumn at resolved
  split at resolved
  · cases resolved
  · rename_i table number chosen
    have paired := List.mem_of_find?_eq_some chosen
    dsimp only at resolved
    split at resolved
    · obtain rfl := Except.ok.inj resolved
      exact (List.mem_zipIdx' paired).1
    · cases resolved

private theorem number_lt_of_compileSelection {fields : List Field} {selection : Selection}
    (nonempty : 0 < selected.length) (compiled : compileSelection selected fields = .ok selection) :
    ∀ number ∈ selection.numbers, number < selected.length := by
  rcases compileSelection_cases compiled with ⟨-, rfl⟩ | ⟨-, entries, read, rfl⟩
  · simpa [Selection.numbers] using nonempty
  · intro number member
    obtain ⟨item, among, rfl⟩ := List.mem_map.mp member
    obtain ⟨field, -, done⟩ := exists_of_mem_mapM read among
    obtain ⟨source, resolved, done⟩ := bind_eq_ok.mp done
    obtain ⟨aggregate?, -, done⟩ := bind_eq_ok.mp done
    obtain rfl := Except.ok.inj done
    exact number_lt_of_resolveColumn resolved

private theorem number_mem_of_mem_grouping {selection : Selection}
    (member : ref ∈ selection.grouping) : ref.number ∈ selection.numbers := by
  unfold Selection.grouping at member
  split at member
  · cases member
  · split at member
    · obtain ⟨item, among, rfl⟩ := List.mem_map.mp (mem_distinct.mp member)
      exact List.mem_map_of_mem (f := fun item : SelectItem => item.source.number)
        (List.mem_filter.mp among).1
    · cases member

/-- Columns are named by aliases of selected tables only. -/
theorem CompiledFrom.number_lt {description : Description} {anchor : Table} {others : List Table}
    {compiled : Compiled} (parts : CompiledFrom snapshot description anchor others compiled) :
    ∀ number ∈ compiled.statement.usedNumbers, number < (anchor :: others).length := by
  have inSelection := number_lt_of_compileSelection (by simp) parts.selection
  intro number member
  simp only [Statement.usedNumbers, List.mem_append] at member
  rcases member with ((chosen | compared) | grouped) | sorted
  · exact inSelection number chosen
  · obtain ⟨condition, among, rfl⟩ := List.mem_map.mp compared
    obtain ⟨filter, -, done⟩ := exists_of_mem_mapM parts.conditions among
    obtain ⟨source, resolved, done⟩ := bind_eq_ok.mp done
    dsimp only at done
    split at done
    · cases done
    · split at done
      · obtain rfl := Except.ok.inj done
        exact number_lt_of_resolveColumn resolved
      · cases done
  · obtain ⟨ref, among, rfl⟩ := List.mem_map.mp grouped
    exact inSelection _ (number_mem_of_mem_grouping (parts.grouping ▸ among))
  · obtain ⟨entry, among, rfl⟩ := List.mem_map.mp sorted
    obtain ⟨sort, -, done⟩ := exists_of_mem_mapM parts.order among
    obtain ⟨source, resolved, done⟩ := bind_eq_ok.mp done
    split at done
    · obtain rfl := Except.ok.inj done
      exact number_lt_of_resolveColumn resolved
    · cases done

end Used

/-- The lines of a statement introduce these tables, one each, and number their aliases as the
tables stand in the order of aliases. -/
structure Introduces (snapshot : Snapshot) (selected : List Table) (requested : List Relation)
    (anchor : Table) (statement : Statement) (lines : List Table) : Prop where
  known : ∀ table ∈ lines, table ∈ snapshot.tables
  first : lines.head? = some anchor
  distinct : (lines.map fun table => lower table.key).Nodup
  numbered : (aliasOrder selected lines).Perm lines
  sources : statement.sources = lines.map fun table =>
    ⟨table.schema, table.name, (aliasOrder selected lines).idxOf table⟩
  vertices : ∀ key, (∃ table ∈ lines, lower table.key = key) ↔
    key ∈ joinVertices (lower anchor.key) requested
  count : statement.joins.length + 1 = lines.length
  count_requested : statement.joins.length = requested.length
  /-- Every join comes from a requested relation of its own, in the order of application. -/
  applied : ∃ applied last, applied.Perm requested ∧
    Joining.Applies snapshot (.start anchor selected) applied last ∧
    last.joins = statement.joins ∧ last.joined = lines.map fun table => lower table.key

section Introduced

variable {anchor : Table} {selected lines : List Table} {requested : List Relation}
  {state : Joining} {statement : Statement}

private theorem idxOf_map_of_injective {α β : Type} [DecidableEq α] [DecidableEq β] {f : α → β}
    {as : List α} {a : α} (injective : ∀ b ∈ as, f b = f a → b = a) :
    (as.map f).idxOf (f a) = as.idxOf a := by
  induction as with
  | nil => rfl
  | cons b rest ih =>
    rw [List.map_cons, List.idxOf_cons, List.idxOf_cons,
      ih fun c member => injective c (List.mem_cons_of_mem b member)]
    by_cases same : b = a
    · simp [same]
    · have differ : f b ≠ f a := fun h => same (injective b List.mem_cons_self h)
      rw [beq_false_of_ne same, beq_false_of_ne differ]

/-- The alias of a line's table is its place in the order of aliases. -/
private theorem Joining.Numbers.aliasOf_eq {table : TableRef}
    (numbers : Joining.Numbers snapshot table selected lines state)
    (found : ∀ table ∈ selected, IsFound snapshot table) {table : Table} (member : table ∈ lines) :
    state.aliasOf (lower table.key) = (aliasOrder selected lines).idxOf table := by
  rw [Joining.aliasOf, numbers.aliased]
  refine idxOf_map_of_injective (f := fun table : Table => lower table.key) fun other among same => ?_
  refine IsFound.eq ?_ (numbers.found table member) same
  rcases List.mem_append.mp among with chosen | joined
  · exact found other chosen
  · exact numbers.found other (List.mem_filter.mp joined).1

/-- Once every selected table is on a line, the order of aliases holds the tables of the lines. -/
theorem aliasOrder_perm (apart : selected.Nodup) (distinct : lines.Nodup)
    (reached : ∀ table ∈ selected, table ∈ lines) : (aliasOrder selected lines).Perm lines := by
  have once : (aliasOrder selected lines).Nodup := by
    refine List.nodup_append.mpr ⟨apart, distinct.filter _, fun table chosen other left same => ?_⟩
    have unselected := (List.mem_filter.mp left).2
    subst same
    simp [chosen] at unselected
  refine (List.perm_ext_iff_of_nodup once distinct).mpr fun table => ?_
  by_cases chosen : table ∈ selected
  · simp [aliasOrder, chosen, reached table chosen]
  · simp [aliasOrder, chosen]

/-- Every number below that of the lines is the alias of a line. -/
theorem Introduces.mem_numbers
    (introduces : Introduces snapshot selected requested anchor statement lines) {number : Nat}
    (small : number < lines.length) : number ∈ statement.sources.map TableRef.number := by
  have perm := introduces.numbered
  have below : number < (aliasOrder selected lines).length := perm.length_eq ▸ small
  have distinct : (aliasOrder selected lines).Nodup :=
    perm.nodup_iff.mpr (List.Nodup.of_map _ introduces.distinct)
  rw [introduces.sources, List.map_map, List.mem_map]
  refine ⟨(aliasOrder selected lines)[number], perm.mem_iff.mp (List.getElem_mem below), ?_⟩
  exact distinct.idxOf_getElem number below

/-- No two lines introduce the same alias. -/
theorem Introduces.nodup_aliases
    (introduces : Introduces snapshot selected requested anchor statement lines) :
    (statement.sources.map fun source => aliasText source.number).Nodup := by
  rw [introduces.sources, List.map_map]
  refine (List.Nodup.of_map _ introduces.distinct).map_on fun table member other among same => ?_
  have inOrder := introduces.numbered.mem_iff.mpr member
  exact (List.idxOf_inj inOrder).mp (aliasText_inj same)

theorem isFound_of_resolveTables {keys : List String}
    (resolved : resolveTables snapshot keys = .ok selected) :
    ∀ table ∈ selected, IsFound snapshot table := by
  intro table member
  rw [eq_selectedTables resolved] at member
  obtain ⟨key, -, found⟩ := List.mem_filterMap.mp (mem_of_mem_distinctBy member)
  exact isFound_of_table? found

theorem CompiledFrom.introduces {description : Description} {others : List Table}
    {compiled : Compiled} (parts : CompiledFrom snapshot description anchor others compiled) :
    ∃ lines, Introduces snapshot (anchor :: others)
      (requestedRelations snapshot description.relations) anchor compiled.statement lines := by
  have found := isFound_of_resolveTables parts.tables
  obtain ⟨applied, last, parted, steps, joins, reached⟩ := applied_of_compileJoins parts.joins
  obtain ⟨more, numbers, count⟩ := (Joining.numbers_start found).applies found steps
  have spans := (Joining.spans_start anchor (anchor :: others)).applies steps
  have joined := numbers.joined
  have distinct := numbers.distinct
  rw [joined] at distinct
  have apart : (anchor :: others).Nodup := by
    have keys := nodup_map_distinctBy (fun table : Table => lower table.key)
      (description.tables.filterMap fun key => snapshot.table? (trim key))
    rw [eq_selectedTables parts.tables]
    exact List.Nodup.of_map _ keys
  have sources : compiled.statement.sources = ([anchor] ++ more).map fun table =>
      ⟨table.schema, table.name, last.aliasOf (lower table.key)⟩ := by
    rw [Statement.sources, parts.anchor, ← joins]
    exact numbers.sources
  have lengths : compiled.statement.joins.length + 1 = ([anchor] ++ more).length := by
    simpa [Statement.sources] using congrArg List.length sources
  refine ⟨[anchor] ++ more, ?_, rfl, distinct, ?_, ?_, ?_, lengths, ?_, ?_⟩
  · exact fun table member => mem_tables_of_table? (numbers.found table member)
  · refine aliasOrder_perm apart (List.Nodup.of_map _ distinct) fun table member => ?_
    exact numbers.mem_lines_of_joined (found table member)
      (Joining.hasJoined_iff.mp (reached table member))
  · rw [sources]
    exact List.map_congr_left fun table member => by rw [numbers.aliasOf_eq found member]
  · intro key
    have mem_iff : (∃ table ∈ [anchor] ++ more, lower table.key = key) ↔ key ∈ last.joined := by
      rw [joined, List.mem_map]
    have perm : (requestedRelations snapshot description.relations).Perm (applied ++ []) := by
      rw [List.append_nil]
      exact parted.symm
    rw [mem_iff, spans.mem_joined_iff perm (by simp)]
    refine ⟨mem_joinVertices_of_reachable, fun vertex => ?_⟩
    exact (spans.isJoinTree.of_perm parted).connected key vertex
  · rw [← parted.length_eq, ← count]
    simpa using lengths
  · exact ⟨applied, last, parted, steps, joins, joined⟩

theorem CompiledFrom.wellScoped {description : Description} {others : List Table} {compiled : Compiled}
    (parts : CompiledFrom snapshot description anchor others compiled) :
    compiled.statement.WellScoped := by
  obtain ⟨lines, introduces⟩ := parts.introduces
  refine ⟨introduces.nodup_aliases, fun number member => ?_, ?_⟩
  · have fewer : (anchor :: others).length ≤ lines.length := by
      rw [← introduces.numbered.length_eq, aliasOrder, List.length_append]
      omega
    exact introduces.mem_numbers ((parts.number_lt number member).trans_le fewer)
  · have found := isFound_of_resolveTables parts.tables
    obtain ⟨applied, last, -, steps, joins, -⟩ := applied_of_compileJoins parts.joins
    obtain ⟨more, numbers, -⟩ := (Joining.numbers_start found).applies found steps
    rw [← joins, parts.anchor]
    exact numbers.on

end Introduced

/-- Orders and items, and the lines that connect them. -/
def pricedSnapshot : Snapshot where
  tables := [⟨"shop.Order", "shop", "Order", "", [⟨"Id", "", false⟩]⟩,
    ⟨"shop.Line", "shop", "Line", "", []⟩,
    ⟨"shop.Item", "shop", "Item", "", [⟨"Id", "", false⟩, ⟨"Price", "", true⟩]⟩]
  relations := [⟨"line->item", "shop.Line", "shop.Item", .inner, [⟨"ItemId", "Id"⟩]⟩,
    ⟨"line->order", "shop.Line", "shop.Order", .left, [⟨"OrderId", "Id"⟩]⟩]

end ReportQuery.Query
