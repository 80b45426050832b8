import ReportQuery.Proofs.Query.JoinTree
import ReportQuery.Proofs.Query.Resolution

set_option autoImplicit false
set_option relaxedAutoImplicit false

/-!
Which descriptions can be joined. A description whose other parts resolve compiles exactly when
its relations form a tree with the anchor and reach every selected table; otherwise the error names
the first table that is not connected, or else a relation that was not applied.
-/

namespace ReportQuery.Query

open Schema (Snapshot Table Relation)
open Text (lower trim isBlankText)

/-- The tables, fields, filters and sorts of a description resolve, and these are its tables. -/
structure Resolves (snapshot : Snapshot) (description : Description) (tables : List Table) :
    Prop where
  tables_eq : resolveTables snapshot description.tables = .ok tables
  fields : ∃ selection, compileSelection tables description.fields = .ok selection
  filters : ∃ conditions, description.filters.mapM (compileFilter tables) = .ok conditions
  sorts : ∃ order, description.sorts.mapM (compileSort tables) = .ok order

variable {snapshot : Snapshot} {description : Description} {anchor : Table} {others : List Table}
  {ids : List String}

/-- Where all else resolves, the joins decide whether a description compiles. -/
private theorem compile_eq_map (resolves : Resolves snapshot description (anchor :: others)) :
    ∃ finish, compile snapshot description =
      (compileJoins snapshot anchor (anchor :: others) description.relations).map finish := by
  obtain ⟨tables, ⟨selection, hfields⟩, ⟨conditions, hfilters⟩, ⟨order, hsorts⟩⟩ := resolves
  refine ⟨fun joins => ⟨⟨description.useDistinct, selection, ⟨anchor.schema, anchor.name, 0⟩, joins,
    conditions, selection.grouping, order⟩, parameterNames conditions⟩, ?_⟩
  simp only [compile, tables, hfields, hfilters, hsorts, bind, Except.bind]
  cases compileJoins snapshot anchor (anchor :: others) description.relations <;> rfl

/-- The answer of joining, read off the joined tables and the relations left over. -/
private def joinAnswer (tables : List Table) (last : Joining) (unused : List Relation) :
    Except CompileError (List Join) :=
  match tables.find? fun table => !last.hasJoined table.key, unused with
  | some table, _ => .error (.missingRelation table.key)
  | none, [] => .ok last.joins
  | none, relation :: _ =>
    .error (.unusedRelation relation.id
      (if last.hasJoined relation.fromTable && last.hasJoined relation.toTable then .bothJoined
      else .neitherJoined))

private theorem compileJoins_eq {last : Joining} {unused : List Relation} {tables : List Table}
    (known : ∀ id ∈ ids, ¬ isBlankText id → (snapshot.relation? (trim id)).isSome)
    (ran : (Joining.start anchor tables).run snapshot (requestedRelations snapshot ids) =
      .ok (last, unused)) :
    compileJoins snapshot anchor tables ids = joinAnswer tables last unused := by
  simp only [compileJoins, resolveRelations_eq known, ran, bind, Except.bind, joinAnswer]
  cases tables.find? fun table => !last.hasJoined table.key <;> cases unused <;> rfl

section Answer

variable {tables : List Table} {last : Joining} {unused : List Relation} {key : String}

private theorem joinAnswer_ok_iff :
    (∃ joins, joinAnswer tables last unused = .ok joins) ↔
      unused = [] ∧ ∀ table ∈ tables, last.hasJoined table.key := by
  cases hfind : tables.find? fun table => !last.hasJoined table.key with
  | some table =>
    have missing := List.find?_some hfind
    have member := List.mem_of_find?_eq_some hfind
    simp only [joinAnswer, hfind, reduceCtorEq, exists_false, false_iff, not_and]
    intro _ all
    simp [all table member] at missing
  | none =>
    have all : ∀ table ∈ tables, last.hasJoined table.key := by
      simpa using List.find?_eq_none.mp hfind
    cases unused with
    | nil => simpa [joinAnswer, hfind] using all
    | cons relation rest => simp [joinAnswer, hfind]

private theorem joinAnswer_missing_iff :
    joinAnswer tables last unused = .error (.missingRelation key) ↔
      ∃ before table after, tables = before ++ table :: after ∧ key = table.key ∧
        (∀ t ∈ before, last.hasJoined t.key) ∧ ¬ last.hasJoined table.key := by
  have found_iff : (∃ table, tables.find? (fun table => !last.hasJoined table.key) = some table ∧
      key = table.key) ↔ ∃ before table after, tables = before ++ table :: after ∧ key = table.key ∧
        (∀ t ∈ before, last.hasJoined t.key) ∧ ¬ last.hasJoined table.key := by
    simp only [List.find?_eq_some_iff_append]
    constructor
    · rintro ⟨table, ⟨missing, before, after, split, earlier⟩, hkey⟩
      exact ⟨before, table, after, split, hkey, by simpa using earlier, by simpa using missing⟩
    · rintro ⟨before, table, after, split, hkey, earlier, missing⟩
      exact ⟨table, ⟨by simpa using missing, before, after, split, by simpa using earlier⟩, hkey⟩
  rw [← found_iff]
  cases hfind : tables.find? fun table => !last.hasJoined table.key with
  | some table => simp [joinAnswer, hfind, eq_comm]
  | none => cases unused <;> simp [joinAnswer, hfind]

private theorem joinAnswer_error {error : CompileError}
    (failed : joinAnswer tables last unused = .error error) :
    (∃ key, error = .missingRelation key) ∨
      ∃ relation ∈ unused, ∃ reason, error = .unusedRelation relation.id reason := by
  unfold joinAnswer at failed
  split at failed
  · exact .inl ⟨_, (Except.error.inj failed).symm⟩
  · cases failed
  · exact .inr ⟨_, List.mem_cons_self, _, (Except.error.inj failed).symm⟩

end Answer

/-- Join resolution, for a description whose other parts resolve and whose relation ids are known:
it compiles exactly when the requested relations form a tree with the anchor that holds every
selected table; the error is about a missing relation exactly when a selected table is not
connected to the anchor, and names the first one; every other error names a relation that was not
applied. The passes end after at most as many as there are relations, with all relations split into
applied ones and ones left over, and no endpoint is unknown. -/
theorem compile_joins_iff_tree (valid : snapshot.IsValid)
    (resolves : Resolves snapshot description (anchor :: others))
    (known : ∀ id ∈ description.relations, ¬ isBlankText id →
      (snapshot.relation? (trim id)).isSome) :
    let root := lower anchor.key
    let requested := requestedRelations snapshot description.relations
    ((∃ compiled, compile snapshot description = .ok compiled) ↔
      IsJoinTree root requested ∧
        ∀ table ∈ anchor :: others, lower table.key ∈ joinVertices root requested) ∧
    (∀ key, compile snapshot description = .error (.missingRelation key) ↔
      ∃ before table after, anchor :: others = before ++ table :: after ∧ key = table.key ∧
        (∀ t ∈ before, (joinGraph requested).Reachable root (lower t.key)) ∧
        ¬ (joinGraph requested).Reachable root (lower table.key)) ∧
    (∃ last unused applied,
      (∀ n ≥ requested.length,
        (Joining.start anchor (anchor :: others)).passes snapshot n requested =
          .ok (last, unused)) ∧
      (Joining.start anchor (anchor :: others)).run snapshot requested = .ok (last, unused) ∧
      Joining.Applies snapshot (Joining.start anchor (anchor :: others)) applied last ∧
      requested.Perm (applied ++ unused) ∧
      ∀ error, compile snapshot description = .error error →
        (∃ key, error = .missingRelation key) ∨
          ∃ relation ∈ unused, ∃ reason, error = .unusedRelation relation.id reason) ∧
    ∀ id key, compile snapshot description ≠ .error (.unknownEndpoint id key) := by
  intro root requested
  have endpoints : ∀ relation ∈ requested, HasEndpoints snapshot relation := fun relation member =>
    hasEndpoints_of_valid valid (mem_relations_of_mem_requestedRelations member)
  obtain ⟨last, unused, applied, ran, steps, split, stuck⟩ :=
    Joining.run_spec (Joining.start anchor (anchor :: others)) endpoints
  have spans := (Joining.spans_start anchor (anchor :: others)).applies steps
  have joined_iff : ∀ table : Table, last.hasJoined table.key ↔
      (joinGraph requested).Reachable root (lower table.key) := fun table =>
    Joining.hasJoined_iff.trans (spans.mem_joined_iff split stuck)
  obtain ⟨finish, answer⟩ := compile_eq_map resolves
  rw [compileJoins_eq known ran] at answer
  have error_iff : ∀ error, compile snapshot description = .error error ↔
      joinAnswer (anchor :: others) last unused = .error error := by
    intro error
    rw [answer]
    cases joinAnswer (anchor :: others) last unused <;> simp [Except.map]
  have ok_iff : (∃ compiled, compile snapshot description = .ok compiled) ↔
      ∃ joins, joinAnswer (anchor :: others) last unused = .ok joins := by
    rw [answer]
    cases joinAnswer (anchor :: others) last unused <;> simp [Except.map]
  refine ⟨?_, ?_, ⟨last, unused, applied, ?_, ran, steps, split, ?_⟩, ?_⟩
  · rw [ok_iff, joinAnswer_ok_iff]
    constructor
    · rintro ⟨rfl, all⟩
      rw [List.append_nil] at split
      refine ⟨spans.isJoinTree.of_perm split.symm, fun table member => ?_⟩
      exact mem_joinVertices_of_reachable ((joined_iff table).mp (all table member))
    · rintro ⟨tree, selected⟩
      refine ⟨spans.unused_eq_nil split stuck tree, fun table member => ?_⟩
      exact (joined_iff table).mpr (tree.connected _ (selected table member))
  · intro key
    rw [error_iff, joinAnswer_missing_iff]
    simp only [joined_iff]
  · intro n enough
    rw [Joining.passes_eq_run endpoints enough, ran]
  · exact fun error failed => joinAnswer_error ((error_iff error).mp failed)
  · intro id key failed
    rcases joinAnswer_error ((error_iff _).mp failed) with ⟨_, h⟩ | ⟨_, _, _, h⟩ <;> cases h

/-- Orders and items, and the lines that connect them. -/
def bridgedSnapshot : Snapshot where
  tables := [⟨"shop.Order", "shop", "Order", "", []⟩, ⟨"shop.Line", "shop", "Line", "", []⟩,
    ⟨"shop.Item", "shop", "Item", "", []⟩]
  relations := [⟨"line->item", "shop.Line", "shop.Item", .inner, [⟨"ItemId", "Id"⟩]⟩,
    ⟨"line->order", "shop.Line", "shop.Order", .left, [⟨"OrderId", "Id"⟩]⟩]

/-- Orders with items. The relation to the items is asked for first and again in other case. -/
def bridgedDescription : Description where
  tables := ["shop.Order", " SHOP.item"]
  relations := ["Line->Item", " ", "line->order", "LINE->ITEM"]

theorem bridged_isJoinTree :
    bridgedSnapshot.IsValid ∧
      IsJoinTree "shop.order" (requestedRelations bridgedSnapshot bridgedDescription.relations) := by
  have valid : bridgedSnapshot.IsValid := by decide +kernel
  have resolves : Resolves bridgedSnapshot bridgedDescription
      [⟨"shop.Order", "shop", "Order", "", []⟩, ⟨"shop.Item", "shop", "Item", "", []⟩] :=
    ⟨by decide +kernel, ⟨.everything 0, rfl⟩, ⟨[], rfl⟩, ⟨[], rfl⟩⟩
  have known : ∀ id ∈ bridgedDescription.relations, ¬ isBlankText id →
      (bridgedSnapshot.relation? (trim id)).isSome := by decide +kernel
  have compiles : (compile bridgedSnapshot bridgedDescription).toOption.isSome := by decide +kernel
  have root : lower "shop.Order" = "shop.order" := by decide +kernel
  obtain ⟨compiled, found⟩ := Option.isSome_iff_exists.mp compiles
  have done : compile bridgedSnapshot bridgedDescription = .ok compiled := by
    cases h : compile bridgedSnapshot bridgedDescription with
    | error e => simp [h, Except.toOption] at found
    | ok c => simpa [h, Except.toOption] using found
  have tree := ((compile_joins_iff_tree valid resolves known).1.mp ⟨compiled, done⟩).1
  rw [root] at tree
  exact ⟨valid, tree⟩

end ReportQuery.Query
