import ReportQuery.Proofs.Query.SchemaScan

set_option autoImplicit false
set_option relaxedAutoImplicit false

/-!
When the safety rules accept a compiled statement. The schemas of the shown tables must be allowed, and
of a hidden table the alias and, unless it is taken for the name of a shown table, the schema.
-/

namespace ReportQuery.Query

open Schema (Snapshot Table Relation)
open Sql (violation? violation?_eq_none_iff)
open Text (isPlainName lower upper)

variable {snapshot : Snapshot} {description : Description} {compiled : Compiled}

section Compiled

private theorem columns_ne_nil_of_valid (valid : snapshot.IsValid) {relation : Relation}
    (member : relation ∈ snapshot.relations) : relation.columns ≠ [] := by
  have faultless := List.findSome?_eq_none_iff.mp valid relation member
  unfold Relation.fault? at faultless
  split at faultless
  · cases faultless
  · rename_i some_
    simpa using some_

/-- In a valid snapshot every join compares columns. -/
theorem compares_of_compile (valid : snapshot.IsValid)
    (done : compile snapshot description = .ok compiled) :
    ∀ join ∈ compiled.statement.joins, join.on ≠ [] := by
  obtain ⟨anchor, others, parts⟩ := compiledFrom_of_compile done
  intro join member
  obtain ⟨relation, isRelation, -, -, -, -, -, rfl⟩ := isJoinOf_of_compileJoins parts.joins member
  simpa using columns_ne_nil_of_valid valid isRelation

theorem selects_of_compile (done : compile snapshot description = .ok compiled) :
    compiled.statement.selection ≠ .items [] := by
  obtain ⟨anchor, others, parts⟩ := compiledFrom_of_compile done
  intro none
  rcases compileSelection_cases parts.selection with ⟨-, every⟩ | ⟨fields, entries, read, some_⟩
  · rw [none] at every
    cases every
  · obtain rfl := Selection.items.inj (none.symm.trans some_)
    exact fields (List.eq_nil_of_length_eq_zero (mapM_eq_ok_iff.mp read).length_eq)

end Compiled

/-- In a valid snapshot of plain names a compiled statement is accepted exactly if no written name is a
word that changes data or schema and the list of allowed schemas holds what the shown and the hidden
tables ask for. For every list this is the same as that the schemas of all tables are allowed, exactly
if the alias of every hidden table is one of these schemas and no schema of a hidden table is declared. -/
theorem compile_accepted_iff (valid : snapshot.IsValid)
    (named : ∀ name, IsNameOf snapshot name → isPlainName name.toList)
    (done : compile snapshot description = .ok compiled) :
    let statement := compiled.statement
    (∀ allowed, violation? compiled.sql allowed = none ↔
      statement.IsHarmless ∧ statement.PassesWith (allowed.map lower)) ∧
      ((∀ allowed, violation? compiled.sql allowed = none ↔
        statement.IsHarmless ∧ ∀ table ∈ statement.sources, lower table.schema ∈ allowed.map lower) ↔
        ¬ statement.IsHarmless ∨ ∀ table ∈ statement.hiddenTables,
          ¬ statement.Declares (lower table.schema) ∧
            ∃ other ∈ statement.sources, lower other.schema = aliasText table.number) := by
  intro statement
  obtain ⟨anchor, others, parts⟩ := compiledFrom_of_compile done
  have isScoped := parts.wellScoped
  have accepted (allowed : List String) : violation? compiled.sql allowed = none ↔
      statement.IsHarmless ∧ statement.PassesWith (allowed.map lower) := by
    have plain := plain_of_compile named done
    have compares := compares_of_compile valid done
    rw [violation?_eq_none_iff, Compiled.sql, Statement.toList_render,
      trimChars_statement plain compares, isQuery_textOf plain,
      isScoped.schemas_allowed_iff plain (selects_of_compile done) compares]
  refine ⟨accepted, ?_⟩
  simp only [accepted]
  by_cases harmless : statement.IsHarmless
  · simp only [harmless, true_and, not_true_eq_false, false_or]
    exact isScoped.passes_iff_all_iff
  · simp [harmless]

/-- Lines of orders, which name their order in a column called join, and items. -/
def joinColumnSnapshot : Snapshot where
  tables := [⟨"public.Order", "public", "Order", "", [⟨"Id", "", false⟩]⟩,
    ⟨"public.Line", "public", "Line", "", [⟨"Join", "", false⟩, ⟨"ItemId", "", true⟩]⟩,
    ⟨"public.Item", "public", "Item", "", [⟨"Id", "", false⟩]⟩]
  relations := [⟨"line->order", "public.Line", "public.Order", .inner, [⟨"Join", "Id"⟩]⟩,
    ⟨"line->item", "public.Line", "public.Item", .left, [⟨"ItemId", "Id"⟩]⟩]

/-- The orders joined with their items. -/
def joinColumnDescription : Description where
  tables := ["public.Order", "public.Line", "public.Item"]
  fields := [⟨"public.Order", "Id", none, none⟩]
  relations := ["line->order", "line->item"]

def joinColumnCompiled : Compiled where
  statement :=
    { isDistinct := false
      selection := .items [⟨⟨0, "Id"⟩, none, none⟩]
      anchor := ⟨"public", "Order", 0⟩
      joins := [⟨.inner, ⟨"public", "Line", 1⟩, [⟨⟨0, "Id"⟩, ⟨1, "Join"⟩⟩]⟩,
        ⟨.left, ⟨"public", "Item", 2⟩, [⟨⟨1, "ItemId"⟩, ⟨2, "Id"⟩⟩]⟩]
      conditions := []
      grouping := []
      order := [] }
  parameterNames := []

private theorem joinColumn_compiles :
    compile joinColumnSnapshot joinColumnDescription = .ok joinColumnCompiled := by
  decide +kernel

private theorem joinColumn_isValid : joinColumnSnapshot.IsValid := by
  rfl

private theorem joinColumn_named (name : String) (isName : IsNameOf joinColumnSnapshot name) :
    isPlainName name.toList := by
  have tables : joinColumnSnapshot.tables.all (fun table => isPlainName table.schema.toList &&
      (isPlainName table.name.toList && table.columns.all fun column => isPlainName column.name.toList)) =
        true := by decide
  have relations : joinColumnSnapshot.relations.all (fun relation => relation.columns.all fun pair =>
      isPlainName pair.fromColumn.toList && isPlainName pair.toColumn.toList) = true := by decide
  simp only [List.all_eq_true, Bool.and_eq_true] at tables relations
  cases isName with
  | schema member => exact (tables _ member).1
  | table member => exact (tables _ member).2.1
  | column member among => exact (tables _ member).2.2 _ among
  | fromColumn member among => exact (relations _ member _ among).1
  | toColumn member among => exact (relations _ member _ among).2

/-- Behind the column called join the alias of the items is taken for a schema. -/
theorem joinColumn_accepted :
    joinColumnSnapshot.IsValid ∧ (∀ name, IsNameOf joinColumnSnapshot name → isPlainName name.toList) ∧
      compile joinColumnSnapshot joinColumnDescription = .ok joinColumnCompiled ∧
      joinColumnCompiled.statement.hiddenTables = [⟨"public", "Item", 2⟩] ∧
      violation? joinColumnCompiled.sql ["Public", "T2"] = none := by
  have accepted := (compile_accepted_iff joinColumn_isValid joinColumn_named joinColumn_compiles).1
  refine ⟨joinColumn_isValid, joinColumn_named, joinColumn_compiles, by decide,
    (accepted ["Public", "T2"]).mpr ⟨by decide, by decide, ?_⟩⟩
  have hidden : joinColumnCompiled.statement.hiddenTables = [⟨"public", "Item", 2⟩] := by decide
  rw [hidden, List.forall_mem_singleton]
  exact ⟨by decide, .inr (by decide)⟩

/-- All tables are in the allowed schema and no name is forbidden, and yet the statement is refused. -/
theorem joinColumn_refused :
    joinColumnSnapshot.IsValid ∧ (∀ name, IsNameOf joinColumnSnapshot name → isPlainName name.toList) ∧
      compile joinColumnSnapshot joinColumnDescription = .ok joinColumnCompiled ∧
      joinColumnCompiled.statement.IsHarmless ∧
      (∀ table ∈ joinColumnCompiled.statement.sources, lower table.schema ∈ ["public"].map lower) ∧
      violation? joinColumnCompiled.sql ["public"] = some (.schema "t2") := by
  have refused : violation? joinColumnCompiled.sql ["public"] = some (.schema "t2") := by decide +kernel
  exact ⟨joinColumn_isValid, joinColumn_named, joinColumn_compiles, by decide, by decide, refused⟩

end ReportQuery.Query
