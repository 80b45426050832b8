import ReportQuery.Proofs.Query.ColumnScan
import ReportQuery.Proofs.Query.Layout

set_option autoImplicit false
set_option relaxedAutoImplicit false

/-!
The qualifiers in a statement: the alias of every column and the schema of every table. The scan of
dotted names finds these, and takes all but the declared ones for schemas.
-/

namespace ReportQuery.Query

open Sql (DottedName castNames endsWithCast qualifierSchemas dottedName)
open Text (Piece lower pieces flatMap_source_pieces)

/-- The qualifiers in the line of a join. -/
def Join.qualifiers (join : Join) : List String :=
  join.table.schema :: join.on.flatMap fun equality =>
    [aliasText equality.left.number, aliasText equality.right.number]

/-- The qualifiers in a statement, from left to right. -/
def Statement.qualifiers (statement : Statement) : List String :=
  statement.selection.numbers.map aliasText ++
    (statement.anchor.schema :: (statement.joins.flatMap Join.qualifiers ++
      (statement.conditions.map (fun condition => aliasText condition.source.number) ++
        (statement.grouping.map (fun ref => aliasText ref.number) ++
          statement.order.map fun entry => aliasText entry.source.number))))

section Dotting

variable {front back separator : List Token} {names more : List String}

theorem Dotting.flatMap {α : Type} {tokens : α → List Token} {names : α → List String} {parts : List α}
    (each : ∀ part, Dotting (tokens part) (names part)) :
    Dotting (parts.flatMap tokens) (parts.flatMap names) := by
  induction parts with
  | nil => exact .nil
  | cons part parts ih =>
    rw [List.flatMap_cons, List.flatMap_cons]
    exact (each part).append ih

theorem Dotting.intercalate {α : Type} {tokens : α → List Token} {names : α → List String}
    {parts : List α} (between : Dotting separator [])
    (each : ∀ part, Dotting (tokens part) (names part)) :
    Dotting (separator.intercalate (parts.map tokens)) (parts.flatMap names) := by
  cases parts with
  | nil => exact .nil
  | cons first parts =>
    rw [List.map_cons, Text.intercalate_cons_flatMap, List.flatMap_map, List.flatMap_cons]
    exact (each first).append (Dotting.flatMap fun part => between.append (each part))

private theorem Dotting.blank (dotting : Dotting back names) : Dotting (.mark ' ' :: back) names :=
  .mark (by decide) (by decide) dotting

private theorem Dotting.line (dotting : Dotting back names) : Dotting (.mark '\n' :: back) names :=
  .mark (by decide) (by decide) dotting

private theorem dotting_phrase (words : List String) : Dotting (phrase words) [] := by
  have whole : Dotting (phrase words) (words.flatMap fun _ => []) :=
    Dotting.intercalate (.blank .nil) fun word => .lone rfl .nil
  rwa [List.flatMap_eq_nil_iff.mpr fun _ _ => rfl] at whole

private theorem dotting_andTokens : Dotting andTokens [] :=
  .blank (.lone rfl (.blank .nil))

private theorem dotting_commaTokens : Dotting commaTokens [] :=
  .mark (by decide) (by decide) (.blank .nil)

private theorem dotting_columnRef (ref : ColumnRef) : Dotting ref.tokens [aliasText ref.number] :=
  .column (isPlainName_aliasText _) .nil

private theorem dotting_selectItem (item : SelectItem) :
    Dotting item.tokens [aliasText item.source.number] := by
  have source := dotting_columnRef item.source
  have called (function : Aggregate) :
      Dotting (.word function.name :: .mark '(' :: (item.source.tokens ++ [.mark ')']))
        [aliasText item.source.number] :=
    .call (source.append (.mark (by decide) (by decide) .nil))
  have label (text : String) : Dotting [.mark ' ', .word "AS", .mark ' ', .name text] [] :=
    .blank (.lone rfl (.blank (.lone rfl .nil)))
  unfold SelectItem.tokens
  cases item.aggregate? with
  | none => cases item.label? with
    | none => exact source.append .nil
    | some text => exact source.append (label text)
  | some function => cases item.label? with
    | none => exact (called function).append .nil
    | some text => exact (called function).append (label text)

private theorem dotting_selection (selection : Selection) :
    Dotting selection.tokens (selection.numbers.map aliasText) := by
  cases selection with
  | everything number => exact .everything (isPlainName_aliasText _) .nil
  | items entries =>
    have whole : Dotting (commaTokens.intercalate (entries.map SelectItem.tokens))
        (entries.flatMap fun item => [aliasText item.source.number]) :=
      .intercalate dotting_commaTokens dotting_selectItem
    rw [Selection.tokens, Selection.numbers, List.map_map]
    rwa [← List.map_eq_flatMap] at whole

private theorem dotting_tableRef (table : TableRef) : Dotting table.tokens [table.schema] :=
  .table (.blank (.lone rfl .nil))

private theorem dotting_equality (equality : Equality) :
    Dotting equality.tokens [aliasText equality.left.number, aliasText equality.right.number] :=
  ((dotting_columnRef equality.left).append (.blank (.lone rfl (.blank .nil)))).append
    (dotting_columnRef equality.right)

private theorem dotting_join (join : Join) : Dotting join.tokens join.qualifiers := by
  have words : Dotting (phrase (joinWords join.kind) ++ [.mark ' ']) [] :=
    (dotting_phrase _).append (.blank .nil)
  have table : Dotting (join.table.tokens ++ [.mark ' ', .word "ON", .mark ' ']) [join.table.schema] :=
    (dotting_tableRef join.table).append (.blank (.lone rfl (.blank .nil)))
  exact words.append (table.append (.intercalate dotting_andTokens dotting_equality))

private theorem dotting_condition (condition : Condition) :
    Dotting condition.tokens [aliasText condition.source.number] :=
  ((dotting_columnRef condition.source).append (.blank .nil)).append
    (((dotting_phrase condition.operator.words).append (.blank .nil)).append (.lone rfl .nil))

private theorem dotting_orderEntry (entry : OrderEntry) :
    Dotting entry.tokens [aliasText entry.source.number] :=
  ((dotting_columnRef entry.source).append (.blank .nil)).append (.lone rfl .nil)

private theorem dotting_clauseLine {α : Type} {words : List String} {tokens : α → List Token}
    {name : α → String} {parts : List α} (between : Dotting separator [])
    (each : ∀ part, Dotting (tokens part) [name part]) :
    Dotting (clauseLine words separator (parts.map tokens)) (parts.map name) := by
  cases parts with
  | nil => exact .nil
  | cons first parts =>
    have line : Dotting (phrase words ++ [.mark ' ']) [] := (dotting_phrase words).append (.blank .nil)
    have inside : Dotting (separator.intercalate ((first :: parts).map tokens))
        ((first :: parts).flatMap fun part => [name part]) := .intercalate between each
    rw [clauseLine, clauseTokens, if_neg (by simp), List.flatMap_singleton]
    rw [← List.map_eq_flatMap] at inside
    exact .line (line.append inside)

theorem Statement.dotting (statement : Statement) : Dotting statement.tokens statement.qualifiers := by
  have select : Dotting statement.selectLine (statement.selection.numbers.map aliasText) :=
    ((dotting_phrase _).append (.blank .nil)).append (dotting_selection statement.selection)
  have joins : Dotting (joinLines statement.joins) (statement.joins.flatMap Join.qualifiers) :=
    Dotting.flatMap fun join => .line (dotting_join join)
  rw [Statement.tokens_eq]
  exact select.append (.line (.lone rfl (.blank ((dotting_tableRef statement.anchor).append
    (joins.append ((dotting_clauseLine dotting_andTokens dotting_condition).append
      ((dotting_clauseLine dotting_commaTokens dotting_columnRef).append
        (dotting_clauseLine dotting_commaTokens dotting_orderEntry))))))))

end Dotting

section Schemas

variable {statement : Statement} {declared : List String}

private theorem endsWithCast_of_not_mem {passed : List Char} (colonless : ':' ∉ passed) :
    endsWithCast passed = false := by
  unfold endsWithCast
  split
  · rename_i ends
    exact absurd ((List.dropWhile_sublist _).subset (ends ▸ List.mem_cons_self)) colonless
  · rfl

/-- Where no colon stands nothing is a target of a cast. -/
private theorem castNames_of_not_mem (ps : List (Piece DottedName)) {passed : List Char}
    (left : ':' ∉ passed) (right : ':' ∉ ps.flatMap Piece.source) :
    castNames passed ps = (ps.filterMap Piece.value?).map fun name => (name, false) := by
  induction ps generalizing passed with
  | nil => rfl
  | cons piece ps ih =>
    rw [List.flatMap_cons, List.mem_append, not_or] at right
    cases piece with
    | plain c =>
      have here : ':' ∉ [c] := right.1
      exact ih (List.not_mem_cons_of_ne_of_not_mem (by simpa using here) left) right.2
    | found source name =>
      have here : ':' ∉ source := right.1
      rw [castNames, endsWithCast_of_not_mem left, ih (by simp [left, here]) right.2]
      rfl

/-- The schemas that the scan of a statement takes from qualifiers are all that are not declared. -/
theorem Statement.qualifierSchemas_textOf (plain : ∀ token ∈ statement.tokens, token.IsPlain) :
    qualifierSchemas declared (textOf statement.tokens) =
      statement.qualifiers.filter fun name => !declared.contains (lower name) := by
  have colonless : ':' ∉ (pieces dottedName none (textOf statement.tokens)).flatMap Piece.source := by
    rw [flatMap_source_pieces]
    exact not_mem_textOf plain (by decide) (by decide)
  have found : (pieces dottedName none (textOf statement.tokens)).filterMap Piece.value? = _ :=
    statement.dotting.found plain statement.separated_tokens (by simp [Sql.Opens])
  rw [qualifierSchemas, castNames_of_not_mem _ (by simp) colonless, found]
  induction statement.qualifiers with
  | nil => rfl
  | cons name names ih =>
    simp only [List.map_cons, List.flatMap_cons, List.filter_cons] at ih ⊢
    rw [ih]
    cases declared.contains (lower name) <;> simp

end Schemas

section Scope

variable {statement : Statement} {name : String}

theorem Statement.schema_mem_qualifiers {source : TableRef} (member : source ∈ statement.sources) :
    source.schema ∈ statement.qualifiers := by
  refine List.mem_append_right _ ?_
  rcases List.mem_cons.mp member with rfl | joined
  · exact List.mem_cons_self
  · obtain ⟨join, among, rfl⟩ := List.mem_map.mp joined
    refine List.mem_cons_of_mem _ (List.mem_append_left _ ?_)
    exact List.mem_flatMap_of_mem among List.mem_cons_self

/-- The alias of a joined table qualifies the columns that the join compares. -/
theorem Statement.WellScoped.alias_mem_qualifiers (isScoped : statement.WellScoped) {join : Join}
    (member : join ∈ statement.joins) (compares : join.on ≠ []) :
    aliasText join.table.number ∈ statement.qualifiers := by
  obtain ⟨before, after, split⟩ := List.append_of_mem member
  obtain ⟨equality, on⟩ := List.exists_mem_of_ne_nil _ compares
  have own : equality.right.number = join.table.number :=
    (isScoped.on before join after split equality on).2
  refine List.mem_append_right _ (List.mem_cons_of_mem _ (List.mem_append_left _ ?_))
  refine List.mem_flatMap_of_mem member (List.mem_cons_of_mem _ (List.mem_flatMap_of_mem on ?_))
  simp [own]

/-- The qualifiers of a well-scoped statement are the schemas of its tables and their aliases. -/
theorem Statement.WellScoped.mem_qualifiers (isScoped : statement.WellScoped)
    (member : name ∈ statement.qualifiers) :
    ∃ source ∈ statement.sources, name = source.schema ∨ name = aliasText source.number := by
  have introduced {number : Nat} (among : number ∈ statement.sources.map TableRef.number) :
      ∃ source ∈ statement.sources, aliasText number = source.schema ∨
        aliasText number = aliasText source.number := by
    obtain ⟨source, isSource, rfl⟩ := List.mem_map.mp among
    exact ⟨source, isSource, .inr rfl⟩
  have used {number : Nat} (among : number ∈ statement.usedNumbers) :=
    introduced (isScoped.used number among)
  simp only [Statement.usedNumbers, List.mem_append] at used
  simp only [Statement.qualifiers, List.mem_append, List.mem_cons, List.mem_map,
    List.mem_flatMap] at member
  rcases member with ⟨number, selected, rfl⟩ | rfl | ⟨join, joined, inLine⟩ | ⟨condition, among, rfl⟩ |
    ⟨ref, among, rfl⟩ | ⟨entry, among, rfl⟩
  · exact used (.inl (.inl (.inl selected)))
  · exact ⟨statement.anchor, List.mem_cons_self, .inl rfl⟩
  · have isSource : join.table ∈ statement.sources :=
      List.mem_cons_of_mem _ (List.mem_map_of_mem joined)
    rcases List.mem_cons.mp inLine with rfl | compared
    · exact ⟨join.table, isSource, .inl rfl⟩
    · obtain ⟨equality, on, side⟩ := List.mem_flatMap.mp compared
      obtain ⟨before, after, split⟩ := List.append_of_mem joined
      obtain ⟨left, right⟩ := isScoped.on before join after split equality on
      rcases List.mem_pair.mp side with rfl | rfl
      · refine introduced (List.map_subset _ ?_ left)
        rw [Statement.sources, split, List.map_append]
        exact List.cons_subset_cons _ (List.subset_append_left _ _)
      · exact ⟨join.table, isSource, .inr (by rw [right])⟩
  · exact used (.inl (.inl (.inr (List.mem_map_of_mem among))))
  · exact used (.inl (.inr (List.mem_map_of_mem among)))
  · exact used (.inr (List.mem_map_of_mem among))

end Scope

end ReportQuery.Query
