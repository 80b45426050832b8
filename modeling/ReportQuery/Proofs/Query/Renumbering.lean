import Mathlib.Logic.Equiv.Basic
import ReportQuery.Proofs.Query.Resolution

set_option autoImplicit false
set_option relaxedAutoImplicit false

/-!
Statements with other numbers for the aliases, and what the order of the selected tables does to a
description: its columns, conditions and sorts resolve as before, but for the numbers of the aliases.
-/

namespace ReportQuery.Query

open Schema (Snapshot Table Relation)
open Text (lower trim distinct distinct_map find?_key_perm)

section Statements

variable (σ : Nat → Nat)

def ColumnRef.renumber (ref : ColumnRef) : ColumnRef :=
  { ref with number := σ ref.number }

def SelectItem.renumber (item : SelectItem) : SelectItem :=
  { item with source := item.source.renumber σ }

def Selection.renumber : Selection → Selection
  | everything number => .everything (σ number)
  | items entries => .items (entries.map (SelectItem.renumber σ))

def TableRef.renumber (table : TableRef) : TableRef :=
  { table with number := σ table.number }

def Equality.renumber (equality : Equality) : Equality :=
  ⟨equality.left.renumber σ, equality.right.renumber σ⟩

def Join.renumber (join : Join) : Join :=
  ⟨join.kind, join.table.renumber σ, join.on.map (Equality.renumber σ)⟩

def Condition.renumber (condition : Condition) : Condition :=
  { condition with source := condition.source.renumber σ }

def OrderEntry.renumber (entry : OrderEntry) : OrderEntry :=
  { entry with source := entry.source.renumber σ }

/-- The statement with other numbers for its aliases. -/
def Statement.renumber (statement : Statement) : Statement where
  isDistinct := statement.isDistinct
  selection := statement.selection.renumber σ
  anchor := statement.anchor.renumber σ
  joins := statement.joins.map (Join.renumber σ)
  conditions := statement.conditions.map (Condition.renumber σ)
  grouping := statement.grouping.map (ColumnRef.renumber σ)
  order := statement.order.map (OrderEntry.renumber σ)

variable {σ}

theorem ColumnRef.renumber_injective (injective : Function.Injective σ) (ref other : ColumnRef)
    (same : ref.renumber σ = other.renumber σ) : ref = other := by
  obtain ⟨number, column⟩ := ColumnRef.mk.inj same
  cases ref
  cases other
  exact congrArg₂ ColumnRef.mk (injective number) column

/-- Columns to group by are told apart by their numbers, before and after. -/
theorem Selection.grouping_renumber (injective : Function.Injective σ) (selection : Selection) :
    (selection.renumber σ).grouping = selection.grouping.map (ColumnRef.renumber σ) := by
  cases selection with
  | everything number => rfl
  | items entries =>
    have plain : ((entries.map (SelectItem.renumber σ)).filter fun item => item.aggregate?.isNone).map
        SelectItem.source = ((entries.filter fun item => item.aggregate?.isNone).map
          SelectItem.source).map (ColumnRef.renumber σ) := by
      rw [List.filter_map, List.map_map, List.map_map]
      rfl
    have mixed : (entries.map (SelectItem.renumber σ)).any (fun item => item.aggregate?.isSome) =
        entries.any fun item => item.aggregate?.isSome := by
      rw [List.any_map]
      rfl
    simp only [Selection.renumber, Selection.grouping, plain, mixed,
      distinct_map (ColumnRef.renumber_injective injective)]
    split <;> rfl

theorem parameterNames_renumber (conditions : List Condition) :
    parameterNames (conditions.map (Condition.renumber σ)) = parameterNames conditions := by
  rw [parameterNames, List.map_map]
  rfl

end Statements

/-- The number in another list of the key with a number in one list. Numbers beyond the list are kept. -/
def transfer (keys others : List String) (number : Nat) : Nat :=
  if h : number < keys.length then others.idxOf keys[number] else number

theorem transfer_idxOf {keys others : List String} (perm : keys.Perm others) (key : String) :
    transfer keys others (keys.idxOf key) = others.idxOf key := by
  by_cases member : key ∈ keys
  · have small : keys.idxOf key < keys.length := List.idxOf_lt_length_iff.mpr member
    rw [transfer, dif_pos small, List.getElem_idxOf small]
  · have apart : key ∉ others := fun among => member (perm.mem_iff.mpr among)
    rw [transfer, List.idxOf_eq_length_iff.mpr member, dif_neg (Nat.lt_irrefl _),
      List.idxOf_eq_length_iff.mpr apart, perm.length_eq]

theorem transfer_transfer {keys others : List String} (apart : keys.Nodup) (perm : keys.Perm others)
    (number : Nat) : transfer others keys (transfer keys others number) = number := by
  by_cases small : number < keys.length
  · have there : transfer keys others number = others.idxOf keys[number] := dif_pos small
    rw [there, transfer_idxOf perm.symm, apart.idxOf_getElem number small]
  · have there : transfer keys others number = number := dif_neg small
    rw [there, transfer, dif_neg (perm.length_eq ▸ small)]

/-- Lists of the same keys number them so that one numbering follows from the other. -/
theorem exists_renumber {keys others : List String} (apart : keys.Nodup) (perm : keys.Perm others) :
    ∃ σ : Equiv.Perm Nat, ∀ key, σ (keys.idxOf key) = others.idxOf key := by
  refine ⟨⟨transfer keys others, transfer others keys, ?_, ?_⟩, fun key => ?_⟩
  · exact transfer_transfer apart perm
  · exact transfer_transfer (perm.nodup_iff.mp apart) perm.symm
  · exact transfer_idxOf perm key

/-- The place of a key among the keys of tables. -/
def placeOf (tables : List Table) (key : String) : Nat :=
  (tables.map fun table => lower table.key).idxOf key

/-- The same tables in another order, with the numbers of their aliases. -/
structure Reorders (σ : Nat → Nat) (tables others : List Table) : Prop where
  apart : (tables.map fun table => lower table.key).Nodup
  perm : tables.Perm others
  moved : ∀ table ∈ tables, σ (placeOf tables (lower table.key)) = placeOf others (lower table.key)

section Resolution

variable {σ : Nat → Nat} {tables others : List Table}

theorem selected?_eq (tables : List Table) (key : String) :
    selected? tables key = (tables.find? fun table => lower table.key = lower (trim key)).map
      fun table => (table, placeOf tables (lower table.key)) := by
  have general (tables : List Table) (first : Nat) :
      ((tables.zipIdx first).find? fun pair => lower pair.1.key = lower (trim key)) =
        (tables.find? fun table => lower table.key = lower (trim key)).map
          fun table => (table, first + placeOf tables (lower table.key)) := by
    induction tables generalizing first with
    | nil => rfl
    | cons table rest ih =>
      rw [List.zipIdx_cons]
      by_cases here : lower table.key = lower (trim key)
      · rw [List.find?_cons_of_pos (by simpa using here), List.find?_cons_of_pos (by simpa using here)]
        simp [placeOf]
      · rw [List.find?_cons_of_neg (by simpa using here), List.find?_cons_of_neg (by simpa using here),
          ih]
        cases found : rest.find? fun table => lower table.key = lower (trim key) with
        | none => rfl
        | some other =>
          have same : lower other.key = lower (trim key) := by simpa using List.find?_some found
          have differ : lower table.key ≠ lower other.key := fun h => here (h.trans same)
          simp [placeOf, List.idxOf_cons_ne _ differ]
          omega
  have whole := general tables 0
  simp only [Nat.zero_add] at whole
  exact whole

theorem resolveColumn_reorder (reorders : Reorders σ tables others) (usage : Usage)
    (tableKey columnName : String) :
    resolveColumn others usage tableKey columnName =
      (resolveColumn tables usage tableKey columnName).map (ColumnRef.renumber σ) := by
  have chosen : (others.find? fun table => lower table.key = lower (trim tableKey)) =
      tables.find? fun table => lower table.key = lower (trim tableKey) :=
    (find?_key_perm reorders.apart reorders.perm).symm
  unfold resolveColumn
  rw [selected?_eq, selected?_eq, chosen]
  cases found : tables.find? fun table => lower table.key = lower (trim tableKey) with
  | none => rfl
  | some table =>
    have moved := reorders.moved table (List.mem_of_find?_eq_some found)
    dsimp only [Option.map_some]
    rw [← moved]
    split <;> rfl

/-- Reading all elements of a list goes along with a change of what each reads as. -/
theorem mapM_renumber {α β ε : Type} {f g : α → Except ε β} {r : β → β}
    (renumbered : ∀ a, g a = (f a).map r) (as : List α) :
    as.mapM g = (as.mapM f).map (List.map r) := by
  induction as with
  | nil => rfl
  | cons a rest ih =>
    rw [List.mapM_cons, List.mapM_cons, renumbered, ih]
    cases f a with
    | error error => rfl
    | ok b => cases rest.mapM f <;> rfl

theorem compileField_reorder (reorders : Reorders σ tables others) (field : Field) :
    compileField others field = (compileField tables field).map (SelectItem.renumber σ) := by
  rw [compileField, compileField, resolveColumn_reorder reorders]
  cases resolveColumn tables .field field.tableKey field.columnName with
  | error error => rfl
  | ok source => cases resolveAggregate field.aggregate? <;> rfl

theorem compileSelection_reorder (reorders : Reorders σ tables others) (anchored : σ 0 = 0)
    (fields : List Field) :
    compileSelection others fields = (compileSelection tables fields).map (Selection.renumber σ) := by
  unfold compileSelection
  split
  · exact congrArg (Except.ok ∘ Selection.everything) anchored.symm
  · rw [mapM_renumber (compileField_reorder reorders)]
    cases fields.mapM (compileField tables) <;> rfl

theorem compileFilter_reorder (reorders : Reorders σ tables others) (filter : Filter) :
    compileFilter others filter = (compileFilter tables filter).map (Condition.renumber σ) := by
  rw [compileFilter, compileFilter, resolveColumn_reorder reorders]
  cases resolveColumn tables .filter filter.tableKey filter.columnName with
  | error error => rfl
  | ok source =>
    simp only [Except.map, bind, Except.bind]
    split
    · rfl
    · split <;> rfl

theorem compileSort_reorder (reorders : Reorders σ tables others) (sort : SortKey) :
    compileSort others sort = (compileSort tables sort).map (OrderEntry.renumber σ) := by
  rw [compileSort, compileSort, resolveColumn_reorder reorders]
  cases resolveColumn tables .sort sort.tableKey sort.columnName with
  | error error => rfl
  | ok source =>
    simp only [Except.map, bind, Except.bind]
    split <;> rfl

end Resolution

end ReportQuery.Query
