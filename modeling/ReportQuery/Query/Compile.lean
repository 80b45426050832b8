import ReportQuery.Query.Description
import ReportQuery.Query.Statement
import ReportQuery.Text.Order

set_option autoImplicit false
set_option relaxedAutoImplicit false

/-!
Compiling a description against a snapshot. Every name of the statement comes from the snapshot;
of the caller's texts only output labels and parameter names get into it, and both are plain names.

Tables are joined in passes over the requested relations, from the anchor on: a relation is applied
once exactly one of its tables has been joined. Passes go on as long as one applies a relation.
-/

namespace ReportQuery.Query

open Schema (Snapshot Table Column Relation ColumnPair)
open Text (trim lower isBlankText isSafeIdentifier distinct distinctBy sortBy)

/-- The part of a description that names a column. -/
inductive Usage where
  | field
  | filter
  | sort
deriving Repr, DecidableEq

/-- Why a requested relation was not applied. -/
inductive UnusedReason where
  | bothJoined
  | neitherJoined
deriving Repr, DecidableEq

/-- Why a description has no statement. -/
inductive CompileError where
  | noTable
  | emptyTableKey (text : String)
  | unknownTable (key : String)
  | unselectedTable (usage : Usage) (key : String)
  | unknownColumn (name tableKey : String) (available : List String)
  | unsupportedAggregate (text : String)
  | unsupportedOperator (text : String)
  | invalidParameterName (text : String)
  | unsupportedDirection (text : String)
  | unknownRelation (id : String)
  | unknownEndpoint (id key : String)
  | missingRelation (key : String)
  | unusedRelation (id : String) (reason : UnusedReason)
deriving Repr, DecidableEq

/-- How the part of a description is called. -/
def Usage.name : Usage → String
  | field => "Field"
  | filter => "Filter"
  | sort => "Sort"

/-- The clause that gives the reason. -/
def UnusedReason.message : UnusedReason → String
  | bothJoined => "both of its tables are already joined"
  | neitherJoined => "neither of its tables is connected to the query"

namespace CompileError

/-- The sentences that report the error. -/
def message : CompileError → String
  | noTable => "Select at least one table to build a query."
  | emptyTableKey _ => "Table key cannot be empty."
  | unknownTable key => "Table '" ++ key ++ "' not found in schema metadata."
  | unselectedTable usage key =>
    usage.name ++ " references table '" ++ key ++ "', which is not selected in the query."
  | unknownColumn name tableKey available =>
    "Column '" ++ name ++ "' not found on table '" ++ tableKey ++ "'. Available columns: " ++
      ", ".intercalate available
  | unsupportedAggregate text =>
    "Aggregate '" ++ text ++ "' is not supported. Supported: " ++
      ", ".intercalate (Aggregate.all.map Aggregate.name)
  | unsupportedOperator text =>
    "Operator '" ++ text ++ "' is not supported. Supported: " ++
      ", ".intercalate (Operator.all.map Operator.symbol)
  | invalidParameterName text =>
    "Parameter name '" ++ text ++
      "' is invalid. Use letters, digits and underscores, not starting with a digit."
  | unsupportedDirection text =>
    "Sort direction '" ++ text ++ "' is not supported. Use ASC or DESC."
  | unknownRelation id => "Relation '" ++ id ++ "' not found."
  | unknownEndpoint id key => "Relation '" ++ id ++ "' references unknown table '" ++ key ++ "'."
  | missingRelation key =>
    "Missing relation: table '" ++ key ++ "' is not connected to the query. " ++
      "Select a relation that joins it to one of the other tables."
  | unusedRelation id reason =>
    "Relation '" ++ id ++ "' cannot be applied: " ++ reason.message ++ "."

/-- What the error is about, as the caller wrote it or as the snapshot spells it. -/
def identifier? : CompileError → Option String
  | noTable => none
  | emptyTableKey text | unsupportedAggregate text | unsupportedOperator text
  | invalidParameterName text | unsupportedDirection text => some text
  | unknownTable key | unselectedTable _ key | unknownEndpoint _ key | missingRelation key =>
    some key
  | unknownColumn name _ _ => some name
  | unknownRelation id | unusedRelation id _ => some id

end CompileError

/-- The selected tables in order, repeats dropped. -/
def resolveTables (snapshot : Snapshot) (keys : List String) :
    Except CompileError (List Table) := do
  let tables ← keys.mapM fun text =>
    let key := trim text
    if key.isEmpty then .error (.emptyTableKey text)
    else
      match snapshot.table? key with
      | some table => .ok table
      | none => .error (.unknownTable key)
  return distinctBy (fun table => lower table.key) tables

/-- The requested relations in order, blank ids and repeats dropped. -/
def resolveRelations (snapshot : Snapshot) (ids : List String) :
    Except CompileError (List Relation) := do
  let relations ← (ids.filter fun id => !isBlankText id).mapM fun text =>
    match snapshot.relation? (trim text) with
    | some relation => .ok relation
    | none => .error (.unknownRelation (trim text))
  return distinctBy (fun relation => lower relation.id) relations

/-- A selected table and the number of its alias, which is its place among the selected tables. -/
def selected? (tables : List Table) (key : String) : Option (Table × Nat) :=
  tables.zipIdx.find? fun (table, _) => lower table.key = lower (trim key)

/-- The column that a part of the description names. Its table must be selected. -/
def resolveColumn (tables : List Table) (usage : Usage) (tableKey columnName : String) :
    Except CompileError ColumnRef :=
  match selected? tables tableKey with
  | none => .error (.unselectedTable usage tableKey)
  | some (table, number) =>
    let name := trim columnName
    let column? := if name.isEmpty then none else table.column? name
    match column? with
    | some column => .ok ⟨number, column.name⟩
    | none => .error (.unknownColumn name table.key (table.columns.map Column.name))

/-- The aggregate function that a field asks for, if any. -/
def resolveAggregate (aggregate? : Option String) : Except CompileError (Option Aggregate) :=
  match aggregate?, aggregateName? aggregate? with
  | some text, some name =>
    match Aggregate.ofName? name with
    | some aggregate => .ok (some aggregate)
    | none => .error (.unsupportedAggregate text)
  | _, _ => .ok none

/-- The entry of the select list for a field. A label that is no plain name is left out. -/
def compileField (tables : List Table) (field : Field) : Except CompileError SelectItem := do
  let source ← resolveColumn tables .field field.tableKey field.columnName
  let aggregate? ← resolveAggregate field.aggregate?
  return ⟨source, aggregate?, safeAlias? field.alias?⟩

/-- What is selected. Without fields these are all columns of the anchor. -/
def compileSelection (tables : List Table) (fields : List Field) :
    Except CompileError Selection :=
  if fields.isEmpty then .ok (.everything 0) else .items <$> fields.mapM (compileField tables)

/-- The columns to group by: those selected plainly beside an aggregate. -/
def Selection.grouping : Selection → List ColumnRef
  | everything _ => []
  | items entries =>
    if entries.any fun item => item.aggregate?.isSome then
      distinct ((entries.filter fun item => item.aggregate?.isNone).map SelectItem.source)
    else []

/-- The condition for a filter. -/
def compileFilter (tables : List Table) (filter : Filter) : Except CompileError Condition := do
  let source ← resolveColumn tables .filter filter.tableKey filter.columnName
  match Operator.ofSymbol? (normalOperator filter.operator) with
  | none => .error (.unsupportedOperator filter.operator)
  | some operator =>
    let parameter := normalParameterName filter.parameterName
    if isSafeIdentifier parameter then return ⟨source, operator, parameter⟩
    else .error (.invalidParameterName filter.parameterName)

/-- The entry of the order for a sort. -/
def compileSort (tables : List Table) (sort : SortKey) : Except CompileError OrderEntry := do
  let source ← resolveColumn tables .sort sort.tableKey sort.columnName
  match Direction.ofSymbol? (normalDirection sort.direction) with
  | some direction => return ⟨source, direction⟩
  | none => .error (.unsupportedDirection sort.direction)

/-- How far joining has come. Tables are named by their keys in lower case. -/
structure Joining where
  /-- The tables that have an alias, in the order of their aliases. -/
  aliased : List String
  /-- The tables joined so far, the anchor among them. -/
  joined : List String
  joins : List Join
deriving Repr, DecidableEq

namespace Joining

/-- Joining before the first relation: the selected tables have aliases, the anchor is joined. -/
def start (anchor : Table) (tables : List Table) : Joining :=
  ⟨tables.map fun table => lower table.key, [lower anchor.key], []⟩

/-- Gives a table an alias unless it has one. -/
def withAlias (state : Joining) (key : String) : Joining :=
  { state with aliased := Text.addNew state.aliased key }

/-- The number of the alias of a table. -/
def aliasOf (state : Joining) (key : String) : Nat :=
  state.aliased.idxOf key

/-- Whether a table was joined. -/
def hasJoined (state : Joining) (key : String) : Bool :=
  state.joined.contains (lower key)

end Joining

/-- A table that a relation names. -/
def resolveEndpoint (snapshot : Snapshot) (relation : Relation) (key : String) :
    Except CompileError Table :=
  match snapshot.table? key with
  | some table => .ok table
  | none => .error (.unknownEndpoint relation.id key)

/-- Joins the table of a relation that was not joined before. `fromJoined` tells which it is. -/
def Joining.apply (snapshot : Snapshot) (state : Joining) (relation : Relation)
    (fromJoined : Bool) : Except CompileError Joining := do
  let fromTable ← resolveEndpoint snapshot relation relation.fromTable
  let toTable ← resolveEndpoint snapshot relation relation.toTable
  let named := (state.withAlias (lower fromTable.key)).withAlias (lower toTable.key)
  let fromAlias := named.aliasOf (lower fromTable.key)
  let toAlias := named.aliasOf (lower toTable.key)
  let equality (pair : ColumnPair) : Equality :=
    if fromJoined then ⟨⟨fromAlias, pair.fromColumn⟩, ⟨toAlias, pair.toColumn⟩⟩
    else ⟨⟨toAlias, pair.toColumn⟩, ⟨fromAlias, pair.fromColumn⟩⟩
  let (table, number, key) :=
    if fromJoined then (toTable, toAlias, relation.toTable)
    else (fromTable, fromAlias, relation.fromTable)
  let join : Join :=
    ⟨relation.join, ⟨table.schema, table.name, number⟩, relation.columns.map equality⟩
  return ⟨named.aliased, named.joined ++ [lower key], named.joins ++ [join]⟩

/-- One pass over the relations: applies those with exactly one joined table and returns the
others. -/
def Joining.pass (snapshot : Snapshot) (state : Joining) :
    List Relation → Except CompileError (Joining × List Relation)
  | [] => .ok (state, [])
  | relation :: rest =>
    let fromJoined := state.hasJoined relation.fromTable
    if fromJoined == state.hasJoined relation.toTable then do
      let (last, deferred) ← state.pass snapshot rest
      return (last, relation :: deferred)
    else do
      let next ← state.apply snapshot relation fromJoined
      next.pass snapshot rest

/-- Passes over the relations until one applies none: the joins, and the relations left over. -/
def Joining.run (snapshot : Snapshot) (state : Joining) (pending : List Relation) :
    Except CompileError (Joining × List Relation) :=
  match state.pass snapshot pending with
  | .error error => .error error
  | .ok (next, deferred) =>
    if deferred.length < pending.length then next.run snapshot deferred else .ok (next, deferred)
termination_by pending.length

/-- The joins of the requested relations. Every selected table must be joined and every relation
must have been applied. -/
def compileJoins (snapshot : Snapshot) (anchor : Table) (tables : List Table) (ids : List String) :
    Except CompileError (List Join) := do
  let relations ← resolveRelations snapshot ids
  let (last, unused) ← (Joining.start anchor tables).run snapshot relations
  match tables.find? fun table => !last.hasJoined table.key with
  | some table => .error (.missingRelation table.key)
  | none =>
    match unused with
    | relation :: _ =>
      let bothJoined := last.hasJoined relation.fromTable && last.hasJoined relation.toTable
      .error (.unusedRelation relation.id (if bothJoined then .bothJoined else .neitherJoined))
    | [] => return last.joins

/-- A compiled description. -/
structure Compiled where
  statement : Statement
  /-- The names of the parameters, one spelling each, sorted without regard to case. -/
  parameterNames : List String
deriving Repr, DecidableEq

/-- The text of the compiled statement. -/
def Compiled.sql (compiled : Compiled) : String :=
  compiled.statement.render

/-- The names of the parameters of conditions: the first spelling of each, sorted. -/
def parameterNames (conditions : List Condition) : List String :=
  sortBy lower (distinctBy lower (conditions.map Condition.parameter))

/-- Compiles a description. -/
def compile (snapshot : Snapshot) (description : Description) : Except CompileError Compiled := do
  match ← resolveTables snapshot description.tables with
  | [] => .error .noTable
  | anchor :: others =>
    let tables := anchor :: others
    let selection ← compileSelection tables description.fields
    let conditions ← description.filters.mapM (compileFilter tables)
    let order ← description.sorts.mapM (compileSort tables)
    let joins ← compileJoins snapshot anchor tables description.relations
    return {
      statement := {
        isDistinct := description.useDistinct
        selection := selection
        anchor := ⟨anchor.schema, anchor.name, 0⟩
        joins := joins
        conditions := conditions
        grouping := selection.grouping
        order := order
      }
      parameterNames := parameterNames conditions
    }

end ReportQuery.Query
