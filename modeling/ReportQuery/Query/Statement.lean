import ReportQuery.Schema.Snapshot
import ReportQuery.Text.Identifier

set_option autoImplicit false
set_option relaxedAutoImplicit false

/-!
SELECT statements as data, and their text: one clause per line, every name between double quotes.
-/

namespace ReportQuery.Query

open Schema (JoinKind)
open Text (quoteIdentifier)

/-- An aggregate function. -/
inductive Aggregate where
  | count
  | sum
  | avg
  | min
  | max
deriving Repr, DecidableEq

/-- A comparison of a column with a parameter. -/
inductive Operator where
  | equal
  | notEqual
  | greater
  | less
  | greaterOrEqual
  | lessOrEqual
  | like
  | notLike
  | likeAnyCase
  | notLikeAnyCase
deriving Repr, DecidableEq

/-- A direction of sorting. -/
inductive Direction where
  | ascending
  | descending
deriving Repr, DecidableEq

/-- A column of a joined table, which is known by the number of its alias. -/
structure ColumnRef where
  number : Nat
  column : String
deriving Repr, DecidableEq

/-- An entry of the select list. -/
structure SelectItem where
  source : ColumnRef
  aggregate? : Option Aggregate
  label? : Option String
deriving Repr, DecidableEq

/-- What is selected. -/
inductive Selection where
  /-- All columns of a table. -/
  | everything (number : Nat)
  | items (entries : List SelectItem)
deriving Repr, DecidableEq

/-- A table with the number of its alias. -/
structure TableRef where
  schema : String
  name : String
  number : Nat
deriving Repr, DecidableEq

/-- An equality of two columns of a join: the left side belongs to a table joined before. -/
structure Equality where
  left : ColumnRef
  right : ColumnRef
deriving Repr, DecidableEq

/-- A joined table. -/
structure Join where
  kind : JoinKind
  table : TableRef
  on : List Equality
deriving Repr, DecidableEq

/-- A comparison of a column with a named parameter. -/
structure Condition where
  source : ColumnRef
  operator : Operator
  parameter : String
deriving Repr, DecidableEq

/-- An entry of the order. -/
structure OrderEntry where
  source : ColumnRef
  direction : Direction
deriving Repr, DecidableEq

/-- A SELECT statement. Its conditions hold all together. -/
structure Statement where
  isDistinct : Bool
  selection : Selection
  anchor : TableRef
  joins : List Join
  conditions : List Condition
  grouping : List ColumnRef
  order : List OrderEntry
deriving Repr, DecidableEq

namespace Aggregate

/-- All aggregate functions. -/
def all : List Aggregate := [count, sum, avg, min, max]

/-- The name of the function. -/
def name : Aggregate → String
  | count => "COUNT"
  | sum => "SUM"
  | avg => "AVG"
  | min => "MIN"
  | max => "MAX"

/-- The function of a name. -/
def ofName? (name : String) : Option Aggregate :=
  all.find? fun aggregate => aggregate.name = name

end Aggregate

namespace Operator

/-- All operators. -/
def all : List Operator :=
  [equal, notEqual, greater, less, greaterOrEqual, lessOrEqual, like, notLike, likeAnyCase,
    notLikeAnyCase]

/-- How the operator is written. -/
def symbol : Operator → String
  | equal => "="
  | notEqual => "<>"
  | greater => ">"
  | less => "<"
  | greaterOrEqual => ">="
  | lessOrEqual => "<="
  | like => "LIKE"
  | notLike => "NOT LIKE"
  | likeAnyCase => "ILIKE"
  | notLikeAnyCase => "NOT ILIKE"

/-- The operator that is written so. -/
def ofSymbol? (symbol : String) : Option Operator :=
  all.find? fun operator => operator.symbol = symbol

end Operator

namespace Direction

/-- All directions. -/
def all : List Direction := [ascending, descending]

/-- How the direction is written. -/
def symbol : Direction → String
  | ascending => "ASC"
  | descending => "DESC"

/-- The direction that is written so. -/
def ofSymbol? (symbol : String) : Option Direction :=
  all.find? fun direction => direction.symbol = symbol

end Direction

/-- An alias of a table. -/
def aliasText (n : Nat) : String :=
  "t" ++ toString n

def ColumnRef.render (ref : ColumnRef) : String :=
  aliasText ref.number ++ "." ++ quoteIdentifier ref.column

def SelectItem.render (item : SelectItem) : String :=
  (match item.aggregate? with
    | some aggregate => aggregate.name ++ "(" ++ item.source.render ++ ")"
    | none => item.source.render) ++
  (match item.label? with
    | some label => " AS " ++ quoteIdentifier label
    | none => "")

def Selection.render : Selection → String
  | everything number => aliasText number ++ ".*"
  | items entries => ", ".intercalate (entries.map SelectItem.render)

def TableRef.render (table : TableRef) : String :=
  quoteIdentifier table.schema ++ "." ++ quoteIdentifier table.name ++ " " ++ aliasText table.number

def Equality.render (equality : Equality) : String :=
  equality.left.render ++ " = " ++ equality.right.render

/-- The keywords of a join. -/
def joinKeywords : JoinKind → String
  | .inner => "INNER JOIN"
  | .left => "LEFT JOIN"

def Join.render (join : Join) : String :=
  joinKeywords join.kind ++ " " ++ join.table.render ++ " ON " ++
    " AND ".intercalate (join.on.map Equality.render)

def Condition.render (condition : Condition) : String :=
  condition.source.render ++ " " ++ condition.operator.symbol ++ " @" ++ condition.parameter

def OrderEntry.render (entry : OrderEntry) : String :=
  entry.source.render ++ " " ++ entry.direction.symbol

/-- A clause that is left out when it has no parts. -/
def clause (keyword separator : String) (parts : List String) : List String :=
  if parts.isEmpty then [] else [keyword ++ " " ++ separator.intercalate parts]

namespace Statement

/-- The lines of a statement, one for each clause. -/
def lines (statement : Statement) : List String :=
  ["SELECT " ++ (if statement.isDistinct then "DISTINCT " else "") ++ statement.selection.render,
    "FROM " ++ statement.anchor.render] ++
  statement.joins.map Join.render ++
  clause "WHERE" " AND " (statement.conditions.map Condition.render) ++
  clause "GROUP BY" ", " (statement.grouping.map ColumnRef.render) ++
  clause "ORDER BY" ", " (statement.order.map OrderEntry.render)

/-- The text of a statement. -/
def render (statement : Statement) : String :=
  "\n".intercalate statement.lines

end Statement

end ReportQuery.Query
