import ReportQuery.Text.Case

set_option autoImplicit false
set_option relaxedAutoImplicit false

/-!
The options of a report builder: what the schema metadata leaves out, which schemas a query may
name, and how many rows are read.
-/

namespace ReportQuery

open Text (lower lowerChars)

/-- A number of rows, at least one. -/
abbrev RowCount := {n : Nat // 0 < n}

/-- The options of a report builder. -/
structure Options where
  hiddenSchemas : List String := ["identity", "information_schema", "pg_catalog", "pg_toast"]
  hiddenTables : List String := ["__EFMigrationsHistory", "alembic_version"]
  /-- Tables whose name starts with one of these are hidden; the empty text hides nothing. -/
  hiddenTablePrefixes : List String := ["AspNet"]
  allowedSchemas : List String := ["public"]
  previewRowLimit : RowCount := ⟨200, Nat.zero_lt_succ _⟩
  maxRowLimit : RowCount := ⟨50000, Nat.zero_lt_succ _⟩
  fetchBatchSize : RowCount := ⟨500, Nat.zero_lt_succ _⟩
deriving Repr, DecidableEq

namespace Options

/-- The options that hold where none are given. -/
def standard : Options := {}

/-- Whether a schema is left out of the metadata. Case is ignored. -/
def isHiddenSchema (options : Options) (schema : String) : Bool :=
  (options.hiddenSchemas.map lower).contains (lower schema)

/-- Whether a table is left out of the metadata, by its name or by how the name starts. Case is
ignored. -/
def isHiddenTable (options : Options) (table : String) : Bool :=
  (options.hiddenTables.map lower).contains (lower table) ||
    options.hiddenTablePrefixes.any fun start =>
      start != "" && (lowerChars start.toList).isPrefixOf (lowerChars table.toList)

end Options

/-- How much of a result is wanted. -/
inductive Extent where
  | preview
  | full
deriving Repr, DecidableEq

/-- The row ceiling of an execution. -/
def Options.ceiling (options : Options) : Extent → RowCount
  | .preview => options.previewRowLimit
  | .full => options.maxRowLimit

end ReportQuery
