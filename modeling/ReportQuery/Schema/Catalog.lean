set_option autoImplicit false
set_option relaxedAutoImplicit false

/-!
What a database tells about its schemas, tables, columns and foreign keys. Any name may be missing.
-/

namespace ReportQuery.Schema

/-- The type of a column in the catalog. -/
inductive CatalogType where
  | unknown
  | printed (text : String)
  /-- A type that has no text, known by the name of its kind. -/
  | unprintable (kind : String)
deriving Repr, DecidableEq

/-- A column in the catalog. -/
structure CatalogColumn where
  name? : Option String
  type : CatalogType
  isNullable : Bool
deriving Repr, DecidableEq

/-- A foreign key in the catalog. -/
structure ForeignKey where
  /-- The schema of the table that is referred to; it may be left out where it is the same. -/
  schema? : Option String
  table? : Option String
  constrained : List (Option String)
  referred : List (Option String)
deriving Repr, DecidableEq

/-- A table in the catalog. -/
structure CatalogTable where
  schema? : Option String
  name? : Option String
  columns : List CatalogColumn
  foreignKeys : List ForeignKey
deriving Repr, DecidableEq

/-- A database's catalog. -/
structure Catalog where
  schemas : List (Option String) := []
  /-- The schema that counts where none is listed. -/
  default? : Option String := none
  tables : List CatalogTable := []
deriving Repr, DecidableEq

end ReportQuery.Schema
