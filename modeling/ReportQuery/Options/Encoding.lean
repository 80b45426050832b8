import ReportQuery.Options
import ReportQuery.Shape.Check

set_option autoImplicit false
set_option relaxedAutoImplicit false

/-!
Options as JSON values, and the check of values that should be options.
-/

namespace ReportQuery.Options

open Shape (Checked FieldName record optional list text positive)

/-- A row count as a JSON value. -/
def rowCount (count : RowCount) : Json :=
  Json.integer count.val

def toJson (options : Options) : Json :=
  .object [("hidden_schemas", Json.texts options.hiddenSchemas),
    ("hidden_tables", Json.texts options.hiddenTables),
    ("hidden_table_prefixes", Json.texts options.hiddenTablePrefixes),
    ("allowed_schemas", Json.texts options.allowedSchemas),
    ("preview_row_limit", rowCount options.previewRowLimit),
    ("max_row_limit", rowCount options.maxRowLimit),
    ("fetch_batch_size", rowCount options.fetchBatchSize)]

def ofJson : Json → Checked Options :=
  record "ReportBuilderOptions" fun fields =>
    Options.mk
      <$> optional fields ⟨"hidden_schemas", "hidden_schemas"⟩ standard.hiddenSchemas (list text)
      <*> optional fields ⟨"hidden_tables", "hidden_tables"⟩ standard.hiddenTables (list text)
      <*> optional fields ⟨"hidden_table_prefixes", "hidden_table_prefixes"⟩
        standard.hiddenTablePrefixes (list text)
      <*> optional fields ⟨"allowed_schemas", "allowed_schemas"⟩ standard.allowedSchemas (list text)
      <*> optional fields ⟨"preview_row_limit", "preview_row_limit"⟩
        standard.previewRowLimit positive
      <*> optional fields ⟨"max_row_limit", "max_row_limit"⟩ standard.maxRowLimit positive
      <*> optional fields ⟨"fetch_batch_size", "fetch_batch_size"⟩ standard.fetchBatchSize positive

end ReportQuery.Options
