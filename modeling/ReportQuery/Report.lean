import ReportQuery.Parameter.Definition
import ReportQuery.Query.Encoding

set_option autoImplicit false
set_option relaxedAutoImplicit false

/-!
Stored reports: a query description, or the text of a statement, and the parameters.
-/

namespace ReportQuery

open Parameter (Definition)
open Query (Description)
open Shape (Checked record optional list nullable text)

/-- A report. Its description takes precedence over its text when it names any table. -/
structure Report where
  title : String := ""
  sqlText : String := ""
  query? : Option Description := none
  parameters : List Definition := []
deriving Repr, DecidableEq

namespace Report

def toJson (report : Report) : Json :=
  .object [("title", .text report.title), ("sqlText", .text report.sqlText),
    ("query", (report.query?.map Description.toJson).getD .null),
    ("parameters", .array (report.parameters.map Definition.toJson))]

def ofJson : Json → Checked Report :=
  record "ReportDefinition" fun fields =>
    Report.mk <$> optional fields ⟨"title", "title"⟩ "" text
      <*> optional fields ⟨"sqlText", "sql_text"⟩ "" text
      <*> optional fields ⟨"query", "query"⟩ none (nullable Description.ofJson)
      <*> optional fields ⟨"parameters", "parameters"⟩ [] (list Definition.ofJson)

end Report

end ReportQuery
