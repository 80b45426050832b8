import ReportQuery.Execution.Run
import ReportQuery.Shape.Check

set_option autoImplicit false
set_option relaxedAutoImplicit false

/-!
Results as JSON values, and the check of values that should be results.
-/

namespace ReportQuery.Execution

open Shape (Checked record optional list nullable text integer)

def Result.toJson (result : Result) : Json :=
  .object [("columns", Json.texts result.columns), ("rows", .array (result.rows.map Json.object)),
    ("totalRows", Json.integer result.totalRows), ("error", Json.ofText? result.error?)]

/-- Checks the values of a row. -/
def recordOfJson : Json → Checked Record
  | .object fields => .valid fields
  | _ => .fail .notDictionary

def Result.ofJson : Json → Checked Result :=
  record "ExecutionResult" fun fields =>
    Result.mk <$> optional fields ⟨"columns", "columns"⟩ [] (list text)
      <*> optional fields ⟨"rows", "rows"⟩ [] (list recordOfJson)
      <*> optional fields ⟨"totalRows", "total_rows"⟩ 0 integer
      <*> optional fields ⟨"error", "error"⟩ none (nullable text)

end ReportQuery.Execution
