import ReportQuery.Connection.Engine
import ReportQuery.Execution.Run
import ReportQuery.Query.Compile
import ReportQuery.Query.Stored
import ReportQuery.Sql.Safety

set_option autoImplicit false
set_option relaxedAutoImplicit false

/-!
Failures as they are reported to callers: what kind they are of, their sentence, and what they are
about.
-/

namespace ReportQuery

/-- A failure of one of the library's operations. -/
inductive Failure where
  | compile (error : Query.CompileError)
  | stored (fault : Query.StoredFault)
  | refused (violation : Sql.Violation)
  /-- The schema could not be read. -/
  | introspection (fault : Execution.Fault)
  | connection (fault : Connection.ConnectionFault)
  /-- A connection could not be opened, and the caller handles that. -/
  | opening (fault : Execution.Fault)
  | run (failure : Execution.RunFailure)
  | unknownTable (key : String)
deriving Repr

namespace Failure

/-- The name of the kind of a failure that is the library's own. -/
def kind? : Failure → Option String
  | compile (.missingRelation _) => some "MissingRelationError"
  | compile _ | stored _ | unknownTable _ => some "ValidationError"
  | refused _ => some "SafetyViolation"
  | introspection (.invalid _) => some "ValidationError"
  | introspection (.driver ..) | introspection (.access _) => some "IntrospectionError"
  | connection _ => some "ConnectionError"
  | run .cancelled => some "QueryCancelledError"
  | introspection (.other _) | opening _ | run (.undefinedBind _) => none

/-- The sentence that reports the failure. -/
def message : Failure → String
  | compile error => error.message
  | stored fault => fault.message
  | refused violation => violation.message
  | introspection (.invalid text) => text
  | introspection (.other text) => text
  | introspection fault => "Failed to introspect database schema: " ++ fault.report
  | connection fault => fault.message
  | opening fault => fault.report
  | run .cancelled => "Query execution was cancelled."
  | run (.undefinedBind name) =>
    "This text() construct doesn't define a bound parameter named '" ++ name ++ "'"
  | unknownTable key => (Query.CompileError.unknownTable key).message

/-- What the failure is about, by name. -/
def context : Failure → List (String × String)
  | compile error => (error.identifier?.map fun text => ("identifier", text)).toList
  | unknownTable key => [("identifier", key)]
  | refused violation => (violation.fragment?.map fun text => ("fragment", text)).toList
  | stored _ | introspection _ | connection _ | opening _ | run _ => []

end Failure

end ReportQuery
