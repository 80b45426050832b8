import ReportQuery.Failure
import ReportQuery.Report
import ReportQuery.Schema.Cache
import ReportQuery.Schema.Introspection

set_option autoImplicit false
set_option relaxedAutoImplicit false

/-!
The report builder: it reads the schema once and keeps it, compiles descriptions, checks statements
and runs reports.
-/

namespace ReportQuery

open Execution (Fault Script Run Request Result)
open Parameter (Definition Values)
open Query (Description Compiled)
open Schema (Cache Catalog Snapshot)

/-- What a database will answer. -/
structure Source where
  catalog : Catalog := {}
  /-- The faults of reading the catalog, attempt by attempt; beyond the list there is none. -/
  faults : List (Option Fault) := []
  /-- The behaviour of each connection in the order of their opening. -/
  scripts : List Script := []
deriving Repr

/-- A report builder with the snapshot it has read. -/
structure Builder where
  options : Options
  source : Source
  snapshot? : Option Snapshot := none
  /-- How often the catalog was read. -/
  introspections : Nat := 0
deriving Repr

namespace Builder

/-- What the attempt of the given number to read the catalog gives. -/
def attempt (builder : Builder) (n : Nat) : Except Failure Snapshot :=
  match builder.source.faults[n]?.join with
  | some fault => .error (.introspection fault)
  | none => .ok (Schema.introspect builder.source.catalog builder.options)

/-- The snapshot: the one that was read before, or a new one. A failed attempt is not kept. -/
def metadata (builder : Builder) : Except Failure Snapshot × Builder :=
  match builder.snapshot? with
  | some snapshot => (.ok snapshot, builder)
  | none =>
    let outcome := builder.attempt builder.introspections
    (outcome,
      { builder with
        snapshot? := outcome.toOption
        introspections := builder.introspections + 1 })

/-- What callers that ask for the snapshot at the same time are given. -/
def metadataForAll (builder : Builder) (callers : Nat) :
    List (Except Failure Snapshot) × Builder :=
  let entered : Cache Failure Snapshot :=
    ⟨⟨builder.snapshot?, false, builder.introspections⟩, List.replicate callers .entering⟩
  let cache := entered.run builder.attempt (Cache.turns callers)
  (cache.outcomes,
    { builder with
      snapshot? := cache.shelf.snapshot?
      introspections := cache.shelf.builds })

/-- Checks a statement against the safety rules. -/
def validate (builder : Builder) (sql : String) : Except Failure Unit :=
  match Sql.violation? sql builder.options.allowedSchemas with
  | some violation => .error (.refused violation)
  | none => .ok ()

/-- Compiles a description to a statement that is allowed. -/
def compile (builder : Builder) (description : Description) :
    Except Failure Compiled × Builder :=
  match builder.metadata with
  | (.error failure, next) => (.error failure, next)
  | (.ok snapshot, next) =>
    match Query.compile snapshot description with
    | .error error => (.error (.compile error), next)
    | .ok compiled => ((builder.validate compiled.sql).map fun _ => compiled, next)

/-- The statement of a report: its description's, else its text. -/
def resolve (builder : Builder) (report : Report) : Except Failure String × Builder :=
  match report.query?.filter fun query => !query.tables.isEmpty with
  | some query =>
    let (compiled, next) := builder.compile query
    (compiled.map Compiled.sql, next)
  | none => (.ok report.sqlText, builder)

/-- Runs a request on the next connection. -/
def execute (builder : Builder) (request : Request) : Run × Builder :=
  let script := builder.source.scripts.head?.getD {}
  let run := Execution.run builder.options script request
  if run.connects then
    (run, { builder with
      source := { builder.source with scripts := builder.source.scripts.tail } })
  else (run, builder)

/-- Resolves, checks and runs a report: what was done to the connection, and the result. -/
def runReport (builder : Builder) (report : Report) (request : Request) :
    List Execution.Event × Except Failure Result × Builder :=
  match builder.resolve report with
  | (.error failure, next) => ([], .error failure, next)
  | (.ok sql, next) =>
    match next.validate sql with
    | .error failure => ([], .error failure, next)
    | .ok _ =>
      let (run, last) :=
        next.execute { request with sql := sql, definitions := report.parameters }
      (run.log, run.outcome.mapError Failure.run, last)

end Builder

end ReportQuery
