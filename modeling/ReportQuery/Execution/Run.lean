import ReportQuery.Execution.Script
import ReportQuery.Execution.Watcher
import ReportQuery.Mapping
import ReportQuery.Sql.Bind
import ReportQuery.Sql.Prepared
import ReportQuery.Sql.RowLimit

set_option autoImplicit false
set_option relaxedAutoImplicit false

/-!
Running a statement on a connection: rows are fetched in batches until one is empty, the cancel
signal is looked at before every fetch, and a failure of the database becomes part of the result.

A connection opened for the run is closed at its end. A lent connection is left open; after a
failure its transaction is rolled back.
-/

namespace ReportQuery.Execution

open Parameter (Definition Values Bind)

/-- A row by the names of its columns. -/
abbrev Record := List (String × Json)

/-- The table that a run returns. -/
structure Result where
  columns : List String := []
  rows : List Record := []
  totalRows : Int := 0
  error? : Option String := none
deriving Repr

/-- Whether the run had no failure. -/
def Result.succeeded (result : Result) : Bool :=
  result.error?.isNone

/-- A row as a record: of values under the same name the last one counts. The row must have a value
for every column and no more. -/
def record? (columns : List String) (row : Row) : Except Fault Record :=
  if row.length < columns.length then .error (.other "zip() argument 2 is shorter than argument 1")
  else if columns.length < row.length then
    .error (.other "zip() argument 2 is longer than argument 1")
  else
    .ok (Mapping.ofEntries (columns.zip row))

/-- The records of rows, up to the first row of another width. -/
def records (columns : List String) : List Row → List Record × Option Fault
  | [] => ([], none)
  | row :: rows =>
    match record? columns row with
    | .error fault => ([], some fault)
    | .ok record =>
      let (rest, fault?) := records columns rows
      (record :: rest, fault?)

/-- What a phase of a run did, read and left behind. -/
structure Phase where
  events : List Event
  rows : List Record
  signal? : Option Signal
  stop? : Option Stop
deriving Repr

/-- Fetches the pending rows; `batches` were fetched before. -/
def fetchRows (script : Script) (size : RowCount) (batches : Nat) (signal? : Option Signal)
    (pending : List Row) : Phase :=
  match checkSignal signal? with
  | (true, signal?) => ⟨[], [], signal?, some .cancelled⟩
  | (false, signal?) =>
    match script.fetchFaultAfter? batches with
    | some fault => ⟨[], [], signal?, some (.failed fault)⟩
    | none =>
      let batch := pending.take size
      let event := Event.fetched size batch.length
      if _h : pending.length = 0 then ⟨[event], [], signal?, none⟩
      else
        match records script.columns batch with
        | (rows, some fault) => ⟨[event], rows, signal?, some (.failed fault)⟩
        | (rows, none) =>
          let rest := fetchRows script size (batches + 1) signal? (pending.drop size)
          ⟨event :: rest.events, rows ++ rest.rows, rest.signal?, rest.stop?⟩
termination_by pending.length
decreasing_by have := size.property; simp only [List.length_drop]; omega

/-- A statement as it is sent: its text and the arguments for its binds. -/
structure Sent where
  text : String
  arguments : List Argument
deriving Repr, DecidableEq

/-- The first bind without a value. -/
def Sent.unbound? (sent : Sent) : Option String :=
  sent.arguments.findSome? fun
    | .bound _ => none
    | .unbound name => some name

/-- The fault of a bind without a value. -/
def unboundFault (name : String) : Fault :=
  .access ("A value is required for bind parameter '" ++ name ++
    "' (Background on this error at: https://sqlalche.me/e/21/cd3x)")

/-- What is done to a connection whose running statement is cancelled: the watcher aborts it if that
can be done. -/
def abortEvents (script : Script) : List Event :=
  match script.abort? with
  | some method => (Watch.run ⟨method, script.abortFails⟩ {} Watch.cancelling).log
  | none => []

/-- The watcher aborts once, whether the abort fails or not. -/
theorem abortEvents_eq (script : Script) : abortEvents script = script.abort?.toList.map Event.aborted := by
  unfold abortEvents
  cases script.abort? with
  | none => rfl
  | some method => rfl

/-- The signal after the statement ran, and what was done to the connection meanwhile. -/
def signalAfterExecute (script : Script) (signal? : Option Signal) : Option Signal × List Event :=
  match signal? with
  | none => (none, [])
  | some signal =>
    if script.cancelsDuringExecute then
      (some { signal with isSet := true }, abortEvents script)
    else (some signal, [])

/-- The columns and the phase of executing a statement and reading its rows. -/
def executePhase (script : Script) (size : RowCount) (sent : Sent) (signal? : Option Signal) :
    List String × Phase :=
  let event := Event.executed sent.text sent.arguments
  match sent.unbound? with
  | some name => ([], ⟨[event], [], signal?, some (.failed (unboundFault name))⟩)
  | none =>
    let (signal?, aborts) := signalAfterExecute script signal?
    match script.executeFault? with
    | some fault => ([], ⟨event :: aborts, [], signal?, some (.failed fault)⟩)
    | none =>
      let fetched := fetchRows script size 0 signal? script.rows
      (script.columns, { fetched with events := event :: aborts ++ fetched.events })

/-- The connection that a caller lends. -/
inductive Lent where
  | nothing
  | opened
  | closed
deriving Repr, DecidableEq

/-- Why a run has no result. -/
inductive RunFailure where
  | cancelled
  /-- A bind was given for a name that the statement does not bind. -/
  | undefinedBind (name : String)
deriving Repr, DecidableEq

/-- What a run did, and its result. -/
structure Run where
  log : List Event
  outcome : Except RunFailure Result
deriving Repr

/-- Rolls back a lent connection that is in a transaction. -/
def rollbackLent (script : Script) : Lent → List Event
  | .opened => if script.inTransaction then [.rolledBack] else []
  | .nothing | .closed => []

/-- Whether a run opens its own connection. -/
def Lent.isOwned : Lent → Bool
  | opened => false
  | nothing | closed => true

/-- The outcome of a phase, and what is done to the connection then. A failure counts as
cancellation if the signal is found set after it. -/
def finish (columns : List String) (phase : Phase) (rollback : List Event) :
    List Event × Except RunFailure Result :=
  match phase.stop? with
  | none => ([], .ok ⟨columns, phase.rows, phase.rows.length, none⟩)
  | some .cancelled => (rollback, .error .cancelled)
  | some (.failed fault) =>
    (rollback,
      if (checkSignal phase.signal?).1 then .error .cancelled
      else .ok ⟨columns, phase.rows, phase.rows.length, some fault.message⟩)

/-- Runs a statement that was sent. -/
def runSent (script : Script) (size : RowCount) (lent : Lent) (signal? : Option Signal)
    (sent : Sent) : Run :=
  match checkSignal signal? with
  | (true, _) => ⟨[], .error .cancelled⟩
  | (false, signal?) =>
    let connectFault? := if lent.isOwned then script.connectFault? else none
    match connectFault? with
    | some fault =>
      ⟨[.connected], (finish [] ⟨[], [], signal?, some (.failed fault)⟩ []).2⟩
    | none =>
      let (columns, phase) := executePhase script size sent signal?
      let (ending, outcome) := finish columns phase (rollbackLent script lent)
      ⟨(if lent.isOwned then [.connected] else []) ++ phase.events ++ ending ++
        (if lent.isOwned then [.closed] else []), outcome⟩

/-- What a caller asks to run. -/
structure Request where
  sql : String
  definitions : List Definition := []
  values : Values := []
  extent : Extent := .full
  lent : Lent := .nothing
  signal? : Option Signal := none
deriving Repr

/-- The arguments for the binds of a prepared statement. -/
def arguments (binds : List Bind) (names : List String) : List Argument :=
  names.map fun name =>
    match binds.find? fun bind => bind.name = name with
    | some bind => .bound bind
    | none => .unbound name

/-- The statement that is sent for a request: with its row ceiling, prepared, and with values for
the placeholders that are declared. -/
def Request.sent (options : Options) (request : Request) : Except RunFailure Sent :=
  let prepared := Sql.prepare (Sql.applyRowLimit options request.extent request.sql.toList)
  let binds := Parameter.bindAll request.definitions request.values prepared.names
  let names := Sql.bindNames prepared.text
  match binds.find? fun bind => !names.contains bind.name with
  | some bind => .error (.undefinedBind bind.name)
  | none => .ok ⟨String.ofList (Sql.unescapeColons prepared.text), arguments binds names⟩

/-- Runs a request against a script. -/
def run (options : Options) (script : Script) (request : Request) : Run :=
  match request.sent options with
  | .error failure => ⟨[], .error failure⟩
  | .ok sent => runSent script options.fetchBatchSize request.lent request.signal? sent

/-- Whether the run asked for a connection of its own. -/
def Run.connects (run : Run) : Bool :=
  run.log.contains .connected

end ReportQuery.Execution
