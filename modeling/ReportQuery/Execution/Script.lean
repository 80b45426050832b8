import ReportQuery.Json.Basic
import ReportQuery.Parameter.Binding

set_option autoImplicit false
set_option relaxedAutoImplicit false

/-!
How a database connection behaves: what it answers, what fails and when. An execution is a function
of such a script.
-/

namespace ReportQuery.Execution

/-- A failure on the way to or in the database. -/
inductive Fault where
  /-- A failure that the database's driver reports, by the name of its source, perhaps with the
  statement. -/
  | driver (source : String) (statement? : Option String) (message : String)
  /-- A failure of the access to databases. -/
  | access (message : String)
  /-- A request of this library that is not valid. -/
  | invalid (message : String)
  /-- Any other failure. -/
  | other (message : String)
deriving Repr, DecidableEq

namespace Fault

/-- The message of the failure itself. -/
def message : Fault → String
  | driver _ _ text | access text | invalid text | other text => text

/-- The failure with its source, as reported outside an execution. -/
def report : Fault → String
  | driver source statement? text =>
    "(" ++ source ++ ") " ++ text ++
      (match statement? with
        | some statement => "\n[SQL: " ++ statement ++ "]"
        | none => "") ++
      "\n(Background on this error at: https://sqlalche.me/e/21/e3q8)"
  | access text | invalid text | other text => text

end Fault

/-- What ends a run early. -/
inductive Stop where
  | cancelled
  | failed (fault : Fault)
deriving Repr, DecidableEq

/-- How a running statement can be stopped from outside. -/
inductive AbortMethod where
  | cancel
  | interrupt
deriving Repr, DecidableEq

/-- A row as the database hands it out. -/
abbrev Row := List Json

/-- What a connection does. -/
structure Script where
  connectFault? : Option Fault := none
  executeFault? : Option Fault := none
  /-- The fault of every fetch from the given number of batches on. -/
  fetchFault? : Option (Nat × Fault) := none
  columns : List String := []
  rows : List Row := []
  inTransaction : Bool := false
  /-- A rollback that fails changes nothing. -/
  rollbackFails : Bool := false
  abort? : Option AbortMethod := none
  /-- An abort that fails has taken effect all the same. -/
  abortFails : Bool := false
  /-- Whether the cancel signal is set while the statement runs. -/
  cancelsDuringExecute : Bool := false
deriving Repr

/-- The fault of a fetch after the given number of batches. -/
def Script.fetchFaultAfter? (script : Script) (batches : Nat) : Option Fault :=
  match script.fetchFault? with
  | some (first, fault) => if first ≤ batches then some fault else none
  | none => none

/-- A cancel signal. -/
structure Signal where
  isSet : Bool := false
  /-- The number of the check from which on the signal is found set in any case. -/
  foundFrom? : Option Nat := none
  checks : Nat := 0
deriving Repr, DecidableEq

/-- Looks at a signal: whether it is found set, and the signal after that. -/
def Signal.check (signal : Signal) : Bool × Signal :=
  let checks := signal.checks + 1
  let found :=
    match signal.foundFrom? with
    | some first => first ≤ checks
    | none => false
  (signal.isSet || found, { signal with checks := checks })

/-- Looks at a signal that may not be there; then it is not set. -/
def checkSignal : Option Signal → Bool × Option Signal
  | none => (false, none)
  | some signal => (signal.check.1, some signal.check.2)

/-- A parameter of an executed statement. -/
inductive Argument where
  | bound (bind : Parameter.Bind)
  | unbound (name : String)
deriving Repr, DecidableEq

/-- What an execution does to a connection. -/
inductive Event where
  | connected
  | executed (sql : String) (arguments : List Argument)
  | fetched (size rows : Nat)
  | aborted (method : AbortMethod)
  | rolledBack
  | closed
deriving Repr, DecidableEq

end ReportQuery.Execution
