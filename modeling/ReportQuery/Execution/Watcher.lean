import ReportQuery.Execution.Script

set_option autoImplicit false
set_option relaxedAutoImplicit false

/-!
A watcher beside the block in which a statement runs and its rows are fetched: once the cancel signal is
set it aborts what runs. However the block ends, the call that runs it tells the watcher so and waits for it
to return before it goes on to roll back, to close or to give back the connection. The moves of signal,
watcher and call may interleave in any way.
-/

namespace ReportQuery.Execution

/-- Where the watcher stands. -/
inductive Lookout where
  /-- About to test whether the block is over. -/
  | testing
  /-- Waiting for the signal, for a while. -/
  | listening
  /-- Found the signal set and is about to test again whether the block is over. -/
  | confirming
  | aborting
  /-- In the abort, which has taken effect. -/
  | interrupting
  | returned
deriving Repr, DecidableEq

/-- Where the call stands. -/
inductive Guarded where
  /-- In the block. -/
  | running
  /-- Behind the block, with what ended it early, and about to tell the watcher. -/
  | finishing (stop? : Option Stop)
  /-- Waiting for the watcher to return. -/
  | joining (stop? : Option Stop)
  | left (stop? : Option Stop)
deriving Repr, DecidableEq

/-- Whether the call has gone on, after the watcher returned. -/
def Guarded.isLeft : Guarded → Bool
  | left _ => true
  | running | finishing _ | joining _ => false

/-- How a watcher aborts: by a method of the connection, which may fail. -/
structure Abort where
  method : AbortMethod
  fails : Bool
deriving Repr, DecidableEq

/-- A watcher and the call that it watches. -/
structure Watch where
  isSet : Bool := false
  /-- Whether the watcher was told that the block is over. -/
  isFinished : Bool := false
  watcher : Lookout := .testing
  call : Guarded := .running
  /-- What was done to the connection. -/
  log : List Event := []
  /-- Whether the watcher warned that it could not abort. -/
  warned : Bool := false
deriving Repr, DecidableEq

namespace Watch

/-- What the call does. -/
inductive Act where
  | execute (sql : String) (arguments : List Argument)
  | fetch (size rows : Nat)
  /-- Ends the block, normally or by what stops it. -/
  | leave (stop? : Option Stop)
  /-- Tells the watcher that the block is over. -/
  | finish
  /-- Waits for the watcher. -/
  | join
  | rollBack
  | close
deriving Repr, DecidableEq

/-- Who moves. -/
inductive Move where
  | signal
  | watcher
  | call (act : Act)
deriving Repr, DecidableEq

/-- Something is done to the connection. -/
def record (watch : Watch) (event : Event) : Watch :=
  { watch with log := watch.log ++ [event] }

/-- The watcher's next step. -/
def stepWatcher (abort : Abort) (watch : Watch) : Watch :=
  match watch.watcher with
  | .testing => { watch with watcher := if watch.isFinished then .returned else .listening }
  | .listening => { watch with watcher := if watch.isSet then .confirming else .testing }
  | .confirming => { watch with watcher := if watch.isFinished then .returned else .aborting }
  | .aborting => { watch.record (.aborted abort.method) with watcher := .interrupting }
  | .interrupting => { watch with watcher := .returned, warned := abort.fails }
  | .returned => watch

/-- A step of the call. What it cannot do where it stands changes nothing. -/
def stepCall (watch : Watch) (act : Act) : Watch :=
  match act, watch.call with
  | .execute sql arguments, .running => watch.record (.executed sql arguments)
  | .fetch size rows, .running => watch.record (.fetched size rows)
  | .leave stop?, .running => { watch with call := .finishing stop? }
  | .finish, .finishing stop? => { watch with isFinished := true, call := .joining stop? }
  | .join, .joining stop? => if watch.watcher = .returned then { watch with call := .left stop? } else watch
  | .rollBack, .left _ => watch.record .rolledBack
  | .close, .left _ => watch.record .closed
  | _, _ => watch

/-- One move. -/
def step (abort : Abort) (watch : Watch) : Move → Watch
  | .signal => { watch with isSet := true }
  | .watcher => watch.stepWatcher abort
  | .call act => watch.stepCall act

/-- Moves in the given order. -/
def run (abort : Abort) (watch : Watch) (moves : List Move) : Watch :=
  moves.foldl (step abort) watch

/-- The moves while a statement runs that sets the signal and then waits for the watcher. -/
def cancelling : List Move :=
  [.signal, .watcher, .watcher, .watcher, .watcher, .watcher]

end Watch

end ReportQuery.Execution
