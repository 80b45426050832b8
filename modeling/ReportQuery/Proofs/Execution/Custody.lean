import ReportQuery.Execution.Run

set_option autoImplicit false
set_option relaxedAutoImplicit false

/-!
Who owns the connection of a run. A run closes the connection that it opened, leaves a lent one open, and
rolls a lent one back only after a failure. The log of a run is replayed against the connection in use:
every event must find one that it may be done to, and in the end the run holds what it held at first.
-/

namespace ReportQuery.Execution

/-- The connection that is in use. -/
inductive Hand where
  | empty
  | own
  | lent
deriving Repr, DecidableEq

/-- What a run holds at first. A closed connection is not taken up. -/
def Lent.hand : Lent → Hand
  | nothing | closed => .empty
  | opened => .lent

/-- The connection in use after an event, unless the event may not happen then. Only where no connection
is in use one is asked for, only an own connection is closed, and only a lent one is rolled back. -/
def Hand.after? (opens : Bool) (hand : Hand) : Event → Option Hand
  | .connected => if hand = .empty then some (if opens then .own else .empty) else none
  | .executed _ _ | .fetched _ _ | .aborted _ => if hand = .empty then none else some hand
  | .rolledBack => if hand = .lent then some .lent else none
  | .closed => if hand = .own then some .empty else none

/-- The connection in use after the events of a log. -/
def Hand.replay? (opens : Bool) (hand : Hand) (log : List Event) : Option Hand :=
  log.foldlM (Hand.after? opens) hand

/-- An event of a statement that is under way. -/
def Event.isUse : Event → Bool
  | executed _ _ | fetched _ _ | aborted _ => true
  | connected | rolledBack | closed => false

/-- Whether a statement was sent. -/
def Run.hasExecuted (run : Run) : Bool :=
  run.log.any fun
    | .executed _ _ => true
    | _ => false

/-- Whether a run was cancelled or returns a failure. -/
def isBroken : Except RunFailure Result → Bool
  | .ok result => !result.succeeded
  | .error .cancelled => true
  | .error (.undefinedBind _) => false

section Replay

variable {opens : Bool} {hand : Hand} {log rest : List Event}

theorem Hand.replay?_cons (event : Event) :
    Hand.replay? opens hand (event :: log) =
      (hand.after? opens event).bind fun next => next.replay? opens log := rfl

theorem Hand.replay?_append :
    hand.replay? opens (log ++ rest) =
      (hand.replay? opens log).bind fun next => next.replay? opens rest :=
  List.foldlM_append

/-- A statement that is under way leaves the connection in use as it is. -/
theorem Hand.replay?_uses (inUse : hand ≠ .empty) (uses : ∀ event ∈ log, event.isUse) :
    hand.replay? opens log = some hand := by
  induction log with
  | nil => rfl
  | cons event log ih =>
    obtain ⟨use, uses⟩ := List.forall_mem_cons.mp uses
    have kept : hand.after? opens event = some hand := by
      cases event with
      | executed | fetched | aborted => exact if_neg inUse
      | connected | rolledBack | closed => cases use
    rw [Hand.replay?_cons, kept, Option.bind_some, ih uses]

end Replay

section Uses

variable {script : Script} {size : RowCount} {sent : Sent} {signal? : Option Signal}

theorem count_eq_zero_of_uses {log : List Event} {event : Event} (uses : ∀ e ∈ log, e.isUse)
    (other : event.isUse = false) : log.count event = 0 := by
  refine List.count_eq_zero.mpr fun member => ?_
  rw [uses event member] at other
  cases other

/-- What follows a statement in its block: an abort, if it is cancelled meanwhile, and fetches. -/
def Script.IsBlock (script : Script) (events : List Event) : Prop :=
  ∃ aborts fetched, events = aborts ++ fetched ∧ (aborts = [] ∨ aborts = abortEvents script) ∧
    ∀ event ∈ fetched, ∃ size rows, event = .fetched size rows

theorem Script.IsBlock.isUse {events : List Event} (isBlock : script.IsBlock events) :
    ∀ event ∈ events, event.isUse := by
  obtain ⟨aborts, fetched, rfl, aborting, fetching⟩ := isBlock
  intro event member
  rcases List.mem_append.mp member with aborted | fetched
  · rcases aborting with rfl | rfl
    · cases aborted
    · rw [abortEvents_eq] at aborted
      obtain ⟨method, -, rfl⟩ := List.mem_map.mp aborted
      rfl
  · obtain ⟨_, _, rfl⟩ := fetching event fetched
    rfl

/-- Reading rows is all that the loop does, however many batches there are and wherever it ends. -/
theorem exists_of_mem_fetchRows (batches : Nat) (pending : List Row) :
    ∀ event ∈ (fetchRows script size batches signal? pending).events,
      ∃ size rows, event = .fetched size rows := by
  fun_induction fetchRows script size batches signal? pending with
  | case1 | case2 => exact List.forall_mem_nil _
  | case3 | case4 => exact List.forall_mem_singleton.mpr ⟨_, _, rfl⟩
  | case5 _ _ _ _ _ _ _ _ _ _ _ _ ih => exact List.forall_mem_cons.mpr ⟨⟨_, _, rfl⟩, ih⟩

/-- A statement that runs is aborted if the signal is set meanwhile. -/
theorem snd_signalAfterExecute (script : Script) (signal? : Option Signal) :
    (signalAfterExecute script signal?).2 = [] ∨
      (signalAfterExecute script signal?).2 = abortEvents script := by
  unfold signalAfterExecute
  split
  · exact .inl rfl
  · split
    · exact .inr rfl
    · exact .inl rfl

/-- A statement is sent first, and all that follows belongs to its block. -/
theorem exists_events_executePhase :
    ∃ rest, (executePhase script size sent signal?).2.events =
        .executed sent.text sent.arguments :: rest ∧ script.IsBlock rest := by
  have aborts := snd_signalAfterExecute script signal?
  unfold executePhase
  split
  · exact ⟨[], rfl, [], [], rfl, .inl rfl, List.forall_mem_nil _⟩
  · dsimp only
    split
    · exact ⟨_, rfl, _, [], (List.append_nil _).symm, aborts, List.forall_mem_nil _⟩
    · exact ⟨_, rfl, _, _, rfl, aborts, exists_of_mem_fetchRows _ _⟩

end Uses

theorem Lent.ne_opened_of_isOwned {lent : Lent} (owned : lent.isOwned) : lent ≠ .opened := by
  rintro rfl
  cases owned

theorem Lent.hand_of_isOwned {lent : Lent} (owned : lent.isOwned) : lent.hand = .empty := by
  cases lent with
  | opened => cases owned
  | nothing | closed => rfl

section Runs

variable {script : Script} {size : RowCount} {lent : Lent} {sent : Sent} {signal? : Option Signal}

/-- A rollback happens where the outcome is a failure or cancellation, and only there. -/
theorem fst_finish (columns : List String) (phase : Phase) (rollback : List Event) :
    (finish columns phase rollback).1 =
      if isBroken (finish columns phase rollback).2 then rollback else [] := by
  unfold finish
  cases phase.stop? with
  | none => rfl
  | some stop =>
    cases stop with
    | cancelled => rfl
    | failed fault =>
      dsimp only
      split <;> rfl

/-- All that a run of a sent statement can do: nothing once the signal is set, ask in vain for a
connection, or use one from beginning to end. -/
theorem runSent_cases (script : Script) (size : RowCount) (lent : Lent) (signal? : Option Signal)
    (sent : Sent) :
    ((checkSignal signal?).1 = true ∧ (runSent script size lent signal? sent).log = []) ∨
    ((checkSignal signal?).1 = false ∧ lent.isOwned ∧ script.connectFault?.isSome ∧
      (runSent script size lent signal? sent).log = [.connected]) ∨
    ((checkSignal signal?).1 = false ∧ (lent.isOwned → script.connectFault? = none) ∧
      ∃ rest, script.IsBlock rest ∧
        (runSent script size lent signal? sent).log =
          (if lent.isOwned then [.connected] else []) ++
          .executed sent.text sent.arguments :: rest ++
          (if isBroken (runSent script size lent signal? sent).outcome then rollbackLent script lent
            else []) ++
          if lent.isOwned then [.closed] else []) := by
  unfold runSent
  rcases checkSignal signal? with ⟨set, signal?⟩
  cases set with
  | true => exact .inl ⟨rfl, rfl⟩
  | false =>
    refine .inr ?_
    dsimp only
    cases refused : if lent.isOwned then script.connectFault? else none with
    | some fault =>
      by_cases owned : lent.isOwned
      · rw [if_pos owned] at refused
        exact .inl ⟨rfl, owned, by rw [refused]; rfl, rfl⟩
      · rw [if_neg owned] at refused
        cases refused
    | none =>
      obtain ⟨rest, events, isBlock⟩ := @exists_events_executePhase script size sent signal?
      refine .inr ⟨rfl, fun owned => by rw [if_pos owned] at refused; exact refused, rest, isBlock, ?_⟩
      dsimp only
      rw [events]
      exact congrArg (fun ending => _ ++ ending ++ _) (fst_finish _ _ _)

end Runs

/-- What a run does with connections. -/
structure KeepsCustody (script : Script) (request : Request) (done : Run) : Prop where
  /-- Every event finds a connection that it may be done to, and in the end the run holds what it held
  at first: an own connection is closed, and a lent one is neither closed nor replaced. -/
  replayed :
    request.lent.hand.replay? script.connectFault?.isNone done.log = some request.lent.hand
  /-- One connection is asked for at most, and none beside a lent one that is open. -/
  connected : done.log.count .connected ≤ if request.lent = .opened then 0 else 1
  /-- A connection that was opened is closed once, and nothing else is closed. -/
  closed :
    done.log.count .closed = if done.connects ∧ script.connectFault? = none then 1 else 0
  /-- One rollback, of a lent connection that is in a transaction, after a statement that failed or was
  cancelled, and none otherwise. -/
  rolledBack :
    done.log.count .rolledBack =
      if request.lent = .opened ∧ script.inTransaction ∧ done.hasExecuted ∧ isBroken done.outcome then 1
      else 0

section Custody

variable {script : Script} {request : Request} {done : Run} {uses : List Event}

/-- Nothing is done with connections before one is asked for. -/
theorem keepsCustody_of_nil (idle : done.log = []) : KeepsCustody script request done where
  replayed := by rw [idle]; rfl
  connected := by simp [idle]
  closed := by simp [idle, Run.connects]
  rolledBack := by simp [idle, Run.hasExecuted]

/-- A connection that is asked for in vain is not closed. -/
theorem keepsCustody_of_refused (owned : request.lent.isOwned) (refused : script.connectFault?.isSome)
    (log : done.log = [.connected]) : KeepsCustody script request done := by
  have notOpened := Lent.ne_opened_of_isOwned owned
  obtain ⟨fault, refused⟩ := Option.isSome_iff_exists.mp refused
  exact {
    replayed := by rw [Lent.hand_of_isOwned owned, log, refused]; rfl
    connected := by simp [log, notOpened]
    closed := by simp [log, refused]
    rolledBack := by simp [log, notOpened] }

/-- The whole course of a statement on an own connection. -/
theorem keepsCustody_of_owned (owned : request.lent.isOwned) (granted : script.connectFault? = none)
    (areUses : ∀ event ∈ uses, event.isUse) (log : done.log = .connected :: uses ++ [.closed]) :
    KeepsCustody script request done := by
  have notOpened := Lent.ne_opened_of_isOwned owned
  have connected : uses.count .connected = 0 := count_eq_zero_of_uses areUses rfl
  have closed : uses.count .closed = 0 := count_eq_zero_of_uses areUses rfl
  have rolledBack : uses.count .rolledBack = 0 := count_eq_zero_of_uses areUses rfl
  have used : Hand.own.replay? true uses = some .own := Hand.replay?_uses (by decide) areUses
  exact {
    replayed := by
      rw [Lent.hand_of_isOwned owned, log, granted, Hand.replay?_append, Hand.replay?_cons]
      change ((Hand.own.replay? true uses).bind fun hand => hand.replay? true [.closed]) = _
      rw [used]
      rfl
    connected := by simp [log, notOpened, connected]
    closed := by simp [log, Run.connects, granted, closed]
    rolledBack := by simp [log, notOpened, rolledBack] }

/-- The whole course of a statement on a lent connection. -/
theorem keepsCustody_of_lent {sent : Sent} (opened : request.lent = .opened)
    (areUses : ∀ event ∈ uses, event.isUse)
    (log : done.log = .executed sent.text sent.arguments :: uses ++
      if isBroken done.outcome then rollbackLent script .opened else []) :
    KeepsCustody script request done := by
  have connected : uses.count .connected = 0 := count_eq_zero_of_uses areUses rfl
  have closed : uses.count .closed = 0 := count_eq_zero_of_uses areUses rfl
  have rolledBack : uses.count .rolledBack = 0 := count_eq_zero_of_uses areUses rfl
  have executed : done.hasExecuted := by simp [log, Run.hasExecuted]
  have used (opens : Bool) :
      Hand.lent.replay? opens (.executed sent.text sent.arguments :: uses) = some .lent :=
    Hand.replay?_uses (by decide) (List.forall_mem_cons.mpr ⟨rfl, areUses⟩)
  have ending : (if isBroken done.outcome then rollbackLent script .opened else []) =
      if script.inTransaction ∧ isBroken done.outcome then [Event.rolledBack] else [] := by
    cases isBroken done.outcome <;> cases transaction : script.inTransaction <;>
      simp [rollbackLent, transaction]
  rw [ending] at log
  by_cases rolls : script.inTransaction ∧ isBroken done.outcome
  · rw [if_pos rolls] at log
    exact {
      replayed := by
        rw [opened, log, Hand.replay?_append]
        change ((Hand.lent.replay? _ _).bind _) = _
        rw [used]
        rfl
      connected := by simp [log, opened, connected]
      closed := by simp [log, Run.connects, closed, List.count_eq_zero.mp connected]
      rolledBack := by simp [log, opened, executed, rolls, rolledBack] }
  · rw [if_neg rolls, List.append_nil] at log
    exact {
      replayed := by rw [opened, log]; exact used _
      connected := by simp [log, opened, connected]
      closed := by simp [log, Run.connects, closed, List.count_eq_zero.mp connected]
      rolledBack := by simp [log, opened, executed, rolls, rolledBack] }

theorem keepsCustody_runSent (script : Script) (size : RowCount) (request : Request) (sent : Sent) :
    KeepsCustody script request (runSent script size request.lent request.signal? sent) := by
  obtain ⟨-, idle⟩ | ⟨-, owned, refused, log⟩ | ⟨-, granted, rest, isBlock, log⟩ :=
    runSent_cases script size request.lent request.signal? sent
  · exact keepsCustody_of_nil idle
  · exact keepsCustody_of_refused owned refused log
  · cases lent : request.lent with
    | opened =>
      rw [lent] at log
      exact keepsCustody_of_lent lent isBlock.isUse (log.trans (List.append_nil _))
    | nothing | closed =>
      rw [lent] at granted log
      have areUses : ∀ event ∈ Event.executed sent.text sent.arguments :: rest, event.isUse :=
        List.forall_mem_cons.mpr ⟨rfl, isBlock.isUse⟩
      refine keepsCustody_of_owned (by rw [lent]; rfl) (granted rfl) areUses (log.trans ?_)
      simp [Lent.isOwned, rollbackLent]

/-- A run keeps custody: what it opens it closes, what it is lent it leaves, whether it returns a result
or a failure or is cancelled, wherever connecting, executing or a fetch fails and whenever the signal is
set. A lent connection that is closed counts as none, and a signal that is set at first keeps the run
from asking for a connection. -/
theorem run_keepsCustody (options : Options) (script : Script) (request : Request) :
    KeepsCustody script request (run options script request) ∧
      (request.lent = .closed →
        run options script request = run options script { request with lent := .nothing }) ∧
      ((checkSignal request.signal?).1 = true → (run options script request).log = []) := by
  refine ⟨?_, fun closed => ?_, fun set => ?_⟩
  · unfold run
    cases request.sent options with
    | error failure => exact keepsCustody_of_nil rfl
    | ok sent => exact keepsCustody_runSent script options.fetchBatchSize request sent
  · unfold run
    rw [closed]
    rfl
  · unfold run
    cases request.sent options with
    | error failure => rfl
    | ok sent =>
      obtain ⟨-, idle⟩ | ⟨notSet, -⟩ | ⟨notSet, -⟩ :=
        runSent_cases script options.fetchBatchSize request.lent request.signal? sent
      · exact idle
      · rw [set] at notSet
        cases notSet
      · rw [set] at notSet
        cases notSet

end Custody

end ReportQuery.Execution
