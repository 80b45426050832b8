import Mathlib.Tactic.Common
import ReportQuery.Execution.Run

set_option autoImplicit false
set_option relaxedAutoImplicit false

/-!
The outcome of a run. What a script makes of an execution is said without the signal: which stages it comes
to, which of them fails, and which rows were handed out before. The signal then decides at the looks that
the run takes at it whether the run is cancelled; every other run returns a result.
-/

namespace ReportQuery.Execution

/-- A stage of an execution at which it can fail. -/
inductive Stage where
  | connect
  | execute
  /-- The fetch after the given number of batches. -/
  | fetch (batches : Nat)
deriving Repr, DecidableEq

namespace Script

variable (script : Script) (size : RowCount) (lent : Lent) (sent : Sent)

/-- The fault of a stage that is tried. A bind without a value fails before the statement is sent. -/
def faultAt? : Stage → Option Fault
  | .connect => if lent.isOwned then script.connectFault? else none
  | .execute => (sent.unbound?.map unboundFault).or script.executeFault?
  | .fetch batches => script.fetchFaultAfter? batches

/-- Whether an execution comes to a stage: no stage before it fails, and no batch before it is empty. -/
def Reaches : Stage → Prop
  | .connect => True
  | .execute => script.faultAt? lent sent .connect = none
  | .fetch batches => script.faultAt? lent sent .connect = none ∧
      script.faultAt? lent sent .execute = none ∧
      ∀ k < batches, script.fetchFaultAfter? k = none ∧ k * size < script.rows.length

/-- The rows that are handed out before a stage. -/
def handedOut : Stage → List Row
  | .connect | .execute => []
  | .fetch batches => script.rows.take (batches * size)

/-- The signal at a stage: a statement that is sent may see it set. -/
def signalAt? (signal? : Option Signal) : Stage → Option Signal
  | .connect => signal?
  | .execute => if sent.unbound?.isSome then signal? else (signalAfterExecute script signal?).1
  | .fetch _ => (signalAfterExecute script signal?).1

end Script

/-- How often a run has looked at the signal when it tries a stage: once at first and once before every
fetch. -/
def Stage.looks : Stage → Nat
  | connect | execute => 1
  | fetch batches => batches + 2

/-- Whether the signal is found set at the look of the given number. -/
def isFoundAt (signal? : Option Signal) (look : Nat) : Bool :=
  signal?.any fun signal => signal.isSet || signal.foundFrom?.any fun first => first ≤ signal.checks + look

/-- The signal after a number of looks. -/
def afterLooks (signal? : Option Signal) (looks : Nat) : Option Signal :=
  signal?.map fun signal => { signal with checks := signal.checks + looks }

/-- The record of a row that is as wide as the columns. -/
def recordOf (columns : List String) (row : Row) : Record :=
  Mapping.ofEntries (columns.zip row)

section Looks

variable {signal? : Option Signal} {look : Nat}

theorem checkSignal_eq (signal? : Option Signal) :
    checkSignal signal? = (isFoundAt signal? 1, afterLooks signal? 1) := by
  cases signal? with
  | none => rfl
  | some signal => cases found : signal.foundFrom? <;>
      simp [checkSignal, Signal.check, isFoundAt, afterLooks, found]

theorem isFoundAt_afterLooks (signal? : Option Signal) (looks look : Nat) :
    isFoundAt (afterLooks signal? looks) look = isFoundAt signal? (looks + look) := by
  cases signal? with
  | none => rfl
  | some signal => simp [isFoundAt, afterLooks, Nat.add_assoc]

theorem afterLooks_afterLooks (signal? : Option Signal) (looks more : Nat) :
    afterLooks (afterLooks signal? looks) more = afterLooks signal? (looks + more) := by
  cases signal? with
  | none => rfl
  | some signal => simp [afterLooks, Nat.add_assoc]

/-- A signal that is found set is found set from then on. -/
theorem isFoundAt_mono {later : Nat} (found : isFoundAt signal? look) (le : look ≤ later) :
    isFoundAt signal? later := by
  cases signal? with
  | none => cases found
  | some signal =>
    cases from? : signal.foundFrom? with
    | none => simpa [isFoundAt, from?] using found
    | some first =>
      simp only [isFoundAt, Option.any_some, from?, Bool.or_eq_true, decide_eq_true_eq] at found ⊢
      rcases found with set | passed
      · exact .inl set
      · exact .inr (Nat.le_trans passed (Nat.add_le_add_left le _))

/-- Setting the signal while a statement runs does not change when it was looked at. -/
theorem signalAfterExecute_afterLooks (script : Script) (looks : Nat) :
    (signalAfterExecute script (afterLooks signal? looks)).1 =
      afterLooks (signalAfterExecute script signal?).1 looks := by
  cases signal? with
  | none => rfl
  | some signal => cases sets : script.cancelsDuringExecute <;> simp [signalAfterExecute, afterLooks, sets]

end Looks

theorem records_of_wide {columns : List String} {rows : List Row}
    (wide : ∀ row ∈ rows, row.length = columns.length) :
    records columns rows = (rows.map (recordOf columns), none) := by
  induction rows with
  | nil => rfl
  | cons row rows ih =>
    obtain ⟨here, later⟩ := List.forall_mem_cons.mp wide
    have read : record? columns row = .ok (recordOf columns row) := by
      simp [record?, here, recordOf]
    rw [records, read, ih later]
    rfl

section Fetching

variable {script : Script} {size : RowCount} {signal? : Option Signal} {pending : List Row}

/-- How the loop of fetches ends at the fetch after `n` batches; `batches` were fetched before it began. -/
inductive EndsAt (script : Script) (size : RowCount) (batches : Nat) (signal? : Option Signal)
    (pending : List Row) (n : Nat) : Option Stop → Prop
  | cancelled (found : isFoundAt signal? (n + 1)) :
      EndsAt script size batches signal? pending n (some .cancelled)
  | failed (unfound : isFoundAt signal? (n + 1) = false) {fault : Fault}
      (fails : script.fetchFaultAfter? (batches + n) = some fault) :
      EndsAt script size batches signal? pending n (some (.failed fault))
  | finished (unfound : isFoundAt signal? (n + 1) = false)
      (works : script.fetchFaultAfter? (batches + n) = none) (done : pending.length ≤ n * size) :
      EndsAt script size batches signal? pending n none

/-- A batch that is fetched before the loop puts its end off by one fetch. -/
theorem EndsAt.later {batches n : Nat} {stop? : Option Stop}
    (ends : EndsAt script size (batches + 1) (afterLooks signal? 1) (pending.drop size) n stop?) :
    EndsAt script size batches signal? pending (n + 1) stop? := by
  have look : isFoundAt (afterLooks signal? 1) (n + 1) = isFoundAt signal? (n + 1 + 1) := by
    rw [isFoundAt_afterLooks, Nat.add_comm 1]
  have fetch : batches + 1 + n = batches + (n + 1) := by omega
  cases ends with
  | cancelled found => exact .cancelled (look ▸ found)
  | failed unfound fails => exact .failed (look ▸ unfound) (fetch ▸ fails)
  | finished unfound works done =>
    refine .finished (look ▸ unfound) (fetch ▸ works) ?_
    rw [List.length_drop] at done
    rw [Nat.succ_mul]
    omega

/-- The loop ends at one fetch. Before it every look finds the signal unset and every fetch hands out a
batch that is not empty, and the rows are those of these batches. -/
theorem exists_fetchRows (wide : ∀ row ∈ pending, row.length = script.columns.length) (batches : Nat) :
    ∃ n, (∀ k < n, isFoundAt signal? (k + 1) = false ∧ script.fetchFaultAfter? (batches + k) = none ∧
        k * size < pending.length) ∧
      EndsAt script size batches signal? pending n
        (fetchRows script size batches signal? pending).stop? ∧
      (fetchRows script size batches signal? pending).rows =
        (pending.take (n * size)).map (recordOf script.columns) ∧
      (fetchRows script size batches signal? pending).signal? = afterLooks signal? (n + 1) := by
  have batchRecords {pending : List Row}
      (wide : ∀ row ∈ pending, row.length = script.columns.length) :
      records script.columns (pending.take size) =
        ((pending.take size).map (recordOf script.columns), none) :=
    records_of_wide fun row member => wide row (List.mem_of_mem_take member)
  fun_induction fetchRows script size batches signal? pending with
  | case1 batches signal? pending next check =>
    rw [checkSignal_eq] at check
    obtain ⟨found, rfl⟩ := Prod.mk.inj check
    exact ⟨0, by simp, .cancelled found, by simp, rfl⟩
  | case2 batches signal? pending next check fault fails =>
    rw [checkSignal_eq] at check
    obtain ⟨unfound, rfl⟩ := Prod.mk.inj check
    exact ⟨0, by simp, .failed unfound fails, by simp, rfl⟩
  | case3 batches signal? pending next check works batch event empty =>
    rw [checkSignal_eq] at check
    obtain ⟨unfound, rfl⟩ := Prod.mk.inj check
    exact ⟨0, by simp, .finished unfound works (by simp [empty]), by simp, rfl⟩
  | case4 batches signal? pending next check works batch event nonempty rows fault broken =>
    rw [batchRecords wide] at broken
    cases (Prod.mk.inj broken).2
  | case5 batches signal? pending next check works batch event nonempty rows read rest ih =>
    rw [checkSignal_eq] at check
    obtain ⟨unfound, rfl⟩ := Prod.mk.inj check
    rw [batchRecords wide] at read
    obtain ⟨rfl, -⟩ := Prod.mk.inj read
    obtain ⟨n, earlier, ends, handed, looked⟩ :=
      ih fun row member => wide row (List.mem_of_mem_drop member)
    refine ⟨n + 1, fun k before => ?_, ends.later, ?_, ?_⟩
    · cases k with
      | zero => exact ⟨unfound, works, by omega⟩
      | succ k =>
        obtain ⟨look, fetch, more⟩ := earlier k (Nat.lt_of_succ_lt_succ before)
        rw [isFoundAt_afterLooks, Nat.add_comm 1] at look
        rw [List.length_drop] at more
        rw [Nat.add_assoc, Nat.add_comm 1] at fetch
        exact ⟨look, fetch, by rw [Nat.succ_mul]; omega⟩
    · change _ ++ rest.rows = _
      rw [handed, ← List.map_append, Nat.succ_mul, Nat.add_comm (n * _), List.take_add]
    · change rest.signal? = _
      rw [looked, afterLooks_afterLooks, Nat.add_comm 1]

end Fetching

namespace Script

variable {script : Script} {size : RowCount} {lent : Lent} {sent : Sent} {signal? : Option Signal}

/-- Of two stages that an execution comes to, none before the other fails. -/
theorem Reaches.eq_of_faults {stage other : Stage} {fault fault' : Fault}
    (reaches : script.Reaches size lent sent stage) (fails : script.faultAt? lent sent stage = some fault)
    (reaches' : script.Reaches size lent sent other)
    (fails' : script.faultAt? lent sent other = some fault') : stage = other := by
  cases stage with
  | connect =>
    cases other with
    | connect => rfl
    | execute => rw [show _ = none from reaches'] at fails; cases fails
    | fetch => rw [reaches'.1] at fails; cases fails
  | execute =>
    cases other with
    | connect => rw [show _ = none from reaches] at fails'; cases fails'
    | execute => rfl
    | fetch => rw [reaches'.2.1] at fails; cases fails
  | fetch n =>
    cases other with
    | connect => rw [reaches.1] at fails'; cases fails'
    | execute => rw [reaches.2.1] at fails'; cases fails'
    | fetch m =>
      rcases Nat.lt_trichotomy n m with before | same | behind
      · rw [faultAt?, (reaches'.2.2 n before).1] at fails
        cases fails
      · rw [same]
      · rw [faultAt?, (reaches.2.2 m behind).1] at fails'
        cases fails'

/-- An execution that comes to a fetch with nothing left and does not fail there does not fail at all. -/
theorem Reaches.faultAt?_eq_none {n : Nat} (reaches : script.Reaches size lent sent (.fetch n))
    (works : script.fetchFaultAfter? n = none) (done : script.rows.length ≤ n * size) {stage : Stage}
    (there : script.Reaches size lent sent stage) : script.faultAt? lent sent stage = none := by
  cases stage with
  | connect => exact reaches.1
  | execute => exact reaches.2.1
  | fetch m =>
    rcases Nat.lt_trichotomy m n with before | same | behind
    · exact (reaches.2.2 m before).1
    · rw [same]
      exact works
    · exact absurd (there.2.2 n behind).2 (Nat.not_lt.mpr done)

/-- How a run of a sent statement ends that does not find the signal set at first: at which stage and with
which outcome. -/
inductive Ends (script : Script) (size : RowCount) (lent : Lent) (sent : Sent)
    (signal? : Option Signal) : Stage → Except RunFailure Result → Prop
  /-- Before a fetch the signal is found set. -/
  | stopped {n : Nat} (found : isFoundAt (script.signalAt? sent signal? (.fetch n)) (n + 2)) :
      Ends script size lent sent signal? (.fetch n) (.error .cancelled)
  /-- After a failure the signal is found set. -/
  | cancelled {stage : Stage} {fault : Fault} (fails : script.faultAt? lent sent stage = some fault)
      (found : isFoundAt (script.signalAt? sent signal? stage) (stage.looks + 1)) :
      Ends script size lent sent signal? stage (.error .cancelled)
  | failed {stage : Stage} {fault : Fault} {columns : List String}
      (fails : script.faultAt? lent sent stage = some fault)
      (unfound : isFoundAt (script.signalAt? sent signal? stage) (stage.looks + 1) = false)
      {rows : List Record}
      (handed : rows = (script.handedOut size stage).map (recordOf script.columns)) :
      Ends script size lent sent signal? stage
        (.ok ⟨columns, rows, rows.length, some fault.message⟩)
  | finished {n : Nat} (works : script.fetchFaultAfter? n = none)
      (unfound : isFoundAt (script.signalAt? sent signal? (.fetch n)) (n + 2) = false)
      (done : script.rows.length ≤ n * size) {rows : List Record}
      (handed : rows = script.rows.map (recordOf script.columns)) :
      Ends script size lent sent signal? (.fetch n) (.ok ⟨script.columns, rows, rows.length, none⟩)

/-- A failure at a stage is reported unless the signal is found set after it. -/
theorem ends_finish {stage : Stage} {fault : Fault} {phase : Phase} {columns : List String}
    {rollback : List Event} (stopped : phase.stop? = some (.failed fault))
    (fails : script.faultAt? lent sent stage = some fault)
    (signal : phase.signal? = afterLooks (script.signalAt? sent signal? stage) stage.looks)
    (handed : phase.rows = (script.handedOut size stage).map (recordOf script.columns)) :
    Ends script size lent sent signal? stage (finish columns phase rollback).2 := by
  unfold finish
  rw [stopped]
  dsimp only
  rw [checkSignal_eq, signal, isFoundAt_afterLooks]
  cases found : isFoundAt (script.signalAt? sent signal? stage) (stage.looks + 1) with
  | true => exact .cancelled fails found
  | false => exact .failed fails found handed

/-- Once the statement is executed, the loop of fetches decides how the run ends. -/
theorem exists_ends_fetch (wide : ∀ row ∈ script.rows, row.length = script.columns.length)
    (connects : script.faultAt? lent sent .connect = none)
    (executes : script.faultAt? lent sent .execute = none) {signal : Option Signal}
    (looked : signal = afterLooks (script.signalAt? sent signal? (.fetch 0)) 1)
    (events : List Event) (rollback : List Event) :
    ∃ stage, script.Reaches size lent sent stage ∧ Ends script size lent sent signal? stage
      (finish script.columns { fetchRows script size 0 signal script.rows with events := events }
        rollback).2 := by
  obtain ⟨n, earlier, ends, handed, after⟩ :=
    @exists_fetchRows script size signal script.rows wide 0
  have reaches : script.Reaches size lent sent (.fetch n) := by
    refine ⟨connects, executes, fun k before => ?_⟩
    obtain ⟨-, works, more⟩ := earlier k before
    rw [Nat.zero_add] at works
    exact ⟨works, more⟩
  have look : isFoundAt signal (n + 1) = isFoundAt (script.signalAt? sent signal? (.fetch n)) (n + 2) := by
    rw [looked, isFoundAt_afterLooks, Nat.add_comm 1]
    rfl
  refine ⟨.fetch n, reaches, ?_⟩
  generalize stopped : (fetchRows script size 0 signal script.rows).stop? = stop? at ends
  cases ends with
  | cancelled found =>
    unfold finish
    dsimp only
    rw [stopped]
    exact .stopped (look ▸ found)
  | failed unfound fails =>
    rw [Nat.zero_add] at fails
    refine ends_finish stopped fails ?_ handed
    rw [show Phase.signal? _ = _ from after, looked, afterLooks_afterLooks, Nat.add_comm 1]
    rfl
  | finished unfound works done =>
    unfold finish
    dsimp only
    rw [stopped]
    rw [Nat.zero_add] at works
    rw [List.take_of_length_le done] at handed
    exact .finished works (look ▸ unfound) done handed

/-- A run that does not find the signal set at first ends at a stage that it comes to. -/
theorem exists_ends (wide : ∀ row ∈ script.rows, row.length = script.columns.length)
    (unfound : isFoundAt signal? 1 = false) :
    ∃ stage, script.Reaches size lent sent stage ∧
      Ends script size lent sent signal? stage (runSent script size lent signal? sent).outcome := by
  unfold runSent
  rw [checkSignal_eq, unfound]
  dsimp only
  cases refused : script.faultAt? lent sent .connect with
  | some fault =>
    rw [show (if lent.isOwned then script.connectFault? else none) = some fault from refused]
    exact ⟨.connect, trivial, ends_finish rfl refused rfl rfl⟩
  | none =>
    rw [show (if lent.isOwned then script.connectFault? else none) = none from refused]
    dsimp only
    unfold executePhase
    cases unbound : sent.unbound? with
    | some name =>
      have fails : script.faultAt? lent sent .execute = some (unboundFault name) := by
        simp [faultAt?, unbound]
      refine ⟨.execute, refused, ends_finish rfl fails ?_ rfl⟩
      simp [signalAt?, unbound, Stage.looks]
    | none =>
      dsimp only
      cases broken : script.executeFault? with
      | some fault =>
        have fails : script.faultAt? lent sent .execute = some fault := by
          simp [faultAt?, unbound, broken]
        refine ⟨.execute, refused, ends_finish rfl fails ?_ rfl⟩
        simp [signalAt?, unbound, Stage.looks, signalAfterExecute_afterLooks]
      | none =>
        have executes : script.faultAt? lent sent .execute = none := by
          simp [faultAt?, unbound, broken]
        exact exists_ends_fetch wide refused executes (signalAfterExecute_afterLooks script 1) _ _

/-- Whether a run finds the signal set: at first, before a fetch that it comes to, or after a failure. -/
def FindsSignal (script : Script) (size : RowCount) (lent : Lent) (sent : Sent)
    (signal? : Option Signal) : Prop :=
  isFoundAt signal? 1 ∨
  (∃ n, script.Reaches size lent sent (.fetch n) ∧
    isFoundAt (script.signalAt? sent signal? (.fetch n)) (n + 2)) ∨
  ∃ stage fault, script.Reaches size lent sent stage ∧
    script.faultAt? lent sent stage = some fault ∧
    isFoundAt (script.signalAt? sent signal? stage) (stage.looks + 1)

/-- A run that returns a result does not find the signal set. -/
theorem Ends.not_findsSignal {stage : Stage} {result : Result} (unfound : isFoundAt signal? 1 = false)
    (reaches : script.Reaches size lent sent stage)
    (ends : Ends script size lent sent signal? stage (.ok result)) :
    ¬ script.FindsSignal size lent sent signal? := by
  -- the signal is not found set at the last look, so at no look before
  have before {look last : Nat} (le : look ≤ last)
      (last : isFoundAt (signalAfterExecute script signal?).1 last = false)
      (found : isFoundAt (signalAfterExecute script signal?).1 look) : False := by
    rw [isFoundAt_mono found le] at last
    cases last
  rintro (first | ⟨n, there, found⟩ | ⟨other, fault, there, fails', found⟩)
  · rw [unfound] at first
    cases first
  · cases ends with
    | failed fails later =>
      cases stage with
      | connect => rw [there.1] at fails; cases fails
      | execute => rw [there.2.1] at fails; cases fails
      | fetch m =>
        rcases Nat.lt_or_ge m n with passed | le
        · rw [faultAt?, (there.2.2 m passed).1] at fails
          cases fails
        · exact before (by simp only [Stage.looks]; omega) later found
    | @finished m works later done =>
      rcases Nat.lt_or_ge m n with passed | le
      · exact absurd (there.2.2 m passed).2 (Nat.not_lt.mpr done)
      · exact before (by omega) later found
  · cases ends with
    | failed fails later =>
      obtain rfl := reaches.eq_of_faults fails there fails'
      rw [later] at found
      cases found
    | finished works later done =>
      rw [reaches.faultAt?_eq_none works done there] at fails'
      cases fails'

end Script

/-- The outcome of a run. It is cancelled exactly when it finds the signal set. Every other run returns a
result: without an error just when no stage that it comes to fails, and else with the message of the fault
and the records of the rows that were handed out before it. -/
theorem run_outcome (options : Options) (script : Script) (request : Request) (sent : Sent)
    (prepared : request.sent options = .ok sent)
    (wide : ∀ row ∈ script.rows, row.length = script.columns.length) :
    ((run options script request).outcome = .error .cancelled ↔
      script.FindsSignal options.fetchBatchSize request.lent sent request.signal?) ∧
    (¬ script.FindsSignal options.fetchBatchSize request.lent sent request.signal? →
      ∃ result, (run options script request).outcome = .ok result ∧
        (result.error? = none ↔ ∀ stage, script.Reaches options.fetchBatchSize request.lent sent stage →
          script.faultAt? request.lent sent stage = none) ∧
        (result.error? = none → result.columns = script.columns ∧
          result.rows = script.rows.map (recordOf script.columns)) ∧
        (∀ stage fault, script.Reaches options.fetchBatchSize request.lent sent stage →
          script.faultAt? request.lent sent stage = some fault →
          result.error? = some fault.message ∧ result.rows =
            (script.handedOut options.fetchBatchSize stage).map (recordOf script.columns)) ∧
        result.totalRows = result.rows.length) := by
  have ran : run options script request =
      runSent script options.fetchBatchSize request.lent request.signal? sent := by
    unfold run
    rw [prepared]
  rw [ran]
  cases first : isFoundAt request.signal? 1 with
  | true =>
    have finds : script.FindsSignal options.fetchBatchSize request.lent sent request.signal? := .inl first
    have cancelled : (runSent script options.fetchBatchSize request.lent request.signal? sent).outcome =
        .error .cancelled := by
      unfold runSent
      rw [checkSignal_eq, first]
    exact ⟨⟨fun _ => finds, fun _ => cancelled⟩, fun unfound => absurd finds unfound⟩
  | false =>
    obtain ⟨stage, reaches, ends⟩ := @Script.exists_ends script options.fetchBatchSize request.lent sent
      request.signal? wide first
    generalize (runSent script options.fetchBatchSize request.lent request.signal? sent).outcome =
      outcome at ends
    cases outcome with
    | error failure =>
      have finds : script.FindsSignal options.fetchBatchSize request.lent sent request.signal? := by
        cases ends with
        | stopped found => exact .inr (.inl ⟨_, reaches, found⟩)
        | cancelled fails found => exact .inr (.inr ⟨_, _, reaches, fails, found⟩)
      have cancelled : failure = .cancelled := by
        cases ends with
        | stopped | cancelled => rfl
      exact ⟨⟨fun _ => finds, fun _ => by rw [cancelled]⟩, fun unfound => absurd finds unfound⟩
    | ok result =>
      have unfound := ends.not_findsSignal first reaches
      refine ⟨⟨fun same => (by cases same), fun finds => absurd finds unfound⟩, fun _ => ⟨result, rfl, ?_⟩⟩
      cases ends with
      | failed fails later handed =>
        refine ⟨⟨fun none => (by cases none), fun none => ?_⟩, fun none => (by cases none),
          fun other fault' there fails' => ?_, rfl⟩
        · rw [none stage reaches] at fails
          cases fails
        · obtain rfl := reaches.eq_of_faults fails there fails'
          obtain rfl := Option.some.inj (fails.symm.trans fails')
          exact ⟨rfl, handed⟩
      | finished works later done handed =>
        refine ⟨⟨fun _ _ there => reaches.faultAt?_eq_none works done there, fun _ => rfl⟩,
          fun _ => ⟨rfl, handed⟩, fun other fault there fails => ?_, rfl⟩
        rw [reaches.faultAt?_eq_none works done there] at fails
        cases fails

/-- Two rows are read at a time. -/
def pairedOptions : Options :=
  { Options.standard with fetchBatchSize := ⟨2, Nat.zero_lt_two⟩ }

/-- A connection that breaks after the first batch. -/
def breakingScript : Script where
  fetchFault? := some (1, .driver "sqlite3.OperationalError" none "disk I/O error")
  columns := ["n"]
  rows := [[.integer 1], [.integer 2], [.integer 3]]

def breakingRequest (signal? : Option Signal) : Request where
  sql := "SELECT n FROM t"
  signal? := signal?

def breakingSent : Sent := ⟨"SELECT n FROM t LIMIT 50000", []⟩

/-- The first batch and the fault of the second are returned, unless the signal is found set when the fault
is handled: that is the fourth look. -/
theorem breaking_outcome :
    (∃ result, (run pairedOptions breakingScript (breakingRequest none)).outcome = .ok result ∧
      result.error? = some "disk I/O error" ∧ result.rows = [[("n", .integer 1)], [("n", .integer 2)]]) ∧
    (run pairedOptions breakingScript (breakingRequest (some { foundFrom? := some 4 }))).outcome =
      .error .cancelled := by
  have prepared (signal? : Option Signal) :
      (breakingRequest signal?).sent pairedOptions = .ok breakingSent := by
    have sent : (breakingRequest none).sent pairedOptions = .ok breakingSent := by decide +kernel
    exact sent
  have wide : ∀ row ∈ breakingScript.rows, row.length = breakingScript.columns.length := by decide
  have reaches : breakingScript.Reaches pairedOptions.fetchBatchSize .nothing breakingSent (.fetch 1) := by
    refine ⟨rfl, rfl, fun k before => ?_⟩
    obtain rfl : k = 0 := by omega
    decide
  constructor
  · have unfound : ¬ breakingScript.FindsSignal pairedOptions.fetchBatchSize .nothing breakingSent none := by
      rintro (first | ⟨n, -, found⟩ | ⟨stage, fault, -, -, found⟩)
      · cases first
      · cases found
      · cases stage <;> cases found
    obtain ⟨result, returned, -, -, failed, -⟩ :=
      (run_outcome pairedOptions breakingScript (breakingRequest none) breakingSent (prepared none)
        wide).2 unfound
    obtain ⟨error, rows⟩ := failed (.fetch 1) _ reaches rfl
    exact ⟨result, returned, error, rows⟩
  · exact (run_outcome pairedOptions breakingScript (breakingRequest (some { foundFrom? := some 4 }))
      breakingSent (prepared _) wide).1.mpr (.inr (.inr ⟨.fetch 1, _, reaches, rfl, by decide⟩))

end ReportQuery.Execution
