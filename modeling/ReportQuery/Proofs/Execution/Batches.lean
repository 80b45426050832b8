import ReportQuery.Proofs.Execution.Outcome

set_option autoImplicit false
set_option relaxedAutoImplicit false

/-!
Reading in batches. The loop of fetches hands out all rows in order, each once, and ends at the first batch
that is empty; so the size of the batches decides how often is fetched, and nothing else of a run that
neither fails nor is cancelled.
-/

namespace ReportQuery.Execution

/-- The options with another size of batches. -/
def withBatches (options : Options) (size : RowCount) : Options :=
  { options with fetchBatchSize := size }

/-- How many batches hand out rows. The last of them may be shorter than the others. -/
def batchCount (size : RowCount) (rows : Nat) : Nat :=
  (rows + (size - 1)) / size

/-- All fetches of a number of rows: the batches and one more, which finds nothing left. -/
def fetches (size : RowCount) (rows : Nat) : List Event :=
  (List.range (batchCount size rows + 1)).map fun k => .fetched size (min size (rows - k * size))

def Event.isFetch : Event → Bool
  | fetched _ _ => true
  | connected | executed _ _ | aborted _ | rolledBack | closed => false

/-- A run of a sent statement that neither fails nor is cancelled: nothing that it comes to fails, every row
is as wide as the columns, and no look finds the signal set. -/
structure RunsThrough (options : Options) (script : Script) (request : Request) (sent : Sent) : Prop where
  prepared : request.sent options = .ok sent
  wide : ∀ row ∈ script.rows, row.length = script.columns.length
  works : ∀ stage, script.Reaches options.fetchBatchSize request.lent sent stage →
    script.faultAt? request.lent sent stage = none
  unfound : ¬ script.FindsSignal options.fetchBatchSize request.lent sent request.signal?

variable {options : Options} {script : Script} {request : Request} {sent : Sent} {size : RowCount}
  {lent : Lent} {signal? : Option Signal} {result : Result}

section Counting

theorem batchCount_zero (size : RowCount) : batchCount size 0 = 0 := by
  obtain ⟨n, positive⟩ := size
  refine Nat.div_eq_of_lt ?_
  simp only [Nat.zero_add]
  omega

/-- A batch that hands out rows leaves one batch less. -/
theorem batchCount_of_pos {rows : Nat} (some : 0 < rows) :
    batchCount size rows = batchCount size (rows - size) + 1 := by
  obtain ⟨n, positive⟩ := size
  unfold batchCount
  rcases Nat.le_total n rows with more | last
  · have shift : rows + (n - 1) = rows - n + (n - 1) + n := by omega
    simp only [shift, Nat.add_div_right _ positive]
  · have one : rows + (n - 1) = rows - 1 + n := by omega
    have none : rows - n + (n - 1) = n - 1 := by omega
    simp only [one, none, Nat.add_div_right _ positive]
    rw [Nat.div_eq_of_lt (by omega), Nat.div_eq_of_lt (by omega)]

theorem fetches_zero (size : RowCount) : fetches size 0 = [.fetched size 0] := by
  simp [fetches, batchCount_zero]

theorem fetches_of_pos {rows : Nat} (some : 0 < rows) :
    fetches size rows = .fetched size (min size rows) :: fetches size (rows - size) := by
  unfold fetches
  rw [batchCount_of_pos some, List.range_succ_eq_map, List.map_cons, List.map_map, Nat.zero_mul,
    Nat.sub_zero]
  congr 1
  refine List.map_congr_left fun k _ => ?_
  simp only [Function.comp_apply, Nat.succ_mul, Nat.sub_sub, Nat.add_comm]

end Counting

section Loop

/-- Rows that are read without a fault are as wide as the columns. -/
theorem wide_of_records {columns : List String} {rows : List Row} {read : List Record}
    (done : records columns rows = (read, none)) : ∀ row ∈ rows, row.length = columns.length := by
  induction rows generalizing read with
  | nil => exact List.forall_mem_nil _
  | cons row rows ih =>
    rw [records] at done
    cases first : record? columns row with
    | error fault =>
      rw [first] at done
      cases (Prod.mk.inj done).2
    | ok record =>
      rw [first] at done
      obtain ⟨-, later⟩ := Prod.mk.inj done
      have here : row.length = columns.length := by
        unfold record? at first
        split at first
        · cases first
        · split at first
          · cases first
          · omega
      exact List.forall_mem_cons.mpr ⟨here, ih (Prod.ext rfl later)⟩

/-- A loop of fetches that ends by itself has handed out all rows in order, however large the batches are,
and the batch after the last row was empty. -/
theorem fetchRows_of_finished {batches : Nat} {pending : List Row}
    (finished : (fetchRows script size batches signal? pending).stop? = none) :
    (∀ row ∈ pending, row.length = script.columns.length) ∧
      (fetchRows script size batches signal? pending).rows = pending.map (recordOf script.columns) ∧
      (fetchRows script size batches signal? pending).events = fetches size pending.length := by
  fun_induction fetchRows script size batches signal? pending with
  | case1 | case2 | case4 => cases finished
  | case3 batches signal? pending next check works batch event empty =>
    obtain rfl := List.length_eq_zero_iff.mp empty
    refine ⟨List.forall_mem_nil _, rfl, ?_⟩
    rw [List.length_nil, fetches_zero]
    simp [event, batch]
  | case5 batches signal? pending next check works batch event nonempty rows read rest ih =>
    obtain ⟨later, handed, events⟩ := ih finished
    have here : ∀ row ∈ pending.take size, row.length = script.columns.length := wide_of_records read
    rw [records_of_wide here] at read
    obtain ⟨rfl, -⟩ := Prod.mk.inj read
    refine ⟨fun row member => ?_, ?_, ?_⟩
    · rw [← List.take_append_drop size pending] at member
      exact (List.mem_append.mp member).elim (here row) (later row)
    · change _ ++ rest.rows = _
      rw [handed, ← List.map_append, List.take_append_drop]
    · change event :: rest.events = _
      rw [events, fetches_of_pos (Nat.pos_of_ne_zero nonempty), List.length_drop]
      simp [event, batch]

end Loop

section Runs

/-- A result without an error comes from a loop of fetches that ended by itself. -/
theorem finished_of_finish {columns : List String} {phase : Phase} {rollback : List Event}
    (returned : (finish columns phase rollback).2 = .ok result) (succeeded : result.error? = none) :
    phase.stop? = none ∧ finish columns phase rollback = ([], .ok result) ∧
      result = ⟨columns, phase.rows, phase.rows.length, none⟩ := by
  unfold finish at returned ⊢
  cases stopped : phase.stop? with
  | none =>
    rw [stopped] at returned
    obtain rfl := Except.ok.inj returned
    exact ⟨rfl, rfl, rfl⟩
  | some stop =>
    rw [stopped] at returned
    cases stop with
    | cancelled => cases returned
    | failed fault =>
      dsimp only at returned
      split at returned
      · cases returned
      · obtain rfl := Except.ok.inj returned
        cases succeeded

theorem isFetch_eq_false_of_mem_signalAfterExecute :
    ∀ event ∈ (signalAfterExecute script signal?).2, event.isFetch = false := by
  intro event member
  unfold signalAfterExecute at member
  split at member
  · cases member
  · split at member
    · rw [abortEvents_eq] at member
      obtain ⟨method, -, rfl⟩ := List.mem_map.mp member
      rfl
    · cases member

/-- A statement that is read to its end was fetched in batches up to an empty one. -/
theorem executePhase_of_finished
    (finished : (executePhase script size sent signal?).2.stop? = none) :
    (∀ row ∈ script.rows, row.length = script.columns.length) ∧
      (executePhase script size sent signal?).1 = script.columns ∧
      (executePhase script size sent signal?).2.rows = script.rows.map (recordOf script.columns) ∧
      (executePhase script size sent signal?).2.events.filter Event.isFetch =
        fetches size script.rows.length := by
  unfold executePhase at finished ⊢
  split at finished
  · cases finished
  · dsimp only at finished ⊢
    split at finished
    · cases finished
    · obtain ⟨wide, handed, events⟩ := fetchRows_of_finished finished
      refine ⟨wide, rfl, handed, ?_⟩
      have others : (signalAfterExecute script signal?).2.filter Event.isFetch = [] :=
        List.filter_eq_nil_iff.mpr fun event member => by
          rw [isFetch_eq_false_of_mem_signalAfterExecute event member]
          exact Bool.false_ne_true
      have all : (fetches size script.rows.length).filter Event.isFetch =
          fetches size script.rows.length := by
        refine List.filter_eq_self.mpr fun event member => ?_
        obtain ⟨k, -, rfl⟩ := List.mem_map.mp member
        rfl
      dsimp only
      rw [List.cons_append, List.filter_cons_of_neg (by simp [Event.isFetch]), List.filter_append,
        others, events, all, List.nil_append]

/-- A run without an error returns all rows, and its fetches are those of all rows. -/
theorem runSent_of_succeeded
    (returned : (runSent script size lent signal? sent).outcome = .ok result)
    (succeeded : result.error? = none) :
    (∀ row ∈ script.rows, row.length = script.columns.length) ∧
      result = ⟨script.columns, script.rows.map (recordOf script.columns), script.rows.length, none⟩ ∧
      (runSent script size lent signal? sent).log.filter Event.isFetch =
        fetches size script.rows.length := by
  unfold runSent at returned ⊢
  split at returned
  · cases returned
  · dsimp only at returned ⊢
    split at returned
    · obtain ⟨finished, -⟩ := finished_of_finish returned succeeded
      cases finished
    · obtain ⟨finished, finish, rfl⟩ := finished_of_finish returned succeeded
      obtain ⟨wide, columns, handed, fetched⟩ := executePhase_of_finished finished
      refine ⟨wide, ?_, ?_⟩
      · rw [columns, handed, List.length_map]
      · rw [finish]
        cases lent.isOwned <;> simp [fetched, Event.isFetch]

/-- A result without an error has all rows. -/
theorem eq_of_succeeded (returned : (run options script request).outcome = .ok result)
    (succeeded : result.error? = none) :
    (∀ row ∈ script.rows, row.length = script.columns.length) ∧
      result =
        ⟨script.columns, script.rows.map (recordOf script.columns), script.rows.length, none⟩ := by
  unfold run at returned
  split at returned
  · cases returned
  · obtain ⟨wide, whole, -⟩ := runSent_of_succeeded returned succeeded
    exact ⟨wide, whole⟩

/-- A run without an error finds nothing that fails and no signal that is set. -/
theorem runsThrough_of_succeeded (prepared : request.sent options = .ok sent)
    (returned : (run options script request).outcome = .ok result) (succeeded : result.error? = none) :
    RunsThrough options script request sent := by
  obtain ⟨wide, -⟩ := eq_of_succeeded returned succeeded
  unfold run at returned
  rw [prepared] at returned
  dsimp only at returned
  have first : isFoundAt request.signal? 1 = false := by
    rw [← Bool.not_eq_true]
    intro found
    unfold runSent at returned
    rw [checkSignal_eq, found] at returned
    cases returned
  obtain ⟨stage, reaches, ends⟩ := @Script.exists_ends script options.fetchBatchSize request.lent sent
    request.signal? wide first
  rw [returned] at ends
  refine ⟨prepared, wide, fun other there => ?_, ends.not_findsSignal first reaches⟩
  cases ends with
  | failed => cases succeeded
  | finished works _ done => exact reaches.faultAt?_eq_none works done there

/-- A run that nothing disturbs returns all rows, and its fetches are those of all rows. -/
theorem RunsThrough.returns (through : RunsThrough options script request sent) :
    (run options script request).outcome =
        .ok ⟨script.columns, script.rows.map (recordOf script.columns), script.rows.length, none⟩ ∧
      (run options script request).log.filter Event.isFetch =
        fetches options.fetchBatchSize script.rows.length := by
  unfold run
  rw [through.prepared]
  dsimp only
  have first : isFoundAt request.signal? 1 = false := by
    rw [← Bool.not_eq_true]
    exact fun found => through.unfound (.inl found)
  obtain ⟨stage, reaches, ends⟩ := @Script.exists_ends script options.fetchBatchSize request.lent sent
    request.signal? through.wide first
  obtain ⟨result, returned, succeeded⟩ : ∃ result, (runSent script options.fetchBatchSize request.lent
      request.signal? sent).outcome = .ok result ∧ result.error? = none := by
    generalize (runSent script options.fetchBatchSize request.lent request.signal? sent).outcome =
      outcome at ends
    cases ends with
    | stopped found => exact absurd (.inr (.inl ⟨_, reaches, found⟩)) through.unfound
    | cancelled fails | failed fails =>
      rw [through.works stage reaches] at fails
      cases fails
    | finished => exact ⟨_, rfl, rfl⟩
  obtain ⟨-, rfl, fetched⟩ := runSent_of_succeeded returned succeeded
  exact ⟨returned, fetched⟩

/-- A request without definitions is sent without arguments if its statement has no binds. -/
theorem exists_sent_of_unbound (undeclared : request.definitions = [])
    (unbound : Sql.bindNames
      (Sql.prepare (Sql.applyRowLimit options request.extent request.sql.toList)).text = []) :
    ∃ text, request.sent options = .ok ⟨text, []⟩ := by
  rw [Request.sent, undeclared, unbound]
  exact ⟨_, rfl⟩

/-- Where the connection has no faults and there is no signal, nothing disturbs a run. -/
theorem runsThrough_of_calm (prepared : request.sent options = .ok sent)
    (wide : ∀ row ∈ script.rows, row.length = script.columns.length) (bound : sent.unbound? = none)
    (connects : script.connectFault? = none) (executes : script.executeFault? = none)
    (fetches : script.fetchFault? = none) (unsignalled : request.signal? = none) :
    RunsThrough options script request sent := by
  refine ⟨prepared, wide, fun stage _ => ?_, ?_⟩
  · cases stage with
    | connect => simp [Script.faultAt?, connects]
    | execute => simp [Script.faultAt?, bound, executes]
    | fetch => simp [Script.faultAt?, Script.fetchFaultAfter?, fetches]
  · rw [unsignalled]
    rintro (first | ⟨n, -, found⟩ | ⟨stage, fault, -, -, found⟩)
    · cases first
    · cases found
    · have silent : script.signalAt? sent none stage = none := by
        cases stage <;> simp [Script.signalAt?, signalAfterExecute]
      rw [silent] at found
      cases found

end Runs

/-- The size of the batches does not matter. A run returns a result without an error exactly if nothing
that it comes to fails and it does not find the signal set. Two such runs that differ in the size of their
batches return the same result, which has all rows in order, each once; each fetches batches until one is
empty. -/
theorem run_batchSize_irrelevant (options : Options) (script : Script) (request : Request) :
    (∀ size, (∃ sent, RunsThrough (withBatches options size) script request sent) ↔
      ∃ result, (run (withBatches options size) script request).outcome = .ok result ∧
        result.error? = none) ∧
    ∀ one other sent sent', RunsThrough (withBatches options one) script request sent →
      RunsThrough (withBatches options other) script request sent' →
      ∃ result, (run (withBatches options one) script request).outcome = .ok result ∧
        (run (withBatches options other) script request).outcome = .ok result ∧
        result.columns = script.columns ∧ result.rows = script.rows.map (recordOf script.columns) ∧
        result.totalRows = script.rows.length ∧
        (run (withBatches options one) script request).log.filter Event.isFetch =
          fetches one script.rows.length ∧
        (run (withBatches options other) script request).log.filter Event.isFetch =
          fetches other script.rows.length := by
  refine ⟨fun size => ⟨?_, ?_⟩, fun one other sent sent' first second => ?_⟩
  · rintro ⟨sent, through⟩
    exact ⟨_, through.returns.1, rfl⟩
  · rintro ⟨result, returned, succeeded⟩
    cases prepared : request.sent (withBatches options size) with
    | error failure =>
      unfold run at returned
      rw [prepared] at returned
      cases returned
    | ok sent => exact ⟨sent, runsThrough_of_succeeded prepared returned succeeded⟩
  · exact ⟨_, first.returns.1, second.returns.1, rfl, rfl, rfl, first.returns.2, second.returns.2⟩

/-- Four rows, as many as two batches of two hold. -/
def countingScript : Script where
  columns := ["n"]
  rows := [[.integer 1], [.integer 2], [.integer 3], [.integer 4]]

def countingRequest : Request where
  sql := "SELECT n FROM t"

/-- Batches of two, the last of them empty, and batches of three return the same four rows. -/
theorem counting_batches_agree :
    ∃ result, (run (withBatches .standard ⟨2, Nat.zero_lt_two⟩) countingScript countingRequest).outcome =
        .ok result ∧
      (run (withBatches .standard ⟨3, Nat.zero_lt_succ 2⟩) countingScript countingRequest).outcome =
        .ok result ∧
      result.rows = [[("n", .integer 1)], [("n", .integer 2)], [("n", .integer 3)], [("n", .integer 4)]] ∧
      result.totalRows = 4 ∧
      (run (withBatches .standard ⟨2, Nat.zero_lt_two⟩) countingScript countingRequest).log.filter
        Event.isFetch = [.fetched 2 2, .fetched 2 2, .fetched 2 0] := by
  have through (size : RowCount) : RunsThrough (withBatches .standard size) countingScript countingRequest
      ⟨"SELECT n FROM t LIMIT 50000", []⟩ := by
    have sent : countingRequest.sent .standard = .ok ⟨"SELECT n FROM t LIMIT 50000", []⟩ := by
      decide +kernel
    exact runsThrough_of_calm sent (by decide) rfl rfl rfl rfl rfl
  obtain ⟨result, first, second, -, rows, total, fetched, -⟩ :=
    (run_batchSize_irrelevant .standard countingScript countingRequest).2 ⟨2, Nat.zero_lt_two⟩
      ⟨3, Nat.zero_lt_succ 2⟩ _ _ (through _) (through _)
  exact ⟨result, first, second, rows, total, fetched⟩

end ReportQuery.Execution
