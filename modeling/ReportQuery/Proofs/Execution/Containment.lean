import Mathlib.Data.List.Induction
import Mathlib.Tactic.Common
import ReportQuery.Proofs.Execution.Custody

set_option autoImplicit false
set_option relaxedAutoImplicit false

/-!
A watcher is contained in the block that it watches. It aborts at most once, only after the signal was set,
and only before the call has left the block: the call leaves once the watcher has returned, and a watcher
that has returned does nothing more. So an abort never meets a connection that was rolled back, closed or
given back. Whether the abort fails makes no difference but for a warning.
-/

namespace ReportQuery.Execution

/-- Whether an event is an abort. -/
def Event.isAbort : Event → Bool
  | aborted _ => true
  | connected | executed _ _ | fetched _ _ | rolledBack | closed => false

/-- Whether an event belongs to what follows a block. -/
def Event.isRelease : Event → Bool
  | rolledBack | closed => true
  | connected | executed _ _ | fetched _ _ | aborted _ => false

/-- Whether a watcher may still abort. -/
def Lookout.mayAbort : Lookout → Bool
  | testing | listening | confirming | aborting => true
  | interrupting | returned => false

namespace Watch

variable {abort : Abort} {watch : Watch} {move : Move} {moves : List Move} {event : Event}

/-- How often the connection was aborted. -/
def aborts (watch : Watch) : Nat :=
  watch.log.countP Event.isAbort

theorem aborts_record_of_abort (isAbort : event.isAbort) :
    (watch.record event).aborts = watch.aborts + 1 := by
  rw [aborts, record, List.countP_append, List.countP_singleton, if_pos isAbort]
  rfl

theorem aborts_record_of_other (other : event.isAbort = false) :
    (watch.record event).aborts = watch.aborts := by
  rw [aborts, record, List.countP_append, List.countP_singleton, other]
  rfl

section Steps

/-- All that the call can do: use the connection in the block, take it back after the block, go on towards
the end of the block, or leave it once the watcher has returned. -/
theorem stepCall_cases (watch : Watch) (act : Act) :
    watch.stepCall act = watch ∨
      (∃ event : Event, watch.stepCall act = watch.record event ∧ event.isAbort = false ∧
        (watch.call.isLeft ∨ event.isRelease = false)) ∨
      (∃ finished call, watch.stepCall act = { watch with isFinished := finished, call := call } ∧
        watch.call.isLeft = false ∧ call.isLeft = false) ∨
      ∃ stop?, watch.stepCall act = { watch with call := .left stop? } ∧ watch.call.isLeft = false ∧
        watch.watcher = .returned := by
  unfold stepCall
  split
  · exact .inr (.inl ⟨_, rfl, rfl, .inr rfl⟩)
  · exact .inr (.inl ⟨_, rfl, rfl, .inr rfl⟩)
  · rename_i stop? running
    exact .inr (.inr (.inl ⟨watch.isFinished, .finishing stop?, rfl, by rw [running]; rfl, rfl⟩))
  · rename_i stop? finishing
    exact .inr (.inr (.inl ⟨true, .joining stop?, rfl, by rw [finishing]; rfl, rfl⟩))
  · rename_i stop? joining
    split
    · rename_i returned
      exact .inr (.inr (.inr ⟨stop?, rfl, by rw [joining]; rfl, returned⟩))
    · exact .inl rfl
  · rename_i left
    exact .inr (.inl ⟨_, rfl, rfl, .inl (by rw [left]; rfl)⟩)
  · rename_i left
    exact .inr (.inl ⟨_, rfl, rfl, .inl (by rw [left]; rfl)⟩)
  · exact .inl rfl

/-- The signal is set by its own move and by no other. -/
theorem isSet_step (abort : Abort) (watch : Watch) (move : Move) :
    (watch.step abort move).isSet ↔ watch.isSet ∨ move = .signal := by
  cases move with
  | signal => simp [step]
  | watcher =>
    rw [step, stepWatcher]
    split <;> simp [record]
  | call act =>
    rw [step]
    rcases watch.stepCall_cases act with same | ⟨_, same, -⟩ | ⟨_, _, same, -⟩ | ⟨_, same, -⟩
    · simp [same]
    · simp [same, record]
    · simp [same]
    · simp [same]

/-- Only the watcher aborts, and only where it is about to. -/
theorem aborting_of_aborts_lt (more : watch.aborts < (watch.step abort move).aborts) :
    move = .watcher ∧ watch.watcher = .aborting := by
  cases move with
  | signal => exact absurd more (Nat.lt_irrefl _)
  | watcher =>
    refine ⟨rfl, ?_⟩
    rw [step, stepWatcher] at more
    split at more
    case h_4 aborting => exact aborting
    all_goals exact absurd more (Nat.lt_irrefl _)
  | call act =>
    rw [step] at more
    rcases watch.stepCall_cases act with same | ⟨event, same, other, -⟩ | ⟨_, _, same, -⟩ | ⟨_, same, -⟩
    · rw [same] at more
      exact absurd more (Nat.lt_irrefl _)
    · rw [same, aborts_record_of_other other] at more
      exact absurd more (Nat.lt_irrefl _)
    · rw [same] at more
      exact absurd more (Nat.lt_irrefl _)
    · rw [same] at more
      exact absurd more (Nat.lt_irrefl _)

end Steps

section Invariant

/-- What every move keeps. -/
structure IsContained (watch : Watch) : Prop where
  heard : watch.watcher = .confirming ∨ watch.watcher = .aborting → watch.isSet
  unaborted : watch.watcher.mayAbort → watch.aborts = 0
  once : watch.aborts ≤ 1
  /-- The call leaves the block behind the watcher. -/
  waited : watch.call.isLeft → watch.watcher = .returned
  unreleased : watch.call.isLeft = false → ∀ event ∈ watch.log, event.isRelease = false

theorem isContained_start : IsContained {} where
  heard := nofun
  unaborted _ := rfl
  once := Nat.zero_le 1
  waited := nofun
  unreleased _ := List.forall_mem_nil _

/-- A watcher that moves on without an abort. -/
theorem IsContained.moved (contained : watch.IsContained) {next : Lookout}
    (may : watch.watcher.mayAbort) (heard : next = .confirming ∨ next = .aborting → watch.isSet) :
    IsContained { watch with watcher := next } where
  heard := heard
  unaborted _ := contained.unaborted may
  once := contained.once
  waited left := by
    rw [contained.waited left] at may
    cases may
  unreleased := contained.unreleased

theorem IsContained.stepWatcher (contained : watch.IsContained) (abort : Abort) :
    IsContained (watch.stepWatcher abort) := by
  unfold Watch.stepWatcher
  split
  case h_1 testing =>
    refine contained.moved (by rw [testing]; rfl) fun later => ?_
    split at later <;> simp at later
  case h_2 listening =>
    refine contained.moved (by rw [listening]; rfl) fun later => ?_
    split at later
    · assumption
    · simp at later
  case h_3 confirming =>
    exact contained.moved (by rw [confirming]; rfl) fun _ => contained.heard (.inl confirming)
  case h_4 aborting =>
    have stays : watch.call.isLeft = false := by
      by_contra left
      have returned := contained.waited (by simpa using left)
      rw [aborting] at returned
      cases returned
    have first : watch.aborts = 0 := contained.unaborted (by rw [aborting]; rfl)
    refine ⟨by simp, nofun, ?_, fun left => ?_, fun _ event member => ?_⟩
    · exact Nat.le_of_eq ((aborts_record_of_abort rfl).trans (by rw [first]))
    · exact absurd (stays.symm.trans left) (by decide)
    · rcases List.mem_append.mp member with before | now
      · exact contained.unreleased stays event before
      · rw [List.mem_singleton.mp now]
        rfl
  case h_5 =>
    exact ⟨by simp, nofun, contained.once, fun _ => rfl, contained.unreleased⟩
  case h_6 => exact contained

theorem IsContained.stepCall (contained : watch.IsContained) (act : Act) :
    IsContained (watch.stepCall act) := by
  rcases watch.stepCall_cases act with same | ⟨event, same, other, site⟩ |
    ⟨finished, call, same, stays, going⟩ | ⟨stop?, same, stays, returned⟩
  · rw [same]
    exact contained
  · rw [same]
    have count : (watch.record event).aborts = watch.aborts := aborts_record_of_other other
    refine ⟨contained.heard, fun may => ?_, ?_, contained.waited, fun going after member => ?_⟩
    · rw [count]
      exact contained.unaborted may
    · rw [count]
      exact contained.once
    · rcases List.mem_append.mp member with before | now
      · exact contained.unreleased going after before
      · rw [List.mem_singleton.mp now]
        refine site.resolve_left fun left => ?_
        exact absurd (going.symm.trans left) (by decide)
  · rw [same]
    refine ⟨contained.heard, contained.unaborted, contained.once, fun left => ?_,
      fun _ => contained.unreleased stays⟩
    exact absurd (going.symm.trans left) (by decide)
  · rw [same]
    exact ⟨contained.heard, contained.unaborted, contained.once, fun _ => returned, nofun⟩

/-- Every move keeps a watch contained. -/
theorem IsContained.step (contained : watch.IsContained) (abort : Abort) (move : Move) :
    IsContained (watch.step abort move) := by
  cases move with
  | signal =>
    exact ⟨fun _ => rfl, contained.unaborted, contained.once, contained.waited, contained.unreleased⟩
  | watcher => exact contained.stepWatcher abort
  | call act => exact contained.stepCall act

end Invariant

section Runs

theorem run_append (abort : Abort) (watch : Watch) (front back : List Move) :
    run abort watch (front ++ back) = run abort (run abort watch front) back :=
  List.foldl_append

theorem run_concat (abort : Abort) (watch : Watch) (moves : List Move) (move : Move) :
    run abort watch (moves ++ [move]) = (run abort watch moves).step abort move :=
  run_append abort watch moves [move]

/-- However the moves interleave, the watch stays contained. -/
theorem isContained_run (abort : Abort) (moves : List Move) : IsContained (run abort {} moves) := by
  induction moves using List.reverseRecOn with
  | nil => exact isContained_start
  | append_singleton moves move ih =>
    rw [run_concat]
    exact ih.step abort move

theorem isSet_run_iff (abort : Abort) (moves : List Move) :
    (run abort {} moves).isSet ↔ .signal ∈ moves := by
  induction moves using List.reverseRecOn with
  | nil => simp [run]
  | append_singleton moves move ih =>
    rw [run_concat, isSet_step, ih, List.mem_append, List.mem_singleton, eq_comm]

/-- The watch without its warning. -/
def silenced (watch : Watch) : Watch :=
  { watch with warned := false }

theorem step_silenced (abort : Abort) (watch : Watch) (move : Move) :
    (watch.step abort move).silenced = watch.silenced.step ⟨abort.method, false⟩ move := by
  cases move with
  | signal => rfl
  | watcher =>
    unfold step stepWatcher silenced
    dsimp only
    split <;> rfl
  | call act =>
    unfold step stepCall silenced
    dsimp only
    split
    case h_5 =>
      split <;> rfl
    all_goals rfl

/-- A failing abort is warned of, and changes nothing else. -/
theorem run_silenced (abort : Abort) (watch : Watch) (moves : List Move) :
    (run abort watch moves).silenced = run ⟨abort.method, false⟩ watch.silenced moves := by
  induction moves generalizing watch with
  | nil => rfl
  | cons move moves ih =>
    rw [run, List.foldl_cons, ← run, ih, step_silenced]
    rfl

end Runs

section Interleavings

/-- What the call can do where it stands it can do one after the other. -/
theorem exists_moves_record {events : List Event}
    (can : ∀ event ∈ events, ∃ act, ∀ other : Watch, other.call = watch.call →
      other.stepCall act = other.record event) :
    ∃ moves, run abort watch moves = { watch with log := watch.log ++ events } := by
  induction events generalizing watch with
  | nil => exact ⟨[], by rw [List.append_nil]; rfl⟩
  | cons event events ih =>
    obtain ⟨⟨act, does⟩, later⟩ := List.forall_mem_cons.mp can
    obtain ⟨moves, runs⟩ := @ih (watch.record event) later
    refine ⟨.call act :: moves, ?_⟩
    have first : watch.step abort (.call act) = watch.record event := does watch rfl
    rw [run, List.foldl_cons, first, ← run, runs]
    simp [record]

/-- What belongs to a block happens in some order of the moves, and the watcher has aborted or not begun. -/
theorem exists_moves_block {script : Script} {sql : String} {arguments : List Argument}
    {rest : List Event} (isBlock : script.IsBlock rest) (method : script.abort? = some abort.method) :
    ∃ moves, (run abort {} moves).log = .executed sql arguments :: rest ∧
      (run abort {} moves).call = .running ∧
      ((run abort {} moves).watcher = .testing ∨ (run abort {} moves).watcher = .returned) := by
  obtain ⟨aborts, fetched, rfl, aborting, fetching⟩ := isBlock
  have started : ∃ moves, (run abort {} moves).log = .executed sql arguments :: aborts ∧
      (run abort {} moves).call = .running ∧
      ((run abort {} moves).watcher = .testing ∨ (run abort {} moves).watcher = .returned) := by
    rcases aborting with rfl | rfl
    · exact ⟨[.call (.execute sql arguments)], rfl, rfl, .inl rfl⟩
    · rw [abortEvents_eq, method]
      exact ⟨.call (.execute sql arguments) :: cancelling, rfl, rfl, .inr rfl⟩
  obtain ⟨moves, log, running, watcher⟩ := started
  have can : ∀ event ∈ fetched, ∃ act, ∀ other : Watch,
      other.call = (run abort {} moves).call → other.stepCall act = other.record event := by
    intro event member
    obtain ⟨size, rows, rfl⟩ := fetching event member
    exact ⟨.fetch size rows, fun other same => by simp only [stepCall, same, running]⟩
  obtain ⟨more, runs⟩ := @exists_moves_record abort _ _ can
  refine ⟨moves ++ more, ?_⟩
  rw [run_append, runs]
  exact ⟨by rw [log, List.cons_append], running, watcher⟩

/-- A block is left and followed by what releases its connection. -/
theorem exists_moves_release {released : List Event} (running : watch.call = .running)
    (watcher : watch.watcher = .testing ∨ watch.watcher = .returned)
    (releasing : ∀ event ∈ released, event.isRelease) :
    ∃ moves, (run abort watch moves).log = watch.log ++ released := by
  -- The watcher either has returned or returns as soon as it is told that the block is over.
  have leaves : ∃ moves, (run abort watch moves).log = watch.log ∧ (run abort watch moves).call.isLeft := by
    obtain ⟨isSet, isFinished, lookout, call, log, warned⟩ := watch
    obtain rfl : call = .running := running
    refine ⟨[.call (.leave none), .call .finish, .watcher, .call .join], ?_⟩
    rcases watcher with testing | returned
    · obtain rfl : lookout = .testing := testing
      exact ⟨rfl, rfl⟩
    · obtain rfl : lookout = .returned := returned
      exact ⟨rfl, rfl⟩
  obtain ⟨moves, log, left⟩ := leaves
  have can : ∀ event ∈ released, ∃ act, ∀ other : Watch,
      other.call = (run abort watch moves).call → other.stepCall act = other.record event := by
    intro event member
    have release := releasing event member
    cases call : (run abort watch moves).call with
    | left stop? =>
      cases event with
      | rolledBack => exact ⟨.rollBack, fun other same => by simp only [stepCall, same]⟩
      | closed => exact ⟨.close, fun other same => by simp only [stepCall, same]⟩
      | connected | executed | fetched | aborted => cases release
    | running | finishing | joining =>
      rw [call] at left
      cases left
  obtain ⟨more, runs⟩ := @exists_moves_record abort _ _ can
  refine ⟨moves ++ more, ?_⟩
  rw [run_append, runs, log]

end Interleavings

end Watch

theorem isRelease_of_mem_rollbackLent {script : Script} {lent : Lent} {event : Event}
    (member : event ∈ rollbackLent script lent) : event.isRelease := by
  cases lent with
  | opened =>
    rw [rollbackLent] at member
    split at member
    · rw [List.mem_singleton.mp member]
      rfl
    · cases member
  | nothing | closed => cases member

/-- Whatever a run does to a connection is done in some order of the moves. -/
theorem exists_moves_run {abort : Abort} (options : Options) {script : Script} (request : Request)
    (method : script.abort? = some abort.method) :
    ∃ moves, (Watch.run abort {} moves).log =
      (run options script request).log.filter (· ≠ .connected) := by
  unfold run
  cases request.sent options with
  | error failure => exact ⟨[], rfl⟩
  | ok sent =>
    obtain ⟨-, idle⟩ | ⟨-, -, -, asked⟩ | ⟨-, -, rest, isBlock, log⟩ :=
      runSent_cases script options.fetchBatchSize request.lent request.signal? sent
    · exact ⟨[], by dsimp only; rw [idle]; rfl⟩
    · exact ⟨[], by dsimp only; rw [asked]; rfl⟩
    · dsimp only
      rw [log]
      generalize isBroken _ = broken
      have uses : ∀ event ∈ Event.executed sent.text sent.arguments :: rest, event.isUse :=
        List.forall_mem_cons.mpr ⟨rfl, isBlock.isUse⟩
      have rollbacks : ∀ event ∈ if broken then rollbackLent script request.lent else [],
          event.isRelease := by
        cases broken with
        | true => exact fun event member => isRelease_of_mem_rollbackLent member
        | false => exact List.forall_mem_nil _
      have closings : ∀ event ∈ if request.lent.isOwned then [Event.closed] else [],
          event.isRelease := by
        cases request.lent.isOwned <;> decide
      have releasing := List.forall_mem_append.mpr ⟨rollbacks, closings⟩
      obtain ⟨moves, used, running, watcher⟩ :=
        @Watch.exists_moves_block abort script sent.text sent.arguments rest isBlock method
      obtain ⟨more, released⟩ :=
        @Watch.exists_moves_release abort (Watch.run abort {} moves) _ running watcher releasing
      refine ⟨moves ++ more, ?_⟩
      have asked : (if request.lent.isOwned then [Event.connected] else []).filter (· ≠ .connected) = [] := by
        cases request.lent.isOwned <;> rfl
      have kept (event : Event) (member : event ∈ Event.executed sent.text sent.arguments :: rest ++
          ((if broken then rollbackLent script request.lent else []) ++
            if request.lent.isOwned then [Event.closed] else [])) : event ≠ .connected := by
        rintro rfl
        rcases List.mem_append.mp member with use | release
        · cases uses _ use
        · cases releasing _ release
      rw [Watch.run_append, released, used, List.append_assoc, List.append_assoc, List.filter_append, asked,
        List.nil_append, List.filter_eq_self.mpr fun event member => decide_eq_true (kept event member)]

/-- However signal, watcher and call interleave: the connection is aborted at most once, never before the
signal is set, and never after the call has left the block, which it leaves behind a watcher that has
returned; so no abort meets a connection that was rolled back, closed or given back. An abort that fails
makes no difference but for a warning. What a run does to its connection is one of these interleavings. -/
theorem watch_contained (abort : Abort) (moves : List Watch.Move) (move : Watch.Move) :
    (Watch.run abort {} moves).aborts ≤ 1 ∧
    ((Watch.run abort {} moves).aborts < (Watch.run abort {} (moves ++ [move])).aborts →
      .signal ∈ moves ∧ (Watch.run abort {} moves).call.isLeft = false ∧
        ∀ event ∈ (Watch.run abort {} moves).log, event.isRelease = false) ∧
    ((Watch.run abort {} moves).call.isLeft → (Watch.run abort {} moves).watcher = .returned) ∧
    (Watch.run abort {} moves).silenced = Watch.run ⟨abort.method, false⟩ {} moves ∧
    ∀ options script request, script.abort? = some abort.method →
      ∃ moves, (Watch.run abort {} moves).log =
        (run options script request).log.filter (· ≠ .connected) := by
  have contained := Watch.isContained_run abort moves
  refine ⟨contained.once, fun more => ?_, contained.waited, Watch.run_silenced abort {} moves,
    fun options script request method => exists_moves_run options request method⟩
  rw [Watch.run_concat] at more
  obtain ⟨-, aborting⟩ := Watch.aborting_of_aborts_lt more
  have stays : (Watch.run abort {} moves).call.isLeft = false := by
    by_contra left
    have returned := contained.waited (by simpa using left)
    rw [aborting] at returned
    cases returned
  exact ⟨(Watch.isSet_run_iff abort moves).mp (contained.heard (.inr aborting)), stays,
    contained.unreleased stays⟩

/-- A block that fails just as its watcher goes to abort. The watcher was not told yet, so the abort takes
place before the call can roll back. -/
def lateMoves : List Watch.Move :=
  [.call (.execute "SELECT 1" []), .watcher, .watcher, .signal, .watcher, .watcher, .watcher,
    .call (.leave (some (.failed (.other "lost")))), .call .finish, .call .join, .call .rollBack]

/-- The late abort is the only one, and it meets the connection as the block left it. -/
theorem late_abort_contained :
    (Watch.run ⟨.cancel, true⟩ {} lateMoves).log = [.executed "SELECT 1" []] ∧
      (Watch.run ⟨.cancel, true⟩ {} (lateMoves ++ [.watcher])).log =
        [.executed "SELECT 1" [], .aborted .cancel] ∧
      .signal ∈ lateMoves ∧ (Watch.run ⟨.cancel, true⟩ {} lateMoves).call.isLeft = false := by
  have more : (Watch.run ⟨.cancel, true⟩ {} lateMoves).aborts <
      (Watch.run ⟨.cancel, true⟩ {} (lateMoves ++ [.watcher])).aborts := by decide
  obtain ⟨-, placed, -⟩ := watch_contained ⟨.cancel, true⟩ lateMoves .watcher
  obtain ⟨signalled, stays, -⟩ := placed more
  exact ⟨by decide, by decide, signalled, stays⟩

end ReportQuery.Execution
