import Mathlib.Data.List.Basic
import Mathlib.Tactic.Common
import ReportQuery.Builder

set_option autoImplicit false
set_option relaxedAutoImplicit false

/-!
One build for many callers. In whatever order the callers take their steps and however the builds end, one
build runs at a time, at most one succeeds, it is the last, and whoever returns is given its snapshot. The
failure of a build is reported to the caller that ran it and to nobody else, and the lock is free after it.

The builds are numbered in the order of their beginning, and the list of the callers that began them is
carried along the run: the invariant says of every caller what it knows at its place.
-/

namespace ReportQuery.Schema

variable {ε σ : Type}

/-- What one step of a caller can do, and to what it shares with the others. -/
inductive Caller.Moves (build : Nat → Except ε σ) (shelf : Shelf σ) :
    Caller ε σ → Shelf σ → Caller ε σ → Prop
  | finds {snapshot : σ} (published : shelf.snapshot? = some snapshot) :
      Moves build shelf entering shelf (returned (.ok snapshot))
  | misses (unpublished : shelf.snapshot? = none) : Moves build shelf entering shelf waiting
  | locks (free : shelf.isLocked = false) :
      Moves build shelf waiting { shelf with isLocked := true } looking
  | findsLate {snapshot : σ} (published : shelf.snapshot? = some snapshot) :
      Moves build shelf looking shelf (leaving (.ok snapshot))
  | begins (unpublished : shelf.snapshot? = none) :
      Moves build shelf looking { shelf with builds := shelf.builds + 1 } (building shelf.builds)
  | ends (n : Nat) : Moves build shelf (building n) shelf (publishing (build n))
  | publishes (snapshot : σ) :
      Moves build shelf (publishing (.ok snapshot)) { shelf with snapshot? := some snapshot }
        (leaving (.ok snapshot))
  | fails (failure : ε) :
      Moves build shelf (publishing (.error failure)) shelf (leaving (.error failure))
  | unlocks (outcome : Except ε σ) :
      Moves build shelf (leaving outcome) { shelf with isLocked := false } (returned outcome)

theorem Caller.moves_of_step? {build : Nat → Except ε σ} {shelf next : Shelf σ}
    {before after : Caller ε σ} (step : before.step? build shelf = some (next, after)) :
    before.Moves build shelf next after := by
  cases before with
  | entering =>
    cases held : shelf.snapshot? with
    | none =>
      obtain ⟨rfl, rfl⟩ : shelf = next ∧ waiting = after := by simpa [step?, held] using step
      exact .misses held
    | some snapshot =>
      obtain ⟨rfl, rfl⟩ : shelf = next ∧ returned (.ok snapshot) = after := by
        simpa [step?, held] using step
      exact .finds held
  | waiting =>
    cases locked : shelf.isLocked with
    | true => simp [step?, locked] at step
    | false =>
      obtain ⟨rfl, rfl⟩ : { shelf with isLocked := true } = next ∧ looking = after := by
        simpa [step?, locked] using step
      exact .locks locked
  | looking =>
    cases held : shelf.snapshot? with
    | none =>
      obtain ⟨rfl, rfl⟩ : { shelf with builds := shelf.builds + 1 } = next ∧
          building shelf.builds = after := by simpa [step?, held] using step
      exact .begins held
    | some snapshot =>
      obtain ⟨rfl, rfl⟩ : shelf = next ∧ leaving (.ok snapshot) = after := by
        simpa [step?, held] using step
      exact .findsLate held
  | building n =>
    obtain ⟨rfl, rfl⟩ : shelf = next ∧ publishing (build n) = after := by simpa [step?] using step
    exact .ends n
  | publishing outcome =>
    cases outcome with
    | ok snapshot =>
      obtain ⟨rfl, rfl⟩ : { shelf with snapshot? := some snapshot } = next ∧
          leaving (.ok snapshot) = after := by simpa [step?] using step
      exact .publishes snapshot
    | error failure =>
      obtain ⟨rfl, rfl⟩ : shelf = next ∧ leaving (.error failure) = after := by
        simpa [step?] using step
      exact .fails failure
  | leaving outcome =>
    obtain ⟨rfl, rfl⟩ : { shelf with isLocked := false } = next ∧ returned outcome = after := by
      simpa [step?] using step
    exact .unlocks outcome
  | returned outcome => simp [step?] at step

/-- Whether a caller is between the beginning of a build and the publication of its outcome. -/
def Caller.isAtWork : Caller ε σ → Bool
  | building _ | publishing _ => true
  | entering | waiting | looking | leaving _ | returned _ => false

theorem Caller.holdsLock_of_isAtWork {caller : Caller ε σ} (atWork : caller.isAtWork) :
    caller.holdsLock := by
  cases caller with
  | building | publishing => rfl
  | entering | waiting | looking | leaving | returned => cases atWork

namespace Cache

/-- A cache with nothing published and callers that have not begun. -/
def fresh (callers : Nat) : Cache ε σ :=
  ⟨{}, List.replicate callers .entering⟩

/-- Whether the caller of the given number begins a build with its next step. -/
def begins (cache : Cache ε σ) (i : Nat) : Bool :=
  match cache.callers[i]?, cache.shelf.snapshot? with
  | some .looking, none => true
  | _, _ => false

/-- The callers that begin a build during a run, in the order of the builds. -/
def builders (build : Nat → Except ε σ) (cache : Cache ε σ) : List Nat → List Nat
  | [] => []
  | i :: order => (if cache.begins i then [i] else []) ++ builders build (cache.step build i) order

variable {build : Nat → Except ε σ} {cache : Cache ε σ} {who : List Nat} {i : Nat}

/-- A step changes nothing, or moves one caller. -/
theorem step_cases (build : Nat → Except ε σ) (cache : Cache ε σ) (i : Nat) :
    (cache.step build i = cache ∧ cache.begins i = false) ∨
    ∃ before next after, cache.callers[i]? = some before ∧ before.Moves build cache.shelf next after ∧
      cache.step build i = ⟨next, cache.callers.set i after⟩ := by
  unfold step
  cases found : cache.callers[i]?.bind (Caller.step? build cache.shelf) with
  | none =>
    refine .inl ⟨rfl, ?_⟩
    unfold begins
    split
    · rename_i looking unpublished
      simp [looking, Caller.step?, unpublished] at found
    · rfl
  | some moved =>
    obtain ⟨before, here, moves⟩ := Option.bind_eq_some_iff.mp found
    exact .inr ⟨before, moved.1, moved.2, here, Caller.moves_of_step? moves, rfl⟩

/-- The caller of the given number holds the lock. -/
def Holds (cache : Cache ε σ) (i : Nat) : Prop :=
  ∃ caller, cache.callers[i]? = some caller ∧ caller.holdsLock

/-- The caller of the given number runs a build or is about to publish its outcome. -/
def Works (cache : Cache ε σ) (i : Nat) : Prop :=
  ∃ caller, cache.callers[i]? = some caller ∧ caller.isAtWork

/-- The lock is taken just when a caller holds it, and one caller holds it at most. -/
structure Exclusive (cache : Cache ε σ) : Prop where
  locked : cache.shelf.isLocked ↔ ∃ i, cache.Holds i
  alone : ∀ i j, cache.Holds i → cache.Holds j → i = j

/-- Whether the outcome may be given to the caller: a snapshot that is published, or the failure of its own
build. A caller that ran a build is given the outcome of that build. -/
def IsDue (build : Nat → Except ε σ) (who : List Nat) (snapshot? : Option σ) (i : Nat) :
    Except ε σ → Prop
  | .ok snapshot => snapshot? = some snapshot ∧ ∀ n, who[n]? = some i → build n = .ok snapshot
  | .error failure => ∃ n, who[n]? = some i ∧ build n = .error failure

/-- What holds of a caller at its place, where `who` are the callers that have begun a build. -/
def Stands (build : Nat → Except ε σ) (who : List Nat) (snapshot? : Option σ) (i : Nat) :
    Caller ε σ → Prop
  | .entering | .waiting | .looking => i ∉ who
  | .building n => snapshot? = none ∧ n + 1 = who.length ∧ who[n]? = some i
  | .publishing outcome =>
    snapshot? = none ∧ ∃ n, n + 1 = who.length ∧ who[n]? = some i ∧ build n = outcome
  | .leaving outcome | .returned outcome => IsDue build who snapshot? i outcome

/-- What every step keeps; `who` are the callers that have begun a build, in the order of the builds. -/
structure Inv (build : Nat → Except ε σ) (who : List Nat) (cache : Cache ε σ) : Prop where
  exclusive : cache.Exclusive
  counted : cache.shelf.builds = who.length
  once : who.Nodup
  stands : ∀ i caller, cache.callers[i]? = some caller →
    Stands build who cache.shelf.snapshot? i caller
  /-- A build that did not fail is the last one, and is under way or published. -/
  failed : ∀ n < who.length, (∃ failure, build n = .error failure) ∨
    n + 1 = who.length ∧ (cache.shelf.snapshot?.isSome ∨ ∃ i, cache.Works i)
  published : ∀ snapshot, cache.shelf.snapshot? = some snapshot →
    ∃ n, n + 1 = who.length ∧ build n = .ok snapshot

section Moved

variable {before after : Caller ε σ} {next : Shelf σ}

/-- The caller that moves is the only one that changes. -/
theorem getElem?_moved {all : List (Caller ε σ)} (here : all[i]? = some before) (j : Nat)
    (caller : Caller ε σ) :
    (all.set i after)[j]? = some caller ↔
      (j = i ∧ caller = after) ∨ (j ≠ i ∧ all[j]? = some caller) := by
  rw [List.getElem?_set]
  have bound : i < all.length := (List.getElem?_eq_some_iff.mp here).1
  by_cases same : i = j
  · subst same
    simp [bound, eq_comm]
  · simp [same, Ne.symm same]

/-- What holds of the caller at a place changes with the caller that moves only. -/
private theorem exists_moved (tells : Caller ε σ → Bool) {all : List (Caller ε σ)}
    (here : all[i]? = some before) (j : Nat) :
    (∃ caller, (all.set i after)[j]? = some caller ∧ tells caller) ↔
      (j = i ∧ tells after) ∨ (j ≠ i ∧ ∃ caller, all[j]? = some caller ∧ tells caller) := by
  simp only [getElem?_moved here]
  constructor
  · rintro ⟨caller, ⟨rfl, rfl⟩ | ⟨other, there⟩, told⟩
    · exact .inl ⟨rfl, told⟩
    · exact .inr ⟨other, caller, there, told⟩
  · rintro (⟨rfl, told⟩ | ⟨other, caller, there, told⟩)
    · exact ⟨after, .inl ⟨rfl, rfl⟩, told⟩
    · exact ⟨caller, .inr ⟨other, there⟩, told⟩

private theorem exists_unmoved (tells : Caller ε σ → Bool) {all : List (Caller ε σ)}
    (here : all[i]? = some before) (same : tells after = tells before) (j : Nat) :
    (∃ caller, (all.set i after)[j]? = some caller ∧ tells caller) ↔
      ∃ caller, all[j]? = some caller ∧ tells caller := by
  rw [exists_moved tells here, same]
  by_cases self : j = i
  · subst self
    simp [here]
  · simp [self]

theorem holds_moved (here : cache.callers[i]? = some before) (j : Nat) :
    Holds ⟨next, cache.callers.set i after⟩ j ↔ (j = i ∧ after.holdsLock) ∨ (j ≠ i ∧ cache.Holds j) :=
  exists_moved Caller.holdsLock here j

theorem works_moved (here : cache.callers[i]? = some before) (j : Nat) :
    Works ⟨next, cache.callers.set i after⟩ j ↔ (j = i ∧ after.isAtWork) ∨ (j ≠ i ∧ cache.Works j) :=
  exists_moved Caller.isAtWork here j

/-- A move leaves the lock alone, takes it while it is free, or gives it back. -/
theorem lock_of_moves {shelf : Shelf σ} (moves : before.Moves build shelf next after) :
    (next.isLocked = shelf.isLocked ∧ after.holdsLock = before.holdsLock) ∨
    (shelf.isLocked = false ∧ next.isLocked = true ∧ after.holdsLock = true) ∨
    (before.holdsLock = true ∧ next.isLocked = false ∧ after.holdsLock = false) := by
  cases moves with
  | finds | misses | findsLate | begins | ends | publishes | fails => exact .inl ⟨rfl, rfl⟩
  | locks free => exact .inr (.inl ⟨free, rfl, rfl⟩)
  | unlocks => exact .inr (.inr ⟨rfl, rfl, rfl⟩)

theorem Exclusive.moved (exclusive : cache.Exclusive) (here : cache.callers[i]? = some before)
    (moves : before.Moves build cache.shelf next after) :
    Exclusive ⟨next, cache.callers.set i after⟩ := by
  obtain ⟨lock, same⟩ | ⟨free, taken, holds⟩ | ⟨held, free, given⟩ := lock_of_moves moves
  · have unchanged (j : Nat) : Holds ⟨next, cache.callers.set i after⟩ j ↔ cache.Holds j :=
      exists_unmoved Caller.holdsLock here same j
    exact ⟨by simp only [unchanged, lock, exclusive.locked],
      fun j k => by simpa only [unchanged] using exclusive.alone j k⟩
  · have nobody (j : Nat) : ¬ cache.Holds j := fun other => by
      have locked := exclusive.locked.mpr ⟨j, other⟩
      rw [free] at locked
      cases locked
    have only (j : Nat) : Holds ⟨next, cache.callers.set i after⟩ j ↔ j = i := by
      simp [holds_moved here, nobody, holds]
    exact ⟨by simp [only, taken], fun j k first second => by
      rw [(only j).mp first, (only k).mp second]⟩
  · have nobody (j : Nat) : ¬ Holds ⟨next, cache.callers.set i after⟩ j := by
      rw [holds_moved here]
      rintro (⟨-, holds⟩ | ⟨other, holds⟩)
      · rw [given] at holds
        cases holds
      · exact other (exclusive.alone j i holds ⟨before, here, held⟩)
    exact ⟨by simp [nobody, free], fun j k first => absurd first (nobody j)⟩

/-- A caller that works is the one that holds the lock. -/
theorem Exclusive.eq_of_works (exclusive : cache.Exclusive) {j : Nat} (holds : cache.Holds i)
    (works : cache.Works j) : j = i := by
  obtain ⟨caller, there, atWork⟩ := works
  exact exclusive.alone j i ⟨caller, there, Caller.holdsLock_of_isAtWork atWork⟩ holds

/-- A caller that does not work keeps its place when a snapshot is published. -/
theorem Stands.published {j : Nat} {caller : Caller ε σ} (stands : Stands build who none j caller)
    (idle : caller.isAtWork = false) (snapshot : σ) : Stands build who (some snapshot) j caller := by
  cases caller with
  | entering | waiting | looking => exact stands
  | building | publishing => cases idle
  | leaving outcome | returned outcome =>
    cases outcome with
    | ok => cases stands.1
    | error => exact stands

/-- A caller that does not work keeps its place when another one begins a build. -/
theorem Stands.begun {j : Nat} {caller : Caller ε σ} (stands : Stands build who none j caller)
    (idle : caller.isAtWork = false) (other : j ≠ i) : Stands build (who ++ [i]) none j caller := by
  cases caller with
  | entering | waiting | looking =>
    intro among
    rcases List.mem_append.mp among with earlier | now
    · exact stands earlier
    · exact other (List.mem_singleton.mp now)
  | building | publishing => cases idle
  | leaving outcome | returned outcome =>
    cases outcome with
    | ok => cases stands.1
    | error =>
      obtain ⟨n, own, failed⟩ := stands
      exact ⟨n, List.getElem?_append_left (List.getElem?_eq_some_iff.mp own).1 ▸ own, failed⟩

/-- A move that publishes nothing, begins nothing and leaves a caller at work or not as it was. -/
theorem Inv.quiet (inv : Inv build who cache) (here : cache.callers[i]? = some before)
    (moves : before.Moves build cache.shelf next after)
    (snapshot : next.snapshot? = cache.shelf.snapshot?) (builds : next.builds = cache.shelf.builds)
    (work : after.isAtWork = before.isAtWork)
    (stands : Stands build who cache.shelf.snapshot? i after) :
    Inv build who ⟨next, cache.callers.set i after⟩ where
  exclusive := inv.exclusive.moved here moves
  counted := builds.trans inv.counted
  once := inv.once
  stands j caller there := by
    rw [snapshot]
    rcases (getElem?_moved here j caller).mp there with ⟨rfl, rfl⟩ | ⟨-, there⟩
    · exact stands
    · exact inv.stands j caller there
  failed n bound := by
    have unchanged (j : Nat) : Works ⟨next, cache.callers.set i after⟩ j ↔ cache.Works j :=
      exists_unmoved Caller.isAtWork here work j
    simpa only [snapshot, unchanged] using inv.failed n bound
  published found := by
    rw [snapshot]
    exact inv.published found

theorem Inv.begins (inv : Inv build who cache) (here : cache.callers[i]? = some .looking)
    (unpublished : cache.shelf.snapshot? = none) :
    Inv build (who ++ [i]) ⟨{ cache.shelf with builds := cache.shelf.builds + 1 },
      cache.callers.set i (.building cache.shelf.builds)⟩ := by
  have holds : cache.Holds i := ⟨_, here, rfl⟩
  have idle {j : Nat} (works : cache.Works j) : False := by
    obtain ⟨caller, there, atWork⟩ := works
    obtain rfl := inv.exclusive.eq_of_works holds ⟨caller, there, atWork⟩
    obtain rfl := Option.some.inj (here.symm.trans there)
    cases atWork
  have unbegun : i ∉ who := inv.stands i _ here
  exact {
    exclusive := inv.exclusive.moved here (.begins unpublished : Caller.Moves build _ _ _ _)
    counted := by simp [inv.counted]
    once := by
      rw [List.nodup_append]
      refine ⟨inv.once, by simp, fun a earlier b now same => ?_⟩
      rw [same, List.mem_singleton.mp now] at earlier
      exact unbegun earlier
    stands := fun j caller there => by
      rcases (getElem?_moved here j caller).mp there with ⟨rfl, rfl⟩ | ⟨other, there⟩
      · exact ⟨unpublished, by simp [inv.counted], by simp [inv.counted]⟩
      · have stands := inv.stands j caller there
        rw [unpublished] at stands
        have rests : caller.isAtWork = false := by
          by_contra atWork
          exact idle ⟨caller, there, by simpa using atWork⟩
        simpa only [unpublished] using stands.begun rests other
    failed := fun n bound => by
      by_cases last : n = who.length
      · refine .inr ⟨by simp [last], .inr ⟨i, ?_⟩⟩
        exact (works_moved here i).mpr (.inl ⟨rfl, rfl⟩)
      · have earlier : n < who.length := by
          rw [List.length_append, List.length_singleton] at bound
          omega
        rcases inv.failed n earlier with failed | ⟨-, loaded | ⟨j, works⟩⟩
        · exact .inl failed
        · rw [unpublished] at loaded
          cases loaded
        · exact (idle works).elim
    published := fun snapshot found => by
      change cache.shelf.snapshot? = some snapshot at found
      rw [unpublished] at found
      cases found }

theorem Inv.publishes (inv : Inv build who cache) {snapshot : σ}
    (here : cache.callers[i]? = some (.publishing (.ok snapshot))) :
    Inv build who ⟨{ cache.shelf with snapshot? := some snapshot },
      cache.callers.set i (.leaving (.ok snapshot))⟩ := by
  have holds : cache.Holds i := ⟨_, here, rfl⟩
  obtain ⟨unpublished, n, last, own, built⟩ := inv.stands i _ here
  exact {
    exclusive := inv.exclusive.moved here (.publishes snapshot : Caller.Moves build _ _ _ _)
    counted := inv.counted
    once := inv.once
    stands := fun j caller there => by
      rcases (getElem?_moved here j caller).mp there with ⟨rfl, rfl⟩ | ⟨other, there⟩
      · refine ⟨rfl, fun m mine => ?_⟩
        have bound := (List.getElem?_eq_some_iff.mp mine).1
        have same := (List.getElem?_inj bound inv.once).mp (mine.trans own.symm)
        rw [same, built]
      · have stands := inv.stands j caller there
        rw [unpublished] at stands
        refine stands.published ?_ snapshot
        by_contra atWork
        exact other (inv.exclusive.eq_of_works holds ⟨caller, there, by simpa using atWork⟩)
    failed := fun m bound => by
      rcases inv.failed m bound with failed | ⟨same, -⟩
      · exact .inl failed
      · exact .inr ⟨same, .inl rfl⟩
    published := fun found same => by
      obtain rfl : snapshot = found := Option.some.inj same
      exact ⟨n, last, built⟩ }

theorem Inv.fails (inv : Inv build who cache) {failure : ε}
    (here : cache.callers[i]? = some (.publishing (.error failure))) :
    Inv build who ⟨cache.shelf, cache.callers.set i (.leaving (.error failure))⟩ := by
  have holds : cache.Holds i := ⟨_, here, rfl⟩
  obtain ⟨unpublished, n, last, own, built⟩ := inv.stands i _ here
  exact {
    exclusive := inv.exclusive.moved here (.fails failure : Caller.Moves build _ _ _ _)
    counted := inv.counted
    once := inv.once
    stands := fun j caller there => by
      rcases (getElem?_moved here j caller).mp there with ⟨rfl, rfl⟩ | ⟨-, there⟩
      · exact ⟨n, own, built⟩
      · exact inv.stands j caller there
    failed := fun m bound => by
      rcases inv.failed m bound with failed | ⟨same, -⟩
      · exact .inl failed
      · obtain rfl : m = n := by omega
        exact .inl ⟨failure, built⟩
    published := inv.published }

/-- One step keeps the invariant, and the list of those that began a build grows by who begins one. -/
theorem Inv.step (inv : Inv build who cache) (i : Nat) :
    Inv build (who ++ if cache.begins i then [i] else []) (cache.step build i) := by
  have idle {next : Cache ε σ} (kept : Inv build who next) (idle : cache.begins i = false) :
      Inv build (who ++ if cache.begins i then [i] else []) next := by
    rwa [idle, if_neg Bool.false_ne_true, List.append_nil]
  obtain ⟨same, still⟩ | ⟨before, next, after, here, moves, stepped⟩ := step_cases build cache i
  · rw [same]
    exact idle inv still
  have stands := inv.stands i before here
  rw [stepped]
  cases moves with
  | finds published =>
    refine idle (inv.quiet here (.finds published) rfl rfl rfl ⟨published, fun n own => ?_⟩)
      (by simp [Cache.begins, here])
    exact absurd (List.mem_of_getElem? own) stands
  | misses unpublished =>
    exact idle (inv.quiet here (.misses unpublished) rfl rfl rfl stands) (by simp [Cache.begins, here])
  | locks free =>
    exact idle (inv.quiet here (.locks free) rfl rfl rfl stands) (by simp [Cache.begins, here])
  | findsLate published =>
    refine idle (inv.quiet here (.findsLate published) rfl rfl rfl ⟨published, fun n own => ?_⟩)
      (by simp [Cache.begins, published])
    exact absurd (List.mem_of_getElem? own) stands
  | begins unpublished =>
    have begun : cache.begins i = true := by simp [Cache.begins, here, unpublished]
    rw [begun, if_pos rfl]
    exact inv.begins here unpublished
  | ends n =>
    obtain ⟨unpublished, last, own⟩ := stands
    exact idle (inv.quiet here (.ends n) rfl rfl rfl ⟨unpublished, n, last, own, rfl⟩)
      (by simp [Cache.begins, here])
  | publishes snapshot => exact idle (inv.publishes here) (by simp [Cache.begins, here])
  | fails failure => exact idle (inv.fails here) (by simp [Cache.begins, here])
  | unlocks outcome =>
    exact idle (inv.quiet here (.unlocks outcome) rfl rfl rfl stands) (by simp [Cache.begins, here])

end Moved

theorem inv_fresh (callers : Nat) : Inv build [] (fresh callers) where
  exclusive := by
    have nobody (i : Nat) : ¬ (fresh callers : Cache ε σ).Holds i := by
      rintro ⟨caller, here, holds⟩
      rw [List.eq_of_mem_replicate (List.mem_of_getElem? here)] at holds
      cases holds
    refine ⟨⟨fun locked => ?_, fun ⟨i, holds⟩ => absurd holds (nobody i)⟩,
      fun i j first => absurd first (nobody i)⟩
    cases locked
  counted := rfl
  once := List.nodup_nil
  stands i caller here := by
    rw [List.eq_of_mem_replicate (List.mem_of_getElem? here)]
    exact List.not_mem_nil
  failed n bound := absurd bound (Nat.not_lt_zero n)
  published snapshot found := by cases found

/-- A whole run keeps the invariant. -/
theorem Inv.run (inv : Inv build who cache) (order : List Nat) :
    Inv build (who ++ cache.builders build order) (cache.run build order) := by
  induction order generalizing who cache with
  | nil =>
    rw [builders, List.append_nil]
    exact inv
  | cons i order ih =>
    have rest := ih (inv.step i)
    rwa [List.append_assoc] at rest

/-- Once a snapshot is published it stays. -/
theorem Inv.snapshot_step (inv : Inv build who cache) {snapshot : σ}
    (held : cache.shelf.snapshot? = some snapshot) (i : Nat) :
    (cache.step build i).shelf.snapshot? = some snapshot := by
  obtain ⟨same, -⟩ | ⟨before, next, after, here, moves, stepped⟩ := step_cases build cache i
  · rw [same, held]
  rw [stepped]
  cases moves with
  | finds | misses | locks | findsLate | begins | ends | fails | unlocks => exact held
  | publishes =>
    obtain ⟨unpublished, -⟩ := inv.stands i _ here
    rw [unpublished] at held
    cases held

theorem Inv.snapshot_run (inv : Inv build who cache) {snapshot : σ}
    (held : cache.shelf.snapshot? = some snapshot) (order : List Nat) :
    (cache.run build order).shelf.snapshot? = some snapshot := by
  induction order generalizing who cache with
  | nil => exact held
  | cons i order ih => exact ih (inv.step i) (inv.snapshot_step held i)

/-- A caller that leaves gives the lock back and changes nothing else of what is shared. -/
theorem step_leaving {outcome : Except ε σ} (here : cache.callers[i]? = some (.leaving outcome)) :
    (cache.step build i).callers[i]? = some (.returned outcome) ∧
      (cache.step build i).shelf = { cache.shelf with isLocked := false } := by
  have stepped : cache.step build i =
      ⟨{ cache.shelf with isLocked := false }, cache.callers.set i (.returned outcome)⟩ := by
    simp [step, here, Caller.step?]
  rw [stepped]
  exact ⟨(getElem?_moved here i _).mpr (.inl ⟨rfl, rfl⟩), rfl⟩

/-- While nothing is published and the lock is free, a caller that waits takes it and builds. -/
theorem run_waiting (free : cache.shelf.isLocked = false) (unpublished : cache.shelf.snapshot? = none)
    (here : cache.callers[i]? = some .waiting) :
    (cache.run build [i, i]).callers[i]? = some (.building cache.shelf.builds) := by
  have locked : cache.step build i =
      ⟨{ cache.shelf with isLocked := true }, cache.callers.set i .looking⟩ := by
    simp [step, here, Caller.step?, free]
  have looks : (cache.callers.set i .looking)[i]? = some .looking :=
    (getElem?_moved here i _).mpr (.inl ⟨rfl, rfl⟩)
  have begun : Cache.step build ⟨{ cache.shelf with isLocked := true }, cache.callers.set i .looking⟩ i =
      ⟨{ cache.shelf with isLocked := true, builds := cache.shelf.builds + 1 },
        (cache.callers.set i .looking).set i (.building cache.shelf.builds)⟩ := by
    simp [step, looks, Caller.step?, unpublished]
  change (Cache.step build (cache.step build i) i).callers[i]? = _
  rw [locked, begun]
  exact (getElem?_moved looks i _).mpr (.inl ⟨rfl, rfl⟩)

/-- Also a caller that has not begun builds then by its own steps. -/
theorem run_entering (free : cache.shelf.isLocked = false) (unpublished : cache.shelf.snapshot? = none)
    (here : cache.callers[i]? = some .entering) :
    (cache.run build [i, i, i]).callers[i]? = some (.building cache.shelf.builds) := by
  have missed : cache.step build i = ⟨cache.shelf, cache.callers.set i .waiting⟩ := by
    simp [step, here, Caller.step?, unpublished]
  have waits : (cache.callers.set i .waiting)[i]? = some .waiting :=
    (getElem?_moved here i _).mpr (.inl ⟨rfl, rfl⟩)
  have rest : ((cache.step build i).run build [i, i]).callers[i]? =
      some (.building (cache.step build i).shelf.builds) := by
    rw [missed]
    exact run_waiting free unpublished waits
  rw [missed] at rest
  change ((cache.step build i).run build [i, i]).callers[i]? = _
  rw [missed]
  exact rest

/-- What holds of a cache after a run from its beginning with nothing published, where `who` are the callers
that have begun a build, in the order of the builds. Runs of all lengths are meant, so that what is said of
one is said of every moment. -/
structure IsSingleFlight (build : Nat → Except ε σ) (who : List Nat) (cache : Cache ε σ) : Prop where
  /-- One caller builds at a time. -/
  alone : ∀ i j, cache.Works i → cache.Works j → i = j
  /-- A build is run by the caller that began it. -/
  builder : ∀ (i n : Nat), cache.callers[i]? = some (.building n) → who[n]? = some i
  /-- A caller begins one build at most. -/
  once : who.Nodup
  /-- All builds but the last fail: at most one succeeds, and none is begun after it. -/
  failed : ∀ n, n + 1 < who.length → ∃ failure, build n = .error failure
  /-- Nothing is published but what the last build gave. -/
  published : ∀ snapshot, cache.shelf.snapshot? = some snapshot →
    ∃ n, n + 1 = who.length ∧ build n = .ok snapshot
  /-- A snapshot that is published stays. -/
  stays : ∀ snapshot order, cache.shelf.snapshot? = some snapshot →
    (cache.run build order).shelf.snapshot? = some snapshot
  /-- Who returns is given the one snapshot. -/
  shared : ∀ (i : Nat) (snapshot : σ), cache.callers[i]? = some (.returned (.ok snapshot)) →
    cache.shelf.snapshot? = some snapshot
  /-- A failure is reported to the caller that ran the build. -/
  reported : ∀ (i : Nat) (failure : ε), cache.callers[i]? = some (.returned (.error failure)) →
    ∃ n : Nat, who[n]? = some i ∧ build n = .error failure
  /-- Whoever ran a build is given its outcome. -/
  own : ∀ (i n : Nat) (outcome : Except ε σ), who[n]? = some i →
    cache.callers[i]? = some (.returned outcome) → outcome = build n
  /-- The lock is taken just while a caller holds it. -/
  locked : cache.shelf.isLocked ↔ ∃ i, cache.Holds i
  /-- Whatever it is given, a caller leaves the lock free, and what is published as it was. -/
  released : ∀ (i : Nat) (outcome : Except ε σ), cache.callers[i]? = some (.leaving outcome) →
    (cache.step build i).callers[i]? = some (.returned outcome) ∧
      (cache.step build i).shelf = { cache.shelf with isLocked := false }
  /-- While the lock is free and nothing is published, whoever comes or waits builds by its own steps. -/
  retried : cache.shelf.isLocked = false → cache.shelf.snapshot? = none →
    ∀ i : Nat, cache.callers[i]? = some .entering ∨ cache.callers[i]? = some .waiting →
    ∃ steps, (∀ j ∈ steps, j = i) ∧
      (cache.run build steps).callers[i]? = some (.building who.length)

theorem Inv.isSingleFlight (inv : Inv build who cache) : IsSingleFlight build who cache where
  alone i j first second := by
    obtain ⟨caller, here, atWork⟩ := first
    exact (inv.exclusive.eq_of_works ⟨caller, here, Caller.holdsLock_of_isAtWork atWork⟩ second).symm
  builder i n here := (inv.stands i _ here).2.2
  once := inv.once
  failed n bound := by
    rcases inv.failed n (Nat.lt_of_succ_lt bound) with failed | ⟨last, -⟩
    · exact failed
    · omega
  published := inv.published
  stays snapshot order held := inv.snapshot_run held order
  shared i snapshot here := (inv.stands i _ here).1
  reported i failure here := inv.stands i _ here
  own i n outcome mine here := by
    have due := inv.stands i _ here
    cases outcome with
    | ok snapshot => exact (due.2 n mine).symm
    | error failure =>
      obtain ⟨m, same, failed⟩ := due
      have bound := (List.getElem?_eq_some_iff.mp same).1
      rw [← (List.getElem?_inj bound inv.once).mp (same.trans mine.symm), failed]
  locked := inv.exclusive.locked
  released i outcome here := step_leaving here
  retried free unpublished i here := by
    rw [← inv.counted]
    rcases here with enters | waits
    · exact ⟨[i, i, i], by simp, run_entering free unpublished enters⟩
    · exact ⟨[i, i], by simp, run_waiting free unpublished waits⟩

end Cache

/-- A build that reads the schema: a fault of the reading is reported as a failure. -/
def reading (read : Nat → Except Execution.Fault σ) (n : Nat) : Except Failure σ :=
  (read n).mapError .introspection

/-- How the fault of a reading is reported: a fault of the database or of the access to it as a failure to read
the schema, any other one as it is. -/
def IsReportOf (fault : Execution.Fault) (failure : Failure) : Prop :=
  match fault with
  | .driver _ _ _ | .access _ => failure.kind? = some "IntrospectionError" ∧
      failure.message = "Failed to introspect database schema: " ++ fault.report
  | .invalid text => failure.kind? = some "ValidationError" ∧ failure.message = text
  | .other text => failure.kind? = none ∧ failure.message = text

/-- The attempts of a report builder are readings of the schema. -/
theorem exists_attempt_eq_reading (builder : Builder) : ∃ read, builder.attempt = reading read := by
  refine ⟨fun n => builder.source.faults[n]?.join.elim
    (.ok (introspect builder.source.catalog builder.options)) .error, funext fun n => ?_⟩
  cases tried : builder.source.faults[n]?.join with
  | none => simp [Builder.attempt, reading, tried, Except.mapError]
  | some fault => simp [Builder.attempt, reading, tried, Except.mapError]

/-- However many callers ask for the snapshot, in whatever order they take their steps and however the
readings of the schema end: one caller builds at a time, the snapshot is built once in the end and shared,
and a reading that fails is reported to the caller that tried it. -/
theorem run_isSingleFlight (read : Nat → Except Execution.Fault σ) (callers : Nat) (order : List Nat) :
    ((Cache.fresh callers).run (reading read) order).IsSingleFlight (reading read)
        ((Cache.fresh callers).builders (reading read) order) ∧
      (∀ i failure, ((Cache.fresh callers).run (reading read) order).callers[i]? =
          some (.returned (.error failure)) →
        ∃ n fault, ((Cache.fresh callers).builders (reading read) order)[n]? = some i ∧
          read n = .error fault ∧ IsReportOf fault failure) ∧
      ∀ builder : Builder, ∃ read, builder.attempt = reading read := by
  have inv := (Cache.inv_fresh callers : Cache.Inv (reading read) [] _).run order
  rw [List.nil_append] at inv
  refine ⟨inv.isSingleFlight, fun i failure here => ?_, exists_attempt_eq_reading⟩
  obtain ⟨n, mine, failed⟩ := inv.isSingleFlight.reported i failure here
  cases tried : read n with
  | ok snapshot => simp [reading, tried, Except.mapError] at failed
  | error fault =>
    obtain rfl : .introspection fault = failure := by
      simpa [reading, tried, Except.mapError] using failed
    refine ⟨n, fault, mine, tried, ?_⟩
    cases fault with
    | driver | access | invalid | other => exact ⟨rfl, rfl⟩

end ReportQuery.Schema
