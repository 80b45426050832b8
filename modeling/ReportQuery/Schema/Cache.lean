set_option autoImplicit false
set_option relaxedAutoImplicit false

/-!
A snapshot that is built once and shared by many callers. A caller looks for the snapshot, takes
the lock, looks again, builds and publishes the snapshot, and gives the lock back. The steps of
different callers may interleave in any way. A build that fails publishes nothing.
-/

namespace ReportQuery.Schema

variable {ε σ : Type}

/-- Where a caller stands on its way to a snapshot of type `σ`; `ε` are the failures of builds. -/
inductive Caller (ε σ : Type) where
  /-- About to look for the snapshot without the lock. -/
  | entering
  /-- About to take the lock. -/
  | waiting
  /-- Holds the lock and is about to look again. -/
  | looking
  /-- Holds the lock and runs the build of the given number. -/
  | building (n : Nat)
  /-- Holds the lock and is about to publish what was built. -/
  | publishing (outcome : Except ε σ)
  /-- Holds the lock and is about to give it back. -/
  | leaving (outcome : Except ε σ)
  | returned (outcome : Except ε σ)
deriving Repr

/-- Whether the caller holds the lock. -/
def Caller.holdsLock : Caller ε σ → Bool
  | entering | waiting | returned _ => false
  | looking | building _ | publishing _ | leaving _ => true

/-- What a caller that has returned was given. -/
def Caller.outcome? : Caller ε σ → Option (Except ε σ)
  | returned outcome => some outcome
  | _ => none

/-- What the callers share. -/
structure Shelf (σ : Type) where
  snapshot? : Option σ := none
  isLocked : Bool := false
  /-- How many builds have begun. -/
  builds : Nat := 0
deriving Repr, DecidableEq

/-- One step of a caller; `build` tells how each build ends. There is none for a caller that has
returned or finds the lock taken. -/
def Caller.step? (build : Nat → Except ε σ) (shelf : Shelf σ) :
    Caller ε σ → Option (Shelf σ × Caller ε σ)
  | entering =>
    match shelf.snapshot? with
    | some snapshot => some (shelf, returned (.ok snapshot))
    | none => some (shelf, waiting)
  | waiting => if shelf.isLocked then none else some ({ shelf with isLocked := true }, looking)
  | looking =>
    match shelf.snapshot? with
    | some snapshot => some (shelf, leaving (.ok snapshot))
    | none => some ({ shelf with builds := shelf.builds + 1 }, building shelf.builds)
  | building n => some (shelf, publishing (build n))
  | publishing (.ok snapshot) =>
    some ({ shelf with snapshot? := some snapshot }, leaving (.ok snapshot))
  | publishing (.error failure) => some (shelf, leaving (.error failure))
  | leaving outcome => some ({ shelf with isLocked := false }, returned outcome)
  | returned _ => none

/-- A cache with its callers. -/
structure Cache (ε σ : Type) where
  shelf : Shelf σ
  callers : List (Caller ε σ)
deriving Repr

namespace Cache

/-- Lets the caller of the given number take a step, if there is one for it. -/
def step (build : Nat → Except ε σ) (cache : Cache ε σ) (i : Nat) : Cache ε σ :=
  match cache.callers[i]?.bind (Caller.step? build cache.shelf) with
  | some (shelf, caller) => ⟨shelf, cache.callers.set i caller⟩
  | none => cache

/-- Lets callers take steps in the given order. -/
def run (build : Nat → Except ε σ) (cache : Cache ε σ) (order : List Nat) : Cache ε σ :=
  order.foldl (step build) cache

/-- What the callers that have returned were given. -/
def outcomes (cache : Cache ε σ) : List (Except ε σ) :=
  cache.callers.filterMap Caller.outcome?

/-- An order in which callers take steps by turns until all have returned: one after the other has
the lock for five steps. -/
def turns (callers : Nat) : List Nat :=
  (List.replicate (5 * callers + 1) (List.range callers)).flatten

end Cache

end ReportQuery.Schema
