set_option autoImplicit false
set_option relaxedAutoImplicit false

/-!
What can be wrong with the shape of a value, where, and how it is reported. A check of a value with
parts finds the problems of all of them.
-/

namespace ReportQuery.Shape

/-- A step from a value to one of its parts. -/
inductive Step where
  | key (name : String)
  | index (n : Nat)
deriving Repr, DecidableEq

/-- What is wrong with a value. -/
inductive Fault where
  | missing
  | notText
  | tooShort
  | notList
  | notRecord (kind : String)
  | notDictionary
  | notFlag
  | unreadableFlag
  | notInteger
  | unreadableInteger
  | longInteger
  | fractional
  | infinite
  | notPositive
  | notJoinKind
  /-- A rule that ties several parts together is broken. -/
  | inconsistent (message : String)
deriving Repr, DecidableEq

/-- Where values come from: they are given directly or read from a text. -/
inductive Origin where
  | given
  | text
deriving Repr, DecidableEq

/-- The sentence that reports a fault. -/
def Fault.message (origin : Origin) : Fault → String
  | missing => "Field required"
  | notText => "Input should be a valid string"
  | tooShort => "String should have at least 1 character"
  | notList =>
    match origin with
    | .given => "Input should be a valid list"
    | .text => "Input should be a valid array"
  | notRecord kind =>
    match origin with
    | .given => "Input should be a valid dictionary or instance of " ++ kind
    | .text => "Input should be an object"
  | notDictionary =>
    match origin with
    | .given => "Input should be a valid dictionary"
    | .text => "Input should be an object"
  | notFlag => "Input should be a valid boolean"
  | unreadableFlag => "Input should be a valid boolean, unable to interpret input"
  | notInteger => "Input should be a valid integer"
  | unreadableInteger => "Input should be a valid integer, unable to parse string as an integer"
  | longInteger => "Unable to parse input string as an integer, exceeded maximum size"
  | fractional => "Input should be a valid integer, got a number with a fractional part"
  | infinite => "Input should be a finite number"
  | notPositive => "Input should be greater than 0"
  | notJoinKind => "Input should be 'Inner' or 'Left'"
  | inconsistent message => "Value error, " ++ message

/-- A fault and the way to it from the value that was checked. -/
structure Problem where
  path : List Step
  fault : Fault
deriving Repr, DecidableEq

/-- The outcome of a check: a value, or the problems in order. -/
inductive Checked (α : Type) where
  | valid (a : α)
  | invalid (problems : List Problem)
deriving Repr

namespace Checked

variable {α β : Type}

/-- Applies a function to a value, keeping the problems of both. -/
def apply : Checked (α → β) → (Unit → Checked α) → Checked β
  | valid f, x =>
    match x () with
    | valid a => valid (f a)
    | invalid problems => invalid problems
  | invalid problems, x =>
    match x () with
    | valid _ => invalid problems
    | invalid more => invalid (problems ++ more)

instance : Applicative Checked where
  pure := valid
  seq := apply

/-- A value with a single fault. -/
def fail (fault : Fault) : Checked α :=
  invalid [⟨[], fault⟩]

/-- The check of a part, seen from the whole. -/
def under (step : Step) : Checked α → Checked α
  | valid a => valid a
  | invalid problems =>
    invalid (problems.map fun problem => ⟨step :: problem.path, problem.fault⟩)

/-- A further check of a value that passed the first. -/
def andThen (x : Checked α) (check : α → Checked β) : Checked β :=
  match x with
  | valid a => check a
  | invalid problems => invalid problems

/-- The value, if there is no problem. -/
def toOption : Checked α → Option α
  | valid a => some a
  | invalid _ => none

end Checked

end ReportQuery.Shape
