set_option autoImplicit false
set_option relaxedAutoImplicit false

/-!
Cutting a text from left to right into matches and the characters between them.

A matcher looks at the character before a place and the text from there on, and answers with the
length of the match that starts there and what was read. Matches are taken at the first place that
has one and never overlap. Main statement: the pieces put together are the text.
-/

namespace ReportQuery.Text

/-- Reads a match at a place: its length and its value. -/
abbrev Matcher (α : Type) := Option Char → List Char → Option (Nat × α)

/-- A part of a text that was cut by a matcher. -/
inductive Piece (α : Type) where
  | plain (c : Char)
  | found (source : List Char) (value : α)
deriving Repr

namespace Piece

variable {α : Type}

/-- The characters that the piece covers. -/
def source : Piece α → List Char
  | plain c => [c]
  | found cs _ => cs

/-- What was read, for a match. -/
def value? : Piece α → Option α
  | plain _ => none
  | found _ a => some a

/-- The piece's text, a match replaced by what `f` makes of it. -/
def replaced (f : List Char → α → List Char) : Piece α → List Char
  | plain c => [c]
  | found cs a => f cs a

end Piece

variable {α : Type}

/-- The pieces of a text after the character `before`. A match of length zero is passed over. -/
def pieces (matcher : Matcher α) (before : Option Char) : List Char → List (Piece α)
  | [] => []
  | c :: cs =>
    match matcher before (c :: cs) with
    | some (n + 1, a) =>
      .found ((c :: cs).take (n + 1)) a ::
        pieces matcher ((c :: cs).take (n + 1)).getLast? (cs.drop n)
    | _ => .plain c :: pieces matcher (some c) cs
termination_by cs => cs.length
decreasing_by all_goals simp only [List.length_cons, List.length_drop]; omega

/-- The text with every match replaced. -/
def replaceAll (matcher : Matcher α) (f : List Char → α → List Char) (cs : List Char) :
    List Char :=
  (pieces matcher none cs).flatMap (·.replaced f)

/-- What the matches read, in order. -/
def findAll (matcher : Matcher α) (cs : List Char) : List α :=
  (pieces matcher none cs).filterMap (·.value?)

/-- The first match's value. -/
def findFirst? (matcher : Matcher α) (cs : List Char) : Option α :=
  (findAll matcher cs).head?

/-- Nothing of the text is lost by cutting it. -/
theorem flatMap_source_pieces (matcher : Matcher α) (before : Option Char) (cs : List Char) :
    (pieces matcher before cs).flatMap Piece.source = cs := by
  fun_induction pieces matcher before cs with
  | case1 => rfl
  | case2 before c cs n a hit ih =>
    rw [List.flatMap_cons, ih]
    simp only [Piece.source, List.take_succ_cons, List.cons_append, List.take_append_drop]
  | case3 before c cs miss ih =>
    rw [List.flatMap_cons, ih]
    rfl

end ReportQuery.Text
