set_option autoImplicit false
set_option relaxedAutoImplicit false

/-!
Quoted segments, in which the quote itself is written twice.

A segment ends at the first quote that stands alone. In a text that ends before one, the first
quote of the last doubled pair closes the segment.
-/

namespace ReportQuery.Text.Quoted

/-- How many characters after an opening quote belong to its segment, the closing quote counted. -/
def closing? (quote : Char) : List Char → Option Nat
  | [] => none
  | c :: cs =>
    if c = quote then
      match cs with
      | [] => some 1
      | d :: ds =>
        if d = quote then
          match closing? quote ds with
          | some n => some (n + 2)
          | none => some 1
        else some 1
    else (closing? quote cs).map (· + 1)

/-- The same for a segment that must hold at least one character. -/
def closingNonempty? (quote : Char) : List Char → Option Nat
  | [] => none
  | c :: cs =>
    if c = quote then
      match cs with
      | [] => none
      | d :: ds => if d = quote then (closing? quote ds).map (· + 2) else none
    else (closing? quote cs).map (· + 1)

/-- The length of the quoted segment that opens at the front of the text, quotes counted. -/
def segment? (quote : Char) : List Char → Option Nat
  | [] => none
  | c :: cs => if c = quote then (closing? quote cs).map (· + 1) else none

/-- The length of the nonempty quoted segment that opens at the front of the text. -/
def segmentNonempty? (quote : Char) : List Char → Option Nat
  | [] => none
  | c :: cs => if c = quote then (closingNonempty? quote cs).map (· + 1) else none

/-- Writes every quote twice. -/
def double (quote : Char) : List Char → List Char
  | [] => []
  | c :: cs => if c = quote then quote :: quote :: double quote cs else c :: double quote cs

/-- Reads every doubled quote as one. -/
def undouble (quote : Char) : List Char → List Char
  | [] => []
  | c :: cs =>
    match cs with
    | [] => [c]
    | d :: ds =>
      if c = quote ∧ d = quote then quote :: undouble quote ds else c :: undouble quote (d :: ds)

/-- The text as one quoted segment. -/
def enclose (quote : Char) (cs : List Char) : List Char :=
  quote :: double quote cs ++ [quote]

/-- What a quoted segment says: its inside with doubled quotes read once. -/
def inside (quote : Char) (segment : List Char) : List Char :=
  undouble quote (segment.drop 1).dropLast

end ReportQuery.Text.Quoted
