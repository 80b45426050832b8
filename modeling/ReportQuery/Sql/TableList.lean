import ReportQuery.Sql.Code
import ReportQuery.Sql.Keyword

set_option autoImplicit false
set_option relaxedAutoImplicit false

/-!
The table lists of a statement: what stands between a FROM and the clause after it, at the level
of parentheses of that FROM.

Each list is found in the masked text, so that a quoted identifier holds no keyword or parenthesis,
and is read from the text itself. The two texts have the same length and are walked together.
-/

namespace ReportQuery.Sql

open Text

/-- The keywords that end a table list. -/
def listEndKeywords : List String :=
  ["WHERE", "GROUP", "ORDER", "HAVING", "LIMIT", "OFFSET", "UNION", "EXCEPT", "INTERSECT",
    "WINDOW", "FETCH", "FOR"]

/-- Whether the text passed, nearest character first, ends in the keyword and blanks. -/
def endsWithWord (keyword : String) (passed : List Char) : Bool :=
  match go keyword.toList.reverse (passed.dropWhile isBlank) with
  | some rest => !isWordChar? rest.head?
  | none => false
where
  go : List Char → List Char → Option (List Char)
    | [], cs => some cs
    | _ :: _, [] => none
    | letter :: letters, c :: cs => if meetsLetter letter c then go letters cs else none

/-- Whether a SELECT stands before the place at the same level of parentheses. `passed` holds the
text before the place, nearest character first, and `ahead` the text from the place on. -/
def followsSelect (depth : Nat) (passed ahead : List Char) : Bool :=
  match passed with
  | [] => false
  | c :: cs =>
    if c = ')' then followsSelect (depth + 1) cs (c :: ahead)
    else if c = '(' then
      match depth with
      | 0 => false
      | d + 1 => followsSelect d cs (c :: ahead)
    else if depth = 0 ∧ isWordAt ["SELECT"] cs.head? (c :: ahead) then true
    else followsSelect depth cs (c :: ahead)

/-- Whether the FROM at the place introduces tables: not so in IS DISTINCT FROM, nor in a function
such as EXTRACT or SUBSTRING that uses the word inside its parentheses. -/
def startsTableList (passed ahead : List Char) : Bool :=
  !endsWithWord "DISTINCT" passed && followsSelect 0 passed ahead

/-- Pairs of a character of the text and its masked form, up to the parenthesis that closes the
surrounding level; deeper levels and parentheses are blanked in both. -/
def sameLevel (depth : Nat) : List Char → List Char → List (Char × Char)
  | t :: text, m :: masked =>
    if m = ')' then
      match depth with
      | 0 => []
      | d + 1 => (' ', ' ') :: sameLevel d text masked
    else if m = '(' then (' ', ' ') :: sameLevel (depth + 1) text masked
    else (if depth = 0 then (t, m) else (' ', ' ')) :: sameLevel depth text masked
  | _, _ => []

/-- The text up to the first keyword that ends a table list, the keyword being looked for in the
masked text. -/
def beforeListEnd (before : Option Char) : List Char → List Char → List Char
  | t :: text, m :: masked =>
    if isWordAt listEndKeywords before (m :: masked) then []
    else t :: beforeListEnd (some m) text masked
  | _, _ => []

/-- The table list that follows a FROM. -/
def tableListAfter (text masked : List Char) : List Char :=
  let (visible, scanned) := (sameLevel 0 text masked).unzip
  beforeListEnd none visible scanned

/-- The table lists from a place on; `passed` holds the masked text before it, nearest first. -/
def tableListsFrom (passed : List Char) : List Char → List Char → List (List Char)
  | _ :: text, m :: masked =>
    let rest := tableListsFrom (m :: passed) text masked
    if isWordAt ["FROM"] passed.head? (m :: masked) && startsTableList passed (m :: masked) then
      tableListAfter (text.drop 3) (masked.drop 3) :: rest
    else rest
  | _, _ => []

/-- The table list of every FROM clause of a statement's code. -/
def tableLists (code : List Char) : List (List Char) :=
  tableListsFrom [] code (maskQuoted code)

end ReportQuery.Sql
