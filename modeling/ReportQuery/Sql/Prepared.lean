import ReportQuery.Sql.Code
import ReportQuery.Text.Order
import ReportQuery.Text.Identifier

set_option autoImplicit false
set_option relaxedAutoImplicit false

/-!
Prepared statements. A statement is written with placeholders `@name`; prepared, it has binds
`:name` in their place, and colons that could be taken for a bind are escaped with a backslash.
Quoted segments keep their text but for such escapes.
-/

namespace ReportQuery.Sql

open Text

/-- A part of a statement: code, or a string literal or quoted identifier. -/
inductive Segment where
  | code (cs : List Char)
  | quoted (cs : List Char)
deriving Repr, DecidableEq

/-- Reads a string literal or a quoted identifier. -/
def quotedPart : Matcher Unit := fun before cs =>
  (quotedSegment '\'' before cs).orElse fun _ => quotedSegment '"' before cs

/-- The segments of a text that was cut at its quoted parts; `code` holds the code read so far,
last character first. -/
def segmentsOf (code : List Char) : List (Piece Unit) → List Segment
  | [] => [.code code.reverse]
  | .plain c :: rest => segmentsOf (c :: code) rest
  | .found source _ :: rest => .code code.reverse :: .quoted source :: segmentsOf [] rest

/-- The segments of a statement, code and quoted parts by turns. -/
def segments (sql : List Char) : List Segment :=
  segmentsOf [] (pieces quotedPart none sql)

/-- A character of the name of a bind. -/
def isBindChar (c : Char) : Bool :=
  isWordChar c || c == '$'

/-- Whether a neighbour, which the ends of a text lack, keeps a colon beside it from marking a
bind. -/
def joinsBind : Option Char → Bool
  | none => false
  | some c => isBindChar c || c == ':'

/-- Reads a bind: a colon and the name after it. -/
def colonBind : Matcher (List Char)
  | before, ':' :: cs =>
    let name := cs.takeWhile isBindChar
    if joinsBind before || before == some '\\' || name.isEmpty ||
        joinsBind (cs.drop name.length).head? then none
    else some (name.length + 1, name)
  | _, _ => none

/-- Escapes the colons of what could be taken for binds. -/
def escapeBinds (cs : List Char) : List Char :=
  replaceAll colonBind (fun source _ => '\\' :: source) cs

/-- Whether a neighbour keeps the at sign after it from marking a placeholder. -/
def joinsPlaceholder : Option Char → Bool
  | none => false
  | some c => isBindChar c || c == '@' || c == ':'

/-- Reads a placeholder: an at sign and the plain name after it. -/
def placeholder : Matcher (List Char)
  | before, '@' :: c :: cs =>
    if joinsPlaceholder before || !isNameStart c then none
    else
      let name := c :: cs.takeWhile isNameChar
      some (name.length + 1, name)
  | _, _ => none

/-- The text of a segment in the prepared statement. -/
def Segment.prepared : Segment → List Char
  | code cs => replaceAll placeholder (fun _ name => ':' :: name) (escapeBinds cs)
  | quoted cs => escapeBinds cs

/-- The placeholders of a segment. -/
def Segment.placeholders : Segment → List (List Char)
  | code cs => findAll placeholder (escapeBinds cs)
  | quoted _ => []

/-- A statement with binds for its placeholders. -/
structure Prepared where
  text : List Char
  /-- The names of the placeholders without repeats, in order of appearance. -/
  names : List String
deriving Repr, DecidableEq

/-- Prepares a statement. -/
def prepare (sql : List Char) : Prepared where
  text := (segments sql).flatMap Segment.prepared
  names := distinct (((segments sql).flatMap Segment.placeholders).map String.ofList)

end ReportQuery.Sql
