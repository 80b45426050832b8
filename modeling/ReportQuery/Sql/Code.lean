import ReportQuery.Text.Quoted
import ReportQuery.Text.Scan

set_option autoImplicit false
set_option relaxedAutoImplicit false

/-!
The code of a statement: its text without comments and with empty string literals, and the same
with the insides of quoted identifiers blanked.
-/

namespace ReportQuery.Sql

open Text

/-- How many characters run up to the end of a block comment, its end mark counted. -/
def blockCommentEnd? : List Char → Option Nat
  | [] => none
  | c :: cs =>
    match c, cs with
    | '*', '/' :: _ => some 2
    | _, _ => (blockCommentEnd? cs).map (· + 1)

/-- Reads a closed block comment. -/
def blockComment : Matcher Unit
  | _, '/' :: '*' :: cs => (blockCommentEnd? cs).map fun n => (n + 2, ())
  | _, _ => none

/-- Reads a comment up to the end of its line. -/
def lineComment : Matcher Unit
  | _, '-' :: '-' :: cs => some ((cs.takeWhile (· != '\n')).length + 2, ())
  | _, _ => none

/-- Reads a closed segment between the given quotes. -/
def quotedSegment (quote : Char) : Matcher Unit := fun _ cs =>
  (Quoted.segment? quote cs).map fun n => (n, ())

/-- Blanks out comments and empties string literals, so that scans see code only. Block comments
go first, then line comments, then literals; what is not closed stays. -/
def stripLiterals (cs : List Char) : List Char :=
  replaceAll (quotedSegment '\'') (fun _ _ => ['\'', '\''])
    (replaceAll lineComment (fun _ _ => [' '])
      (replaceAll blockComment (fun _ _ => [' ']) cs))

/-- Blanks the insides of quoted identifiers and keeps every character's place. -/
def maskQuoted (cs : List Char) : List Char :=
  replaceAll (quotedSegment '"')
    (fun segment _ => '"' :: List.replicate (segment.length - 2) ' ' ++ ['"']) cs

end ReportQuery.Sql
