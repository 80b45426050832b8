import ReportQuery.Options
import ReportQuery.Sql.Code
import ReportQuery.Sql.Keyword

set_option autoImplicit false
set_option relaxedAutoImplicit false

/-!
The row ceiling of a statement: LIMIT is added where the outermost query has none, and a preview of
a query that has one is wrapped.
-/

namespace ReportQuery.Sql

open Text

/-- Reads a pair of parentheses with no parenthesis between them. -/
def innermostGroup : Matcher Unit
  | _, '(' :: cs =>
    let inside := cs.takeWhile fun c => c != '(' && c != ')'
    if (cs.drop inside.length).head? == some ')' then some (inside.length + 2, ()) else none
  | _, _ => none

/-- The code with every innermost pair of parentheses replaced by a blank. -/
def collapseInnermost (code : List Char) : List Char :=
  replaceAll innermostGroup (fun _ _ => [' ']) code

/-- The code outside all pairs of parentheses: innermost pairs become blanks until none is left. -/
def collapseGroups (code : List Char) : List Char :=
  if (collapseInnermost code).length < code.length then collapseGroups (collapseInnermost code)
  else code
termination_by code.length

/-- Whether the outermost query has a LIMIT clause. Literals, quoted identifiers and what stands in
parentheses do not count. -/
def hasLimit (statement : List Char) : Bool :=
  containsWord ["LIMIT"] (collapseGroups (maskQuoted (stripLiterals statement)))

/-- The statement without blanks around it and semicolons at its end. -/
def bareStatement (sql : List Char) : List Char :=
  trimBackChars (((trimChars sql).reverse.dropWhile (· == ';')).reverse)

/-- The statement with a LIMIT clause at its end. -/
def appendLimit (statement : List Char) (ceiling : RowCount) : List Char :=
  statement ++ " LIMIT ".toList ++ (toString ceiling.val).toList

/-- The query of all rows of a statement. -/
def previewOf (statement : List Char) : List Char :=
  "SELECT * FROM (".toList ++ statement ++ ") AS preview_subquery".toList

/-- The statement with the row ceiling applied. -/
def applyRowLimit (options : Options) (extent : Extent) (sql : List Char) : List Char :=
  let statement := bareStatement sql
  if hasLimit statement then
    match extent with
    | .preview => appendLimit (previewOf statement) (options.ceiling extent)
    | .full => statement
  else appendLimit statement (options.ceiling extent)

end ReportQuery.Sql
