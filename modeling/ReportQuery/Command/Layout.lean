import ReportQuery.Text.Lines

set_option autoImplicit false
set_option relaxedAutoImplicit false

/-!
Framed panels and tables on a screen of fixed width.
-/

namespace ReportQuery.Command

open Text (textWidth padRight centre fit splitLines withLineFeeds blockWidth
  expandTabs trimBackChars)

/-- The width of the screen. -/
def screenWidth : Nat := 80

/-- The controls that would ring a bell or move back, down or to the front of the line. They are
not shown. -/
def isMotion (c : Char) : Bool :=
  c = '\x07' || c = '\x08' || c = '\x0b' || c = '\x0c' || c = '\r'

/-- A text as it is shown. -/
def shown (s : String) : List Char :=
  s.toList.filter fun c => !isMotion c

/-- The lines of a text that stands on the screen by itself. -/
def paragraph (s : String) : List (List Char) :=
  Text.wrap .fold screenWidth (shown s)

/-- The lines of a panel with a title in its upper edge. -/
def panel (title text : String) : List (List Char) :=
  let heading := (" " ++ title ++ " ").toList
  let edge := screenWidth - 2 - textWidth heading
  let rule (n : Nat) : List Char := List.replicate n '─'
  [['╭'] ++ rule (edge / 2) ++ heading ++ rule (edge - edge / 2) ++ ['╮']] ++
    (Text.wrap .fold (screenWidth - 4) (shown text)).map (fun line =>
      ['│', ' '] ++ fit (screenWidth - 4) line ++ [' ', '│']) ++
    [['╰'] ++ rule (screenWidth - 2) ++ ['╯']]

/-- The lines of a statement. The last line needs no end; where it has one, an empty line follows,
unless that end is a carriage return. -/
def statementLines (sql : List Char) : List (List Char) :=
  if sql.getLast? = some '\n' then splitLines (withLineFeeds sql)
  else (splitLines (withLineFeeds (sql ++ ['\n']))).dropLast

/-- The text without a byte order mark at its front. -/
def dropByteOrderMark : List Char → List Char
  | '\ufeff' :: cs => cs
  | cs => cs

/-- The lines of a statement on the screen, which they fill up to its edge. Tabs go on to the next
multiple of four characters. -/
def listing (sql : String) : List (List Char) :=
  match (statementLines sql.toList).map (expandTabs List.length 4) with
  | [] => []
  | line :: rest =>
    (dropByteOrderMark line :: rest).flatMap fun line =>
      (Text.wrap .fold screenWidth (line.filter fun c => !isMotion c)).map (padRight screenWidth)

/-- A table with a header row. -/
structure Grid where
  title? : Option String
  headers : List String
  rows : List (List String)
deriving Repr, DecidableEq

/-- Where the lines of a cell stand that has fewer of them than its row. -/
inductive Alignment where
  | top
  | bottom
deriving Repr, DecidableEq

namespace Grid

/-- The widths of the columns: those of their widest cells. -/
def widths (grid : Grid) : List Nat :=
  let cellWidth (cell : String) := blockWidth (shown cell)
  grid.rows.foldl (fun widths row => List.zipWith max widths (row.map cellWidth))
    (grid.headers.map cellWidth)

/-- The lines of a cell in a column of the given width. -/
def cellLines (width : Nat) (cell : String) : List (List Char) :=
  (Text.wrap .ellipsis width (shown cell)).map fun line => fit width (padRight width line)

/-- The lines of a cell with empty ones before or after them, up to the given number. -/
def alignLines (alignment : Alignment) (height width : Nat) (lines : List (List Char)) :
    List (List Char) :=
  let empty := List.replicate (height - lines.length) (List.replicate width ' ')
  match alignment with
  | .top => lines ++ empty
  | .bottom => empty ++ lines

/-- A line of strokes across all columns. -/
def rule (widths : List Nat) (left stroke cross right : Char) : List Char :=
  [left] ++ [cross].intercalate (widths.map fun width => List.replicate (width + 2) stroke) ++
    [right]

/-- The lines of a row: as many as its highest cell has. -/
def rowLines (alignment : Alignment) (widths : List Nat) (bar : Char) (cells : List String) :
    List (List Char) :=
  let parts := List.zipWith cellLines widths cells
  let height := (parts.map List.length).foldl max 1
  let columns := List.zipWith (alignLines alignment height) widths parts
  (List.range height).map fun i =>
    [bar] ++ [bar].intercalate (columns.map fun lines => ' ' :: lines.getD i [] ++ [' ']) ++ [bar]

/-- The lines of a title, each centred above a table of the given width. An empty title has
none. -/
def titleLines (width : Nat) (title : String) : List (List Char) :=
  if title.isEmpty then []
  else (Text.wrap .fold width (shown title)).map fun line => centre width (trimBackChars line)

/-- The lines of a table. A table without columns is an empty line. -/
def lines (grid : Grid) : List (List Char) :=
  if grid.headers.isEmpty then [[]]
  else
    let widths := grid.widths
    let total := widths.foldl (fun total width => total + width + 3) 1
    (grid.title?.map (titleLines total)).getD [] ++ [rule widths '┏' '━' '┳' '┓'] ++
      rowLines .bottom widths '┃' grid.headers ++ [rule widths '┡' '━' '╇' '┩'] ++
      grid.rows.flatMap (rowLines .top widths '│') ++ [rule widths '└' '─' '┴' '┘']

end Grid

end ReportQuery.Command
