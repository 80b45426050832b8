import ReportQuery.Text.Character
import ReportQuery.Text.Width

set_option autoImplicit false
set_option relaxedAutoImplicit false

/-!
Setting a text into lines of limited width.

A line that is too wide is parted before words. `flatten_spacedWords` says that the words of a line
with their blanks are the line, `flatten_divide` that parting a line loses nothing of it.
-/

namespace ReportQuery.Text

/-- The lines of a text. -/
def splitLines (cs : List Char) : List (List Char) :=
  cs.splitOn '\n'

/-- A text with every line ended by a line feed alone. -/
def withLineFeeds : List Char → List Char
  | [] => []
  | '\r' :: '\n' :: cs => '\n' :: withLineFeeds cs
  | '\r' :: cs => '\n' :: withLineFeeds cs
  | c :: cs => c :: withLineFeeds cs

/-- Ends a line wherever a text is measured. -/
def isLineBreak (c : Char) : Bool :=
  let n := c.toNat
  (0x0A ≤ n && n ≤ 0x0D) || (0x1C ≤ n && n ≤ 0x1E) || n == 0x85 || n == 0x2028 || n == 0x2029

/-- The columns of the widest line. -/
def blockWidth (cs : List Char) : Nat :=
  ((cs.splitOnP isLineBreak).map textWidth).foldl max 0

/-- Puts the parts between tabs together: each is followed by at least one blank, and the next one
begins at a stop. The first of the parts begins at the given column. -/
def joinAtStops (measure : List Char → Nat) (stop column : Nat) :
    List (List Char) → List Char
  | [] => []
  | [part] => part
  | part :: next :: rest =>
    let spaced := part ++ [' ']
    let reached := column + measure spaced
    let blanks := (stop - reached % stop) % stop
    spaced ++ List.replicate blanks ' ' ++
      joinAtStops measure stop (reached + blanks) (next :: rest)

/-- The line with blanks for its tabs, up to the next of the stops that are the given number of
columns apart. -/
def expandTabs (measure : List Char → Nat) (stop : Nat) (line : List Char) : List Char :=
  joinAtStops measure stop 0 (line.splitOn '\t')

/-- Cuts before every character that is not blank and comes after a blank; `current` is the word
read so far, last character first. -/
def cutBeforeWords (current : List Char) : List Char → List (List Char)
  | [] => [current.reverse]
  | c :: cs =>
    if !isBlank c && current.head?.any isBlank then current.reverse :: cutBeforeWords [c] cs
    else cutBeforeWords (c :: current) cs

/-- The words of a line, each with the blanks after it and the first one also with those before
it. A line of blanks alone is one word. -/
def spacedWords (cs : List Char) : List (List Char) :=
  let front := cs.takeWhile isBlank
  match cs.dropWhile isBlank with
  | [] => [front]
  | c :: rest => cutBeforeWords (c :: front.reverse) rest

private theorem flatten_cutBeforeWords (cs current : List Char) :
    (cutBeforeWords current cs).flatten = current.reverse ++ cs := by
  fun_induction cutBeforeWords current cs <;> simp_all

/-- The words of a line with their blanks, put together, are the line. -/
theorem flatten_spacedWords (cs : List Char) : (spacedWords cs).flatten = cs := by
  have h := List.takeWhile_append_dropWhile (p := isBlank) (l := cs)
  unfold spacedWords
  split
  · next hnil => simpa [hnil] using h
  · next hcons => simpa [hcons, flatten_cutBeforeWords] using h

/-- What becomes of a word that is wider than a line. -/
inductive Overflow where
  /-- It goes on in the next lines. -/
  | fold
  /-- Its end gives way to an ellipsis. -/
  | ellipsis
deriving Repr, DecidableEq

/-- Cuts a word into parts that are not wider than a line; `part` is the one that is being filled
and takes the given number of columns. -/
def foldWord (width : Nat) (part : List Char) (columns : Nat) : List Cluster → List (List Char)
  | [] => [part]
  | cluster :: rest =>
    if width < columns + cluster.width then part :: foldWord width cluster.chars cluster.width rest
    else foldWord width (part ++ cluster.chars) (columns + cluster.width) rest

private theorem flatten_foldWord (width : Nat) (places : List Cluster) (part : List Char)
    (columns : Nat) :
    (foldWord width part columns places).flatten = part ++ places.flatMap Cluster.chars := by
  fun_induction foldWord width part columns places <;> simp_all

/-- A text that is being set into lines. -/
structure Setting where
  done : List (List Char) := []
  /-- The line that is being filled. -/
  current : List Char := []
  /-- The columns that are taken in it. -/
  columns : Nat := 0
deriving Repr, DecidableEq

namespace Setting

/-- Begins a line with a part of a word. The first part of all needs no new line. -/
def begin (setting : Setting) (part : List Char) : Setting :=
  if setting.done.isEmpty && setting.current.isEmpty then ⟨[], part, textWidth part⟩
  else ⟨setting.done ++ [setting.current], part, textWidth part⟩

/-- Adds a word: to the line if there is room, else at the beginning of the next one. The blanks
after the word need no room. -/
def add (overflow : Overflow) (width : Nat) (setting : Setting) (word : List Char) : Setting :=
  let needed := textWidth (trimBackChars word)
  if setting.columns + needed ≤ width then
    ⟨setting.done, setting.current ++ word, setting.columns + textWidth word⟩
  else if overflow = .fold ∧ width < needed then
    (foldWord width [] 0 (clusters word)).foldl begin setting
  else setting.begin word

/-- The lines. -/
def lines (setting : Setting) : List (List Char) :=
  setting.done ++ [setting.current]

private theorem flatten_begin (setting : Setting) (part : List Char) :
    (setting.begin part).lines.flatten = setting.lines.flatten ++ part := by
  obtain ⟨done, current, columns⟩ := setting
  cases done <;> cases current <;> simp [begin, lines]

private theorem flatten_foldl_begin (parts : List (List Char)) (setting : Setting) :
    (parts.foldl begin setting).lines.flatten = setting.lines.flatten ++ parts.flatten := by
  induction parts generalizing setting with
  | nil => simp
  | cons part parts ih => simp [ih, flatten_begin]

private theorem flatten_add (overflow : Overflow) (width : Nat) (setting : Setting)
    (word : List Char) :
    (setting.add overflow width word).lines.flatten = setting.lines.flatten ++ word := by
  unfold add
  dsimp only
  split
  · simp [lines]
  · split
    · rw [flatten_foldl_begin, flatten_foldWord, flatMap_clusters, List.nil_append]
    · rw [flatten_begin]

private theorem flatten_foldl_add (overflow : Overflow) (width : Nat)
    (words : List (List Char)) (setting : Setting) :
    (words.foldl (add overflow width) setting).lines.flatten =
      setting.lines.flatten ++ words.flatten := by
  induction words generalizing setting with
  | nil => simp
  | cons word words ih => simp [ih, flatten_add]

end Setting

/-- The lines into which a line without tabs is parted. -/
def divide (overflow : Overflow) (width : Nat) (line : List Char) : List (List Char) :=
  ((spacedWords line).foldl (Setting.add overflow width) {}).lines

/-- Parting a line loses nothing of it. -/
theorem flatten_divide (overflow : Overflow) (width : Nat) (line : List Char) :
    (divide overflow width line).flatten = line := by
  rw [divide, Setting.flatten_foldl_add, flatten_spacedWords]
  simp [Setting.lines]

/-- The line without those of its last characters that are blank and beyond the width. -/
def trimExcess (width : Nat) (line : List Char) : List Char :=
  let blanks := (line.reverse.takeWhile isBlank).length
  line.take (line.length - min blanks (line.length - width))

/-- The front of a line that is too wide. -/
def shorten (overflow : Overflow) (width : Nat) (line : List Char) : List Char :=
  match overflow with
  | .fold => cut width line
  | .ellipsis => if width < textWidth line then cut (width - 1) line ++ ['…'] else line

/-- The lines of a text, none of them wider than the given number of columns. Tabs go on to the
next multiple of eight columns. -/
def wrap (overflow : Overflow) (width : Nat) (cs : List Char) : List (List Char) :=
  (splitLines cs).flatMap fun line =>
    (divide overflow width (expandTabs textWidth 8 line)).map fun part =>
      shorten overflow width (trimExcess width part)

end ReportQuery.Text
