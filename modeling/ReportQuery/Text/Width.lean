import ReportQuery.Text.WidthTable

set_option autoImplicit false
set_option relaxedAutoImplicit false

/-!
How many columns of a screen a text takes, and texts made to take a given number of columns.

A character by itself takes none, one or two columns. In a text a joiner makes the characters on
both sides of it share one place, and a selector turns the character before it into a pictograph.
`flatMap_clusters` says that cutting a text into its places loses nothing.
-/

namespace ReportQuery.Text

/-- Makes the characters on both sides of it share one place. -/
def joiner : Char := '\u200d'

/-- Turns the character before it into a pictograph. -/
def selector : Char := '\ufe0f'

/-- Whether a character is in one of the ranges. -/
private def isWithin (ranges : List (Nat × Nat)) (c : Char) : Bool :=
  ranges.any fun (first, last) => first ≤ c.toNat && c.toNat ≤ last

/-- The columns that a character takes by itself. Controls take none. -/
def charWidth (c : Char) : Nat :=
  let n := c.toNat
  if n < 0x20 || (0x7F ≤ n && n < 0xA0) then 0
  else if n < 0x300 then 1
  else if isWithin WidthTable.emptyRanges c then 0
  else if isWithin WidthTable.doubleRanges c then 2
  else 1

/-- Whether the character before a selector takes one column and two as a pictograph. -/
def isWidened : Option Char → Bool
  | some c => isWithin WidthTable.pictographRanges c
  | none => false

/-- The columns of the rest of a text; `base?` is the last character that took columns, unless a
selector came after it. -/
def widthAfter (base? : Option Char) : List Char → Nat
  | [] => 0
  | c :: cs =>
    if c = joiner then
      match cs with
      | [] => 0
      | _ :: rest => widthAfter base? rest
    else if c = selector then (if isWidened base? then 1 else 0) + widthAfter none cs
    else if charWidth c = 0 then widthAfter base? cs
    else charWidth c + widthAfter (some c) cs

/-- The columns that a text takes. -/
def textWidth (cs : List Char) : Nat :=
  widthAfter none cs

/-- Characters that share a place, and the columns that it takes. -/
structure Cluster where
  chars : List Char
  width : Nat
deriving Repr, DecidableEq

/-- The cluster with more characters at its end, and more columns. -/
def Cluster.extend (cluster : Cluster) (chars : List Char) (width : Nat) : Cluster :=
  ⟨cluster.chars ++ chars, cluster.width + width⟩

/-- Cuts the rest of a text; `current` is the cluster that may still grow, and `base?` is the last
character that took columns, unless it was widened. -/
def clustersAfter (current : Cluster) (base? : Option Char) : List Char → List Cluster
  | [] => [current]
  | c :: cs =>
    if c = joiner then
      match cs with
      | [] => [current.extend [c] 0]
      | joined :: rest => clustersAfter (current.extend [c, joined] 0) base? rest
    else if c = selector then
      if isWidened base? then clustersAfter (current.extend [c] 1) none cs
      else clustersAfter (current.extend [c] 0) base? cs
    else if charWidth c = 0 then clustersAfter (current.extend [c] 0) base? cs
    else current :: clustersAfter ⟨[c], charWidth c⟩ (some c) cs

/-- The clusters of a text. Characters that take no column belong to the cluster before. -/
def clusters : List Char → List Cluster
  | [] => []
  | c :: cs => clustersAfter ⟨[c], charWidth c⟩ (if charWidth c = 0 then none else some c) cs

private theorem flatMap_clustersAfter (cs : List Char) (current : Cluster)
    (base? : Option Char) :
    (clustersAfter current base? cs).flatMap Cluster.chars = current.chars ++ cs := by
  fun_induction clustersAfter current base? cs <;> simp_all [Cluster.extend]

/-- The clusters put together are the text. -/
theorem flatMap_clusters (cs : List Char) : (clusters cs).flatMap Cluster.chars = cs := by
  cases cs with
  | nil => rfl
  | cons c cs => simp [clusters, flatMap_clustersAfter]

/-- The front of a text that fills the given number of columns. A place of two columns of which
only one is left gives way to a blank. -/
def takeColumns (width : Nat) : List Cluster → List Char
  | [] => []
  | cluster :: rest =>
    if width = 0 then []
    else if width < cluster.width then [' ']
    else cluster.chars ++ takeColumns (width - cluster.width) rest

/-- The front of a text that fills the given number of columns, if the text is wider. -/
def cut (width : Nat) (cs : List Char) : List Char :=
  if width < textWidth cs then takeColumns width (clusters cs) else cs

/-- The text with blanks after it, up to the given number of columns. -/
def padRight (width : Nat) (cs : List Char) : List Char :=
  cs ++ List.replicate (width - textWidth cs) ' '

/-- The text with blanks on both sides, of which the smaller half stands before it. -/
def centre (width : Nat) (cs : List Char) : List Char :=
  padRight width (List.replicate ((width - textWidth cs) / 2) ' ' ++ cs)

/-- The text with exactly the given number of columns: cut, or filled up with blanks. -/
def fit (width : Nat) (cs : List Char) : List Char :=
  padRight width (cut width cs)

end ReportQuery.Text
