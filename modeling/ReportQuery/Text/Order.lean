set_option autoImplicit false
set_option relaxedAutoImplicit false

/-!
Lists without repeats, in which the first of equal elements stays where it stands, and lists sorted
by a text.
-/

namespace ReportQuery.Text

variable {α β : Type}

/-- Adds an element at the end unless one with the same key is there already. -/
def addNewBy [BEq β] (key : α → β) (seen : List α) (a : α) : List α :=
  if seen.any fun b => key b == key a then seen else seen ++ [a]

/-- The first element for every key, in order of first occurrence. -/
def distinctBy [BEq β] (key : α → β) (as : List α) : List α :=
  as.foldl (addNewBy key) []

/-- Adds an element at the end unless it is there already. -/
def addNew [BEq α] (seen : List α) (a : α) : List α :=
  if seen.contains a then seen else seen ++ [a]

/-- The elements in order of their first occurrence. -/
def distinct [BEq α] (as : List α) : List α :=
  as.foldl addNew []

/-- Sorts by a key, characters compared by code point. Elements with equal keys keep their order. -/
def sortBy (key : α → String) (as : List α) : List α :=
  as.mergeSort fun a b => decide (key a ≤ key b)

end ReportQuery.Text
