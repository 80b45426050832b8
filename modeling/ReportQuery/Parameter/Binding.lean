import ReportQuery.Parameter.Definition

set_option autoImplicit false
set_option relaxedAutoImplicit false

/-!
Binding declared parameters to the placeholders of a statement. A bind takes the placeholder's own
spelling; the first of several definitions for a placeholder counts.
-/

namespace ReportQuery.Parameter

open Text (lower)

/-- A typed value for a placeholder; none is the database's null. -/
structure Bind where
  name : String
  kind : Kind
  value? : Option Value
deriving Repr, DecidableEq

/-- The placeholder that a folded name stands for: of several spellings, the last one. -/
def placeholderFor? (placeholders : List String) (folded : String) : Option String :=
  placeholders.reverse.find? fun placeholder => lower placeholder = folded

/-- The binds of definitions, without those for the folded names that have been bound. -/
def bindsAfter (bound : List String) (values : Values) (placeholders : List String) :
    List Definition → List Bind
  | [] => []
  | definition :: rest =>
    let folded := foldedName definition.name
    match placeholderFor? placeholders folded with
    | none => bindsAfter bound values placeholders rest
    | some placeholder =>
      if bound.contains folded then bindsAfter bound values placeholders rest
      else
        ⟨placeholder, definition.kind, definition.value? values⟩ ::
          bindsAfter (folded :: bound) values placeholders rest

/-- The binds for the placeholders that some definition declares, in order of the definitions. -/
def bindAll (definitions : List Definition) (values : Values) (placeholders : List String) :
    List Bind :=
  bindsAfter [] values placeholders definitions

end ReportQuery.Parameter
