import ReportQuery.Json.Printer
import ReportQuery.Json.Reader
import ReportQuery.Parameter.Definition

set_option autoImplicit false
set_option relaxedAutoImplicit false

/-!
Parameter lists stored as JSON text. They are read leniently: what is malformed counts as no
parameters, and an entry that is no definition is passed over. Keys may begin with a capital letter.
-/

namespace ReportQuery.Parameter

open Text (isBlankText lowerChars trim)

/-- A key with its first letter in lower case. -/
def uncapitalize (key : String) : String :=
  match key.toList with
  | [] => key
  | c :: cs => String.ofList (lowerChars [c] ++ cs)

/-- A record with its keys uncapitalized. Of keys that become equal the last value counts. -/
def uncapitalizeKeys : Json → Json
  | .object fields =>
    .object (Mapping.ofEntries (fields.map fun (key, value) => (uncapitalize key, value)))
  | value => value

/-- The definition that a stored entry holds, if it holds one with a name. -/
def Definition.ofStored? (entry : Json) : Option Definition :=
  match (Definition.ofJson (uncapitalizeKeys entry)).toOption with
  | none => none
  | some definition =>
    if isBlankText definition.name then none
    else some { definition with name := trim definition.name }

/-- Reads a stored parameter list with room for so many open containers. Only what is beyond the
limits of the reader is reported. -/
def deserializeWithin (room : Nat) (stored? : Option String) :
    Except Json.Fault (List Definition) :=
  match stored? with
  | none => .ok []
  | some stored =>
    if isBlankText stored then .ok []
    else
      match Json.read (.lenientWithin room) stored.toList with
      | .ok (.array entries) => .ok (entries.filterMap Definition.ofStored?)
      | .ok _ => .ok []
      | .error failure => if failure.fault.isLimit then .error failure.fault else .ok []

/-- The room for open containers that is left where parameter lists are read. -/
def usualRoom : Nat := 990

/-- Reads a stored parameter list; the error is a sentence. -/
def deserialize (stored? : Option String) : Except String (List Definition) :=
  (deserializeWithin usualRoom stored?).mapError Json.Fault.message

/-- The text that a parameter list is stored as. -/
def serialize (definitions : List Definition) : String :=
  Json.write .unicode (.array (definitions.map Definition.toJson))

end ReportQuery.Parameter
