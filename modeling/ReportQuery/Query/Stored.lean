import ReportQuery.Json.Printer
import ReportQuery.Json.Reader
import ReportQuery.Query.Encoding

set_option autoImplicit false
set_option relaxedAutoImplicit false

/-!
Query descriptions stored as JSON text. They are read into normal form; a blank text is the empty
description.
-/

namespace ReportQuery.Query

open Text (isBlankText)

/-- Why a stored description cannot be used. -/
inductive StoredFault where
  /-- The text is no JSON. -/
  | malformed (failure : Json.Failure) (text : List Char)
  /-- The value is no description; of its problems the first is reported. -/
  | misshapen (fault : Shape.Fault)
deriving Repr

/-- The sentence that reports the fault. -/
def StoredFault.message (fault : StoredFault) : String :=
  "Query description is not valid: " ++
    match fault with
    | malformed failure text => "Invalid JSON: " ++ failure.message text
    | misshapen fault => fault.message .text

/-- Reads a stored description. -/
def Description.deserialize (stored? : Option String) : Except StoredFault Description :=
  match stored? with
  | none => .ok {}
  | some stored =>
    if isBlankText stored then .ok {}
    else
      match Json.read .strict stored.toList with
      | .error failure => .error (.malformed failure stored.toList)
      | .ok value =>
        match Description.ofJson value with
        | .valid description => .ok description.normalize
        | .invalid problems =>
          .error (.misshapen ((problems.head?.map (·.fault)).getD .missing))

/-- The text that a description is stored as. -/
def Description.serialize (description : Description) : String :=
  Json.write .unicode description.toJson

end ReportQuery.Query
