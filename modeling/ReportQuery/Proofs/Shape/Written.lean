import Mathlib.Data.List.Basic
import ReportQuery.Proofs.Json.RoundTrip
import ReportQuery.Shape.Check

set_option autoImplicit false
set_option relaxedAutoImplicit false

/-!
Values that records are written as: they have a text, and their checks find the record again.
-/

namespace ReportQuery

open Json (Storable)

namespace Shape

variable {α : Type} {check : Json → Checked α} {encode : α → Json}

/-- Items that each read as what they were written from do so together. -/
theorem items_map (each : ∀ a, check (encode a) = .valid a) (as : List α) (index : Nat) :
    items check index (as.map encode) = .valid as := by
  induction as generalizing index with
  | nil => rfl
  | cons a as ih =>
    rw [List.map_cons, items, each, ih]
    rfl

theorem list_map (each : ∀ a, check (encode a) = .valid a) (as : List α) :
    list check (.array (as.map encode)) = .valid as :=
  items_map each as 0

theorem list_texts (ss : List String) : list text (Json.texts ss) = .valid ss :=
  have each (s : String) : text (.text s) = .valid s := rfl
  list_map each ss

variable {β : Type} {fields : List (String × Json)} {name : FieldName} {value : Json} {a : α}

theorem map_eq_valid {f : α → β} {x : Checked α} (found : x = .valid a) :
    f <$> x = .valid (f a) := by
  rw [found]
  rfl

theorem seq_eq_valid {f : α → β} {x : Checked (α → β)} {y : Checked α} (before : x = .valid f)
    (found : y = .valid a) : x <*> y = .valid (f a) := by
  rw [before, found]
  rfl

/-- A field is found under the name that it is written with. -/
theorem required_of_written (written : Json.field? fields name.written = some value)
    (reads : check value = .valid a) : required fields name check = .valid a := by
  rw [required, FieldName.find?, written]
  dsimp only
  rw [reads, Checked.under]

theorem optional_of_written {default : α} (written : Json.field? fields name.written = some value)
    (reads : check value = .valid a) : optional fields name default check = .valid a := by
  rw [optional, FieldName.find?, written]
  dsimp only
  rw [reads, Checked.under]

end Shape

namespace Json

variable {depth : Nat}

theorem storable_ofText? (s? : Option String) : Storable depth (ofText? s?) := by
  cases s? with
  | none => exact .null
  | some s => exact .text s

theorem storable_array_map {α : Type} {encode : α → Json}
    (each : ∀ a, Storable depth (encode a)) (as : List α) :
    Storable (depth + 1) (.array (as.map encode)) := by
  refine .array fun item member => ?_
  obtain ⟨a, -, rfl⟩ := List.mem_map.mp member
  exact each a

/-- A record with fields of different names. -/
theorem storable_record {fields : List (String × Json)} (distinct : (fields.map Prod.fst).Nodup)
    (each : fields.Forall fun field => Storable depth field.2) :
    Storable (depth + 1) (.object fields) :=
  .object distinct (List.forall_iff_forall_mem.mp each)

theorem storable_texts (ss : List String) : Storable (depth + 1) (texts ss) :=
  storable_array_map Storable.text ss

end Json

end ReportQuery
