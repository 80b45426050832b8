import Mathlib.Data.List.Forall2
import Mathlib.Data.List.Nodup
import ReportQuery.Parameter.Stored
import ReportQuery.Proofs.Shape.Written
import ReportQuery.Proofs.Text.Blank
import ReportQuery.Schema.Introspection

set_option autoImplicit false
set_option relaxedAutoImplicit false

/-!
Stored parameter lists. A list reads back from its text with its names trimmed and without those
entries that have no name, also where keys are capitalized as in older texts.
-/

namespace ReportQuery.Parameter

open Json (Storable storable_ofText? storable_record)
open Shape (map_eq_valid seq_eq_valid required_of_written optional_of_written)
open Text (isBlankText trim isBlankText_iff)

section Keys

/-- A key with its first letter in upper case. -/
def capitalizeKey (key : String) : String :=
  String.ofList (Schema.capitalize key.toList)

/-- A field and the same field, its key maybe capitalized. -/
def SpelledAs (field spelled : String × Json) : Prop :=
  (spelled.1 = field.1 ∨ spelled.1 = capitalizeKey field.1) ∧ spelled.2 = field.2

/-- A record and the same record, some of its keys capitalized. -/
inductive Respelled : Json → Json → Prop
  | object {fields spelled : List (String × Json)} :
    List.Forall₂ SpelledAs fields spelled → Respelled (.object fields) (.object spelled)

/-- The keys that a definition is stored with. -/
def storedKeys : List String :=
  ["name", "type", "defaultValue"]

/-- However a stored key is spelled, it is found again. -/
theorem uncapitalize_storedKeys :
    ∀ key ∈ storedKeys, uncapitalize key = key ∧ uncapitalize (capitalizeKey key) = key := by
  decide

theorem SpelledAs.uncapitalize {field spelled : String × Json} (same : SpelledAs field spelled)
    (stored : field.1 ∈ storedKeys) : (Parameter.uncapitalize spelled.1, spelled.2) = field := by
  obtain ⟨plain, capital⟩ := uncapitalize_storedKeys field.1 stored
  obtain ⟨spelling, value⟩ := same
  refine Prod.ext ?_ value
  rcases spelling with unchanged | capitalized
  · rw [unchanged, plain]
  · rw [capitalized, capital]

/-- The fields of a stored record are found however their keys are spelled. -/
theorem map_uncapitalize_spelledAs {fields spelled : List (String × Json)}
    (same : List.Forall₂ SpelledAs fields spelled)
    (stored : ∀ field ∈ fields, field.1 ∈ storedKeys) :
    spelled.map (fun field => (uncapitalize field.1, field.2)) = fields := by
  induction same with
  | nil => rfl
  | cons here _ ih =>
    obtain ⟨key, keys⟩ := List.forall_mem_cons.mp stored
    rw [List.map_cons, here.uncapitalize key, ih keys]

theorem storable_spelledAs {depth : Nat} {fields spelled : List (String × Json)}
    (same : List.Forall₂ SpelledAs fields spelled)
    (each : ∀ field ∈ fields, Storable depth field.2) :
    ∀ field ∈ spelled, Storable depth field.2 := by
  induction same with
  | nil => exact each
  | cons here _ ih =>
    obtain ⟨first, others⟩ := List.forall_mem_cons.mp each
    exact List.forall_mem_cons.mpr ⟨here.2 ▸ first, ih others⟩

/-- Keys that are different when uncapitalized are different. -/
theorem nodup_of_uncapitalize {fields : List (String × Json)}
    (different : ((fields.map fun field => (uncapitalize field.1, field.2)).map Prod.fst).Nodup) :
    (fields.map Prod.fst).Nodup := by
  rw [List.map_map] at different
  refine List.Nodup.of_map uncapitalize ?_
  rwa [List.map_map]

end Keys

section Entries

namespace Definition

variable {definition : Definition} {entry : Json}

/-- The definition with its name trimmed. -/
def trimmed (definition : Definition) : Definition :=
  { definition with name := trim definition.name }

theorem ofJson_toJson (named : definition.name ≠ "") :
    ofJson definition.toJson = .valid definition := by
  obtain ⟨name, type, default?⟩ := definition
  have nonempty : Shape.nonemptyText (.text name) = .valid name := by
    have full : name.isEmpty = false := by simpa using named
    simp [Shape.nonemptyText, Shape.text, Shape.Checked.andThen, full]
  refine seq_eq_valid (seq_eq_valid (map_eq_valid ?name) ?type) ?default
  case name => exact required_of_written rfl nonempty
  case type => exact optional_of_written rfl rfl
  case default =>
    refine optional_of_written rfl ?_
    cases default? <;> rfl

theorem storable_toJson (definition : Definition) : Storable 1 definition.toJson :=
  storable_record (by simp) ⟨.text _, .text _, storable_ofText? _⟩

/-- A definition without a name is none when it is read. -/
theorem ofJson_toJson_nameless (nameless : definition.name = "") :
    (ofJson definition.toJson).toOption = none := by
  obtain ⟨name, type, default?⟩ := definition
  obtain rfl : name = "" := nameless
  cases default? <;> rfl

/-- A stored definition, however its keys are spelled, is found with its name trimmed if it has
one. -/
theorem ofStored?_eq (found : uncapitalizeKeys entry = definition.toJson) :
    ofStored? entry = if definition.trimmed.name = "" then none else some definition.trimmed := by
  have blank : isBlankText definition.name ↔ definition.trimmed.name = "" := by
    rw [isBlankText_iff, String.toList_eq_nil_iff]
    rfl
  rw [ofStored?, found]
  by_cases nameless : definition.name = ""
  · rw [ofJson_toJson_nameless nameless, if_pos]
    rw [← blank, nameless]
    rfl
  · rw [ofJson_toJson nameless]
    simp only [Shape.Checked.toOption, blank]
    rfl

end Definition

/-- An entry that the definition may be stored as: keys may be capitalized. -/
def Definition.IsStoredAs (definition : Definition) (entry : Json) : Prop :=
  Respelled definition.toJson entry

namespace Definition.IsStoredAs

variable {definition : Definition} {entry : Json}

theorem refl (definition : Definition) : definition.IsStoredAs definition.toJson :=
  .object (List.forall₂_same.mpr fun _ _ => ⟨.inl rfl, rfl⟩)

theorem uncapitalizeKeys (stored : definition.IsStoredAs entry) :
    Parameter.uncapitalizeKeys entry = definition.toJson := by
  obtain ⟨same⟩ := stored
  rw [Parameter.uncapitalizeKeys, map_uncapitalize_spelledAs same (by simp [storedKeys]),
    Mapping.ofEntries_eq_self (by simp)]
  rfl

theorem storable (stored : definition.IsStoredAs entry) : Storable 1 entry := by
  obtain ⟨same⟩ := stored
  cases definition.storable_toJson with
  | object different each =>
    refine .object (nodup_of_uncapitalize ?_) (storable_spelledAs same each)
    rwa [map_uncapitalize_spelledAs same (by simp [storedKeys])]

end Definition.IsStoredAs

end Entries

section Lists

variable {definitions : List Definition} {entries : List Json}

theorem storable_of_isStoredAs
    (stored : List.Forall₂ Definition.IsStoredAs definitions entries) :
    ∀ entry ∈ entries, Storable 1 entry := by
  induction stored with
  | nil => simp
  | cons here _ ih => exact List.forall_mem_cons.mpr ⟨here.storable, ih⟩

/-- The definitions that stored entries hold, whatever the spelling of their keys. -/
theorem filterMap_ofStored?
    (stored : List.Forall₂ Definition.IsStoredAs definitions entries) :
    entries.filterMap Definition.ofStored? =
      (definitions.map Definition.trimmed).filter fun definition => definition.name ≠ "" := by
  induction stored with
  | nil => rfl
  | @cons definition entry _ _ here _ ih =>
    rw [List.filterMap_cons, Definition.ofStored?_eq here.uncapitalizeKeys, ih, List.map_cons,
      List.filter_cons]
    by_cases nameless : definition.trimmed.name = "" <;> simp [nameless]

theorem isBlankText_of_bracket {text : String} (bracket : '[' ∈ text.toList) : isBlankText text = false := by
  refine Bool.eq_false_iff.mpr fun blank => ?_
  exact absurd (List.all_eq_true.mp blank _ bracket) (by decide)

/-- The text of a list of entries without numbers is read where there is room for two
containers. -/
theorem deserializeWithin_write {room : Nat} (roomy : 2 ≤ room)
    (each : ∀ entry ∈ entries, Storable 1 entry) :
    deserializeWithin room (some (Json.write .unicode (.array entries))) =
      .ok (entries.filterMap Definition.ofStored?) := by
  have bracket : '[' ∈ (Json.write .unicode (.array entries)).toList := by
    rw [Json.write, String.toList_ofList]
    cases entries <;> exact List.mem_cons_self
  rw [deserializeWithin, isBlankText_of_bracket bracket, if_neg Bool.false_ne_true, Json.write, String.toList_ofList,
    Json.read_compact (.array each) (Json.allowsDepth_lenientWithin roomy)]

theorem deserialize_write (stored : List.Forall₂ Definition.IsStoredAs definitions entries) :
    deserialize (some (Json.write .unicode (.array entries))) =
      .ok ((definitions.map Definition.trimmed).filter fun definition =>
        definition.name ≠ "") := by
  rw [deserialize, deserializeWithin_write (by decide) (storable_of_isStoredAs stored),
    filterMap_ofStored? stored]
  rfl

/-- A parameter list reads back from its stored text in the same order, each name trimmed, without
the parameters whose names are blank. The same list comes of the text with any of its keys
capitalized, as older texts have them. -/
theorem parameters_readBack (definitions : List Definition) :
    deserialize (some (serialize definitions)) =
        .ok ((definitions.map Definition.trimmed).filter fun definition => definition.name ≠ "") ∧
      ∀ entries : List Json, List.Forall₂ Definition.IsStoredAs definitions entries →
        deserialize (some (Json.write .unicode (.array entries))) =
          deserialize (some (serialize definitions)) := by
  have written : List.Forall₂ Definition.IsStoredAs definitions
      (definitions.map Definition.toJson) :=
    List.forall₂_map_right_iff.mpr (List.forall₂_same.mpr fun _ _ => .refl _)
  have own := deserialize_write written
  exact ⟨own, fun entries stored => (deserialize_write stored).trans own.symm⟩

/-- A parameter with a default, and one whose name is blank. -/
def pagedParameters : List Definition :=
  [⟨" page\t", "int", some "1"⟩, ⟨"\u2003", "string", none⟩]

/-- The parameters as an older text has them, the first with a key as it is written now. -/
def pagedEntries : List Json :=
  [.object [("Name", .text " page\t"), ("type", .text "int"), ("DefaultValue", .text "1")],
    .object [("Name", .text "\u2003"), ("Type", .text "string"), ("DefaultValue", .null)]]

theorem paged_readBack :
    List.Forall₂ Definition.IsStoredAs pagedParameters pagedEntries ∧
      deserialize (some (Json.write .unicode (.array pagedEntries))) =
        .ok [⟨"page", "int", some "1"⟩] := by
  have first : ("Name" = capitalizeKey "name") ∧ "Type" = capitalizeKey "type" ∧
      "DefaultValue" = capitalizeKey "defaultValue" := by decide
  obtain ⟨name, type, default⟩ := first
  have stored : List.Forall₂ Definition.IsStoredAs pagedParameters pagedEntries :=
    .cons (.object (.cons ⟨.inr name, rfl⟩ (.cons ⟨.inl rfl, rfl⟩ (.cons ⟨.inr default, rfl⟩ .nil))))
      (.cons (.object (.cons ⟨.inr name, rfl⟩ (.cons ⟨.inr type, rfl⟩
        (.cons ⟨.inr default, rfl⟩ .nil)))) .nil)
  obtain ⟨own, respelled⟩ := parameters_readBack pagedParameters
  refine ⟨stored, (respelled pagedEntries stored).trans (own.trans ?_)⟩
  have kept : ((pagedParameters.map Definition.trimmed).filter fun definition =>
      definition.name ≠ "") = [⟨"page", "int", some "1"⟩] := by decide
  rw [kept]

end Lists

end ReportQuery.Parameter
