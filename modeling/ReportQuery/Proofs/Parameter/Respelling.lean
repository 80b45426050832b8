import Mathlib.Data.List.DropRight
import Mathlib.Data.List.Forall2
import Mathlib.Data.Option.Basic
import ReportQuery.Proofs.Parameter.Binding

set_option autoImplicit false
set_option relaxedAutoImplicit false

/-!
The order and the spelling in which parameters are declared and given. Where names that compare equal
stand once, every look-up finds the same entry, whatever its place and its at signs and case, so the
same values are bound.
-/

namespace ReportQuery.Parameter

open Text (find?_key_eq_some_iff find?_key_perm)

/-- Definitions that differ at most in the spelling of the name. -/
structure Definition.Respelled (definition other : Definition) : Prop where
  name : foldedName other.name = foldedName definition.name
  type : other.type = definition.type
  default : other.default? = definition.default?

/-- Given values that differ at most in the spelling of the name. -/
structure RespelledEntry (entry other : String × Option String) : Prop where
  name : foldedName other.1 = foldedName entry.1
  value : other.2 = entry.2

/-- Lists that differ in the order of their elements and in what the relation allows for each. -/
def Rearranged {α : Type} (R : α → α → Prop) (as bs : List α) : Prop :=
  ∃ middle, as.Perm middle ∧ List.Forall₂ R middle bs

section Rearranged

variable {α : Type} {R : α → α → Prop} {key : α → String} {as bs : List α} {k : String}

private theorem find?_forall₂ (keeps : ∀ a b, R a b → key b = key a) (each : List.Forall₂ R as bs) :
    Option.Rel R (as.find? fun a => key a = k) (bs.find? fun b => key b = k) := by
  induction each with
  | nil => exact .none
  | @cons a b as bs here _ ih =>
    have same := keeps a b here
    by_cases found : key a = k
    · rw [List.find?_cons_of_pos (by simpa using found),
        List.find?_cons_of_pos (by simpa [same] using found)]
      exact .some here
    · rw [List.find?_cons_of_neg (by simpa using found),
        List.find?_cons_of_neg (by simpa [same] using found)]
      exact ih

/-- A key that stands once finds related elements in rearranged lists. -/
theorem Rearranged.find? (rearranged : Rearranged R as bs) (keeps : ∀ a b, R a b → key b = key a)
    (apart : (as.map key).Nodup) (k : String) :
    Option.Rel R (as.find? fun a => key a = k) (bs.find? fun b => key b = k) := by
  obtain ⟨middle, perm, each⟩ := rearranged
  rw [find?_key_perm apart perm]
  exact find?_forall₂ keeps each

/-- Keys that stand once do so in the rearranged list. -/
theorem Rearranged.nodup (rearranged : Rearranged R as bs) (keeps : ∀ a b, R a b → key b = key a)
    (apart : (as.map key).Nodup) : (bs.map key).Nodup := by
  obtain ⟨middle, perm, each⟩ := rearranged
  have same : bs.map key = middle.map key := by
    clear perm
    induction each with
    | nil => rfl
    | cons here _ ih => rw [List.map_cons, List.map_cons, keeps _ _ here, ih]
  rw [same]
  exact (perm.map key).nodup_iff.mp apart

end Rearranged

section Look

variable {definition other : Definition} {values given : Values}

@[simp] theorem foldedName_bareName (name : String) : foldedName (bareName name) = foldedName name := by
  have once : bareName (bareName name) = bareName name := by
    rw [bareName, bareName, String.toList_ofList, List.dropWhile_idempotent]
  rw [foldedName, foldedName, once]

/-- An entry that stands under exactly the name is the only one under a name that compares equal. -/
private theorem find?_of_lookup {name : String} {value? : Option String}
    (apart : (values.map fun entry => foldedName entry.1).Nodup)
    (exact : values.lookup name = some value?) :
    (values.find? fun entry => foldedName entry.1 = foldedName name) = some (name, value?) := by
  obtain ⟨before, behind, whole, -⟩ := List.lookup_eq_some_iff.mp exact
  exact (find?_key_eq_some_iff apart).mpr ⟨by simp [whole], rfl⟩

/-- Where no two given names compare equal, the look-up by exactly the name finds nothing else than the
one by names that compare equal. -/
theorem resolve_of_apart (apart : (values.map fun entry => foldedName entry.1).Nodup) :
    definition.resolve values =
      ((values.find? fun entry => foldedName entry.1 = foldedName definition.name).map Prod.snd).getD
        definition.default? := by
  rw [Definition.resolve]
  cases exact : values.lookup definition.name with
  | some value? =>
    rw [find?_of_lookup apart exact]
    rfl
  | none =>
    cases bare : values.lookup (bareName definition.name) with
    | some value? =>
      have found := find?_of_lookup apart bare
      rw [foldedName_bareName] at found
      rw [found]
      rfl
    | none =>
      cases values.find? fun entry => foldedName entry.1 = foldedName definition.name with
      | some entry => rfl
      | none => rfl

variable (respelled : definition.Respelled other) (rearranged : Rearranged RespelledEntry values given)
  (apart : (values.map fun entry => foldedName entry.1).Nodup)
include respelled rearranged apart

/-- A respelled definition takes the same text from rearranged values. -/
theorem Definition.Respelled.resolve_eq : other.resolve given = definition.resolve values := by
  have keeps : ∀ entry entry' : String × Option String, RespelledEntry entry entry' →
      foldedName entry'.1 = foldedName entry.1 := fun _ _ same => same.name
  have found := rearranged.find? keeps apart (foldedName definition.name)
  rw [resolve_of_apart apart, resolve_of_apart (rearranged.nodup keeps apart), respelled.name,
    respelled.default]
  generalize (values.find? fun entry => foldedName entry.1 = foldedName definition.name) = first
    at found ⊢
  generalize (given.find? fun entry => foldedName entry.1 = foldedName definition.name) = second
    at found ⊢
  cases found with
  | none => rfl
  | some same => rw [Option.map_some, Option.map_some, same.value]

theorem Definition.Respelled.bind_eq (name : String) :
    (⟨name, other.kind, other.value? given⟩ : Bind) =
      ⟨name, definition.kind, definition.value? values⟩ := by
  have kind : other.kind = definition.kind := by
    rw [Definition.kind, Definition.kind, respelled.type]
  rw [Definition.value?, Definition.value?, kind, respelled.resolve_eq rearranged apart]

end Look

variable {definitions others : List Definition} {values given : Values}

/-- Where no two declared names and no two given names compare equal, the binds do not depend on the
order of the definitions and the values, nor on at signs before a name and its case. -/
theorem bindAll_rearranged (placeholders : List String)
    (declared : (definitions.map fun definition => foldedName definition.name).Nodup)
    (apart : (values.map fun entry => foldedName entry.1).Nodup)
    (respelled : Rearranged Definition.Respelled definitions others)
    (rearranged : Rearranged RespelledEntry values given) :
    (bindAll others given placeholders).Perm (bindAll definitions values placeholders) := by
  have once (definitions : List Definition) (values : Values) :
      (bindAll definitions values placeholders).Nodup := by
    have folded := @nodup_bindAll definitions values placeholders
    exact List.Nodup.of_map _ folded
  have keeps : ∀ definition other : Definition, definition.Respelled other →
      foldedName other.name = foldedName definition.name := fun _ _ same => same.name
  rw [List.perm_ext_iff_of_nodup (once others given) (once definitions values)]
  intro bind
  have found := respelled.find? keeps declared (Text.lower bind.name)
  rw [mem_bindAll, mem_bindAll]
  refine and_congr_right fun _ => ?_
  generalize (definitions.find? fun d => foldedName d.name = Text.lower bind.name) = first at found ⊢
  generalize (others.find? fun d => foldedName d.name = Text.lower bind.name) = second at found ⊢
  cases found with
  | none => simp
  | some same => simp [same.bind_eq rearranged apart bind.name]

/-- A day and a name, declared and given in two orders and spellings. -/
theorem respelled_day_and_name :
    (bindAll [⟨"NAME", "string", some "none"⟩, ⟨"@@Day", "date", none⟩]
        [("@day", some "2024-03-10"), ("Name", none)] ["day", "name"]).Perm
      (bindAll [⟨"@day", "date", none⟩, ⟨"@name", "string", some "none"⟩]
        [("name", none), ("DAY", some "2024-03-10")] ["day", "name"]) := by
  refine bindAll_rearranged ["day", "name"] ?_ ?_ ?_ ?_
  · decide
  · decide
  · refine ⟨[⟨"@name", "string", some "none"⟩, ⟨"@day", "date", none⟩], List.Perm.swap _ _ _, ?_⟩
    exact .cons ⟨by decide, rfl, rfl⟩ (.cons ⟨by decide, rfl, rfl⟩ .nil)
  · refine ⟨[("DAY", some "2024-03-10"), ("name", none)], List.Perm.swap _ _ _, ?_⟩
    exact .cons ⟨by decide, rfl⟩ (.cons ⟨by decide, rfl⟩ .nil)

end ReportQuery.Parameter
