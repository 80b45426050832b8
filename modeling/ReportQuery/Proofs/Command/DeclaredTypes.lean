import Mathlib
import ReportQuery.Command.Assignment
import ReportQuery.Proofs.Parameter.Binding
import ReportQuery.Proofs.Sql.Edits

set_option autoImplicit false
set_option relaxedAutoImplicit false

/-!
The types that are given on the command line. A placeholder is declared under its own spelling before
all other names, so that its own definition is the one that counts, and this definition takes the type
that is given for exactly this spelling. Values are found by names that compare equal, types are not.
-/

namespace ReportQuery.Command

open Parameter
open Sql (prepare mem_names_prepare_iff nodup_names_prepare all_isNameChar_of_isPlainName)
open Text (lower isPlainName distinct_eq_self prefix_distinct find?_key_eq_some_iff)

/-- The definition that is made for a name. -/
def declaredFor (types : List (String × String)) (name : String) : Definition :=
  ⟨name, (types.lookup name).getD Kind.string.name, none⟩

/-- The bind of a placeholder that is declared under its own spelling. -/
def bindFor (types : List (String × String)) (values : Values) (placeholder : String) : Bind :=
  ⟨placeholder, (declaredFor types placeholder).kind, (declaredFor types placeholder).value? values⟩

/-- The type that is given for a placeholder under a name that differs at most in case. -/
def givenKind (types : List (String × String)) (placeholder : String) : Kind :=
  ((types.find? fun entry => lower entry.1 = lower placeholder).map fun entry =>
    Kind.ofName entry.2).getD .string

/-- Every placeholder has a bind with the type that is given for it. -/
def TypesReach (types : List (String × String)) (placeholders : List String) (binds : List Bind) :
    Prop :=
  ∀ placeholder ∈ placeholders, ∃ bind ∈ binds,
    bind.name = placeholder ∧ bind.kind = givenKind types placeholder

instance (types : List (String × String)) (placeholders : List String) (binds : List Bind) :
    Decidable (TypesReach types placeholders binds) :=
  inferInstanceAs (Decidable (∀ placeholder ∈ placeholders, ∃ bind ∈ binds,
    bind.name = placeholder ∧ bind.kind = givenKind types placeholder))

variable {sql : List Char} {types : List (String × String)} {values : Values}
  {names placeholders bound : List String} {placeholder : String} {definitions : List Definition}

theorem bindFor_kind :
    (bindFor types values placeholder).kind = (declaredFor types placeholder).kind := by
  rw [bindFor]

section Binds

/-- A plain name has no at sign to drop. -/
theorem foldedName_of_plain {name : String} (plain : isPlainName name.toList) :
    foldedName name = lower name := by
  have bare : bareName name = name := by
    rw [bareName]
    cases chars : name.toList with
    | nil => rw [List.dropWhile_nil, ← chars, String.ofList_toList]
    | cons c cs =>
      rw [chars] at plain
      have other : c ≠ '@' := by
        rintro rfl
        exact absurd (all_isNameChar_of_isPlainName plain '@' List.mem_cons_self) (by decide)
      rw [List.dropWhile_cons_of_neg (by simpa using other), ← chars, String.ofList_toList]
  rw [foldedName, bare]

theorem foldedName_of_mem_names (member : placeholder ∈ (prepare sql).names) :
    foldedName placeholder = lower placeholder := by
  rw [← String.ofList_toList (s := placeholder), mem_names_prepare_iff] at member
  obtain ⟨found, stands, same⟩ := member
  refine foldedName_of_plain ?_
  rw [← same]
  exact stands.1.plain

/-- A placeholder in one case only stands for its folded name. -/
theorem placeholderFor?_of_apart (apart : (placeholders.map lower).Nodup)
    (member : placeholder ∈ placeholders) :
    placeholderFor? placeholders (lower placeholder) = some placeholder := by
  have reversed : (placeholders.reverse.map lower).Nodup := by
    rw [List.map_reverse, List.nodup_reverse]
    exact apart
  exact (find?_key_eq_some_iff reversed).mpr ⟨List.mem_reverse.mpr member, rfl⟩

/-- Where all placeholders are bound, no definition adds a bind. -/
theorem bindsAfter_eq_nil (all : ∀ placeholder ∈ placeholders, lower placeholder ∈ bound) :
    bindsAfter bound values placeholders definitions = [] := by
  induction definitions with
  | nil => rfl
  | cons definition rest ih =>
    rw [bindsAfter]
    split
    · exact ih
    · rename_i placeholder found
      obtain ⟨member, same⟩ := placeholderFor?_eq_some found
      have seen := all placeholder member
      rw [same] at seen
      rw [if_pos (by simpa using seen), ih]

/-- Names that stand for themselves and were not bound before are bound in their order. -/
theorem bindsAfter_declaredFor (folds : ∀ name ∈ names, foldedName name = lower name)
    (stand : ∀ name ∈ names, placeholderFor? placeholders (lower name) = some name)
    (apart : (names.map lower).Nodup) (fresh : ∀ name ∈ names, lower name ∉ bound) :
    bindsAfter bound values placeholders (names.map (declaredFor types) ++ definitions) =
      names.map (bindFor types values) ++
        bindsAfter ((names.map lower).reverse ++ bound) values placeholders definitions := by
  -- Each name that is bound joins those bound before, so these vary along the induction.
  induction names generalizing bound with
  | nil => rfl
  | cons name names ih =>
    obtain ⟨fold, folds⟩ := List.forall_mem_cons.mp folds
    obtain ⟨stands, stand⟩ := List.forall_mem_cons.mp stand
    obtain ⟨alone, apart⟩ := List.nodup_cons.mp apart
    obtain ⟨unbound, fresh⟩ := List.forall_mem_cons.mp fresh
    have later : ∀ other ∈ names, lower other ∉ lower name :: bound := by
      intro other member known
      rcases List.mem_cons.mp known with same | early
      · exact alone (same ▸ List.mem_map_of_mem member)
      · exact fresh other member early
    have own : foldedName (declaredFor types name).name = lower name := fold
    rw [List.map_cons, List.cons_append, bindsAfter, own, stands]
    dsimp only
    rw [if_neg (by simpa using unbound), ih folds stand apart later, List.map_cons, List.map_cons,
      List.reverse_cons, List.append_assoc, List.cons_append]
    rfl

/-- Placeholders in one case each are bound one by one, as the definition of their own spelling says,
whatever other names have a value or a type. -/
theorem bindAll_definitionsFor (given : List (String × String))
    (apart : ((prepare sql).names.map lower).Nodup) :
    bindAll (definitionsFor given types (prepare sql).names) values (prepare sql).names =
      (prepare sql).names.map (bindFor types values) := by
  obtain ⟨others, whole⟩ := prefix_distinct (prepare sql).names (given.map Prod.fst ++ types.map Prod.fst)
  rw [distinct_eq_self (nodup_names_prepare sql), ← List.append_assoc] at whole
  have definitions : definitionsFor given types (prepare sql).names =
      (prepare sql).names.map (declaredFor types) ++ others.map (declaredFor types) := by
    rw [← List.map_append, whole]
    rfl
  rw [definitions, bindAll, bindsAfter_declaredFor (fun _ => foldedName_of_mem_names)
    (fun _ => placeholderFor?_of_apart apart) apart (by simp),
    bindsAfter_eq_nil fun placeholder member => by simp [List.mem_map_of_mem member], List.append_nil]

end Binds

section Types

/-- The look-up by exactly the name finds what the look-up ignoring case finds, if the case is the same. -/
theorem lookup_of_apart (apart : (types.map fun entry => lower entry.1).Nodup) :
    types.lookup placeholder =
      (types.find? fun entry => lower entry.1 = lower placeholder).bind fun entry =>
        if entry.1 = placeholder then some entry.2 else none := by
  induction types with
  | nil => rfl
  | cons entry rest ih =>
    obtain ⟨alone, apart⟩ := List.nodup_cons.mp apart
    by_cases folds : lower entry.1 = lower placeholder
    · rw [List.find?_cons_of_pos (by simpa using folds), Option.bind_some]
      by_cases same : entry.1 = placeholder
      · rw [if_pos same, ← same, List.lookup_cons_self]
      · have unread : rest.lookup placeholder = none := by
          refine List.lookup_eq_none_iff.mpr fun other member => ?_
          rw [bne_iff_ne]
          rintro rfl
          exact alone (List.mem_map.mpr ⟨other, member, folds.symm⟩)
        rw [if_neg same, List.lookup_cons, beq_false_of_ne (Ne.symm same)]
        exact unread
    · have different : placeholder ≠ entry.1 := fun same => folds (by rw [same])
      rw [List.find?_cons_of_neg (by simpa using folds), List.lookup_cons, beq_false_of_ne different]
      exact ih apart

/-- The type of a name under exactly its spelling is the type given for it ignoring case, unless a type
other than text is given for another spelling. -/
theorem kind_declaredFor_iff (apart : (types.map fun entry => lower entry.1).Nodup) :
    (declaredFor types placeholder).kind = givenKind types placeholder ↔
      ∀ entry ∈ types, lower entry.1 = lower placeholder →
        entry.1 = placeholder ∨ Kind.ofName entry.2 = .string := by
  have string : Kind.ofName Kind.string.name = .string := by decide
  -- At most one entry compares equal, and it is the one that is found.
  have listed : (∀ entry ∈ types, lower entry.1 = lower placeholder →
      entry.1 = placeholder ∨ Kind.ofName entry.2 = .string) ↔
        ∀ entry ∈ types.find? fun entry => lower entry.1 = lower placeholder,
          entry.1 = placeholder ∨ Kind.ofName entry.2 = .string := by
    simp only [Option.mem_def, find?_key_eq_some_iff apart, and_imp]
  rw [listed, declaredFor, Definition.kind, givenKind, lookup_of_apart apart]
  cases types.find? fun entry => lower entry.1 = lower placeholder with
  | none => simp [string]
  | some entry =>
    by_cases same : entry.1 = placeholder
    · simp [same]
    · have bound : Kind.string = Kind.ofName entry.2 ↔ Kind.ofName entry.2 = .string := eq_comm
      simp [same, string, bound]

end Types

/-- Where no two placeholders and no two names with a type differ in case only, every placeholder is
bound, and with the type that is given for it, case ignored, exactly if each type other than text that
is given for it is given for exactly its spelling. -/
theorem types_reach_iff (sql : List Char) (given types : List (String × String))
    (apart : ((prepare sql).names.map lower).Nodup)
    (typesApart : (types.map fun entry => lower entry.1).Nodup) :
    let placeholders := (prepare sql).names
    let values := givenValues given
    let binds := bindAll (definitionsFor given types placeholders) values placeholders
    binds = placeholders.map (bindFor types values) ∧
      (TypesReach types placeholders binds ↔
        ∀ placeholder ∈ placeholders, ∀ entry ∈ types, lower entry.1 = lower placeholder →
          entry.1 = placeholder ∨ Kind.ofName entry.2 = .string) := by
  intro placeholders values binds
  have bound : binds = placeholders.map (bindFor types values) := bindAll_definitionsFor given apart
  refine ⟨bound, ?_⟩
  rw [bound, TypesReach]
  refine forall₂_congr fun placeholder member => ?_
  rw [← kind_declaredFor_iff typesApart]
  constructor
  · rintro ⟨bind, among, own, kind⟩
    obtain ⟨name, -, rfl⟩ := List.mem_map.mp among
    obtain rfl : name = placeholder := own
    rw [← kind, bindFor_kind]
  · intro kind
    refine ⟨bindFor types values placeholder, List.mem_map_of_mem member, rfl, ?_⟩
    rw [bindFor_kind, kind]

/-- A type that is given for the spelling of the placeholder reaches it. -/
theorem same_case_typed :
    TypesReach [("day", "date")] (prepare "SELECT @day".toList).names
      (bindAll (definitionsFor [("DAY", "2024-03-10")] [("day", "date")]
        (prepare "SELECT @day".toList).names) (givenValues [("DAY", "2024-03-10")])
        (prepare "SELECT @day".toList).names) := by
  have names : (prepare "SELECT @day".toList).names = ["day"] := by decide_cbv
  refine (types_reach_iff "SELECT @day".toList [("DAY", "2024-03-10")] [("day", "date")] ?_ ?_).2.mpr ?_
  · rw [names]
    exact List.nodup_singleton _
  · exact List.nodup_singleton _
  · rw [names]
    intro placeholder member entry among _
    rw [List.mem_singleton.mp member, List.mem_singleton.mp among]
    exact .inl rfl

/-- A type that is given for another case does not reach the placeholder, though the value does. -/
theorem other_case_untyped :
    readValues ["DAY=2024-03-10"] = .ok [("DAY", "2024-03-10")] ∧
      readTypes ["Day=date"] = .ok [("Day", "date")] ∧
      (prepare "SELECT @day".toList).names = ["day"] ∧
      givenKind [("Day", "date")] "day" = .date ∧
      bindAll (definitionsFor [("DAY", "2024-03-10")] [("Day", "date")] ["day"])
          (givenValues [("DAY", "2024-03-10")]) ["day"] =
        [⟨"day", .string, some (.string "2024-03-10")⟩] ∧
      ¬ TypesReach [("Day", "date")] ["day"]
        (bindAll (definitionsFor [("DAY", "2024-03-10")] [("Day", "date")] ["day"])
          (givenValues [("DAY", "2024-03-10")]) ["day"]) := by
  decide_cbv

end ReportQuery.Command
