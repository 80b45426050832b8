import Mathlib.Data.List.Nodup
import ReportQuery.Parameter.Binding
import ReportQuery.Proofs.Query.Placeholders

set_option autoImplicit false
set_option relaxedAutoImplicit false

/-!
Which placeholders of a statement are bound. Every declared name gets one bind, under the last of
its spellings in the statement; a placeholder in another case of the same name stays unbound.
-/

namespace ReportQuery.Parameter

open Query (Description Compiled compile normalParameterName names_prepare_of_compile
  mem_lower_parameterNames_of_compile)
open Schema (Snapshot)
open Sql (prepare)
open Text (lower mem_distinct nodup_distinct)

/-- Some definition names the placeholder, leading at signs and case aside. -/
def IsDeclared (definitions : List Definition) (placeholder : String) : Prop :=
  ∃ definition ∈ definitions, foldedName definition.name = lower placeholder

variable {definitions : List Definition} {values : Values} {placeholders bound : List String}
  {placeholder folded : String} {bind : Bind}

section Placeholder

theorem placeholderFor?_eq_some (found : placeholderFor? placeholders folded = some placeholder) :
    placeholder ∈ placeholders ∧ lower placeholder = folded := by
  refine ⟨List.mem_reverse.mp (List.mem_of_find?_eq_some found), ?_⟩
  simpa using List.find?_some found

theorem exists_placeholderFor? (member : placeholder ∈ placeholders) :
    ∃ last, placeholderFor? placeholders (lower placeholder) = some last := by
  refine Option.isSome_iff_exists.mp (List.find?_isSome.mpr ?_)
  exact ⟨placeholder, List.mem_reverse.mpr member, by simp⟩

end Placeholder

section Binds

/-- A bind stands for the last spelling of a name that was not bound before, and comes from the
first definition of the name. -/
private theorem mem_bindsAfter : bind ∈ bindsAfter bound values placeholders definitions ↔
    lower bind.name ∉ bound ∧ placeholderFor? placeholders (lower bind.name) = some bind.name ∧
      ∃ definition, definitions.find? (fun d => foldedName d.name = lower bind.name) =
          some definition ∧ bind = ⟨bind.name, definition.kind, definition.value? values⟩ := by
  induction definitions generalizing bound with
  | nil => simp [bindsAfter]
  | cons definition rest ih =>
    rw [bindsAfter]
    by_cases named : foldedName definition.name = lower bind.name
    · rw [List.find?_cons_of_pos (by simpa using named)]
      cases found : placeholderFor? placeholders (foldedName definition.name) with
      | none =>
        rw [named] at found
        simp [ih, found]
      | some placeholder =>
        dsimp only
        rw [named] at found ⊢
        by_cases seen : lower bind.name ∈ bound
        · simp [ih, seen]
        · rw [if_neg (by simpa using seen), List.mem_cons, ih, found]
          simp only [List.mem_cons_self, not_true_eq_false, false_and, or_false, seen,
            not_false_eq_true, true_and, Option.some.injEq, exists_eq_left']
          constructor
          · rintro rfl
            exact ⟨rfl, rfl⟩
          · rintro ⟨rfl, same⟩
            exact same
    · rw [List.find?_cons_of_neg (by simpa using named)]
      cases found : placeholderFor? placeholders (foldedName definition.name) with
      | none => exact ih
      | some placeholder =>
        dsimp only
        split
        · exact ih
        · have other : bind ≠ ⟨placeholder, definition.kind, definition.value? values⟩ := by
            rintro rfl
            exact named (placeholderFor?_eq_some found).2.symm
          rw [List.mem_cons, ih]
          simp [other, Ne.symm named]

theorem mem_bindAll : bind ∈ bindAll definitions values placeholders ↔
    placeholderFor? placeholders (lower bind.name) = some bind.name ∧
      ∃ definition, definitions.find? (fun d => foldedName d.name = lower bind.name) =
          some definition ∧ bind = ⟨bind.name, definition.kind, definition.value? values⟩ := by
  rw [bindAll, mem_bindsAfter]
  simp

private theorem nodup_bindsAfter :
    ((bindsAfter bound values placeholders definitions).map fun bind => lower bind.name).Nodup := by
  induction definitions generalizing bound with
  | nil => exact List.nodup_nil
  | cons definition rest ih =>
    rw [bindsAfter]
    split
    · exact ih
    · rename_i placeholder found
      split
      · exact ih
      · rw [List.map_cons, List.nodup_cons]
        refine ⟨fun again => ?_, ih⟩
        obtain ⟨bind, member, same⟩ := List.mem_map.mp again
        have fresh := (mem_bindsAfter.mp member).1
        rw [same, (placeholderFor?_eq_some found).2] at fresh
        exact fresh List.mem_cons_self

/-- No name is bound twice, not even in different cases. -/
theorem nodup_bindAll :
    ((bindAll definitions values placeholders).map fun bind => lower bind.name).Nodup :=
  nodup_bindsAfter

/-- Bound are the declared placeholders that are the last spelling of their name. -/
theorem mem_names_bindAll : placeholder ∈ (bindAll definitions values placeholders).map Bind.name ↔
    IsDeclared definitions placeholder ∧
      placeholderFor? placeholders (lower placeholder) = some placeholder := by
  rw [List.mem_map]
  constructor
  · rintro ⟨bind, member, rfl⟩
    obtain ⟨last, definition, first, -⟩ := mem_bindAll.mp member
    have among := List.mem_of_find?_eq_some first
    have names := List.find?_some first
    exact ⟨⟨definition, among, by simpa using names⟩, last⟩
  · rintro ⟨⟨definition, among, names⟩, last⟩
    have declared : (definitions.find? fun d => foldedName d.name = lower placeholder).isSome :=
      List.find?_isSome.mpr ⟨definition, among, by simpa using names⟩
    obtain ⟨first, found⟩ := Option.isSome_iff_exists.mp declared
    exact ⟨⟨placeholder, first.kind, first.value? values⟩, mem_bindAll.mpr ⟨last, first, found, rfl⟩,
      rfl⟩

theorem count_name_bindAll (member : placeholder ∈ (bindAll definitions values placeholders).map
    Bind.name) : ((bindAll definitions values placeholders).map Bind.name).count placeholder = 1 := by
  have distinct : ((bindAll definitions values placeholders).map Bind.name).Nodup := by
    have folded : (((bindAll definitions values placeholders).map Bind.name).map lower).Nodup := by
      rw [List.map_map]
      exact nodup_bindAll
    exact List.Nodup.of_map lower folded
  exact List.count_eq_one_of_mem distinct member

/-- All declared placeholders are bound exactly when no two of them differ in case only. -/
theorem declared_bound_iff : (∀ placeholder ∈ placeholders, IsDeclared definitions placeholder →
      placeholder ∈ (bindAll definitions values placeholders).map Bind.name) ↔
    ∀ one ∈ placeholders, ∀ other ∈ placeholders, IsDeclared definitions one →
      lower one = lower other → one = other := by
  constructor
  · intro all one first other second declared same
    have declaredOther : IsDeclared definitions other := by
      obtain ⟨definition, among, names⟩ := declared
      exact ⟨definition, among, names.trans same⟩
    have here := (mem_names_bindAll.mp (all one first declared)).2
    have there := (mem_names_bindAll.mp (all other second declaredOther)).2
    rw [same, there] at here
    exact (Option.some.inj here).symm
  · intro apart placeholder member declared
    obtain ⟨last, found⟩ := exists_placeholderFor? member
    obtain ⟨among, same⟩ := placeholderFor?_eq_some found
    obtain rfl := apart placeholder member last among declared same.symm
    exact mem_names_bindAll.mpr ⟨declared, found⟩

end Binds

/-- A compiled query whose parameter names are all declared has every placeholder bound exactly when
no parameter of its filters is written in two cases. -/
theorem compiled_bound_iff {snapshot : Snapshot} {description : Description} {compiled : Compiled}
    (done : compile snapshot description = .ok compiled)
    (declaresAll : ∀ name ∈ compiled.parameterNames, IsDeclared definitions name) :
    (∀ placeholder ∈ (prepare compiled.sql.toList).names,
        placeholder ∈ (bindAll definitions values (prepare compiled.sql.toList).names).map Bind.name) ↔
      ∀ one ∈ description.filters, ∀ other ∈ description.filters,
        lower (normalParameterName one.parameterName) =
            lower (normalParameterName other.parameterName) →
          normalParameterName one.parameterName = normalParameterName other.parameterName := by
  have declared : ∀ placeholder ∈ (prepare compiled.sql.toList).names,
      IsDeclared definitions placeholder := by
    intro placeholder member
    have folded := (mem_lower_parameterNames_of_compile done).mpr (List.mem_map_of_mem member)
    obtain ⟨name, among, same⟩ := List.mem_map.mp folded
    obtain ⟨definition, known, names⟩ := declaresAll name among
    exact ⟨definition, known, names.trans same⟩
  have names_iff : ∀ name, name ∈ (prepare compiled.sql.toList).names ↔
      ∃ filter ∈ description.filters, normalParameterName filter.parameterName = name := by
    intro name
    rw [names_prepare_of_compile done, mem_distinct, List.mem_map]
  generalize (prepare compiled.sql.toList).names = placeholders at declared names_iff ⊢
  constructor
  · intro all one first other second same
    have apart := declared_bound_iff.mp fun placeholder member _ => all placeholder member
    have here := (names_iff _).mpr ⟨one, first, rfl⟩
    exact apart _ here _ ((names_iff _).mpr ⟨other, second, rfl⟩) (declared _ here) same
  · intro apart placeholder member
    refine declared_bound_iff.mpr ?_ placeholder member (declared placeholder member)
    intro one first other second _ same
    obtain ⟨f, inFirst, rfl⟩ := (names_iff one).mp first
    obtain ⟨g, inSecond, rfl⟩ := (names_iff other).mp second
    exact apart f inFirst g inSecond same

/-- Every bind of a prepared statement carries the spelling of a placeholder, with the kind and the
value of the first definition that names it, and every declared name has exactly one bind. All
declared placeholders are bound exactly when no two of them differ in case only; so a compiled query
whose parameter names are all declared has every placeholder bound exactly when its filters write no
parameter in two cases. -/
theorem declared_placeholders_bound_iff (sql : List Char) (definitions : List Definition)
    (values : Values) :
    let placeholders := (prepare sql).names
    let binds := bindAll definitions values placeholders
    (∀ bind ∈ binds, bind.name ∈ placeholders ∧
      ∃ definition, definitions.find? (fun d => foldedName d.name = lower bind.name) =
          some definition ∧ bind = ⟨bind.name, definition.kind, definition.value? values⟩) ∧
    (binds.map fun bind => lower bind.name).Nodup ∧
    (∀ placeholder ∈ placeholders, IsDeclared definitions placeholder →
      ∃ bind ∈ binds, lower bind.name = lower placeholder) ∧
    ((∀ placeholder ∈ placeholders, IsDeclared definitions placeholder →
        (binds.map Bind.name).count placeholder = 1) ↔
      ∀ one ∈ placeholders, ∀ other ∈ placeholders, IsDeclared definitions one →
        lower one = lower other → one = other) ∧
    ∀ (snapshot : Snapshot) (description : Description) (compiled : Compiled),
      compile snapshot description = .ok compiled → sql = compiled.sql.toList →
      (∀ name ∈ compiled.parameterNames, IsDeclared definitions name) →
      ((∀ placeholder ∈ placeholders, placeholder ∈ binds.map Bind.name) ↔
        ∀ one ∈ description.filters, ∀ other ∈ description.filters,
          lower (normalParameterName one.parameterName) =
              lower (normalParameterName other.parameterName) →
            normalParameterName one.parameterName = normalParameterName other.parameterName) := by
  intro placeholders binds
  refine ⟨fun bind member => ?_, nodup_bindAll, fun placeholder member declared => ?_, ?_, ?_⟩
  · obtain ⟨last, first⟩ := mem_bindAll.mp member
    exact ⟨(placeholderFor?_eq_some last).1, first⟩
  · obtain ⟨last, found⟩ := exists_placeholderFor? member
    obtain ⟨-, same⟩ := placeholderFor?_eq_some found
    have declaredLast : IsDeclared definitions last := by
      obtain ⟨definition, among, names⟩ := declared
      exact ⟨definition, among, names.trans same.symm⟩
    have bound : last ∈ binds.map Bind.name :=
      mem_names_bindAll.mpr ⟨declaredLast, by rw [same]; exact found⟩
    obtain ⟨bind, among, rfl⟩ := List.mem_map.mp bound
    exact ⟨bind, among, same⟩
  · refine Iff.trans ?_ (@declared_bound_iff definitions values placeholders)
    constructor
    · intro all placeholder member declared
      exact List.count_pos_iff.mp (all placeholder member declared ▸ Nat.one_pos)
    · intro all placeholder member declared
      exact count_name_bindAll (all placeholder member declared)
  · rintro snapshot description compiled done rfl declaresAll
    exact compiled_bound_iff done declaresAll

/-- Orders with a total. -/
def rangedSnapshot : Snapshot where
  tables := [⟨"shop.Order", "shop", "Order", "", [⟨"Total", "numeric", true⟩]⟩]

/-- Two filters on the total that name one parameter. -/
def rangedDescription : Description where
  tables := ["shop.Order"]
  filters := [⟨"shop.Order", "Total", ">", "@Total"⟩, ⟨"shop.Order", "Total", "<>", "Total"⟩]

theorem ranged_all_bound :
    ∃ compiled, compile rangedSnapshot rangedDescription = .ok compiled ∧
      compiled.parameterNames = ["Total"] ∧ ∀ placeholder ∈ (prepare compiled.sql.toList).names,
        placeholder ∈ (bindAll [⟨"@TOTAL", "decimal", none⟩] [("total", some "5")]
          (prepare compiled.sql.toList).names).map Bind.name := by
  have done : ∃ compiled, compile rangedSnapshot rangedDescription = .ok compiled ∧
      compiled.parameterNames = ["Total"] := by
    refine ⟨⟨⟨false, .everything 0, ⟨"shop", "Order", 0⟩, [],
      [⟨⟨0, "Total"⟩, .greater, "Total"⟩, ⟨⟨0, "Total"⟩, .notEqual, "Total"⟩], [], []⟩,
      ["Total"]⟩, ?_, rfl⟩
    decide +kernel
  obtain ⟨compiled, done, names⟩ := done
  have same : foldedName "@TOTAL" = lower "Total" := by decide +kernel
  have declared : ∀ name ∈ compiled.parameterNames,
      IsDeclared [⟨"@TOTAL", "decimal", none⟩] name := by
    rw [names]
    intro name member
    obtain rfl := List.mem_singleton.mp member
    exact ⟨_, List.mem_cons_self, same⟩
  have one : ∀ filter ∈ rangedDescription.filters,
      normalParameterName filter.parameterName = "Total" := by decide +kernel
  refine ⟨compiled, done, names, ?_⟩
  refine ((declared_placeholders_bound_iff compiled.sql.toList [⟨"@TOTAL", "decimal", none⟩]
    [("total", some "5")]).2.2.2.2 _ _ compiled done rfl declared).mpr ?_
  intro f first g second _
  rw [one f first, one g second]

/-- Of a declared placeholder in two cases only the last spelling is bound. -/
theorem other_case_unbound :
    (prepare "SELECT @name, @NAME".toList).names = ["name", "NAME"] ∧
      IsDeclared [⟨"name", "string", none⟩] "name" ∧
      (bindAll [⟨"name", "string", none⟩] [("name", some "x")]
        (prepare "SELECT @name, @NAME".toList).names).map Bind.name = ["NAME"] := by
  have names : (prepare "SELECT @name, @NAME".toList).names = ["name", "NAME"] := by decide +kernel
  refine ⟨names, ⟨_, List.mem_cons_self, by decide +kernel⟩, ?_⟩
  rw [names]
  decide +kernel

end ReportQuery.Parameter
