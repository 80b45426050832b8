import ReportQuery.Proofs.Query.CompiledNames
import ReportQuery.Proofs.Query.Resolution
import ReportQuery.Proofs.Text.UpperCase

set_option autoImplicit false
set_option relaxedAutoImplicit false

/-!
Normal forms of the texts of a description. All but those of parameter names and directions are
their own normal forms, and a description whose statement compiles has the same one in normal form.
-/

namespace ReportQuery.Query

open Schema (Snapshot Table)
open Text (trim upper words isBlank isBlankText isNameChar isPlainName isSafeIdentifier
  upperChars trim_trim isBlankText_trim IsTrimmed)

section Operators

variable {operator : String}

private theorem upperChars_intercalate (ws : List (List Char)) :
    upperChars ([' '].intercalate ws) = [' '].intercalate (ws.map upperChars) := by
  have blank : upperChars [' '] = [' '] := by decide
  induction ws with
  | nil => rfl
  | cons word ws ih =>
    cases ws with
    | nil => simp
    | cons next ws =>
      rw [List.map_cons] at ih
      rw [List.intercalate_cons_cons, Text.upperChars_append, Text.upperChars_append, blank, ih,
        List.map_cons, List.map_cons, List.intercalate_cons_cons]

private theorem toList_normalOperator (spelled : words operator.toList ≠ []) :
    (normalOperator operator).toList =
      [' '].intercalate ((words operator.toList).map upperChars) := by
  unfold normalOperator
  split
  · contradiction
  · rw [String.toList_ofList, upperChars_intercalate]

/-- The words of an operator in normal form are its words in upper case. -/
private theorem words_normalOperator (spelled : words operator.toList ≠ []) :
    words (normalOperator operator).toList = (words operator.toList).map upperChars := by
  rw [toList_normalOperator spelled]
  refine Text.words_intercalate fun word member => ?_
  obtain ⟨source, among, rfl⟩ := List.mem_map.mp member
  obtain ⟨nonempty, solid⟩ := Text.solid_of_mem_words among
  exact ⟨Text.upperChars_eq_nil_iff.not.mpr nonempty, Text.solid_upperChars solid⟩

theorem normalOperator_normalOperator (operator : String) :
    normalOperator (normalOperator operator) = normalOperator operator := by
  by_cases none : words operator.toList = []
  · have equality : normalOperator operator = "=" := by rw [normalOperator, none]
    rw [equality]
    rfl
  · have again : words (normalOperator operator).toList ≠ [] := by
      rw [words_normalOperator none]
      exact List.map_eq_nil_iff.not.mpr none
    have twice : upperChars ∘ upperChars = upperChars := funext Text.upperChars_upperChars
    refine String.toList_injective ?_
    rw [toList_normalOperator again, words_normalOperator none, List.map_map, twice,
      toList_normalOperator none]

end Operators

section ParameterNames

variable {name : String}

/-- Trimming and dropping an at sign leaves the text as it is: neither an at sign nor a blank stands
at its front. -/
def IsSettledName (name : String) : Prop :=
  ∀ c ∈ name.toList.head?, c ≠ '@' ∧ isBlank c = false

private theorem normalParameterName_cases (name : String) :
    (trim name).toList = '@' :: (normalParameterName name).toList ∨
      (trim name).toList.head? ≠ some '@' ∧ normalParameterName name = trim name := by
  unfold normalParameterName
  split
  · rename_i cs marked
    rw [marked, String.toList_ofList]
    exact .inl rfl
  · rename_i unmarked
    refine .inr ⟨fun first => ?_, String.ofList_toList⟩
    obtain ⟨cs, marked⟩ := List.head?_eq_some_iff.mp first
    exact unmarked cs marked

/-- No blank stands at the end of a parameter name in normal form. -/
theorem back_normalParameterName (name : String) :
    ∀ c ∈ (normalParameterName name).toList.getLast?, isBlank c = false := by
  intro c last
  refine (Text.isTrimmed_trim name).back c ?_
  rcases normalParameterName_cases name with marked | ⟨-, same⟩
  · rw [marked, List.getLast?_cons, Option.mem_def.mp last]
    rfl
  · rw [← same]
    exact last

theorem normalParameterName_eq_self_iff
    (back : ∀ c ∈ name.toList.getLast?, isBlank c = false) :
    normalParameterName name = name ↔ IsSettledName name := by
  constructor
  · intro same
    rcases normalParameterName_cases name with marked | ⟨unmarked, trimmed⟩
    · -- an at sign before the whole name would make its trimmed text longer than the name
      have shorter : (trim name).toList.length ≤ name.toList.length := by
        rw [trim, String.toList_ofList]
        exact (Text.trimChars_within name.toList).length_le
      rw [marked, same, List.length_cons] at shorter
      omega
    · rw [← trimmed, same] at unmarked
      intro c first
      refine ⟨?_, ?_⟩
      · rintro rfl
        exact unmarked first
      · refine (Text.isTrimmed_trim name).front c ?_
        rw [← trimmed, same]
        exact first
  · intro settled
    have trimmed : trim name = name :=
      Text.trim_eq_self ⟨fun c first => (settled c first).2, back⟩
    rcases normalParameterName_cases name with marked | ⟨-, same⟩
    · rw [trimmed] at marked
      exact absurd rfl (settled '@' (by rw [marked]; rfl)).1
    · rw [same, trimmed]

/-- A name that passes the check of parameter names is its own normal form. -/
theorem normalParameterName_of_safe (safe : isSafeIdentifier (normalParameterName name)) :
    normalParameterName (normalParameterName name) = normalParameterName name := by
  refine (normalParameterName_eq_self_iff (back_normalParameterName name)).mpr fun c first => ?_
  have plain := isPlainName_normalParameterName safe
  obtain ⟨cs, spelled⟩ := List.head?_eq_some_iff.mp first
  rw [spelled, isPlainName, Bool.and_eq_true] at plain
  refine ⟨?_, Text.isBlank_of_isNameChar (by simp [isNameChar, plain.1])⟩
  rintro rfl
  exact absurd plain.1 (by decide)

end ParameterNames

section Texts

theorem safeAlias?_safeAlias? (alias? : Option String) :
    safeAlias? (safeAlias? alias?) = safeAlias? alias? := by
  unfold safeAlias?
  cases alias? with
  | none => rfl
  | some text =>
    by_cases safe : isSafeIdentifier (trim text)
    · simp [safe, trim_trim]
    · simp [safe]

theorem aggregateName?_aggregateName? (aggregate? : Option String) :
    aggregateName? (aggregateName? aggregate?) = aggregateName? aggregate? := by
  unfold aggregateName?
  cases aggregate? with
  | none => rfl
  | some text =>
    cases blank : isBlankText text with
    | true => simp [blank]
    | false => simp [Text.isBlankText_upper_trim, blank, Text.trim_upper_trim, Text.upper_upper]

/-- A direction in normal form is its own normal form unless it is empty. -/
theorem normalDirection_normalDirection {direction : String}
    (some_ : normalDirection direction ≠ "") :
    normalDirection (normalDirection direction) = normalDirection direction := by
  have nonempty : (normalDirection direction).isEmpty = false :=
    Bool.eq_false_iff.mpr (String.isEmpty_iff.not.mpr some_)
  rw [normalDirection, nonempty, if_neg Bool.false_ne_true, normalDirection, Text.trim_upper_trim,
    Text.upper_upper]

end Texts

section Descriptions

attribute [ext] Filter SortKey Description

theorem Field.normalize_normalize (field : Field) :
    field.normalize.normalize = field.normalize := by
  simp only [Field.normalize, trim_trim, safeAlias?_safeAlias?, aggregateName?_aggregateName?]

/-- The second filter is the first one in normal form once more. Only its parameter name may differ,
which has lost the blanks at its front and then an at sign. -/
structure Filter.SettlesTo (first second : Filter) : Prop where
  tableKey : second.tableKey = first.tableKey
  columnName : second.columnName = first.columnName
  operator : second.operator = first.operator
  parameterName : second.parameterName = normalParameterName first.parameterName
  stays : second.parameterName = first.parameterName ↔ IsSettledName first.parameterName

theorem Filter.settlesTo_normalize (filter : Filter) :
    Filter.SettlesTo filter.normalize filter.normalize.normalize where
  tableKey := trim_trim filter.tableKey
  columnName := trim_trim filter.columnName
  operator := normalOperator_normalOperator filter.operator
  parameterName := by rw [Filter.normalize]
  stays := by
    simp only [Filter.normalize]
    exact normalParameterName_eq_self_iff (back_normalParameterName filter.parameterName)

theorem Filter.SettlesTo.eq_iff {first second : Filter} (settles : first.SettlesTo second) :
    second = first ↔ IsSettledName first.parameterName := by
  rw [← settles.stays]
  constructor
  · rintro rfl
    rfl
  · intro same
    exact Filter.ext settles.tableKey settles.columnName settles.operator same

/-- The second sort is the first one in normal form once more, where a direction is given. -/
structure SortKey.SettlesTo (first second : SortKey) : Prop where
  tableKey : second.tableKey = first.tableKey
  columnName : second.columnName = first.columnName
  direction : first.direction ≠ "" → second.direction = first.direction

theorem SortKey.settlesTo_normalize (sort : SortKey) :
    SortKey.SettlesTo sort.normalize sort.normalize.normalize where
  tableKey := trim_trim sort.tableKey
  columnName := trim_trim sort.columnName
  direction := normalDirection_normalDirection

theorem SortKey.SettlesTo.eq {first second : SortKey} (settles : first.SettlesTo second)
    (directed : first.direction ≠ "") : second = first :=
  SortKey.ext settles.tableKey settles.columnName (settles.direction directed)

/-- The second description is the first one in normal form once more. -/
structure Description.SettlesTo (first second : Description) : Prop where
  tables : second.tables = first.tables
  fields : second.fields = first.fields
  relations : second.relations = first.relations
  filters : List.Forall₂ Filter.SettlesTo first.filters second.filters
  sorts : List.Forall₂ SortKey.SettlesTo first.sorts second.sorts
  useDistinct : second.useDistinct = first.useDistinct

/-- The relations in normal form are not blank. -/
private theorem filter_normalRelations (ids : List String) :
    ((ids.filter fun id => !isBlankText id).map trim).filter (fun id => !isBlankText id) =
      (ids.filter fun id => !isBlankText id).map trim := by
  refine List.filter_eq_self.mpr fun text member => ?_
  obtain ⟨id, among, rfl⟩ := List.mem_map.mp member
  rw [isBlankText_trim]
  exact (List.mem_filter.mp among).2

theorem Description.settlesTo_normalize (description : Description) :
    Description.SettlesTo description.normalize description.normalize.normalize where
  tables := by simp [Description.normalize, trim_trim]
  fields := by simp [Description.normalize, Field.normalize_normalize]
  relations := by simp [Description.normalize, filter_normalRelations, trim_trim]
  filters := by
    simp only [Description.normalize, List.forall₂_map_left_iff, List.forall₂_map_right_iff]
    exact List.forall₂_same.mpr fun filter _ => filter.settlesTo_normalize
  sorts := by
    simp only [Description.normalize, List.forall₂_map_left_iff, List.forall₂_map_right_iff]
    exact List.forall₂_same.mpr fun sort _ => sort.settlesTo_normalize
  useDistinct := rfl

private theorem eq_of_forall₂ {α : Type} {R : α → α → Prop} {P : α → Prop}
    (same : ∀ a b, R a b → P a → b = a) {as bs : List α} (all : List.Forall₂ R as bs)
    (holds : ∀ a ∈ as, P a) : bs = as := by
  induction all with
  | nil => rfl
  | cons related _ ih =>
    obtain ⟨here, later⟩ := List.forall_mem_cons.mp holds
    rw [same _ _ related here, ih later]

/-- Where every direction is given, the description stays the same exactly if all of its parameter
names do. -/
theorem Description.SettlesTo.eq_iff {first second : Description}
    (settles : first.SettlesTo second) (directed : ∀ sort ∈ first.sorts, sort.direction ≠ "") :
    second = first ↔ ∀ filter ∈ first.filters, IsSettledName filter.parameterName := by
  constructor
  · rintro rfl filter member
    exact (List.forall₂_same.mp settles.filters filter member).eq_iff.mp rfl
  · intro settled
    have filters : second.filters = first.filters :=
      eq_of_forall₂ (fun a b related => (Filter.SettlesTo.eq_iff related).mpr) settles.filters
        settled
    have sorts : second.sorts = first.sorts :=
      eq_of_forall₂ (fun a b related => SortKey.SettlesTo.eq related) settles.sorts directed
    exact Description.ext settles.tables settles.fields settles.relations filters sorts
      settles.useDistinct

end Descriptions

section Compiling

variable {snapshot : Snapshot} {tables : List Table}

/-- Reading the elements in another form that reads alike. -/
private theorem mapM_map_of_mapM {α β ε : Type} {f : α → Except ε β} {g : α → α}
    (keeps : ∀ a b, f a = .ok b → f (g a) = .ok b) {as : List α} {bs : List β}
    (read : as.mapM f = .ok bs) : (as.map g).mapM f = .ok bs :=
  mapM_eq_ok_iff.mpr (List.forall₂_map_left_iff.mpr ((mapM_eq_ok_iff.mp read).imp keeps))

theorem resolveTables_trim {keys : List String}
    (resolved : resolveTables snapshot keys = .ok tables) :
    resolveTables snapshot (keys.map trim) = .ok tables := by
  obtain ⟨all, read, done⟩ := bind_eq_ok.mp resolved
  refine bind_eq_ok.mpr ⟨all, mapM_map_of_mapM (fun key table found => ?_) read, done⟩
  dsimp only at found ⊢
  rw [trim_trim]
  split at found
  · cases found
  · rename_i nonempty
    rw [if_neg nonempty]
    exact found

/-- The relations asked for do not depend on blanks around their ids. -/
theorem resolveRelations_trim (snapshot : Snapshot) (ids : List String) :
    resolveRelations snapshot ((ids.filter fun id => !isBlankText id).map trim) =
      resolveRelations snapshot ids := by
  unfold resolveRelations
  rw [filter_normalRelations, List.mapM_map]
  simp only [Function.comp_def, trim_trim]

theorem compileJoins_trim (anchor : Table) (ids : List String) :
    compileJoins snapshot anchor tables ((ids.filter fun id => !isBlankText id).map trim) =
      compileJoins snapshot anchor tables ids := by
  rw [compileJoins, resolveRelations_trim, ← compileJoins]

theorem resolveColumn_trim {usage : Usage} {tableKey columnName : String} {source : ColumnRef}
    (resolved : resolveColumn tables usage tableKey columnName = .ok source) :
    resolveColumn tables usage (trim tableKey) (trim columnName) = .ok source := by
  have selected : selected? tables (trim tableKey) = selected? tables tableKey := by
    rw [selected?, trim_trim, ← selected?]
  unfold resolveColumn at resolved ⊢
  rw [selected, trim_trim]
  cases found : selected? tables tableKey with
  | none =>
    rw [found] at resolved
    cases resolved
  | some place =>
    rw [found] at resolved
    exact resolved

theorem resolveAggregate_normal {text? : Option String} {aggregate? : Option Aggregate}
    (resolved : resolveAggregate text? = .ok aggregate?) :
    resolveAggregate (aggregateName? text?) = .ok aggregate? := by
  cases name : aggregateName? text? with
  | none =>
    rw [resolveAggregate.eq_def, name] at resolved
    cases text? <;> exact resolved
  | some text =>
    have again : aggregateName? (some text) = some text := by
      rw [← name, aggregateName?_aggregateName?]
    obtain ⟨spelled, rfl⟩ : ∃ spelled, text? = some spelled := by
      cases text? with
      | none => cases name
      | some spelled => exact ⟨spelled, rfl⟩
    unfold resolveAggregate at resolved ⊢
    rw [name] at resolved
    rw [again]
    dsimp only at resolved ⊢
    cases found : Aggregate.ofName? text with
    | none =>
      rw [found] at resolved
      cases resolved
    | some aggregate =>
      rw [found] at resolved
      exact resolved

theorem compileField_normalize {field : Field} {item : SelectItem}
    (done : compileField tables field = .ok item) :
    compileField tables field.normalize = .ok item := by
  obtain ⟨source, resolved, done⟩ := bind_eq_ok.mp done
  obtain ⟨aggregate?, chosen, done⟩ := bind_eq_ok.mp done
  refine bind_eq_ok.mpr ⟨source, resolveColumn_trim resolved, ?_⟩
  refine bind_eq_ok.mpr ⟨aggregate?, resolveAggregate_normal chosen, ?_⟩
  rw [← done, Field.normalize, safeAlias?_safeAlias?]

theorem compileSelection_normalize {fields : List Field} {selection : Selection}
    (done : compileSelection tables fields = .ok selection) :
    compileSelection tables (fields.map Field.normalize) = .ok selection := by
  rcases compileSelection_cases done with ⟨rfl, rfl⟩ | ⟨some_, entries, read, rfl⟩
  · rfl
  · have nonempty : ¬ (fields.map Field.normalize).isEmpty = true := by simpa using some_
    have again := mapM_map_of_mapM (g := Field.normalize)
      (fun field item (done : compileField tables field = .ok item) => compileField_normalize done)
      read
    rw [compileSelection, if_neg nonempty, again]
    rfl

theorem compileFilter_normalize {filter : Filter} {condition : Condition}
    (done : compileFilter tables filter = .ok condition) :
    compileFilter tables filter.normalize = .ok condition := by
  obtain ⟨source, resolved, done⟩ := bind_eq_ok.mp done
  refine bind_eq_ok.mpr ⟨source, resolveColumn_trim resolved, ?_⟩
  rw [Filter.normalize, normalOperator_normalOperator]
  cases found : Operator.ofSymbol? (normalOperator filter.operator) with
  | none =>
    rw [found] at done
    cases done
  | some operator =>
    rw [found] at done
    dsimp only at done ⊢
    split at done
    · rename_i safe
      rw [normalParameterName_of_safe safe, if_pos safe]
      exact done
    · cases done

theorem compileSort_normalize {sort : SortKey} {entry : OrderEntry}
    (done : compileSort tables sort = .ok entry) :
    compileSort tables sort.normalize = .ok entry := by
  obtain ⟨source, resolved, done⟩ := bind_eq_ok.mp done
  refine bind_eq_ok.mpr ⟨source, resolveColumn_trim resolved, ?_⟩
  have known : normalDirection sort.direction ≠ "" := by
    intro empty
    rw [empty] at done
    cases done
  cases found : Direction.ofSymbol? (normalDirection sort.direction) with
  | none =>
    rw [found] at done
    cases done
  | some direction =>
    have again : normalDirection sort.normalize.direction = normalDirection sort.direction :=
      normalDirection_normalDirection known
    rw [found] at done
    rw [again, found]
    exact done

/-- A description in normal form compiles to the same statement. -/
theorem compile_normalize {description : Description} {compiled : Compiled}
    (done : compile snapshot description = .ok compiled) :
    compile snapshot description.normalize = .ok compiled := by
  obtain ⟨tables, resolved, done⟩ := bind_eq_ok.mp done
  refine bind_eq_ok.mpr ⟨tables, resolveTables_trim resolved, ?_⟩
  cases tables with
  | nil => cases done
  | cons anchor others =>
    obtain ⟨selection, fields, done⟩ := bind_eq_ok.mp done
    obtain ⟨conditions, filters, done⟩ := bind_eq_ok.mp done
    obtain ⟨order, sorts, done⟩ := bind_eq_ok.mp done
    obtain ⟨joins, joined, done⟩ := bind_eq_ok.mp done
    refine bind_eq_ok.mpr ⟨selection, compileSelection_normalize fields, ?_⟩
    refine bind_eq_ok.mpr ⟨conditions, mapM_map_of_mapM (fun filter condition here =>
      compileFilter_normalize here) filters, ?_⟩
    refine bind_eq_ok.mpr ⟨order, mapM_map_of_mapM (fun sort entry here =>
      compileSort_normalize here) sorts, ?_⟩
    refine bind_eq_ok.mpr ⟨joins, ?_, done⟩
    rw [Description.normalize, compileJoins_trim]
    exact joined

end Compiling

end ReportQuery.Query
