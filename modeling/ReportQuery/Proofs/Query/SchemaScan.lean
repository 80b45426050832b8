import ReportQuery.Proofs.Query.ConditionScan
import ReportQuery.Proofs.Query.Qualifiers

set_option autoImplicit false
set_option relaxedAutoImplicit false

/-!
The schemas that the safety rules find in a statement: those of the shown tables, and every qualifier
that is not the name of a shown table.
-/

namespace ReportQuery.Query

open Sql (TableReference tableReferences tableReference tableSchemas columnQualifiers referencedSchemas
  tableLists stripLiterals)
open Text (Piece pieces findAll lower upper isNameChar isPlainName mem_distinct)

namespace Statement

/-- A parameter that is called FROM makes the scan take a later AND for a table. -/
def ReadsAnd (statement : Statement) : Prop :=
  ∃ condition ∈ statement.conditions.dropLast, upper condition.parameter = "FROM"

/-- The scan takes columns of that name for columns of a shown table. -/
def Declares (statement : Statement) (name : String) : Prop :=
  ((∃ table ∈ statement.shownTables, name = aliasText table.number) ∨
      name = "and" ∧ statement.ReadsAnd) ∧
    ∀ table ∈ statement.shownTables, lower table.schema ≠ name

/-- The list, in lower case, holds the schemas of the shown tables, and of every hidden table the alias
and, unless it is declared, the schema. -/
def PassesWith (statement : Statement) (allowed : List String) : Prop :=
  (∀ table ∈ statement.shownTables, lower table.schema ∈ allowed) ∧
    ∀ table ∈ statement.hiddenTables, aliasText table.number ∈ allowed ∧
      (statement.Declares (lower table.schema) ∨ lower table.schema ∈ allowed)

end Statement

variable {statement : Statement} {reference : TableReference} {name : String}

section Names

theorem lower_of_plain {name : String} (letters : ∀ c ∈ name.toList, isNameChar c) :
    (lower name).toList = name.toList.map Char.toLower := by
  have ascii : ∀ c ∈ name.toList, c.toNat < 0x80 := fun c member =>
    Sql.toNat_lt_of_isNameChar (letters c member)
  rw [lower, String.toList_ofList, Text.lowerChars_of_ascii ascii]

private theorem nameChar_toLower {c : Char} (letter : isNameChar c) :
    isNameChar c.toLower ∧ (Text.isNameStart c → Text.isNameStart c.toLower) := by
  have ascii : ∀ c : Char, c.toNat < 0x80 → isNameChar c →
      isNameChar c.toLower ∧ (Text.isNameStart c → Text.isNameStart c.toLower) :=
    Text.forall_ascii (by decide)
  exact ascii c (Sql.toNat_lt_of_isNameChar letter) letter

/-- A plain name stays plain in lower case. -/
theorem isPlainName_lower (plain : isPlainName name.toList) : isPlainName (lower name).toList := by
  have letters := isNameChar_of_isPlainName plain
  rw [lower_of_plain letters]
  cases text : name.toList with
  | nil => rwa [text] at plain
  | cons c cs =>
    rw [text] at plain letters
    obtain ⟨first, -⟩ := (Bool.and_eq_true _ _).mp plain
    have lowered : ∀ d ∈ cs.map Char.toLower, isNameChar d := by
      intro d member
      obtain ⟨e, among, rfl⟩ := List.mem_map.mp member
      exact (nameChar_toLower (letters e (List.mem_cons_of_mem c among))).1
    rw [List.map_cons, isPlainName, (nameChar_toLower (letters c List.mem_cons_self)).2 first,
      List.all_eq_true.mpr lowered]
    rfl

private theorem toLower_of_isDigit {c : Char} (digit : c.isDigit) : c.toLower = c := by
  have small : c.toNat < 0x80 := by
    simp only [Char.isDigit, Bool.and_eq_true, decide_eq_true_eq] at digit
    exact (UInt32.le_iff_toNat_le.mp digit.2).trans_lt (by decide)
  have ascii : ∀ c : Char, c.toNat < 0x80 → c.isDigit → c.toLower = c :=
    Text.forall_ascii (by decide)
  exact ascii c small digit

/-- An alias is in lower case. -/
theorem lower_aliasText (n : Nat) : lower (aliasText n) = aliasText n := by
  have fixed : ∀ c ∈ (aliasText n).toList, c.toLower = c := by
    intro c member
    rw [aliasText, String.toList_append, Nat.toString_eq_repr, Nat.toList_repr] at member
    rcases List.mem_append.mp member with first | digit
    · obtain rfl : c = 't' := by simpa using first
      decide
    · exact toLower_of_isDigit (Nat.isDigit_of_mem_toDigits (by decide) (by decide) digit)
  rw [← String.toList_inj, lower_of_plain isNameChar_of_mem_aliasText, List.map_congr_left fixed,
    List.map_id']

end Names

section References

theorem mem_referencesFrom {before : Option Char} {cs : List Char} (busy : isIdle reference = false) :
    reference ∈ referencesFrom before cs ↔
      reference ∈ (pieces tableReference before cs).filterMap Piece.value? := by
  simp [referencesFrom, busy]

private theorem readable_conditionRest (plain : ∀ token ∈ statement.tokens, token.IsPlain)
    {behind : List Condition} (among : behind ∈ conditionsBehindFrom statement.conditions) :
    Readable (conditionRest behind statement.lastLines) := by
  have opened : conditionRest behind statement.lastLines ∈ afterFrom statement.fromTail := by
    rw [statement.afterFrom_fromTail]
    exact List.mem_map_of_mem among
  obtain ⟨front, split⟩ := suffix_of_mem_afterFrom opened
  have whole := statement.readable_fromTail plain
  rw [← split] at whole
  exact whole.right

private theorem length_of_isIdle (idle : isIdle reference) : reference.parts.length ≤ 1 :=
  of_decide_eq_true ((Bool.and_eq_true _ _).mp idle).1

variable (plain : ∀ token ∈ statement.tokens, token.IsPlain)
  (selects : statement.selection ≠ .items []) (compares : ∀ join ∈ statement.joins, join.on ≠ [])
include plain selects compares

/-- The references in a statement, idle ones aside. -/
theorem Statement.mem_tableReferences (busy : isIdle reference = false) :
    reference ∈ tableReferences (textOf statement.tokens) ↔
      (∃ table ∈ statement.shownTables, reference = table.reference) ∨
        reference = andReference ∧ statement.ReadsAnd := by
  have main : reference ∈ findAll tableReference (textOf (listTokens statement.fromTail)) ↔
      ∃ table ∈ statement.shownTables, reference = table.reference := by
    rw [findAll, ← mem_referencesFrom busy, Statement.referencesFrom_fromTail plain compares,
      List.mem_map]
    simp only [eq_comm]
  have opened : (∃ behind ∈ conditionsBehindFrom statement.conditions,
        reference ∈ findAll tableReference
          (textOf (listTokens (conditionRest behind statement.lastLines)))) ↔
      reference = andReference ∧ statement.ReadsAnd := by
    have list {behind : List Condition} (among : behind ∈ conditionsBehindFrom statement.conditions) :=
      references_conditionRest statement.listTokens_lastLines (readable_conditionRest plain among)
    rw [Statement.ReadsAnd, ← exists_mem_conditionsBehindFrom]
    constructor
    · rintro ⟨behind, among, found⟩
      rw [findAll, ← mem_referencesFrom busy] at found
      obtain rfl := (list among).1 reference found
      exact ⟨rfl, behind, among, (list among).2.mp found⟩
    · rintro ⟨rfl, behind, among, follows⟩
      refine ⟨behind, among, ?_⟩
      rw [findAll, ← mem_referencesFrom busy]
      exact (list among).2.mpr follows
  rw [tableReferences, Statement.tableLists_textOf plain selects, statement.afterFrom_fromTail]
  simp only [List.flatMap_cons, List.mem_append, List.map_map, List.flatMap_map, List.mem_flatMap,
    Function.comp_apply]
  rw [main, opened]

theorem Statement.mem_tableSchemas :
    name ∈ tableSchemas (tableReferences (textOf statement.tokens)) ↔
      ∃ table ∈ statement.shownTables, name = table.schema := by
  rw [tableSchemas, List.mem_flatMap]
  constructor
  · rintro ⟨reference, among, inParts⟩
    cases busy : isIdle reference with
    | true =>
      have short := length_of_isIdle busy
      have some_ := List.length_pos_of_mem inParts
      rw [List.length_dropLast] at some_
      omega
    | false =>
      rcases (Statement.mem_tableReferences plain selects compares busy).mp among with
        ⟨table, shown, rfl⟩ | ⟨rfl, -⟩
      · exact ⟨table, shown, List.mem_singleton.mp inParts⟩
      · cases inParts
  · rintro ⟨table, shown, rfl⟩
    exact ⟨table.reference, (Statement.mem_tableReferences plain selects compares rfl).mpr
      (.inl ⟨table, shown, rfl⟩), List.mem_singleton.mpr rfl⟩

/-- The names that a statement declares, as far as they are plain. -/
theorem Statement.mem_localNames (isPlain : isPlainName name.toList) :
    name ∈ (tableReferences (textOf statement.tokens)).flatMap TableReference.localNames ↔
      (∃ table ∈ statement.shownTables, name = aliasText table.number) ∨
        name = "and" ∧ statement.ReadsAnd := by
  have found {reference : TableReference} (busy : isIdle reference = false) :=
    Statement.mem_tableReferences plain selects compares busy
  have ofTable (table : TableRef) : table.reference.localNames = [aliasText table.number] :=
    congrArg (fun name => [name]) (lower_aliasText table.number)
  have ofAnd : andReference.localNames = ["and"] := by decide
  rw [List.mem_flatMap]
  constructor
  · rintro ⟨reference, among, isName⟩
    cases busy : isIdle reference with
    | true =>
      have unnamed := List.all_eq_true.mp ((Bool.and_eq_true _ _).mp busy).2 name isName
      rw [isPlain] at unnamed
      cases unnamed
    | false =>
      rcases (found busy).mp among with ⟨table, shown, rfl⟩ | ⟨rfl, reads⟩
      · rw [ofTable] at isName
        exact .inl ⟨table, shown, List.mem_singleton.mp isName⟩
      · rw [ofAnd] at isName
        exact .inr ⟨List.mem_singleton.mp isName, reads⟩
  · rintro (⟨table, shown, rfl⟩ | ⟨rfl, reads⟩)
    · exact ⟨table.reference, (found rfl).mpr (.inl ⟨table, shown, rfl⟩), ofTable table ▸ by simp⟩
    · have busy : isIdle andReference = false := by decide
      exact ⟨andReference, (found busy).mpr (.inr ⟨rfl, reads⟩), ofAnd ▸ by simp⟩

theorem Statement.mem_columnQualifiers (isPlain : isPlainName name.toList) :
    name ∈ columnQualifiers (tableReferences (textOf statement.tokens)) ↔ statement.Declares name := by
  have declared := Statement.mem_localNames plain selects compares isPlain
  have schemas : name ∈ (tableSchemas (tableReferences (textOf statement.tokens))).map lower ↔
      ∃ table ∈ statement.shownTables, lower table.schema = name := by
    rw [List.mem_map]
    constructor
    · rintro ⟨schema, among, rfl⟩
      obtain ⟨table, shown, rfl⟩ := (Statement.mem_tableSchemas plain selects compares).mp among
      exact ⟨table, shown, rfl⟩
    · rintro ⟨table, shown, rfl⟩
      have found := (Statement.mem_tableSchemas plain selects compares).mpr ⟨table, shown, rfl⟩
      exact ⟨table.schema, found, rfl⟩
  rw [columnQualifiers, List.mem_filter, declared, Bool.not_eq_true', ← Bool.not_eq_true,
    List.contains_iff_mem, schemas, Statement.Declares]
  simp only [not_exists, not_and, ne_eq]

/-- The schemas that the safety rules find. -/
theorem Statement.mem_referencedSchemas :
    name ∈ referencedSchemas (textOf statement.tokens) ↔
      (name ∈ statement.qualifiers ∧ ¬ statement.Declares (lower name)) ∨
        ∃ table ∈ statement.shownTables, name = table.schema := by
  rw [referencedSchemas, stripLiterals_textOf plain, mem_distinct, List.mem_append,
    Statement.mem_tableSchemas plain selects compares, Statement.qualifierSchemas_textOf plain,
    List.mem_filter, Bool.not_eq_true', ← Bool.not_eq_true, List.contains_iff_mem]
  refine or_congr_left (and_congr_right fun qualifies => ?_)
  rw [Statement.mem_columnQualifiers plain selects compares (isPlainName_lower
    (statement.dotting.isPlainName plain name qualifies))]

end References

section Scoped

/-- A table is either shown or hidden. -/
theorem Statement.sources_perm (statement : Statement) :
    (statement.shownTables ++ statement.hiddenTables).Perm statement.sources := by
  have split (joins : List Join) : (tablesBehind (fun join => !join.endsInJoin) joins ++
      tablesBehind Join.endsInJoin joins).Perm (joins.tail.map Join.table) := by
    have pairs : (joins.zip joins.tail).map (fun pair => pair.2.table) = joins.tail.map Join.table := by
      have second : (joins.zip joins.tail).map Prod.snd = joins.tail :=
        List.map_snd_zip (by simp)
      rw [← second, List.map_map, second]
      rfl
    have parts := (List.filter_append_perm (fun pair : Join × Join => pair.1.endsInJoin)
      (joins.zip joins.tail)).map fun pair => pair.2.table
    rw [pairs, List.map_append] at parts
    exact List.perm_append_comm.trans parts
  have joined : ((statement.joins.head?.map Join.table).toList ++
      statement.joins.tail.map Join.table) = statement.joins.map Join.table := by
    cases statement.joins <;> rfl
  rw [Statement.sources, ← joined, Statement.shownTables, Statement.hiddenTables, List.cons_append,
    List.cons_append, List.append_assoc]
  exact ((split statement.joins).append_left _).cons _

theorem Statement.mem_sources {source : TableRef} : source ∈ statement.sources ↔
    source ∈ statement.shownTables ∨ source ∈ statement.hiddenTables := by
  rw [← statement.sources_perm.mem_iff, List.mem_append]

theorem Statement.exists_join_of_hidden {table : TableRef} (hidden : table ∈ statement.hiddenTables) :
    ∃ join ∈ statement.joins, join.table = table := by
  obtain ⟨⟨before, join⟩, among, rfl⟩ := List.mem_map.mp hidden
  have later := (List.of_mem_zip (List.mem_filter.mp among).1).2
  exact ⟨join, List.mem_of_mem_tail later, rfl⟩

private theorem aliasText_ne_and (n : Nat) : aliasText n ≠ "and" := by
  intro same
  have first := congrArg (fun text : String => text.toList.head?) same
  simp [aliasText] at first

variable (isScoped : statement.WellScoped)
include isScoped

/-- A hidden table shares its alias with no shown one. -/
theorem Statement.WellScoped.not_declares_alias {table : TableRef}
    (hidden : table ∈ statement.hiddenTables) : ¬ statement.Declares (aliasText table.number) := by
  have perm := statement.sources_perm.map fun source : TableRef => aliasText source.number
  have distinct := isScoped.distinct
  rw [← perm.nodup_iff, List.map_append] at distinct
  rintro ⟨⟨other, shown, same⟩ | ⟨isAnd, -⟩, -⟩
  · exact List.disjoint_of_nodup_append distinct (List.mem_map_of_mem shown)
      (List.mem_map.mpr ⟨table, hidden, same⟩)
  · exact aliasText_ne_and table.number isAnd

/-- What the safety rules ask of a list of schemas in lower case. -/
theorem Statement.WellScoped.schemas_allowed_iff {allowed : List String}
    (plain : ∀ token ∈ statement.tokens, token.IsPlain)
    (selects : statement.selection ≠ .items []) (compares : ∀ join ∈ statement.joins, join.on ≠ []) :
    (∀ schema ∈ referencedSchemas (textOf statement.tokens), lower schema ∈ allowed) ↔
      statement.PassesWith allowed := by
  have referenced {name : String} : name ∈ referencedSchemas (textOf statement.tokens) ↔ _ :=
    Statement.mem_referencedSchemas plain selects compares
  constructor
  · intro every
    have ofShown {table : TableRef} (shown : table ∈ statement.shownTables) :=
      every table.schema (referenced.mpr (.inr ⟨table, shown, rfl⟩))
    refine ⟨fun table shown => ofShown shown, fun table hidden => ?_⟩
    obtain ⟨join, joined, rfl⟩ := Statement.exists_join_of_hidden hidden
    constructor
    · have qualifies := isScoped.alias_mem_qualifiers joined (compares join joined)
      have undeclared := isScoped.not_declares_alias hidden
      rw [← lower_aliasText] at undeclared ⊢
      exact every _ (referenced.mpr (.inl ⟨qualifies, undeclared⟩))
    · by_cases declared : statement.Declares (lower join.table.schema)
      · exact .inl declared
      · have qualifies := Statement.schema_mem_qualifiers (Statement.mem_sources.mpr (.inr hidden))
        exact .inr (every _ (referenced.mpr (.inl ⟨qualifies, declared⟩)))
  · rintro ⟨shownAllowed, hiddenAllowed⟩ schema among
    rcases referenced.mp among with ⟨qualifies, undeclared⟩ | ⟨table, shown, rfl⟩
    · obtain ⟨source, isSource, rfl | rfl⟩ := isScoped.mem_qualifiers qualifies
      · rcases Statement.mem_sources.mp isSource with shown | hidden
        · exact shownAllowed source shown
        · exact (hiddenAllowed source hidden).2.resolve_left undeclared
      · rw [lower_aliasText] at undeclared ⊢
        rcases Statement.mem_sources.mp isSource with shown | hidden
        · -- a schema of a shown table has the alias for its name
          by_contra unlisted
          refine undeclared ⟨.inl ⟨source, shown, rfl⟩, fun table among same => unlisted ?_⟩
          exact same ▸ shownAllowed table among
        · exact (hiddenAllowed source hidden).1
    · exact shownAllowed table shown

/-- A list of all schemas and aliases but a declared schema lets the statement pass. -/
theorem Statement.WellScoped.exists_passing_list {table : TableRef}
    (declared : statement.Declares (lower table.schema)) :
    ∃ allowed : List String, lower table.schema ∉ allowed.map lower ∧
      statement.PassesWith (allowed.map lower) := by
  let names := statement.sources.map TableRef.schema ++
    statement.sources.map fun source => aliasText source.number
  have schemas {other : TableRef} (isSource : other ∈ statement.sources) : other.schema ∈ names :=
    List.mem_append_left _ (List.mem_map_of_mem isSource)
  have aliases {other : TableRef} (isSource : other ∈ statement.sources) :
      aliasText other.number ∈ names :=
    List.mem_append_right _ (List.mem_map.mpr ⟨other, isSource, rfl⟩)
  refine ⟨names.filter fun name => lower name ≠ lower table.schema, fun among => ?_, ?_⟩
  · obtain ⟨name, kept, same⟩ := List.mem_map.mp among
    simpa [same] using (List.mem_filter.mp kept).2
  have listed {name : String} (among : name ∈ names) (differs : lower name ≠ lower table.schema) :
      lower name ∈ (names.filter fun name => lower name ≠ lower table.schema).map lower :=
    List.mem_map_of_mem (List.mem_filter.mpr ⟨among, by simpa using differs⟩)
  refine ⟨fun other shown => ?_, fun other hidden => ⟨?_, ?_⟩⟩
  · exact listed (schemas (Statement.mem_sources.mpr (.inl shown))) (declared.2 other shown)
  · rw [← lower_aliasText]
    refine listed (aliases (Statement.mem_sources.mpr (.inr hidden))) ?_
    rw [lower_aliasText]
    exact fun same => isScoped.not_declares_alias hidden (same ▸ declared)
  · by_cases same : lower other.schema = lower table.schema
    · exact .inl (same ▸ declared)
    · exact .inr (listed (schemas (Statement.mem_sources.mpr (.inr hidden))) same)

/-- For every list this is the same as that the schemas of all tables are in it, exactly if every hidden
table has the schema of a table for its alias and a schema that is not declared. -/
theorem Statement.WellScoped.passes_iff_all_iff :
    (∀ allowed : List String, statement.PassesWith (allowed.map lower) ↔
        ∀ table ∈ statement.sources, lower table.schema ∈ allowed.map lower) ↔
      ∀ table ∈ statement.hiddenTables, ¬ statement.Declares (lower table.schema) ∧
        ∃ other ∈ statement.sources, lower other.schema = aliasText table.number := by
  constructor
  · intro agree table hidden
    constructor
    · intro declared
      obtain ⟨allowed, without, passes⟩ := isScoped.exists_passing_list declared
      exact without ((agree allowed).mp passes table (Statement.mem_sources.mpr (.inr hidden)))
    · have passes := (agree (statement.sources.map TableRef.schema)).mpr fun source among =>
        List.mem_map_of_mem (List.mem_map_of_mem among)
      have listed := (passes.2 table hidden).1
      rw [List.map_map] at listed
      exact List.mem_map.mp listed
  · intro each allowed
    constructor
    · intro passes source isSource
      rcases Statement.mem_sources.mp isSource with shown | hidden
      · exact passes.1 source shown
      · exact (passes.2 source hidden).2.resolve_left (each source hidden).1
    · intro every
      refine ⟨fun table shown => every table (Statement.mem_sources.mpr (.inl shown)), ?_⟩
      intro table hidden
      obtain ⟨-, other, among, same⟩ := each table hidden
      exact ⟨same ▸ every other among, .inr (every table (Statement.mem_sources.mpr (.inr hidden)))⟩

end Scoped

end ReportQuery.Query
