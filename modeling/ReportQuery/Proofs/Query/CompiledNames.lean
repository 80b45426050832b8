import ReportQuery.Proofs.Query.Joining
import ReportQuery.Proofs.Query.Token
import ReportQuery.Proofs.Text.Blank

set_option autoImplicit false
set_option relaxedAutoImplicit false

/-!
Which words and names a compiled statement is made of. Names come from the snapshot or are plain
output labels; all words belong to a fixed vocabulary or are aliases of tables.
-/

namespace ReportQuery.Query

open Schema (Snapshot Table Relation)
open Text (lower trim isPlainName isSafeIdentifier mem_of_mem_distinctBy mem_distinct)

/-- The names of a snapshot that a statement may hold. -/
inductive IsNameOf (snapshot : Snapshot) : String → Prop
  | schema {table : Table} : table ∈ snapshot.tables → IsNameOf snapshot table.schema
  | table {table : Table} : table ∈ snapshot.tables → IsNameOf snapshot table.name
  | column {table : Table} {column : Schema.Column} : table ∈ snapshot.tables →
      column ∈ table.columns → IsNameOf snapshot column.name
  | fromColumn {relation : Relation} {pair : Schema.ColumnPair} :
      relation ∈ snapshot.relations → pair ∈ relation.columns → IsNameOf snapshot pair.fromColumn
  | toColumn {relation : Relation} {pair : Schema.ColumnPair} :
      relation ∈ snapshot.relations → pair ∈ relation.columns → IsNameOf snapshot pair.toColumn

/-- Blanks, line feeds and the punctuation of a statement. -/
def marks : List Char :=
  [' ', '\n', ',', '.', '*', '(', ')']

/-- The words of statements: keywords, aggregates, operators and directions. -/
def vocabulary : List String :=
  ["SELECT", "DISTINCT", "FROM", "INNER", "LEFT", "JOIN", "ON", "AND", "WHERE", "GROUP", "ORDER",
    "BY", "AS"] ++
  ["COUNT", "SUM", "AVG", "MIN", "MAX"] ++
  ["=", "<>", ">", "<", ">=", "<=", "LIKE", "NOT", "ILIKE"] ++
  ["ASC", "DESC"]

/-- A token that a compiled statement may hold. -/
def Token.IsSafe (snapshot : Snapshot) : Token → Prop
  | mark c => c ∈ marks
  | word text => text ∈ vocabulary ∨ ∃ n, text = aliasText n
  | parameter text => isPlainName text.toList
  | name text => IsNameOf snapshot text ∨ isPlainName text.toList

/-- All of the tokens may stand in a compiled statement. -/
def AllSafe (snapshot : Snapshot) (tokens : List Token) : Prop :=
  ∀ token ∈ tokens, token.IsSafe snapshot

variable {snapshot : Snapshot} {tables : List Table}

section AllSafe

variable {front back separator : List Token}

@[simp] theorem allSafe_append :
    AllSafe snapshot (front ++ back) ↔ AllSafe snapshot front ∧ AllSafe snapshot back :=
  List.forall_mem_append

@[simp] theorem allSafe_cons {token : Token} :
    AllSafe snapshot (token :: back) ↔ token.IsSafe snapshot ∧ AllSafe snapshot back :=
  List.forall_mem_cons

@[simp] theorem allSafe_nil : AllSafe snapshot [] :=
  List.forall_mem_nil _

theorem AllSafe.intercalate (safe : AllSafe snapshot separator) {parts : List (List Token)}
    (each : ∀ part ∈ parts, AllSafe snapshot part) :
    AllSafe snapshot (separator.intercalate parts) := by
  induction parts with
  | nil => exact allSafe_nil
  | cons part rest ih =>
    have here := each part List.mem_cons_self
    have there := ih fun p member => each p (List.mem_cons_of_mem part member)
    cases rest with
    | nil => rwa [List.intercalate_singleton]
    | cons next rest =>
      rw [List.intercalate_cons_cons]
      exact allSafe_append.mpr ⟨allSafe_append.mpr ⟨here, safe⟩, there⟩

theorem AllSafe.intercalate_map {α : Type} {tokens : α → List Token} {parts : List α}
    (safe : AllSafe snapshot separator) (each : ∀ part ∈ parts, AllSafe snapshot (tokens part)) :
    AllSafe snapshot (separator.intercalate (parts.map tokens)) := by
  refine safe.intercalate fun part member => ?_
  obtain ⟨a, from_parts, rfl⟩ := List.mem_map.mp member
  exact each a from_parts

private theorem allSafe_phrase {words : List String} (known : ∀ word ∈ words, word ∈ vocabulary) :
    AllSafe snapshot (phrase words) := by
  refine AllSafe.intercalate_map ?_ fun word member => ?_
  · simp [Token.IsSafe, marks]
  · simpa [Token.IsSafe] using Or.inl (known word member)

private theorem allSafe_andTokens : AllSafe snapshot andTokens := by
  simp [andTokens, Token.IsSafe, marks, vocabulary]

private theorem allSafe_commaTokens : AllSafe snapshot commaTokens := by
  simp [commaTokens, Token.IsSafe, marks]

end AllSafe

section Names

private theorem getLast?_trim_ne (text : String) : (trim text).toList.getLast? ≠ some '\n' := by
  intro last
  exact absurd ((Text.isTrimmed_trim text).back '\n' last) (by decide)

private theorem isPlainName_of_isSafeIdentifier {text : String} (safe : isSafeIdentifier text)
    (last : text.toList.getLast? ≠ some '\n') : isPlainName text.toList := by
  simpa [isSafeIdentifier, last] using safe

/-- A label of the output is a plain name: trimmed, it cannot end in a line feed. -/
theorem isPlainName_of_safeAlias? {alias? : Option String} {label : String}
    (chosen : safeAlias? alias? = some label) : isPlainName label.toList := by
  unfold safeAlias? at chosen
  split at chosen
  · rename_i text
    split at chosen
    · rename_i safe
      obtain rfl := Option.some.inj chosen
      exact isPlainName_of_isSafeIdentifier safe (getLast?_trim_ne text)
    · cases chosen
  · cases chosen

/-- A parameter name that passes the check is a plain name, trimmed as it is. -/
theorem isPlainName_normalParameterName {name : String}
    (safe : isSafeIdentifier (normalParameterName name)) :
    isPlainName (normalParameterName name).toList := by
  refine isPlainName_of_isSafeIdentifier safe fun last => getLast?_trim_ne name ?_
  unfold normalParameterName at last
  split at last
  · rename_i cs trimmed
    rw [String.toList_ofList] at last
    rw [trimmed, List.getLast?_cons, last]
    rfl
  · rwa [String.toList_ofList] at last

variable {usage : Usage} {tableKey columnName : String} {ref : ColumnRef}

private theorem isNameOf_of_column? {table : Table} {column : Schema.Column} {name : String}
    (member : table ∈ snapshot.tables) (found : table.column? name = some column) :
    IsNameOf snapshot column.name := by
  refine .column member ?_
  unfold Table.column? at found
  cases spelled : table.columns.find? fun column => column.name = name with
  | some chosen =>
    rw [spelled] at found
    obtain rfl := Option.some.inj found
    exact List.mem_of_find?_eq_some spelled
  | none =>
    rw [spelled] at found
    exact List.mem_of_find?_eq_some found

theorem mem_tables_of_resolveTables {keys : List String}
    (resolved : resolveTables snapshot keys = .ok tables) :
    ∀ table ∈ tables, table ∈ snapshot.tables := by
  intro table member
  rw [eq_selectedTables resolved] at member
  obtain ⟨key, -, found⟩ := List.mem_filterMap.mp (mem_of_mem_distinctBy member)
  exact mem_tables_of_table? found

/-- A resolved column has a name of the snapshot. -/
theorem isNameOf_of_resolveColumn (known : ∀ table ∈ tables, table ∈ snapshot.tables)
    (resolved : resolveColumn tables usage tableKey columnName = .ok ref) :
    IsNameOf snapshot ref.column := by
  unfold resolveColumn at resolved
  split at resolved
  · cases resolved
  · rename_i table number selected
    have among : table ∈ tables := by
      have paired := List.mem_of_find?_eq_some selected
      exact (List.mem_zipIdx' paired).2 ▸ List.getElem_mem _
    dsimp only at resolved
    split at resolved
    · rename_i column found
      obtain rfl := Except.ok.inj resolved
      split at found
      · cases found
      · exact isNameOf_of_column? (known table among) found
    · cases resolved

end Names

section Parts

private theorem allSafe_columnRef {ref : ColumnRef} (named : IsNameOf snapshot ref.column) :
    AllSafe snapshot ref.tokens := by
  simp [ColumnRef.tokens, Token.IsSafe, marks, named]

private theorem allSafe_selectItem {item : SelectItem}
    (named : IsNameOf snapshot item.source.column)
    (labelled : ∀ label ∈ item.label?, isPlainName label.toList) :
    AllSafe snapshot item.tokens := by
  have source := allSafe_columnRef named
  unfold SelectItem.tokens
  refine allSafe_append.mpr ⟨?_, ?_⟩
  · cases item.aggregate? with
    | none => exact source
    | some aggregate =>
      have function : aggregate.name ∈ vocabulary := by cases aggregate <;> decide
      simp [source, function, Token.IsSafe, marks]
  · cases chosen : item.label? with
    | none => exact allSafe_nil
    | some label =>
      have plain := labelled label chosen
      simp [Token.IsSafe, marks, vocabulary, plain]

private theorem allSafe_tableRef {table : TableRef} (schema : IsNameOf snapshot table.schema)
    (name : IsNameOf snapshot table.name) : AllSafe snapshot table.tokens := by
  simp [TableRef.tokens, Token.IsSafe, marks, schema, name]

private theorem allSafe_condition {source : ColumnRef} {operator : Operator} {parameter : String}
    (named : IsNameOf snapshot source.column) (plain : isPlainName parameter.toList) :
    AllSafe snapshot (Condition.mk source operator parameter).tokens := by
  have column := allSafe_columnRef named
  have words : AllSafe snapshot (phrase operator.words) := by
    refine allSafe_phrase ?_
    cases operator <;> decide
  simp [Condition.tokens, column, words, Token.IsSafe, marks, plain]

private theorem allSafe_orderEntry {entry : OrderEntry}
    (named : IsNameOf snapshot entry.source.column) : AllSafe snapshot entry.tokens := by
  have source := allSafe_columnRef named
  have word : entry.direction.symbol ∈ vocabulary := by cases entry.direction <;> decide
  simp [OrderEntry.tokens, source, word, Token.IsSafe, marks]

private theorem allSafe_join {join : Join} (schema : IsNameOf snapshot join.table.schema)
    (name : IsNameOf snapshot join.table.name)
    (on : ∀ equality ∈ join.on,
      IsNameOf snapshot equality.left.column ∧ IsNameOf snapshot equality.right.column) :
    AllSafe snapshot join.tokens := by
  have words : AllSafe snapshot (phrase (joinWords join.kind)) := by
    refine allSafe_phrase ?_
    cases join.kind <;> decide
  have table := allSafe_tableRef schema name
  have equalities : AllSafe snapshot (andTokens.intercalate (join.on.map Equality.tokens)) := by
    refine allSafe_andTokens.intercalate_map fun equality member => ?_
    have left := allSafe_columnRef (on equality member).1
    have right := allSafe_columnRef (on equality member).2
    have between : AllSafe snapshot [.mark ' ', .word "=", .mark ' '] := by
      simp [Token.IsSafe, marks, vocabulary]
    exact allSafe_append.mpr ⟨allSafe_append.mpr ⟨left, between⟩, right⟩
  have between : AllSafe snapshot [.mark ' ', .word "ON", .mark ' '] := by
    simp [Token.IsSafe, marks, vocabulary]
  have blank : AllSafe snapshot [.mark ' '] := by simp [Token.IsSafe, marks]
  simp only [Join.tokens, allSafe_append]
  exact ⟨⟨words, blank⟩, ⟨table, between⟩, equalities⟩

end Parts

section Compiled

private theorem safe_of_compileField {field : Field} {item : SelectItem}
    (known : ∀ table ∈ tables, table ∈ snapshot.tables)
    (done : compileField tables field = .ok item) :
    IsNameOf snapshot item.source.column ∧ AllSafe snapshot item.tokens := by
  obtain ⟨source, resolved, done⟩ := bind_eq_ok.mp done
  obtain ⟨aggregate?, _, done⟩ := bind_eq_ok.mp done
  obtain rfl := Except.ok.inj done
  have named := isNameOf_of_resolveColumn known resolved
  exact ⟨named, allSafe_selectItem named fun label chosen => isPlainName_of_safeAlias? chosen⟩

private theorem safe_of_compileSelection {fields : List Field} {selection : Selection}
    (known : ∀ table ∈ tables, table ∈ snapshot.tables)
    (done : compileSelection tables fields = .ok selection) :
    (∀ ref ∈ selection.grouping, IsNameOf snapshot ref.column) ∧
      AllSafe snapshot selection.tokens := by
  rcases compileSelection_cases done with ⟨-, rfl⟩ | ⟨-, entries, read, rfl⟩
  · simp [Selection.grouping, Selection.tokens, Token.IsSafe, marks]
  · have each : ∀ item ∈ entries,
        IsNameOf snapshot item.source.column ∧ AllSafe snapshot item.tokens := by
      intro item member
      obtain ⟨field, -, compiled⟩ := exists_of_mem_mapM read member
      exact safe_of_compileField known compiled
    refine ⟨fun ref member => ?_, ?_⟩
    · dsimp only [Selection.grouping] at member
      split at member
      · obtain ⟨item, among, rfl⟩ := List.mem_map.mp (mem_distinct.mp member)
        exact (each item (List.mem_filter.mp among).1).1
      · cases member
    · exact allSafe_commaTokens.intercalate_map fun item member => (each item member).2

private theorem safe_of_compileFilter {filter : Filter} {condition : Condition}
    (known : ∀ table ∈ tables, table ∈ snapshot.tables)
    (done : compileFilter tables filter = .ok condition) :
    AllSafe snapshot condition.tokens := by
  obtain ⟨source, resolved, done⟩ := bind_eq_ok.mp done
  dsimp only at done
  split at done
  · cases done
  · split at done
    · rename_i safe
      have named : IsNameOf snapshot source.column := isNameOf_of_resolveColumn known resolved
      have plain := isPlainName_normalParameterName safe
      obtain rfl := Except.ok.inj done
      exact allSafe_condition named plain
    · cases done

private theorem safe_of_compileSort {sort : SortKey} {entry : OrderEntry}
    (known : ∀ table ∈ tables, table ∈ snapshot.tables)
    (done : compileSort tables sort = .ok entry) : AllSafe snapshot entry.tokens := by
  obtain ⟨source, resolved, done⟩ := bind_eq_ok.mp done
  split at done
  · obtain rfl := Except.ok.inj done
    exact allSafe_orderEntry (isNameOf_of_resolveColumn known resolved)
  · cases done

private theorem safe_of_isJoinOf {relation : Relation} {join : Join}
    (known : relation ∈ snapshot.relations) (comes : Joining.IsJoinOf snapshot relation join) :
    AllSafe snapshot join.tokens := by
  obtain ⟨fromJoined, old, new, table, isTable, rfl⟩ := comes
  refine allSafe_join (.schema isTable) (.table isTable) fun equality member => ?_
  obtain ⟨pair, among, rfl⟩ := List.mem_map.mp member
  cases fromJoined with
  | true => exact ⟨.fromColumn known among, .toColumn known among⟩
  | false => exact ⟨.toColumn known among, .fromColumn known among⟩

private theorem allSafe_clauseTokens {α : Type} {words : List String} {separator : List Token}
    {tokens : α → List Token} {parts : List α} (known : ∀ word ∈ words, word ∈ vocabulary)
    (safe : AllSafe snapshot separator)
    (each : ∀ part ∈ parts, AllSafe snapshot (tokens part)) :
    ∀ line ∈ clauseTokens words separator (parts.map tokens), AllSafe snapshot line := by
  intro line member
  unfold clauseTokens at member
  split at member
  · cases member
  · obtain rfl := List.mem_singleton.mp member
    have front : AllSafe snapshot (phrase words) := allSafe_phrase known
    have rest := safe.intercalate_map each
    simp [front, rest, Token.IsSafe, marks]

/-- All tokens of a compiled statement are safe. -/
theorem allSafe_of_compile {description : Description} {compiled : Compiled}
    (done : compile snapshot description = .ok compiled) :
    AllSafe snapshot compiled.statement.tokens := by
  obtain ⟨anchor, others, parts⟩ := compiledFrom_of_compile done
  have known := mem_tables_of_resolveTables parts.tables
  obtain ⟨grouped, selected⟩ := safe_of_compileSelection known parts.selection
  have anchorKnown := known anchor List.mem_cons_self
  have conditionsSafe : ∀ condition ∈ compiled.statement.conditions,
      AllSafe snapshot condition.tokens := by
    intro condition member
    obtain ⟨filter, -, compiled⟩ := exists_of_mem_mapM parts.conditions member
    exact safe_of_compileFilter known compiled
  have orderSafe : ∀ entry ∈ compiled.statement.order, AllSafe snapshot entry.tokens := by
    intro entry member
    obtain ⟨sort, -, compiled⟩ := exists_of_mem_mapM parts.order member
    exact safe_of_compileSort known compiled
  refine AllSafe.intercalate (by simp [Token.IsSafe, marks]) fun line member => ?_
  simp only [Statement.lineTokens, List.mem_append, List.mem_cons, List.mem_map,
    List.not_mem_nil, or_false] at member
  rcases member with ((((rfl | rfl) | ⟨join, among, rfl⟩) | condition) | group) | entry
  · have front : AllSafe snapshot
        (phrase ("SELECT" :: if compiled.statement.isDistinct then ["DISTINCT"] else [])) := by
      refine allSafe_phrase ?_
      cases compiled.statement.isDistinct <;> decide
    simp [front, selected, Token.IsSafe, marks]
  · have front : AllSafe snapshot (phrase ["FROM"]) := allSafe_phrase (by decide)
    have table : AllSafe snapshot compiled.statement.anchor.tokens := by
      rw [parts.anchor]
      exact allSafe_tableRef (.schema anchorKnown) (.table anchorKnown)
    simp [front, table, Token.IsSafe, marks]
  · obtain ⟨relation, isRelation, comes⟩ := isJoinOf_of_compileJoins parts.joins among
    exact safe_of_isJoinOf isRelation comes
  · exact allSafe_clauseTokens (by decide) allSafe_andTokens conditionsSafe _ condition
  · rw [parts.grouping] at group
    exact allSafe_clauseTokens (by decide) allSafe_commaTokens
      (fun ref member => allSafe_columnRef (grouped ref member)) _ group
  · exact allSafe_clauseTokens (by decide) allSafe_commaTokens orderSafe _ entry

end Compiled

end ReportQuery.Query
