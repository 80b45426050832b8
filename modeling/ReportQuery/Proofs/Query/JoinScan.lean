import ReportQuery.Proofs.Query.ClauseList
import ReportQuery.Proofs.Query.ColumnScan
import ReportQuery.Proofs.Query.ListScan

set_option autoImplicit false
set_option relaxedAutoImplicit false

/-!
What the scan of the first table list finds: the table of FROM and the joined ones, but for those behind
a join whose last column is called join. There the JOIN of the line is taken for a part of a name.
-/

namespace ReportQuery.Query

open Sql (TableReference areKeywords clauseKeywords listEndKeywords readTableReference startsApart
  IsAlias inQuotes)
open Text (isNameChar isPlainName upper trimFrontChars)

/-- The reference that stands for a table in a table list. -/
def TableRef.reference (table : TableRef) : TableReference :=
  ⟨[table.schema, table.name], some (aliasText table.number)⟩

def Join.lastColumn? (join : Join) : Option String :=
  join.on.getLast?.map fun equality => equality.right.column

/-- The last column that the join compares is called join. -/
def Join.endsInJoin (join : Join) : Bool :=
  join.lastColumn?.any fun column => upper column == "JOIN"

/-- The joined tables behind a join that meets the test. -/
def tablesBehind (test : Join → Bool) (joins : List Join) : List TableRef :=
  ((joins.zip joins.tail).filter fun pair => test pair.1).map fun pair => pair.2.table

namespace Statement

/-- The tables that the scan of table lists finds. -/
def shownTables (statement : Statement) : List TableRef :=
  statement.anchor :: (statement.joins.head?.map Join.table).toList ++
    tablesBehind (fun join => !join.endsInJoin) statement.joins

/-- The tables that it does not find. -/
def hiddenTables (statement : Statement) : List TableRef :=
  tablesBehind Join.endsInJoin statement.joins

end Statement

variable {join first : Join} {joins : List Join} {table : TableRef} {column name : String}
  {code tokens rest tail : List Token} {keywords : List String} {d : Char}

section Parts

/-- What comes before the last name of a comparison. -/
private def Equality.opening (equality : Equality) : List Token :=
  equality.left.tokens ++
    ([.mark ' ', .word "=", .mark ' '] ++ [.word (aliasText equality.right.number), .mark '.'])

private theorem tokens_equality (equality : Equality) :
    equality.tokens = equality.opening ++ [.name equality.right.column] := by
  simp [Equality.tokens, Equality.opening, ColumnRef.tokens]

private theorem isAmong_opening (equality : Equality) :
    ∀ token ∈ equality.opening, token.IsAmong equalityCode := by
  simp only [Equality.opening, List.forall_mem_append]
  refine ⟨isAmong_columnRef (by decide) _, isAmong_of_all (by decide), ?_⟩
  simp only [List.forall_mem_cons]
  exact ⟨.inr (.inl ⟨_, rfl⟩), .inr (.inr (by decide)), List.forall_mem_nil _⟩

private theorem lastColumn?_of_compares (compares : join.on ≠ []) :
    ∃ column, join.lastColumn? = some column := by
  refine ⟨(join.on.getLast compares).right.column, ?_⟩
  rw [Join.lastColumn?, List.getLast?_eq_some_getLast compares]
  rfl

/-- The comparisons of a join end in the name of its last column. -/
private theorem exists_last_on (last : join.lastColumn? = some column) :
    ∃ front, andTokens.intercalate (join.on.map Equality.tokens) = front ++ [.name column] ∧
      ∀ token ∈ front, token.IsAmong equalityCode := by
  have between : ∀ token ∈ andTokens, token.IsAmong equalityCode := isAmong_of_all (by decide)
  unfold Join.lastColumn? at last
  rcases List.eq_nil_or_concat' join.on with none | ⟨before, equality, split⟩
  · rw [none] at last
    cases last
  · rw [split, List.getLast?_concat] at last
    obtain rfl := Option.some.inj last
    rw [split]
    cases before with
    | nil => exact ⟨equality.opening, by simp [tokens_equality], isAmong_opening equality⟩
    | cons first before =>
      refine ⟨first.tokens ++ (before.flatMap (fun part => andTokens ++ part.tokens) ++
        (andTokens ++ equality.opening)), ?_, ?_⟩
      · rw [List.cons_append, intercalate_andTokens, List.flatMap_append, List.flatMap_singleton,
          tokens_equality equality]
        simp
      · simp only [List.forall_mem_append, List.forall_mem_flatMap]
        exact ⟨isAmong_equality first, fun part _ => ⟨between, isAmong_equality part⟩, between,
          isAmong_opening equality⟩

theorem isRun_of_among (among : ∀ token ∈ tokens, token.IsAmong equalityCode) : IsRun tokens := by
  intro token member
  cases isName : token.isName with
  | true => exact .inl rfl
  | false =>
    have unspelled := (among token member).unspelled areKeywords_join (by decide)
    rw [Token.spellsInCode, isName, Bool.not_false, Bool.true_and] at unspelled
    refine .inr ⟨isName, unspelled, ?_⟩
    rintro rfl
    rcases among _ member with isName | ⟨n, same⟩ | inCode
    · cases isName
    · cases same
    · exact absurd inCode (by decide)

private theorem exists_side (kind : Schema.JoinKind) : ∃ side ∈ ["INNER", "LEFT"],
    phrase (joinWords kind) = [.word side, .mark ' ', .word "JOIN"] := by
  cases kind with
  | inner => exact ⟨"INNER", by decide, rfl⟩
  | left => exact ⟨"LEFT", by decide, rfl⟩

/-- The line of a join up to its table, and from there to its last column. -/
private theorem exists_line (last : join.lastColumn? = some column) :
    ∃ side run, side ∈ ["INNER", "LEFT"] ∧
      .mark '\n' :: join.tokens = [.mark '\n', .word side, .mark ' ', .word "JOIN", .mark ' '] ++
        (join.table.tokens ++ (.mark ' ' :: .word "ON" :: (run ++ [.name column]))) ∧
      IsRun (.mark ' ' :: .word "ON" :: run) := by
  obtain ⟨front, split, isAmong⟩ := exists_last_on last
  obtain ⟨side, isSide, words⟩ := exists_side join.kind
  have between : ∀ token ∈ [.mark ' ', .word "ON", .mark ' '], Token.IsAmong equalityCode token :=
    isAmong_of_all (by decide)
  refine ⟨side, .mark ' ' :: front, isSide, ?_,
    isRun_of_among (List.forall_mem_append.mpr ⟨between, isAmong⟩)⟩
  rw [Join.tokens, split, words]
  simp

private theorem exists_last_tokens (last : join.lastColumn? = some column) :
    ∃ front, join.tokens = front ++ [.name column] := by
  obtain ⟨front, split, -⟩ := exists_last_on last
  rw [Join.tokens, split]
  exact ⟨_, by rw [← List.append_assoc, ← List.append_assoc]⟩

end Parts

section Lines

theorem isAlias_aliasText (n : Nat) : IsAlias (aliasText n).toList where
  name := isAsciiName_of_isPlainName (isPlainName_aliasText n)
  plain := isNameChar_of_mem_aliasText
  first := by simp [aliasText]
  free := by
    have words : areKeywords clauseKeywords := by decide
    rw [String.ofList_toList]
    exact spells_aliasText words n

/-- A table is read as a whole. -/
theorem readTableReference_table (readable : Readable (.mark ' ' :: table.tokens ++ rest))
    (apart : startsApart (textOf rest)) (undotted : (trimFrontChars (textOf rest)).head? ≠ some '.') :
    readTableReference (textOf (.mark ' ' :: table.tokens ++ rest)) =
      (table.reference, textOf rest) := by
  obtain ⟨noSchema, someSchema, schema⟩ := quoted_of_plain readable.tail.isPlainName
  obtain ⟨noName, someName, tableName⟩ := quoted_of_plain readable.tail.tail.tail.isPlainName
  have split : textOf (.mark ' ' :: table.tokens ++ rest) =
      ' ' :: (inQuotes table.schema.toList ++ '.' :: (inQuotes table.name.toList ++
        ' ' :: ((aliasText table.number).toList ++ textOf rest))) := by
    simp only [TableRef.tokens, textOf_cons, textOf_append, textOf_nil, schema, tableName]
    simp [Token.text]
  rw [split, Sql.readTableReference_blank (by decide), Sql.readTableReference_aliased noSchema noName
    someSchema someName (isAlias_aliasText table.number) apart undotted]
  simp [TableRef.reference]

private theorem isIdle_reference (table : TableRef) : isIdle table.reference = false := rfl

private theorem begins_blank {c : Char} {token : Token} (blank : c ∈ [' ', '\n'])
    (plain : token.IsPlain) (unmarked : token.isMark = false) :
    startsApart (textOf (.mark c :: token :: rest)) ∧
      (trimFrontChars (textOf (.mark c :: token :: rest))).head? ≠ some '.' := by
  obtain ⟨nonempty, chars⟩ := plain.unmarked_text unmarked
  obtain ⟨first, letters, spelled⟩ := List.exists_cons_of_ne_nil nonempty
  obtain ⟨nonblank, noMark⟩ := chars first (spelled ▸ List.mem_cons_self)
  have text : textOf (.mark c :: token :: rest) = c :: first :: (letters ++ textOf rest) := by
    rw [textOf_cons, textOf_cons, spelled]
    rfl
  have isBlank : [' ', '\n'].all (fun c => Text.isBlank c && !Sql.isIdentifierChar c) = true := by
    decide
  obtain ⟨trimmed, apart⟩ := (Bool.and_eq_true _ _).mp (List.all_eq_true.mp isBlank c blank)
  rw [text, Text.trimFrontChars_blank trimmed, Text.trimFrontChars_of_head nonblank]
  refine ⟨by simpa [startsApart] using apart, fun dot => noMark ?_⟩
  rw [List.head?_cons, Option.some.injEq] at dot
  exact dot ▸ (by decide)

private theorem referencesFrom_table (apart : Sql.IsApart (some d))
    (readable : Readable
      (.word "JOIN" :: (.mark ' ' :: table.tokens ++ .mark ' ' :: .word "ON" :: rest))) :
    ∃ e, referencesFrom (some d)
        (textOf (.word "JOIN" :: (.mark ' ' :: table.tokens ++ .mark ' ' :: .word "ON" :: rest))) =
      table.reference :: referencesFrom (some e) (textOf (.mark ' ' :: .word "ON" :: rest)) := by
  have word := (readable.spaced_apart apart).isWordAt_word areKeywords_join (by decide)
  have isOn : (Token.word "ON").IsPlain := .inl (by decide)
  obtain ⟨begins, undotted⟩ := begins_blank (List.mem_cons_self) isOn rfl
  have read := readTableReference_table readable.tail begins undotted
  rw [textOf_append] at word read
  have found := referencesFrom_join word (List.all_eq_true.mp (by decide)) (by decide) read
  obtain ⟨e, ends⟩ : ∃ e, ("JOIN".toList ++ textOf (.mark ' ' :: table.tokens)).getLast? = some e :=
    ⟨_, List.getLast?_eq_some_getLast (by simp)⟩
  refine ⟨e, ?_⟩
  rw [textOf_cons, textOf_append, Token.text, found, ends]
  rfl

/-- A join behind code: its table is found, and the scan comes to its last column. -/
theorem referencesFrom_line (last : join.lastColumn? = some column)
    (readable : Readable (.mark '\n' :: (join.tokens ++ rest))) :
    referencesFrom (some d) (textOf (.mark '\n' :: (join.tokens ++ rest))) =
      join.table.reference :: referencesInside column rest := by
  obtain ⟨side, run, isSide, line, isRun⟩ := exists_line last
  have whole : .mark '\n' :: (join.tokens ++ rest) = [.mark '\n', .word side, .mark ' '] ++
      .word "JOIN" :: (.mark ' ' :: join.table.tokens ++
        .mark ' ' :: .word "ON" :: (run ++ .name column :: rest)) := by
    rw [← List.cons_append, line]
    simp
  have isLink : IsLink [.mark '\n', .word side, .mark ' '] := by
    simp only [List.mem_cons, List.not_mem_nil, or_false] at isSide
    rcases isSide with rfl | rfl
    · decide
    · decide
  have blank : (textOf [.mark '\n', .word side, .mark ' ']).getLast? = some ' ' := by
    have text : textOf [.mark '\n', .word side, .mark ' '] = ('\n' :: side.toList) ++ [' '] := by
      simp [Token.text]
    rw [text, List.getLast?_concat]
  have apart : Sql.IsApart (some ' ') := by
    simp [Sql.IsApart]
    decide
  rw [whole] at readable ⊢
  obtain ⟨e, found⟩ := referencesFrom_table apart readable.right
  rw [referencesFrom_link isLink readable (by simp [Token.isMark]), blank, Option.some_or, found,
    ← List.cons_append, ← List.cons_append,
    referencesFrom_run isRun readable.right.tail.right (by simp [Token.isMark])]

/-- A join behind a name that is called join: its table is not found. -/
theorem referencesInside_line (spelled : upper name = "JOIN") (last : join.lastColumn? = some column)
    (readable : Readable (.name name :: .mark '\n' :: (join.tokens ++ rest))) :
    referencesInside name (.mark '\n' :: (join.tokens ++ rest)) = referencesInside column rest := by
  obtain ⟨side, run, isSide, line, isRun⟩ := exists_line last
  have whole : .mark '\n' :: (join.tokens ++ rest) =
      [.mark '\n', .word side, .mark ' ', .word "JOIN", .mark ' '] ++ .name join.table.schema ::
        ([.mark '.', .name join.table.name, .mark ' ', .word (aliasText join.table.number)] ++
          .mark ' ' :: .word "ON" :: run ++ .name column :: rest) := by
    rw [← List.cons_append, line, TableRef.tokens]
    simp
  have toTable : IsRun
      [.mark '.', .name join.table.name, .mark ' ', .word (aliasText join.table.number)] := by
    refine isRun_of_among ?_
    simp only [List.forall_mem_cons]
    exact ⟨.inr (.inr (by decide)), .inl rfl, .inr (.inr (by decide)), .inr (.inl ⟨_, rfl⟩),
      List.forall_mem_nil _⟩
  rw [whole] at readable ⊢
  rw [referencesInside_join readable spelled (by simp [Token.isName]),
    referencesInside_run (List.forall_mem_append.mpr ⟨toTable, isRun⟩) readable.tail.right]

end Lines

section Joins

private theorem tablesBehind_cons_cons (test : Join → Bool) :
    tablesBehind test (first :: join :: joins) =
      if test first then join.table :: tablesBehind test (join :: joins)
      else tablesBehind test (join :: joins) := by
  unfold tablesBehind
  rw [List.tail_cons, List.zip_cons_cons, List.filter_cons]
  cases test first <;> rfl

/-- From the last column of a join on, the scan finds the tables of the later joins, but for those
behind a join whose last column is called join. -/
theorem referencesInside_joinLines (compares : ∀ join ∈ joins, join.on ≠ [])
    (last : first.lastColumn? = some column) (isEnd : IsLink tail)
    (readable : Readable (.name column :: (joinLines joins ++ tail))) :
    referencesInside column (joinLines joins ++ tail) =
      (tablesBehind (fun join => !join.endsInJoin) (first :: joins)).map TableRef.reference := by
  induction joins generalizing first column with
  | nil => exact referencesInside_end isEnd readable
  | cons join joins ih =>
    obtain ⟨here, there⟩ := List.forall_mem_cons.mp compares
    obtain ⟨next, ends⟩ := lastColumn?_of_compares here
    have line : joinLines (join :: joins) ++ tail =
        .mark '\n' :: (join.tokens ++ (joinLines joins ++ tail)) := by
      simp [joinLines]
    have later : Readable (.name next :: (joinLines joins ++ tail)) := by
      obtain ⟨front, split⟩ := exists_last_tokens ends
      rw [line, split, List.append_assoc] at readable
      exact readable.tail.tail.right
    have ends_first : first.endsInJoin = (upper column == "JOIN") := by
      rw [Join.endsInJoin, last]
      rfl
    rw [line] at readable ⊢
    rw [tablesBehind_cons_cons, ends_first]
    by_cases spelled : upper column = "JOIN"
    · rw [referencesInside_line spelled ends readable, ih there ends later]
      simp [spelled]
    · rw [referencesInside_other readable spelled, referencesFrom_line ends readable.tail,
        ih there ends later]
      simp [spelled]

end Joins

section Anchor

variable {statement : Statement}

theorem listTokens_append (unspelled : ∀ token ∈ tokens, token.spellsInCode listEndKeywords = false) :
    listTokens (tokens ++ rest) = tokens ++ listTokens rest := by
  induction tokens with
  | nil => rfl
  | cons token tokens ih =>
    obtain ⟨here, there⟩ := List.forall_mem_cons.mp unspelled
    rw [List.cons_append, listTokens, here, if_neg Bool.false_ne_true, ih there, List.cons_append]

/-- A list ends with the line before a clause. -/
theorem listTokens_clauseLine {word : String} {words : List String} {separator : List Token}
    {parts : List (List Token)} (ends : listEndKeywords.contains (upper word))
    (isEnd : listTokens rest = [] ∨ listTokens rest = [.mark '\n']) :
    listTokens (clauseLine (word :: words) separator parts ++ rest) = [] ∨
      listTokens (clauseLine (word :: words) separator parts ++ rest) = [.mark '\n'] := by
  cases parts with
  | nil => exact isEnd
  | cons first parts =>
    obtain ⟨more, begins⟩ : ∃ more, phrase (word :: words) = .word word :: more := by
      rw [phrase, List.map_cons, Text.intercalate_cons_flatMap]
      exact ⟨_, rfl⟩
    have line : Token.spellsInCode listEndKeywords (.mark '\n') = false := rfl
    have spelled : Token.spellsInCode listEndKeywords (.word word) = true := ends
    right
    rw [clauseLine, clauseTokens, if_neg (by simp), List.flatMap_singleton, begins]
    simp [listTokens, line, spelled, Token.sign]

theorem Statement.listTokens_lastLines (statement : Statement) :
    listTokens statement.lastLines = [] ∨ listTokens statement.lastLines = [.mark '\n'] := by
  refine listTokens_clauseLine (by decide) ?_
  rw [← List.append_nil (clauseLine _ _ _)]
  exact listTokens_clauseLine (by decide) (.inl rfl)

private theorem head?_listTokens {next : Token} (head : next ∈ (listTokens tokens).head?) :
    next.isMark ∨ next ∈ tokens.head? := by
  cases tokens with
  | nil => cases head
  | cons token rest =>
    rw [listTokens] at head
    split at head
    · cases token with
      | parameter text => exact .inl (Option.some.inj head ▸ rfl)
      | _ => cases head
    · exact .inr head

/-- What is listed can be told apart as in the whole. -/
theorem Readable.listTokens (readable : Readable tokens) : Readable (listTokens tokens) := by
  induction tokens with
  | nil => exact readable
  | cons token rest ih =>
    obtain ⟨beside, -⟩ := List.isChain_cons.mp readable.separated
    have later := ih readable.tail
    rw [Query.listTokens]
    cases token.spellsInCode listEndKeywords with
    | true =>
      rw [if_pos rfl]
      cases token with
      | parameter text => exact ⟨List.forall_mem_singleton.mpr (.inr rfl), List.isChain_singleton _⟩
      | _ => exact ⟨List.forall_mem_nil _, List.isChain_nil⟩
    | false =>
      rw [if_neg Bool.false_ne_true]
      refine ⟨List.forall_mem_cons.mpr ⟨readable.listed token List.mem_cons_self, later.listed⟩,
        List.isChain_cons.mpr ⟨fun next head => ?_, later.separated⟩⟩
      rcases head?_listTokens head with marked | same
      · rw [marked, Bool.or_true]
      · exact beside next same

theorem Statement.readable_fromTail (statement : Statement)
    (plain : ∀ token ∈ statement.tokens, token.IsPlain) : Readable statement.fromTail := by
  have whole : Readable statement.tokens :=
    ⟨fun token member => .inl (plain token member), statement.separated_tokens⟩
  rw [Statement.tokens_eq] at whole
  exact whole.right.tail.tail

/-- The list behind FROM: its table, the joins and at most a line feed. -/
private theorem exists_listTokens_fromTail (statement : Statement) :
    ∃ tail, (tail = [] ∨ tail = [.mark '\n']) ∧
      listTokens statement.fromTail =
        .mark ' ' :: statement.anchor.tokens ++ (joinLines statement.joins ++ tail) := by
  have among : ∀ token ∈ .mark ' ' :: statement.anchor.tokens ++ joinLines statement.joins,
      token.IsAmong joinCode :=
    List.forall_mem_append.mpr ⟨List.forall_mem_cons.mpr ⟨.inr (.inr (by decide)), isAmong_tableRef _⟩,
      isAmong_joinLines _⟩
  have words : areKeywords listEndKeywords := by decide
  have unspelled := fun token member => (among token member).unspelled words (by decide)
  have split : statement.fromTail =
      (.mark ' ' :: statement.anchor.tokens ++ joinLines statement.joins) ++ statement.clauseLines := by
    simp [Statement.fromTail]
  refine ⟨listTokens statement.clauseLines, ?_, ?_⟩
  · exact listTokens_clauseLine (by decide) statement.listTokens_lastLines
  · rw [split, listTokens_append unspelled, List.append_assoc]

private theorem begins_joinLines (isEnd : tail = [] ∨ tail = [.mark '\n']) :
    startsApart (textOf (joinLines joins ++ tail)) ∧
      (trimFrontChars (textOf (joinLines joins ++ tail))).head? ≠ some '.' := by
  cases joins with
  | nil =>
    rcases isEnd with rfl | rfl
    · exact ⟨rfl, by decide⟩
    · exact ⟨by decide, by decide⟩
  | cons join joins =>
    obtain ⟨side, more, plain, begins⟩ : ∃ side more, (Token.word side).IsPlain ∧
        joinLines (join :: joins) ++ tail = .mark '\n' :: .word side :: more := by
      obtain ⟨side, isSide, words⟩ := exists_side join.kind
      have plain : (Token.word side).IsPlain := by
        simp only [List.mem_cons, List.not_mem_nil, or_false] at isSide
        rcases isSide with rfl | rfl
        · exact .inl (by decide)
        · exact .inl (by decide)
      refine ⟨side, ?more, plain, ?begins⟩
      case begins =>
        rw [joinLines, List.flatMap_cons, Join.tokens, words]
        rfl
    rw [begins]
    exact begins_blank (by decide) plain rfl

/-- The scan of the list behind FROM finds the shown tables. -/
theorem Statement.referencesFrom_fromTail {statement : Statement}
    (plain : ∀ token ∈ statement.tokens, token.IsPlain)
    (compares : ∀ join ∈ statement.joins, join.on ≠ []) :
    referencesFrom none (textOf (listTokens statement.fromTail)) =
      statement.shownTables.map TableRef.reference := by
  have readable := (statement.readable_fromTail plain).listTokens
  obtain ⟨tail, isEnd, list⟩ := exists_listTokens_fromTail statement
  rw [list] at readable ⊢
  obtain ⟨apart, undotted⟩ := begins_joinLines isEnd
  have read := readTableReference_table readable apart undotted
  obtain ⟨e, ends⟩ : ∃ e, (textOf (.mark ' ' :: statement.anchor.tokens)).getLast? = some e :=
    ⟨_, List.getLast?_eq_some_getLast (by simp [Token.text])⟩
  have isLink : IsLink tail := by
    rcases isEnd with rfl | rfl
    · exact List.forall_mem_nil _
    · decide
  rw [textOf_append] at read ⊢
  rw [referencesFrom_first (by simp [Token.text]) read, ends, List.filter_singleton, isIdle_reference]
  have later := readable.right
  refine congrArg (statement.anchor.reference :: ·) ?_
  cases joined : statement.joins with
  | nil =>
    rw [joined] at later
    have none : joinLines [] ++ tail = tail := rfl
    rw [none] at later ⊢
    refine referencesFrom_end isLink later ?_
    rcases isEnd with rfl | rfl
    · simp
    · simp [Token.isMark]
  | cons first joins =>
    rw [joined] at later compares
    obtain ⟨here, there⟩ := List.forall_mem_cons.mp compares
    obtain ⟨column, last⟩ := lastColumn?_of_compares here
    obtain ⟨front, split⟩ := exists_last_tokens last
    have line : joinLines (first :: joins) ++ tail =
        .mark '\n' :: (first.tokens ++ (joinLines joins ++ tail)) := by
      simp [joinLines]
    rw [line] at later ⊢
    rw [referencesFrom_line last later]
    rw [split, List.append_assoc] at later
    rw [referencesInside_joinLines there last isLink later.tail.right]
    rfl

end Anchor

end ReportQuery.Query
