import ReportQuery.Proofs.Query.Aliases
import ReportQuery.Proofs.Query.PlainText

set_option autoImplicit false
set_option relaxedAutoImplicit false

/-!
The tokens of a statement line by line, and what the safety rules ask of its text before they look at
schemas.
-/

namespace ReportQuery.Query

open Schema (Snapshot)
open Sql (areKeywords isCapitals forbiddenWords isQuery keyword containsWord startsWithSelect)
open Text (isNameChar isPlainName upper upperChars trimChars findFirst? findAll)

variable {snapshot : Snapshot} {statement : Statement} {keywords : List String}

section Lines

def joinLines (joins : List Join) : List Token :=
  joins.flatMap fun join => .mark '\n' :: join.tokens

/-- The line of a clause, or nothing. -/
def clauseLine (words : List String) (separator : List Token) (parts : List (List Token)) :
    List Token :=
  (clauseTokens words separator parts).flatMap fun line => .mark '\n' :: line

namespace Statement

def selectLine (statement : Statement) : List Token :=
  phrase ("SELECT" :: if statement.isDistinct then ["DISTINCT"] else []) ++ [.mark ' '] ++
    statement.selection.tokens

/-- The lines of GROUP BY and ORDER BY. -/
def lastLines (statement : Statement) : List Token :=
  clauseLine ["GROUP", "BY"] commaTokens (statement.grouping.map ColumnRef.tokens) ++
    clauseLine ["ORDER", "BY"] commaTokens (statement.order.map OrderEntry.tokens)

/-- The lines of WHERE, GROUP BY and ORDER BY. -/
def clauseLines (statement : Statement) : List Token :=
  clauseLine ["WHERE"] andTokens (statement.conditions.map Condition.tokens) ++ statement.lastLines

/-- What follows FROM. -/
def fromTail (statement : Statement) : List Token :=
  .mark ' ' :: (statement.anchor.tokens ++ (joinLines statement.joins ++ statement.clauseLines))

end Statement

theorem intercalate_andTokens {α : Type} (tokens : α → List Token) (first : α) (parts : List α) :
    andTokens.intercalate ((first :: parts).map tokens) =
      tokens first ++ parts.flatMap fun part => andTokens ++ tokens part := by
  rw [List.map_cons, Text.intercalate_cons_flatMap, List.flatMap_map]

theorem Statement.tokens_eq (statement : Statement) :
    statement.tokens =
      statement.selectLine ++ .mark '\n' :: .word "FROM" :: statement.fromTail := by
  have line : phrase ["FROM"] = [.word "FROM"] := rfl
  rw [Statement.tokens, Statement.lineTokens, List.cons_append, List.cons_append, List.cons_append,
    List.cons_append, Text.intercalate_cons_flatMap]
  simp [Statement.selectLine, Statement.fromTail, Statement.clauseLines, Statement.lastLines, joinLines,
    clauseLine, line, List.flatMap_map]

end Lines

section Parts

variable {code more separator : List Token} {token : Token} {α : Type} {tokens : α → List Token}
  {parts : List α} {words : List String}

/-- A name, an alias or one of the given tokens. -/
def Token.IsAmong (code : List Token) (token : Token) : Prop :=
  token.isName ∨ (∃ n, token = .word (aliasText n)) ∨ token ∈ code

/-! What else the tokens of each part are. -/

def equalityCode : List Token :=
  [.mark ' ', .mark '.', .word "ON", .word "AND", .word "="]

def joinCode : List Token :=
  .mark '\n' :: .word "INNER" :: .word "LEFT" :: .word "JOIN" :: equalityCode

def selectionCode : List Token :=
  [.mark ' ', .mark ',', .mark '.', .mark '*', .mark '(', .mark ')', .word "AS"] ++
    Aggregate.all.map fun function => .word function.name

def lastCode : List Token :=
  [.mark '\n', .mark ' ', .mark ',', .mark '.', .word "GROUP", .word "ORDER", .word "BY", .word "ASC",
    .word "DESC"]

theorem Token.IsAmong.mono (isAmong : token.IsAmong code) (subset : code ⊆ more) : token.IsAmong more :=
  isAmong.imp id (.imp id fun inCode => subset inCode)

theorem isAmong_of_all {list : List Token} (all : list.all code.contains) :
    ∀ token ∈ list, token.IsAmong code :=
  fun token member => .inr (.inr (List.contains_iff_mem.mp (List.all_eq_true.mp all token member)))

theorem forall_mem_intercalate {P : Token → Prop} (between : ∀ token ∈ separator, P token)
    (each : ∀ part, ∀ token ∈ tokens part, P token) :
    ∀ token ∈ separator.intercalate (parts.map tokens), P token := by
  cases parts with
  | nil => exact List.forall_mem_nil _
  | cons first parts =>
    rw [List.map_cons, Text.intercalate_cons_flatMap, List.flatMap_map]
    exact List.forall_mem_append.mpr ⟨each first, List.forall_mem_flatMap.mpr fun part _ =>
      List.forall_mem_append.mpr ⟨between, each part⟩⟩

theorem forall_mem_clauseLine {P : Token → Prop}
    (front : ∀ token ∈ .mark '\n' :: (phrase words ++ [.mark ' ']), P token)
    (between : ∀ token ∈ separator, P token) (each : ∀ part, ∀ token ∈ tokens part, P token) :
    ∀ token ∈ clauseLine words separator (parts.map tokens), P token := by
  cases parts with
  | nil => exact List.forall_mem_nil _
  | cons first parts =>
    rw [clauseLine, clauseTokens, if_neg (by simp), List.flatMap_singleton, ← List.cons_append]
    exact List.forall_mem_append.mpr ⟨front, forall_mem_intercalate between each⟩

theorem isAmong_columnRef (dot : .mark '.' ∈ code) (ref : ColumnRef) :
    ∀ token ∈ ref.tokens, token.IsAmong code := by
  simp only [ColumnRef.tokens, List.forall_mem_cons]
  exact ⟨.inr (.inl ⟨_, rfl⟩), .inr (.inr dot), .inl rfl, List.forall_mem_nil _⟩

theorem isAmong_equality (equality : Equality) :
    ∀ token ∈ equality.tokens, token.IsAmong equalityCode := by
  have between : ∀ token ∈ [.mark ' ', .word "=", .mark ' '], Token.IsAmong equalityCode token :=
    isAmong_of_all (by decide)
  simp only [Equality.tokens, List.forall_mem_append]
  exact ⟨⟨isAmong_columnRef (by decide) _, between⟩, isAmong_columnRef (by decide) _⟩

theorem isAmong_tableRef (table : TableRef) : ∀ token ∈ table.tokens, token.IsAmong joinCode := by
  simp only [TableRef.tokens, List.forall_mem_cons]
  exact ⟨.inl rfl, .inr (.inr (by decide)), .inl rfl, .inr (.inr (by decide)), .inr (.inl ⟨_, rfl⟩),
    List.forall_mem_nil _⟩

theorem isAmong_joinLines (joins : List Join) : ∀ token ∈ joinLines joins, token.IsAmong joinCode := by
  refine List.forall_mem_flatMap.mpr fun join _ => ?_
  have keywords : ∀ token ∈ .mark '\n' :: (phrase (joinWords join.kind) ++ [.mark ' ']),
      Token.IsAmong joinCode token := isAmong_of_all (by cases join.kind <;> decide)
  have on : ∀ token ∈ [.mark ' ', .word "ON", .mark ' '], Token.IsAmong joinCode token :=
    isAmong_of_all (by decide)
  have compared : ∀ token ∈ andTokens.intercalate (join.on.map Equality.tokens),
      token.IsAmong joinCode := by
    apply forall_mem_intercalate (isAmong_of_all (by decide))
    intro equality token member
    exact (isAmong_equality equality token member).mono (by decide)
  rw [Join.tokens, ← List.cons_append]
  exact List.forall_mem_append.mpr ⟨keywords, List.forall_mem_append.mpr
    ⟨List.forall_mem_append.mpr ⟨isAmong_tableRef join.table, on⟩, compared⟩⟩

theorem isAmong_selection (selection : Selection) :
    ∀ token ∈ selection.tokens, token.IsAmong selectionCode := by
  have columns (ref : ColumnRef) : ∀ token ∈ ref.tokens, token.IsAmong selectionCode :=
    isAmong_columnRef (by decide) ref
  cases selection with
  | everything number =>
    simp only [Selection.tokens, List.forall_mem_cons]
    exact ⟨.inr (.inl ⟨_, rfl⟩), .inr (.inr (by decide)), .inr (.inr (by decide)),
      List.forall_mem_nil _⟩
  | items entries =>
    refine forall_mem_intercalate (isAmong_of_all (by decide)) fun item =>
      List.forall_mem_append.mpr ⟨?_, ?_⟩
    · cases item.aggregate? with
      | none => exact columns item.source
      | some function =>
        have opening : ∀ token ∈ [.word function.name, .mark '('], Token.IsAmong selectionCode token :=
          isAmong_of_all (by cases function <;> decide)
        have closing : ∀ token ∈ [.mark ')'], Token.IsAmong selectionCode token :=
          isAmong_of_all (by decide)
        exact List.forall_mem_append.mpr
          ⟨opening, List.forall_mem_append.mpr ⟨columns item.source, closing⟩⟩
    · cases item.label? with
      | none => exact List.forall_mem_nil _
      | some label =>
        have front : ∀ token ∈ [.mark ' ', .word "AS", .mark ' '], Token.IsAmong selectionCode token :=
          isAmong_of_all (by decide)
        exact List.forall_mem_append.mpr ⟨front, List.forall_mem_singleton.mpr (.inl rfl)⟩

theorem isAmong_lastLines (statement : Statement) :
    ∀ token ∈ statement.lastLines, token.IsAmong lastCode := by
  have commas : ∀ token ∈ commaTokens, token.IsAmong lastCode := isAmong_of_all (by decide)
  refine List.forall_mem_append.mpr ⟨?_, ?_⟩
  · exact forall_mem_clauseLine (isAmong_of_all (by decide)) commas (isAmong_columnRef (by decide))
  · refine forall_mem_clauseLine (isAmong_of_all (by decide)) commas fun entry => ?_
    have direction : ∀ token ∈ [.word entry.direction.symbol], Token.IsAmong lastCode token :=
      isAmong_of_all (by cases entry.direction <;> decide)
    have blank : ∀ token ∈ [.mark ' '], Token.IsAmong lastCode token := isAmong_of_all (by decide)
    exact List.forall_mem_append.mpr
      ⟨List.forall_mem_append.mpr ⟨isAmong_columnRef (by decide) _, blank⟩, direction⟩

end Parts

section Plain

/-- Where all names of the snapshot are plain, so are those of a compiled statement. -/
theorem plain_of_compile {description : Description} {compiled : Compiled}
    (named : ∀ name, IsNameOf snapshot name → isPlainName name.toList)
    (done : compile snapshot description = .ok compiled) :
    ∀ token ∈ compiled.statement.tokens, token.IsPlain :=
  fun token member => (allSafe_of_compile done token member).isPlain named

/-- An alias is no keyword, since it ends in digits. -/
theorem spells_aliasText (words : areKeywords keywords) (n : Nat) :
    (Token.word (aliasText n)).spells keywords = false := by
  by_contra spelled
  have member : upper (aliasText n) ∈ keywords := by simpa [Token.spells] using spelled
  obtain ⟨capitals, -⟩ := (Bool.and_eq_true _ _).mp (List.all_eq_true.mp words _ member)
  have letters : ∀ c ∈ (aliasText n).toList, isNameChar c := isNameChar_of_mem_aliasText
  have upperCase := Sql.upper_of_plain letters
  rw [String.ofList_toList] at upperCase
  obtain ⟨d, digits⟩ := List.exists_mem_of_ne_nil _ (Nat.toDigits_ne_nil : Nat.toDigits 10 n ≠ [])
  have isDigit := Nat.isDigit_of_mem_toDigits (by decide) (by decide) digits
  have inAlias : d ∈ (aliasText n).toList := by
    rw [aliasText, String.toList_append, Nat.toString_eq_repr, Nat.toList_repr]
    exact List.mem_append_right _ digits
  rw [upperCase, isCapitals, String.toList_ofList] at capitals
  have capital := List.all_eq_true.mp capitals _ (List.mem_map_of_mem inAlias)
  have small := Sql.toNat_lt_of_isNameChar (letters d inAlias)
  have ascii : ∀ c : Char, c.toNat < 0x80 → c.isDigit → ('A' ≤ c.toUpper && c.toUpper ≤ 'Z') = false :=
    Text.forall_ascii (by decide)
  rw [ascii d small isDigit] at capital
  cases capital

/-- The words of a plain text that are no aliases are those of the vocabulary. -/
theorem spells_word (words : areKeywords keywords) {text : String}
    (free : vocabulary.all fun word => !keywords.contains (upper word))
    (plain : (Token.word text).IsPlain) : (Token.word text).spells keywords = false := by
  rcases plain with fixed | ⟨n, rfl⟩
  · have outside := List.all_eq_true.mp free text fixed
    simpa [Token.spells] using outside
  · exact spells_aliasText words n

end Plain

section Rules

/-- The name or the parameter that a token writes. -/
def Token.written? : Token → Option String
  | parameter text | name text => some text
  | _ => none

/-- The names of schemas, tables and columns, the labels and the parameters in a statement. -/
def Statement.writtenNames (statement : Statement) : List String :=
  statement.tokens.filterMap Token.written?

/-- No written name is a word that changes data or schema. -/
def Statement.IsHarmless (statement : Statement) : Prop :=
  ∀ name ∈ statement.writtenNames, upper name ∉ forbiddenWords

instance (statement : Statement) : Decidable statement.IsHarmless :=
  inferInstanceAs (Decidable (∀ name ∈ statement.writtenNames, _))

private theorem exists_spells_iff (plain : ∀ token ∈ statement.tokens, token.IsPlain) :
    (∃ token ∈ statement.tokens, token.spells forbiddenWords) ↔ ¬ statement.IsHarmless := by
  have free {text : String} (isPlain : (Token.word text).IsPlain) :
      (Token.word text).spells forbiddenWords = false :=
    spells_word (by decide) (by rfl) isPlain
  have harmful : ¬ statement.IsHarmless ↔ ∃ name ∈ statement.writtenNames,
      forbiddenWords.contains (upper name) := by
    simp [Statement.IsHarmless]
  rw [harmful]
  constructor
  · rintro ⟨token, member, spells⟩
    cases token with
    | mark c => cases spells
    | word text =>
      rw [free (plain _ member)] at spells
      cases spells
    | _ => exact ⟨_, List.mem_filterMap.mpr ⟨_, member, rfl⟩, spells⟩
  · rintro ⟨name, member, forbidden⟩
    obtain ⟨token, among, writes⟩ := List.mem_filterMap.mp member
    refine ⟨token, among, ?_⟩
    cases token with
    | mark c => cases writes
    | word text => cases writes
    | _ =>
      obtain rfl := Option.some.inj writes
      exact forbidden

/-- Apart from schemas, the safety rules ask only that the written names are harmless. -/
theorem isQuery_textOf (plain : ∀ token ∈ statement.tokens, token.IsPlain) :
    isQuery (textOf statement.tokens) ↔ statement.IsHarmless := by
  have spaced : Spaced none statement.tokens :=
    spaced_of_plain plain statement.separated_tokens (by simp [Sql.IsApart])
  obtain ⟨rest, begins⟩ : ∃ rest, textOf statement.tokens = "SELECT".toList ++ rest := by
    rw [Statement.tokens_eq, Statement.selectLine]
    cases statement.isDistinct <;>
      exact ⟨_, by simp [phrase, Token.text]; rfl⟩
  have select : startsWithSelect (textOf statement.tokens) := by
    have capitals : upperChars "SELECT".toList = "SELECT".toList := by decide
    rw [startsWithSelect, begins, List.isPrefixOf_iff_prefix, upperChars, List.flatMap_append,
      ← upperChars, capitals]
    exact List.prefix_append _ _
  have nonempty : (textOf statement.tokens).isEmpty = false := by
    rw [begins]
    rfl
  have contains : containsWord forbiddenWords (textOf statement.tokens) ↔ _ :=
    spaced.containsWord_iff (by decide)
  rw [exists_spells_iff plain] at contains
  unfold containsWord at contains
  rw [isQuery, select, nonempty]
  cases found : findFirst? (keyword forbiddenWords) (textOf statement.tokens) with
  | none => simpa [found] using contains
  | some word => simpa [found] using contains

/-- The tokens do not end in a mark. -/
def EndsUnmarked (tokens : List Token) : Prop :=
  ∀ token ∈ tokens.getLast?, token.isMark = false

theorem EndsUnmarked.append {front back : List Token} (first : EndsUnmarked front)
    (second : EndsUnmarked back) : EndsUnmarked (front ++ back) := by
  cases back with
  | nil => rwa [List.append_nil]
  | cons token back =>
    unfold EndsUnmarked
    rw [List.getLast?_append_of_ne_nil _ (by simp)]
    exact second

theorem EndsUnmarked.flatMap {α : Type} {tokens : α → List Token} {parts : List α}
    (each : ∀ part ∈ parts, EndsUnmarked (tokens part)) : EndsUnmarked (parts.flatMap tokens) := by
  induction parts with
  | nil => simp [EndsUnmarked]
  | cons part parts ih =>
    obtain ⟨here, there⟩ := List.forall_mem_cons.mp each
    rw [List.flatMap_cons]
    exact here.append (ih there)

private theorem endsUnmarked_concat {front : List Token} {token : Token}
    (unmarked : token.isMark = false) : EndsUnmarked (front ++ [token]) := by
  intro last same
  rw [List.getLast?_concat] at same
  exact Option.some.inj same ▸ unmarked

private theorem endsUnmarked_columnRef (front : List Token) (ref : ColumnRef) :
    EndsUnmarked (front ++ ref.tokens) := by
  have split : front ++ ref.tokens =
      (front ++ [.word (aliasText ref.number), .mark '.']) ++ [.name ref.column] := by
    simp [ColumnRef.tokens]
  rw [split]
  exact endsUnmarked_concat rfl

private theorem endsUnmarked_equality (front : List Token) (equality : Equality) :
    EndsUnmarked (front ++ equality.tokens) := by
  rw [Equality.tokens, ← List.append_assoc]
  exact endsUnmarked_columnRef _ _

private theorem endsUnmarked_join {join : Join} (compares : join.on ≠ []) :
    EndsUnmarked (.mark '\n' :: join.tokens) := by
  obtain ⟨first, others, same⟩ := List.exists_cons_of_ne_nil compares
  rw [Join.tokens, same, intercalate_andTokens, ← List.append_assoc, ← List.append_assoc,
    ← List.cons_append, ← List.cons_append]
  refine (endsUnmarked_equality _ first).append (EndsUnmarked.flatMap fun equality _ => ?_)
  exact endsUnmarked_equality _ equality

private theorem endsUnmarked_clauseLine {α : Type} {words : List String} {separator : List Token}
    {tokens : α → List Token} {parts : List α}
    (each : ∀ front part, EndsUnmarked (front ++ tokens part)) :
    EndsUnmarked (clauseLine words separator (parts.map tokens)) := by
  cases parts with
  | nil => simp [clauseLine, clauseTokens, EndsUnmarked]
  | cons first parts =>
    have split : clauseLine words separator ((first :: parts).map tokens) =
        (.mark '\n' :: (phrase words ++ [.mark ' ']) ++ tokens first) ++
          parts.flatMap fun part => separator ++ tokens part := by
      rw [clauseLine, clauseTokens, if_neg (by simp), List.map_cons, Text.intercalate_cons_flatMap,
        List.flatMap_map]
      simp
    rw [split]
    exact (each _ first).append (EndsUnmarked.flatMap fun part _ => each separator part)

theorem Statement.opensUnmarked_tokens (statement : Statement) :
    ∀ token ∈ statement.tokens.head?, token.isMark = false := by
  rw [Statement.tokens_eq, Statement.selectLine]
  cases statement.isDistinct <;> simp [phrase, Token.isMark]

/-- A statement ends in no mark if every join compares columns. -/
theorem Statement.endsUnmarked_tokens (compares : ∀ join ∈ statement.joins, join.on ≠ []) :
    EndsUnmarked statement.tokens := by
  have anchor : EndsUnmarked (statement.selectLine ++
      .mark '\n' :: .word "FROM" :: .mark ' ' :: statement.anchor.tokens) := by
    have split : statement.selectLine ++
        .mark '\n' :: .word "FROM" :: .mark ' ' :: statement.anchor.tokens =
          (statement.selectLine ++ [.mark '\n', .word "FROM", .mark ' ',
            .name statement.anchor.schema, .mark '.', .name statement.anchor.name, .mark ' ']) ++
            [.word (aliasText statement.anchor.number)] := by
      simp [TableRef.tokens]
    rw [split]
    exact endsUnmarked_concat rfl
  have clauses : EndsUnmarked statement.clauseLines := by
    refine (endsUnmarked_clauseLine fun front condition => ?_).append
      ((endsUnmarked_clauseLine endsUnmarked_columnRef).append
        (endsUnmarked_clauseLine fun front entry => ?_))
    · rw [Condition.tokens, ← List.append_assoc, ← List.append_assoc]
      exact endsUnmarked_concat rfl
    · rw [OrderEntry.tokens, ← List.append_assoc]
      exact endsUnmarked_concat rfl
  have joins : EndsUnmarked (joinLines statement.joins) :=
    EndsUnmarked.flatMap fun join member => endsUnmarked_join (compares join member)
  have whole := anchor.append (joins.append clauses)
  rw [Statement.tokens_eq, Statement.fromTail]
  simpa using whole

/-- The text of a statement is not trimmed if every join compares columns. -/
theorem trimChars_statement (plain : ∀ token ∈ statement.tokens, token.IsPlain)
    (compares : ∀ join ∈ statement.joins, join.on ≠ []) :
    trimChars (textOf statement.tokens) = textOf statement.tokens :=
  trimChars_textOf plain statement.opensUnmarked_tokens (statement.endsUnmarked_tokens compares)

end Rules

end ReportQuery.Query
