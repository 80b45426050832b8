import Mathlib.Data.List.Chain
import ReportQuery.Query.Statement

set_option autoImplicit false
set_option relaxedAutoImplicit false

/-!
Statements as lists of tokens. The tokens put together are the rendered text, and of two tokens side
by side one is always a mark, so that each can be told apart from its neighbours.
-/

namespace ReportQuery.Query

open Schema (JoinKind)
open Text (quoteIdentifier)

/-- A part of a rendered statement. -/
inductive Token where
  | mark (c : Char)
  | word (text : String)
  | parameter (text : String)
  | name (text : String)
deriving Repr, DecidableEq

namespace Token

def text : Token → List Char
  | mark c => [c]
  | word text => text.toList
  | parameter text => '@' :: text.toList
  | name text => (quoteIdentifier text).toList

def isMark : Token → Bool
  | mark _ => true
  | _ => false

def isName : Token → Bool
  | name _ => true
  | _ => false

end Token

/-- The text that the tokens make up. -/
def textOf (tokens : List Token) : List Char :=
  tokens.flatMap Token.text

/-- A comma and a blank. -/
def commaTokens : List Token := [.mark ',', .mark ' ']

/-- The word that connects conditions, with blanks around it. -/
def andTokens : List Token := [.mark ' ', .word "AND", .mark ' ']

/-- Words with blanks between them. -/
def phrase (words : List String) : List Token :=
  [Token.mark ' '].intercalate (words.map fun word => [.word word])

def ColumnRef.tokens (ref : ColumnRef) : List Token :=
  [.word (aliasText ref.number), .mark '.', .name ref.column]

def SelectItem.tokens (item : SelectItem) : List Token :=
  (match item.aggregate? with
    | some aggregate => .word aggregate.name :: .mark '(' :: (item.source.tokens ++ [.mark ')'])
    | none => item.source.tokens) ++
  (match item.label? with
    | some label => [.mark ' ', .word "AS", .mark ' ', .name label]
    | none => [])

def Selection.tokens : Selection → List Token
  | everything number => [.word (aliasText number), .mark '.', .mark '*']
  | items entries => commaTokens.intercalate (entries.map SelectItem.tokens)

def TableRef.tokens (table : TableRef) : List Token :=
  [.name table.schema, .mark '.', .name table.name, .mark ' ', .word (aliasText table.number)]

def Equality.tokens (equality : Equality) : List Token :=
  equality.left.tokens ++ [.mark ' ', .word "=", .mark ' '] ++ equality.right.tokens

def joinWords : JoinKind → List String
  | .inner => ["INNER", "JOIN"]
  | .left => ["LEFT", "JOIN"]

def Join.tokens (join : Join) : List Token :=
  phrase (joinWords join.kind) ++ [.mark ' '] ++
    (join.table.tokens ++ [.mark ' ', .word "ON", .mark ' '] ++
      andTokens.intercalate (join.on.map Equality.tokens))

/-- The words that an operator is written with. -/
def Operator.words : Operator → List String
  | notLike => ["NOT", "LIKE"]
  | notLikeAnyCase => ["NOT", "ILIKE"]
  | operator => [operator.symbol]

def Condition.tokens (condition : Condition) : List Token :=
  condition.source.tokens ++ [.mark ' '] ++
    (phrase condition.operator.words ++ [.mark ' '] ++ [.parameter condition.parameter])

def OrderEntry.tokens (entry : OrderEntry) : List Token :=
  entry.source.tokens ++ [.mark ' '] ++ [.word entry.direction.symbol]

/-- The tokens of a clause that is left out when it has no parts. -/
def clauseTokens (words : List String) (separator : List Token) (parts : List (List Token)) :
    List (List Token) :=
  if parts.isEmpty then [] else [phrase words ++ [.mark ' '] ++ separator.intercalate parts]

namespace Statement

/-- The tokens of each line. -/
def lineTokens (statement : Statement) : List (List Token) :=
  [phrase ("SELECT" :: if statement.isDistinct then ["DISTINCT"] else []) ++ [.mark ' '] ++
      statement.selection.tokens,
    phrase ["FROM"] ++ [.mark ' '] ++ statement.anchor.tokens] ++
  statement.joins.map Join.tokens ++
  clauseTokens ["WHERE"] andTokens (statement.conditions.map Condition.tokens) ++
  clauseTokens ["GROUP", "BY"] commaTokens (statement.grouping.map ColumnRef.tokens) ++
  clauseTokens ["ORDER", "BY"] commaTokens (statement.order.map OrderEntry.tokens)

/-- The tokens of a statement. -/
def tokens (statement : Statement) : List Token :=
  [Token.mark '\n'].intercalate statement.lineTokens

end Statement

section Text

@[simp] theorem textOf_nil : textOf [] = [] := rfl

@[simp] theorem textOf_cons (token : Token) (rest : List Token) :
    textOf (token :: rest) = token.text ++ textOf rest :=
  List.flatMap_cons

@[simp] theorem textOf_append (front back : List Token) :
    textOf (front ++ back) = textOf front ++ textOf back :=
  List.flatMap_append

theorem textOf_intercalate (separator : List Token) (parts : List (List Token)) :
    textOf (separator.intercalate parts) = (textOf separator).intercalate (parts.map textOf) := by
  induction parts with
  | nil => rfl
  | cons part rest ih =>
    cases rest with
    | nil => simp
    | cons next rest =>
      rw [List.intercalate_cons_cons, textOf_append, textOf_append, ih]
      simp

/-- Parts that have texts of their own, with a separator between them. -/
private theorem textOf_intercalate_map {α : Type} {separator : List Token} {between : String}
    {tokens : α → List Token} {render : α → String} (parts : List α)
    (separates : textOf separator = between.toList)
    (renders : ∀ part, textOf (tokens part) = (render part).toList) :
    textOf (separator.intercalate (parts.map tokens)) =
      (between.intercalate (parts.map render)).toList := by
  rw [textOf_intercalate, separates, String.toList_intercalate, List.map_map, List.map_map]
  congr 1
  exact List.map_congr_left fun part _ => renders part

theorem textOf_phrase (words : List String) :
    textOf (phrase words) = (" ".intercalate words).toList := by
  rw [phrase, textOf_intercalate, List.map_map, String.toList_intercalate]
  congr 2
  funext word
  simp [Token.text]

private theorem textOf_columnRef (ref : ColumnRef) : textOf ref.tokens = ref.render.toList := by
  simp [ColumnRef.tokens, ColumnRef.render, Token.text]

private theorem textOf_selectItem (item : SelectItem) :
    textOf item.tokens = item.render.toList := by
  unfold SelectItem.tokens SelectItem.render
  cases item.aggregate? <;> cases item.label? <;> simp [Token.text, textOf_columnRef]

private theorem textOf_selection (selection : Selection) :
    textOf selection.tokens = selection.render.toList := by
  cases selection with
  | everything number => simp [Selection.tokens, Selection.render, Token.text]
  | items entries => exact textOf_intercalate_map entries rfl textOf_selectItem

private theorem textOf_tableRef (table : TableRef) : textOf table.tokens = table.render.toList := by
  simp [TableRef.tokens, TableRef.render, Token.text]

private theorem textOf_equality (equality : Equality) :
    textOf equality.tokens = equality.render.toList := by
  simp [Equality.tokens, Equality.render, Token.text, textOf_columnRef]

private theorem intercalate_joinWords (kind : JoinKind) :
    " ".intercalate (joinWords kind) = joinKeywords kind := by
  cases kind <;> rfl

private theorem textOf_join (join : Join) : textOf join.tokens = join.render.toList := by
  have on : textOf (andTokens.intercalate (join.on.map Equality.tokens)) =
      (" AND ".intercalate (join.on.map Equality.render)).toList :=
    textOf_intercalate_map join.on rfl textOf_equality
  simp [Join.tokens, Join.render, Token.text, textOf_phrase, intercalate_joinWords,
    textOf_tableRef, on]

private theorem intercalate_operatorWords (operator : Operator) :
    " ".intercalate operator.words = operator.symbol := by
  cases operator <;> rfl

private theorem textOf_condition (condition : Condition) :
    textOf condition.tokens = condition.render.toList := by
  simp [Condition.tokens, Condition.render, Token.text, textOf_phrase, intercalate_operatorWords,
    textOf_columnRef]

private theorem textOf_orderEntry (entry : OrderEntry) :
    textOf entry.tokens = entry.render.toList := by
  simp [OrderEntry.tokens, OrderEntry.render, Token.text, textOf_columnRef]

private theorem map_textOf_clauseTokens {α : Type} {words : List String} {separator : List Token}
    {keyword between : String} {tokens : α → List Token} {render : α → String} (parts : List α)
    (introduces : " ".intercalate words = keyword) (separates : textOf separator = between.toList)
    (renders : ∀ part, textOf (tokens part) = (render part).toList) :
    (clauseTokens words separator (parts.map tokens)).map textOf =
      (clause keyword between (parts.map render)).map String.toList := by
  unfold clauseTokens clause
  by_cases empty : parts = []
  · simp [empty]
  · have whole := textOf_intercalate_map parts separates renders
    simp [empty, textOf_phrase, introduces, Token.text, whole]

/-- The rendered text of a statement is its tokens put together. -/
theorem Statement.toList_render (statement : Statement) :
    statement.render.toList = textOf statement.tokens := by
  have lines : statement.lineTokens.map textOf = statement.lines.map String.toList := by
    have joins : (statement.joins.map Join.tokens).map textOf =
        (statement.joins.map Join.render).map String.toList := by
      rw [List.map_map, List.map_map]
      exact List.map_congr_left fun join _ => textOf_join join
    have conditions : (clauseTokens ["WHERE"] andTokens
        (statement.conditions.map Condition.tokens)).map textOf =
          (clause "WHERE" " AND " (statement.conditions.map Condition.render)).map String.toList :=
      map_textOf_clauseTokens _ rfl rfl textOf_condition
    have grouping : (clauseTokens ["GROUP", "BY"] commaTokens
        (statement.grouping.map ColumnRef.tokens)).map textOf =
          (clause "GROUP BY" ", " (statement.grouping.map ColumnRef.render)).map String.toList :=
      map_textOf_clauseTokens _ rfl rfl textOf_columnRef
    have order : (clauseTokens ["ORDER", "BY"] commaTokens
        (statement.order.map OrderEntry.tokens)).map textOf =
          (clause "ORDER BY" ", " (statement.order.map OrderEntry.render)).map String.toList :=
      map_textOf_clauseTokens _ rfl rfl textOf_orderEntry
    unfold Statement.lineTokens Statement.lines
    simp only [List.map_append, joins, conditions, grouping, order]
    congr 4
    cases statement.isDistinct <;>
      simp [textOf_phrase, Token.text, textOf_selection, textOf_tableRef]
  rw [Statement.render, Statement.tokens, textOf_intercalate, lines, String.toList_intercalate]
  rfl

end Text

section Separated

/-- Of two tokens side by side at least one is a mark. -/
def Separated (tokens : List Token) : Prop :=
  tokens.IsChain fun left right => left.isMark || right.isMark

/-- Tokens that keep what stands around them apart. -/
def IsSeparator (tokens : List Token) : Prop :=
  tokens ≠ [] ∧ Separated tokens ∧ (∀ token ∈ tokens.head?, token.isMark) ∧
    ∀ token ∈ tokens.getLast?, token.isMark

private theorem isSeparator_mark (c : Char) : IsSeparator [.mark c] := by
  simp [IsSeparator, Separated, Token.isMark]

private theorem isSeparator_around (c : Char) (word : String) (d : Char) :
    IsSeparator [.mark c, .word word, .mark d] := by
  simp [IsSeparator, Separated, Token.isMark]

private theorem isSeparator_commaTokens : IsSeparator commaTokens := by
  simp [IsSeparator, Separated, Token.isMark, commaTokens]

variable {front back separator : List Token}

theorem Separated.append (separates : IsSeparator separator) (before : Separated front)
    (after : Separated back) : Separated (front ++ separator ++ back) := by
  obtain ⟨nonempty, inner, first, last⟩ := separates
  have left : Separated (front ++ separator) := by
    refine List.isChain_append.mpr ⟨before, inner, fun x _ y hy => ?_⟩
    simp [first y hy]
  refine List.isChain_append.mpr ⟨left, after, fun x hx y _ => ?_⟩
  rw [List.getLast?_append_of_ne_nil _ nonempty] at hx
  simp [last x hx]

theorem Separated.intercalate (separates : IsSeparator separator) {parts : List (List Token)}
    (each : ∀ part ∈ parts, Separated part) : Separated (separator.intercalate parts) := by
  induction parts with
  | nil => exact .nil
  | cons part rest ih =>
    have here := each part List.mem_cons_self
    have there := ih fun p member => each p (List.mem_cons_of_mem part member)
    cases rest with
    | nil => rwa [List.intercalate_singleton]
    | cons next rest =>
      rw [List.intercalate_cons_cons]
      exact here.append separates there

private theorem separated_singleton (token : Token) : Separated [token] :=
  .singleton token

theorem separated_phrase (words : List String) : Separated (phrase words) := by
  refine Separated.intercalate (isSeparator_mark ' ') fun part member => ?_
  obtain ⟨word, _, rfl⟩ := List.mem_map.mp member
  exact separated_singleton _

private theorem separated_columnRef (ref : ColumnRef) : Separated ref.tokens := by
  simp [ColumnRef.tokens, Separated, Token.isMark]

private theorem separated_selectItem (item : SelectItem) : Separated item.tokens := by
  have source : Separated (match item.aggregate? with
      | some aggregate => .word aggregate.name :: .mark '(' :: (item.source.tokens ++ [.mark ')'])
      | none => item.source.tokens) := by
    have column := separated_columnRef item.source
    cases item.aggregate? with
    | none => exact column
    | some aggregate =>
      have closed : Separated (item.source.tokens ++ [.mark ')'] ++ []) :=
        column.append (isSeparator_mark ')') .nil
      rw [List.append_nil] at closed
      exact (separated_singleton _).append (isSeparator_mark '(') closed
  unfold SelectItem.tokens
  cases item.label? with
  | none => rwa [List.append_nil]
  | some label =>
    have labelled := source.append (isSeparator_around ' ' "AS" ' ')
      (separated_singleton (.name label))
    rwa [List.append_assoc] at labelled

private theorem separated_selection (selection : Selection) : Separated selection.tokens := by
  cases selection with
  | everything number => simp [Selection.tokens, Separated, Token.isMark]
  | items entries =>
    refine Separated.intercalate isSeparator_commaTokens fun part member => ?_
    obtain ⟨item, _, rfl⟩ := List.mem_map.mp member
    exact separated_selectItem item

private theorem separated_tableRef (table : TableRef) : Separated table.tokens := by
  simp [TableRef.tokens, Separated, Token.isMark]

private theorem separated_equality (equality : Equality) : Separated equality.tokens :=
  (separated_columnRef _).append (isSeparator_around ' ' "=" ' ') (separated_columnRef _)

private theorem separated_join (join : Join) : Separated join.tokens := by
  have on : Separated (andTokens.intercalate (join.on.map Equality.tokens)) := by
    refine Separated.intercalate (isSeparator_around ' ' "AND" ' ') fun part member => ?_
    obtain ⟨equality, _, rfl⟩ := List.mem_map.mp member
    exact separated_equality equality
  have table := (separated_tableRef join.table).append (isSeparator_around ' ' "ON" ' ') on
  exact (separated_phrase _).append (isSeparator_mark ' ') table

private theorem separated_condition (condition : Condition) : Separated condition.tokens := by
  have right := (separated_phrase condition.operator.words).append (isSeparator_mark ' ')
    (separated_singleton (.parameter condition.parameter))
  exact (separated_columnRef _).append (isSeparator_mark ' ') right

private theorem separated_orderEntry (entry : OrderEntry) : Separated entry.tokens :=
  (separated_columnRef _).append (isSeparator_mark ' ') (separated_singleton _)

private theorem separated_clauseTokens {α : Type} {words : List String} {tokens : α → List Token}
    {parts : List α} (separates : IsSeparator separator) (each : ∀ part, Separated (tokens part)) :
    ∀ line ∈ clauseTokens words separator (parts.map tokens), Separated line := by
  intro line member
  unfold clauseTokens at member
  split at member
  · cases member
  · obtain rfl := List.mem_singleton.mp member
    have rest : Separated (separator.intercalate (parts.map tokens)) := by
      refine Separated.intercalate separates fun part member => ?_
      obtain ⟨a, _, rfl⟩ := List.mem_map.mp member
      exact each a
    exact (separated_phrase words).append (isSeparator_mark ' ') rest

/-- In a statement every word and every name stands between marks. -/
theorem Statement.separated_tokens (statement : Statement) : Separated statement.tokens := by
  refine Separated.intercalate (isSeparator_mark '\n') fun line member => ?_
  simp only [lineTokens, List.mem_append, List.mem_cons, List.mem_map, List.not_mem_nil,
    or_false] at member
  rcases member with ((((rfl | rfl) | ⟨join, _, rfl⟩) | condition) | group) | entry
  · exact (separated_phrase _).append (isSeparator_mark ' ') (separated_selection _)
  · exact (separated_phrase _).append (isSeparator_mark ' ') (separated_tableRef _)
  · exact separated_join join
  · exact separated_clauseTokens (isSeparator_around ' ' "AND" ' ') separated_condition _ condition
  · exact separated_clauseTokens isSeparator_commaTokens separated_columnRef _ group
  · exact separated_clauseTokens isSeparator_commaTokens separated_orderEntry _ entry

end Separated

end ReportQuery.Query
