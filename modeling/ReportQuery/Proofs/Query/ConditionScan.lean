import ReportQuery.Proofs.Query.JoinScan

set_option autoImplicit false
set_option relaxedAutoImplicit false

/-!
The table lists that parameters called FROM open. They hold what follows in WHERE, and the scan takes
nothing there for a table but AND, which it finds at the beginning if another condition follows.
-/

namespace ReportQuery.Query

open Sql (TableReference areKeywords listEndKeywords readTableReference startsApart wordless_marks)
open Text (isNameChar isPlainName upper)

/-- What the scan takes AND for. -/
def andReference : TableReference := ⟨["AND"], none⟩

/-- What stands before the name of a column. -/
def columnFront (number : Nat) : List Token :=
  [.mark ' ', .word (aliasText number), .mark '.']

/-- The operator of a condition, between blanks. -/
def operatorTokens (operator : Operator) : List Token :=
  .mark ' ' :: (phrase operator.words ++ [.mark ' '])

/-- What follows the first name of a condition. -/
def Condition.followed (condition : Condition) (rest : List Token) : List Token :=
  operatorTokens condition.operator ++ .parameter condition.parameter :: rest

/-- Later conditions, each with the word that connects it, and what comes after them. -/
def conditionRest (conditions : List Condition) (rest : List Token) : List Token :=
  conditions.flatMap (fun condition => andTokens ++ condition.tokens) ++ rest

/-- The conditions behind each one whose parameter is called FROM. -/
def conditionsBehindFrom : List Condition → List (List Condition)
  | [] => []
  | condition :: conditions =>
    (if upper condition.parameter = "FROM" then [conditions] else []) ++ conditionsBehindFrom conditions

variable {condition next : Condition} {conditions : List Condition} {rest tokens : List Token}
  {d : Char}

section Lists

theorem tokens_condition (condition : Condition) (rest : List Token) :
    .mark ' ' :: (condition.tokens ++ rest) = columnFront condition.source.number ++
      .name condition.source.column :: condition.followed rest := by
  simp [Condition.tokens, ColumnRef.tokens, Condition.followed, columnFront, operatorTokens]

theorem conditionRest_cons (condition : Condition) (conditions : List Condition) (rest : List Token) :
    conditionRest (condition :: conditions) rest =
      [.mark ' ', .word "AND"] ++ (columnFront condition.source.number ++
        .name condition.source.column :: condition.followed (conditionRest conditions rest)) := by
  rw [← tokens_condition]
  simp [conditionRest, andTokens]

private theorem isLink_operator (operator : Operator) : IsLink (operatorTokens operator) := by
  cases operator <;> decide

private theorem unspelled_operator {keywords : List String} (operator : Operator)
    (free : keywords ∈ [["FROM"], listEndKeywords]) :
    ∀ token ∈ operatorTokens operator, token.spellsInCode keywords = false := by
  simp only [List.mem_cons, List.not_mem_nil, or_false] at free
  rcases free with rfl | rfl
  · cases operator <;> decide
  · cases operator <;> decide

theorem listTokens_followed :
    listTokens (condition.followed rest) =
      operatorTokens condition.operator ++ listTokens (.parameter condition.parameter :: rest) :=
  listTokens_append (unspelled_operator condition.operator (by simp))

theorem listTokens_conditionRest_cons :
    listTokens (conditionRest (condition :: conditions) rest) =
      [.mark ' ', .word "AND"] ++ (columnFront condition.source.number ++ .name condition.source.column ::
        listTokens (condition.followed (conditionRest conditions rest))) := by
  have words : areKeywords listEndKeywords := by decide
  have name : (Token.name condition.source.column).spellsInCode listEndKeywords = false := rfl
  have front : ∀ token ∈ columnFront condition.source.number,
      token.spellsInCode listEndKeywords = false := by
    simp only [columnFront, List.forall_mem_cons, spellsInCode_word]
    exact ⟨rfl, spells_aliasText words _, rfl, List.forall_mem_nil _⟩
  rw [conditionRest_cons, listTokens_append (by decide), listTokens_append front, listTokens, name,
    if_neg Bool.false_ne_true]

end Lists

section Reading

/-- Nothing but AND is taken for a table. -/
def OnlyAnd (references : List TableReference) : Prop :=
  ∀ reference ∈ references, reference = andReference

/-- Behind a parameter nothing but AND is found, also where the parameter is called JOIN. -/
structure PassedBehind (tokens : List Token) : Prop where
  code : ∀ d, OnlyAnd (referencesFrom (some d) (textOf tokens))
  joined : ∀ parameter, upper parameter = "JOIN" → Readable (.parameter parameter :: tokens) →
    OnlyAnd (referencesFrom (some '@') (parameter.toList ++ textOf tokens))

theorem onlyAnd_nil : OnlyAnd [] :=
  List.forall_mem_nil _

private theorem referencesFrom_parameter {parameter : String} {middle after : List Token}
    {reference : TableReference} (spelled : upper parameter = "JOIN")
    (readable : Readable (.parameter parameter :: (middle ++ after)))
    (read : readTableReference (textOf middle ++ textOf after) = (reference, textOf after)) :
    ∃ e, referencesFrom (some '@') (parameter.toList ++ textOf (middle ++ after)) =
      [reference].filter (fun reference => !isIdle reference) ++
        referencesFrom (some e) (textOf after) := by
  have isPlain : isPlainName parameter.toList := (readable.listed _ List.mem_cons_self).isPlain rfl
  have spaced : Spaced none (.parameter parameter :: (middle ++ after)) :=
    readable.spaced_apart (by simp [Sql.IsApart])
  have isJoin := spaced.isWordAt_parameter areKeywords_join (by simp [spelled])
  rw [textOf_append] at isJoin ⊢
  have nonempty : parameter.toList ++ textOf middle ≠ [] := by
    intro none
    rw [(List.append_eq_nil_iff.mp none).1] at isPlain
    cases isPlain
  have name : upper (String.ofList parameter.toList) = "JOIN" := by rw [String.ofList_toList, spelled]
  refine ⟨(parameter.toList ++ textOf middle).getLast nonempty, ?_⟩
  rw [← List.getLast?_eq_some_getLast nonempty]
  exact referencesFrom_join isJoin (isNameChar_of_isPlainName isPlain) name read

theorem passedBehind_end (isEnd : tokens = [] ∨ tokens = [.mark '\n']) : PassedBehind tokens where
  code := by
    intro d
    rcases isEnd with rfl | rfl
    · rw [textOf_nil, referencesFrom_nil]
      exact onlyAnd_nil
    · have readable : Readable [.mark '\n'] :=
        ⟨List.forall_mem_singleton.mpr (.inl (by decide : '\n' ∈ marks)), List.isChain_singleton _⟩
      rw [referencesFrom_end (by decide) readable (by simp [Token.isMark])]
      exact onlyAnd_nil
  joined := by
    intro parameter spelled readable
    have read : readTableReference (textOf tokens ++ textOf []) = (⟨[], none⟩, textOf []) := by
      rcases isEnd with rfl | rfl
      · rfl
      · rfl
    rw [← List.append_nil tokens] at readable ⊢
    obtain ⟨e, found⟩ := referencesFrom_parameter spelled readable read
    have idle : isIdle ⟨[], none⟩ := by decide
    rw [found, List.filter_singleton, idle, textOf_nil, referencesFrom_nil]
    exact onlyAnd_nil

private theorem readTableReference_andTokens (number : Nat) (tokens : List Token) :
    readTableReference (textOf [.mark ' ', .word "AND"] ++ textOf (columnFront number ++ tokens)) =
      (andReference, textOf (columnFront number ++ tokens)) := by
  have after : textOf (columnFront number ++ tokens) =
      ' ' :: ((aliasText number).toList ++ '.' :: textOf tokens) := by
    simp [columnFront, Token.text]
  have front : textOf [.mark ' ', .word "AND"] = ' ' :: "AND".toList := by
    simp [Token.text]
  rw [after, front, List.cons_append, Sql.readTableReference_blank (by decide),
    Sql.readTableReference_and (isAlias_aliasText number)]
  rfl

private theorem isLink_columnFront (number : Nat) : IsLink (columnFront number) := by
  have blank : Token.IsPassed (.mark ' ') := by decide
  have dot : Token.IsPassed (.mark '.') := by decide
  simp only [IsLink, columnFront, List.forall_mem_cons]
  exact ⟨blank, ⟨rfl, spells_aliasText areKeywords_join number, by simp⟩, dot, List.forall_mem_nil _⟩

/-- What is found in later conditions is found from inside the first name on. -/
theorem passedBehind_condition {number : Nat} {column : String} {body : List Token}
    (inside : OnlyAnd (referencesInside column body))
    (readable : Readable ([.mark ' ', .word "AND"] ++ (columnFront number ++ .name column :: body))) :
    PassedBehind ([.mark ' ', .word "AND"] ++ (columnFront number ++ .name column :: body)) where
  code := by
    intro d
    have keyword : IsLink [.mark ' ', .word "AND"] := by decide
    have isLink : IsLink ([.mark ' ', .word "AND"] ++ columnFront number) :=
      List.forall_mem_append.mpr ⟨keyword, isLink_columnFront number⟩
    rw [← List.append_assoc] at readable ⊢
    rwa [referencesFrom_link_name isLink readable (by simp [Token.isMark])]
  joined := by
    intro parameter spelled behind
    obtain ⟨e, found⟩ := referencesFrom_parameter spelled behind
      (readTableReference_andTokens number (.name column :: body))
    have busy : isIdle andReference = false := by decide
    rw [found, List.filter_singleton, busy, referencesFrom_link_name (isLink_columnFront number)
      readable.right (by simp [columnFront, Token.isMark])]
    exact List.forall_mem_cons.mpr ⟨rfl, inside⟩

/-- What is found in a list that begins with a condition: AND first. -/
theorem referencesFrom_conditions {number : Nat} {column : String} {body : List Token}
    (readable : Readable ([.mark ' ', .word "AND"] ++ (columnFront number ++ .name column :: body))) :
    referencesFrom none
        (textOf ([.mark ' ', .word "AND"] ++ (columnFront number ++ .name column :: body))) =
      andReference :: referencesInside column body := by
  have read := readTableReference_andTokens number (.name column :: body)
  have ends : (textOf [.mark ' ', .word "AND"]).getLast? = some 'D' := by decide
  have busy : isIdle andReference = false := by decide
  rw [textOf_append, referencesFrom_first (by simp [Token.text]) read, ends, List.filter_singleton, busy,
    referencesFrom_link_name (isLink_columnFront number) readable.right
      (by simp [columnFront, Token.isMark])]
  rfl

end Reading

section Run

private theorem nameless_operator (operator : Operator) :
    ∀ token ∈ operatorTokens operator, token.isName = false :=
  fun token member => (isLink_operator operator token member).1

/-- Behind the name of a condition the scan comes to its parameter. -/
private theorem onlyAnd_followed (behind : PassedBehind (listTokens rest))
    (readable : Readable (listTokens (condition.followed rest))) :
    OnlyAnd (referencesFrom (some d) (textOf (listTokens (condition.followed rest)))) := by
  rw [listTokens_followed, listTokens] at readable ⊢
  have isLink := isLink_operator condition.operator
  cases ends : (Token.parameter condition.parameter).spellsInCode listEndKeywords with
  | true =>
    -- the parameter ends the list, but for its sign
    have sign : IsLink [.mark '@'] := by decide
    rw [ends, if_pos rfl] at readable
    rw [if_pos rfl, Token.sign, referencesFrom_end (List.forall_mem_append.mpr ⟨isLink, sign⟩) readable
      (by simp [operatorTokens, Token.isMark])]
    exact onlyAnd_nil
  | false =>
    rw [ends, if_neg Bool.false_ne_true] at readable
    rw [if_neg Bool.false_ne_true]
    by_cases spelled : upper condition.parameter = "JOIN"
    · have text : textOf (.parameter condition.parameter :: listTokens rest) =
          ['@'] ++ (condition.parameter.toList ++ textOf (listTokens rest)) := rfl
      have sign (e : Char) := referencesFrom_pass
        (wordless_marks areKeywords_join (by simp; decide) : Sql.Wordless ["JOIN"] (some e) ['@']
          (condition.parameter.toList ++ textOf (listTokens rest))) (by decide)
      have found := behind.joined condition.parameter spelled readable.right
      rw [referencesFrom_link isLink readable (by simp [operatorTokens, Token.isMark]), text]
      cases (textOf _).getLast? with
      | none => rwa [Option.none_or, sign]
      | some e => rwa [Option.some_or, sign]
    · have passed : Token.IsPassed (.parameter condition.parameter) :=
        ⟨rfl, by simpa [Token.spells] using spelled, by simp⟩
      have longer := List.forall_mem_append.mpr ⟨isLink, List.forall_mem_singleton.mpr passed⟩
      rw [List.append_cons] at readable ⊢
      rw [referencesFrom_link longer readable (by simp [operatorTokens, Token.isMark])]
      cases (textOf _).getLast? with
      | none => exact behind.code d
      | some e => exact behind.code e

/-- Where no name follows in the list, or the name is left, the scan comes to the parameter. -/
private theorem onlyAnd_left (behind : PassedBehind (listTokens rest))
    (readable : Readable (.name condition.source.column :: condition.followed rest))
    (nameless : upper condition.source.column = "JOIN" →
      ∀ token ∈ listTokens (.parameter condition.parameter :: rest), token.isName = false) :
    OnlyAnd (referencesInside condition.source.column (listTokens (condition.followed rest))) := by
  have listed : Readable (.name condition.source.column :: listTokens (condition.followed rest)) :=
    readable.listTokens
  by_cases spelled : upper condition.source.column = "JOIN"
  · have last : ∀ token ∈ listTokens (condition.followed rest), token.isName = false := by
      rw [listTokens_followed]
      exact List.forall_mem_append.mpr ⟨nameless_operator condition.operator, nameless spelled⟩
    rw [referencesInside_last listed spelled last]
    exact onlyAnd_followed behind listed.tail
  · rw [referencesInside_other listed spelled]
    exact onlyAnd_followed behind listed.tail

/-- A name that spells JOIN swallows all up to the next name. -/
private theorem onlyAnd_swallowed (spelled : upper condition.source.column = "JOIN")
    (stays : (Token.parameter condition.parameter).spellsInCode listEndKeywords = false)
    (readable : Readable (.name condition.source.column ::
      condition.followed (conditionRest (next :: conditions) rest)))
    (inside : OnlyAnd (referencesInside next.source.column
      (listTokens (next.followed (conditionRest conditions rest))))) :
    OnlyAnd (referencesInside condition.source.column
      (listTokens (condition.followed (conditionRest (next :: conditions) rest)))) := by
  have link : ∀ token ∈ [.mark ' ', .word "AND"] ++ columnFront next.source.number,
      token.isName = false := by
    simp [columnFront, Token.isName]
  have split : listTokens (condition.followed (conditionRest (next :: conditions) rest)) =
      (operatorTokens condition.operator ++ .parameter condition.parameter ::
        ([.mark ' ', .word "AND"] ++ columnFront next.source.number)) ++
        .name next.source.column :: listTokens (next.followed (conditionRest conditions rest)) := by
    rw [listTokens_followed, listTokens, stays, if_neg Bool.false_ne_true, listTokens_conditionRest_cons]
    simp
  have whole : Readable (.name condition.source.column ::
      listTokens (condition.followed (conditionRest (next :: conditions) rest))) :=
    readable.listTokens
  rw [split] at whole ⊢
  rw [referencesInside_join whole spelled
    (List.forall_mem_append.mpr ⟨nameless_operator _, List.forall_mem_cons.mpr ⟨rfl, link⟩⟩)]
  exact inside

/-- From inside the name of a condition on nothing but AND is found. -/
theorem onlyAnd_inside (isEnd : listTokens rest = [] ∨ listTokens rest = [.mark '\n'])
    (readable : Readable (.name condition.source.column ::
      condition.followed (conditionRest conditions rest))) :
    OnlyAnd (referencesInside condition.source.column
      (listTokens (condition.followed (conditionRest conditions rest)))) := by
  have sign : ∀ token ∈ [Token.mark '@'], token.isName = false := by decide
  induction conditions generalizing condition with
  | nil =>
    refine onlyAnd_left (passedBehind_end isEnd) readable fun _ => ?_
    rw [listTokens]
    split
    · exact sign
    · refine List.forall_mem_cons.mpr ⟨rfl, ?_⟩
      rcases isEnd with none | line
      · exact none ▸ List.forall_mem_nil _
      · exact line ▸ by decide
  | cons next conditions ih =>
    have list := readable.tail.right.tail
    rw [conditionRest_cons] at list
    have inside := ih list.right.right
    have listed := list.listTokens
    rw [← conditionRest_cons, listTokens_conditionRest_cons] at listed
    have behind := passedBehind_condition inside listed
    rw [← listTokens_conditionRest_cons] at behind
    cases ends : (Token.parameter condition.parameter).spellsInCode listEndKeywords with
    | true =>
      refine onlyAnd_left behind readable fun _ => ?_
      rw [listTokens, ends, if_pos rfl]
      exact sign
    | false =>
      by_cases spelled : upper condition.source.column = "JOIN"
      · exact onlyAnd_swallowed spelled ends readable inside
      · exact onlyAnd_left behind readable fun same => absurd same spelled

/-- What the scan finds in the list behind a condition: AND, if another condition follows. -/
theorem references_conditionRest (isEnd : listTokens rest = [] ∨ listTokens rest = [.mark '\n'])
    (readable : Readable (conditionRest conditions rest)) :
    OnlyAnd (referencesFrom none (textOf (listTokens (conditionRest conditions rest)))) ∧
      (andReference ∈ referencesFrom none (textOf (listTokens (conditionRest conditions rest))) ↔
        conditions ≠ []) := by
  cases conditions with
  | nil =>
    have nothing : referencesFrom none (textOf (listTokens rest)) = [] := by
      rcases isEnd with none | line
      · rw [none, textOf_nil, referencesFrom_nil]
      · have read : readTableReference (['\n'] ++ []) = (⟨[], none⟩, []) := rfl
        have idle : isIdle ⟨[], none⟩ := by decide
        have found := referencesFrom_first (by simp) read
        rw [List.filter_singleton, idle, referencesFrom_nil] at found
        rw [line]
        exact found
    have list : conditionRest [] rest = rest := rfl
    rw [list, nothing]
    exact ⟨onlyAnd_nil, by simp⟩
  | cons condition conditions =>
    have listed := readable.listTokens
    rw [conditionRest_cons] at readable
    have inside := onlyAnd_inside isEnd readable.right.right
    rw [listTokens_conditionRest_cons] at listed ⊢
    rw [referencesFrom_conditions listed]
    exact ⟨List.forall_mem_cons.mpr ⟨rfl, inside⟩, by simp⟩

end Run

section Opened

variable {statement : Statement}

theorem afterFrom_append (unspelled : ∀ token ∈ tokens, token.spellsInCode ["FROM"] = false) :
    afterFrom (tokens ++ rest) = afterFrom rest := by
  induction tokens with
  | nil => rfl
  | cons token tokens ih =>
    obtain ⟨here, there⟩ := List.forall_mem_cons.mp unspelled
    rw [List.cons_append, afterFrom, here, if_neg Bool.false_ne_true, ih there]

theorem suffix_of_mem_afterFrom {tail : List Token} (member : tail ∈ afterFrom tokens) :
    tail <:+ tokens := by
  induction tokens with
  | nil => cases member
  | cons token tokens ih =>
    rw [afterFrom] at member
    split at member
    · rcases List.mem_cons.mp member with rfl | later
      · exact List.suffix_cons token _
      · exact (ih later).trans (List.suffix_cons token tokens)
    · exact (ih member).trans (List.suffix_cons token tokens)

private theorem afterFrom_followed (condition : Condition) (rest : List Token) :
    afterFrom (condition.followed rest) =
      (if upper condition.parameter = "FROM" then [rest] else []) ++ afterFrom rest := by
  rw [Condition.followed, afterFrom_append (unspelled_operator condition.operator (by simp)), afterFrom]
  have spells : (Token.parameter condition.parameter).spellsInCode ["FROM"] ↔
      upper condition.parameter = "FROM" := by
    simp [Token.spellsInCode, Token.isName, Token.spells]
  by_cases from_ : upper condition.parameter = "FROM"
  · rw [if_pos (spells.mpr from_), if_pos from_]
    rfl
  · rw [if_neg fun spelled => from_ (spells.mp spelled), if_neg from_]
    rfl

private theorem afterFrom_column (number : Nat) (column : String) (rest : List Token) :
    afterFrom (columnFront number ++ .name column :: rest) = afterFrom rest := by
  have front : ∀ token ∈ columnFront number ++ [.name column], token.spellsInCode ["FROM"] = false := by
    simp only [columnFront, List.forall_mem_append, List.forall_mem_cons, spellsInCode_word]
    exact ⟨⟨rfl, spells_aliasText (by decide) number, rfl, List.forall_mem_nil _⟩, rfl,
      List.forall_mem_nil _⟩
  rw [List.append_cons, afterFrom_append front]

private theorem afterFrom_conditionRest (conditions : List Condition) (none : afterFrom rest = []) :
    afterFrom (conditionRest conditions rest) =
      (conditionsBehindFrom conditions).map fun conditions => conditionRest conditions rest := by
  induction conditions with
  | nil => exact none
  | cons condition conditions ih =>
    rw [conditionRest_cons, afterFrom_append (by decide), afterFrom_column, afterFrom_followed, ih,
      conditionsBehindFrom, List.map_append]
    split <;> rfl

/-- The lists that parameters open begin behind the conditions with these parameters. -/
theorem Statement.afterFrom_fromTail (statement : Statement) :
    afterFrom statement.fromTail = (conditionsBehindFrom statement.conditions).map fun conditions =>
      conditionRest conditions statement.lastLines := by
  have words : areKeywords ["FROM"] := by decide
  have front : ∀ token ∈ .mark ' ' :: (statement.anchor.tokens ++ joinLines statement.joins),
      token.spellsInCode ["FROM"] = false := by
    have among := List.forall_mem_append.mpr
      ⟨isAmong_tableRef statement.anchor, isAmong_joinLines statement.joins⟩
    refine List.forall_mem_cons.mpr ⟨rfl, fun token member => ?_⟩
    exact (among token member).unspelled words (by decide)
  have last : afterFrom statement.lastLines = [] := by
    have unspelled := fun token member =>
      (isAmong_lastLines statement token member).unspelled words (by decide)
    rw [← List.append_nil statement.lastLines, afterFrom_append unspelled]
    rfl
  have split : statement.fromTail =
      .mark ' ' :: (statement.anchor.tokens ++ joinLines statement.joins) ++ statement.clauseLines := by
    simp [Statement.fromTail]
  rw [split, afterFrom_append front, Statement.clauseLines]
  cases statement.conditions with
  | nil => exact last
  | cons condition conditions =>
    have line : clauseLine ["WHERE"] andTokens ((condition :: conditions).map Condition.tokens) ++
        statement.lastLines = [.mark '\n', .word "WHERE"] ++
          (columnFront condition.source.number ++ .name condition.source.column ::
            condition.followed (conditionRest conditions statement.lastLines)) := by
      rw [← tokens_condition, clauseLine, clauseTokens, if_neg (by simp), List.flatMap_singleton,
        intercalate_andTokens]
      simp [phrase, conditionRest]
    rw [line, afterFrom_append (by decide), afterFrom_column, afterFrom_followed,
      afterFrom_conditionRest conditions last, conditionsBehindFrom, List.map_append]
    split <;> rfl

/-- A condition that is not the last one has a parameter called FROM. -/
theorem exists_mem_conditionsBehindFrom (conditions : List Condition) :
    (∃ behind ∈ conditionsBehindFrom conditions, behind ≠ []) ↔
      ∃ condition ∈ conditions.dropLast, upper condition.parameter = "FROM" := by
  induction conditions with
  | nil => simp [conditionsBehindFrom]
  | cons condition conditions ih =>
    cases conditions with
    | nil =>
      simp only [conditionsBehindFrom, List.append_nil, List.dropLast_singleton]
      split <;> simp
    | cons next conditions =>
      rw [conditionsBehindFrom, List.dropLast_cons_cons]
      simp only [List.mem_append, or_and_right, exists_or, ih, List.mem_cons, exists_eq_left]
      refine or_congr ?_ Iff.rfl
      split <;> simp_all

end Opened

end ReportQuery.Query
