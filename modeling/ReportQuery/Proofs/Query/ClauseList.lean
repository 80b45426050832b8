import ReportQuery.Proofs.Query.Layout
import ReportQuery.Proofs.Sql.OpenList

set_option autoImplicit false
set_option relaxedAutoImplicit false

/-!
The table lists of a compiled statement: what follows its FROM and, since a parameter can have that
name too, what follows every such parameter, up to the first keyword that ends a list.
-/

namespace ReportQuery.Query

open Schema (Snapshot)
open Sql (IsApart Wordless areKeywords isIdentifierChar listEndKeywords tableListsFrom tableListAfter
  tableLists beforeListEnd isWordAt startsTableList BehindSelect Balanced balanced_of_all
  balanced_of_not_mem)
open Text (isNameChar isPlainName upper)

variable {snapshot : Snapshot} {tokens rest front : List Token} {token : Token} {keywords : List String}
  {before : Option Char} {passed : List Char}

/-- Whether the token is one of the keywords outside of quoted names. -/
def Token.spellsInCode (keywords : List String) (token : Token) : Bool :=
  !token.isName && token.spells keywords

@[simp] theorem spellsInCode_word (text : String) :
    (Token.word text).spellsInCode keywords = (Token.word text).spells keywords := rfl

/-- What stands in front of the letters of a token. -/
def Token.sign : Token → List Token
  | parameter _ => [.mark '@']
  | _ => []

/-- The tokens of a table list, up to the first keyword that ends it. -/
def listTokens : List Token → List Token
  | [] => []
  | token :: rest =>
    if token.spellsInCode listEndKeywords then token.sign else token :: listTokens rest

/-- What follows each FROM. -/
def afterFrom : List Token → List (List Token)
  | [] => []
  | token :: rest =>
    if token.spellsInCode ["FROM"] then rest :: afterFrom rest else afterFrom rest

section Masked

theorem spells_masked (words : areKeywords keywords) (token : Token) :
    token.masked.spells keywords = token.spellsInCode keywords := by
  cases token with
  | name text =>
    have blank : keywords.contains
        (upper (String.ofList (List.replicate text.toList.length ' '))) = false := by
      refine not_spelled_of_signs words fun c member => ?_
      rw [String.toList_ofList] at member
      rw [(List.mem_replicate.mp member).2]
      decide
    exact blank
  | _ => rfl

/-- A token that is no parenthesis holds none, and no bracket. -/
theorem not_mem_parentheses (safe : token.IsSafe snapshot) (opens : token ≠ .mark '(')
    (closes : token ≠ .mark ')') : ∀ c ∈ token.masked.text, c ∉ ['(', ')', '[', ']'] := by
  intro c member among
  have brackets : ['[', ']'].all (fun d => !isCodeChar d && !marks.contains d) = true := by decide
  have bracket {d : Char} (among : d ∈ ['[', ']']) : isCodeChar d = false ∧ d ∉ marks := by
    simpa using List.all_eq_true.mp brackets d among
  have solid (plain : token.IsPlain) (unmarked : token.isMark = false) (code : token.isName = false)
      (member : c ∈ token.text) : False := by
    have isCode := isCodeChar_of_mem_text safe code c member
    have outside := ((plain.unmarked_text unmarked).2 c member).2
    rcases List.mem_cons.mp among with rfl | among
    · exact outside (by decide)
    rcases List.mem_cons.mp among with rfl | among
    · exact outside (by decide)
    · rw [(bracket among).1] at isCode
      cases isCode
  have bare : token.masked.IsBare := safe.isBare_masked
  cases token with
  | mark d =>
    obtain rfl := List.mem_singleton.mp member
    have isMark : c ∈ marks := safe
    rcases List.mem_cons.mp among with rfl | among
    · exact opens rfl
    rcases List.mem_cons.mp among with rfl | among
    · exact closes rfl
    · exact (bracket among).2 isMark
  | name text =>
    rw [Token.masked, Token.text_name bare] at member
    simp only [String.toList_ofList, List.mem_cons, List.mem_append, List.mem_replicate,
      List.not_mem_nil, or_false] at member
    rcases member with rfl | ⟨-, rfl⟩ | rfl
    · exact absurd among (by decide)
    · exact absurd among (by decide)
    · exact absurd among (by decide)
  | _ => exact solid safe rfl rfl member

end Masked

section Lists

/-- A list goes on up to the first keyword that ends it. -/
theorem beforeListEnd_textOf (plain : ∀ token ∈ tokens, token.IsPlain)
    (spaced : Spaced before (tokens.map Token.masked)) :
    beforeListEnd before (textOf tokens) (textOf (tokens.map Token.masked)) =
      textOf (listTokens tokens) := by
  have words : areKeywords listEndKeywords := by decide
  induction tokens generalizing before with
  | nil => rfl
  | cons token rest ih =>
    obtain ⟨here, there⟩ := List.forall_mem_cons.mp plain
    rw [List.map_cons] at spaced ⊢
    cases spelled : token.spellsInCode listEndKeywords with
    | false =>
      have wordless := spaced.wordless words (by rw [spells_masked words, spelled])
      rw [textOf_cons, textOf_cons, wordless.beforeListEnd (length_text_masked here).symm,
        ih there spaced.tail, listTokens, spelled, if_neg Bool.false_ne_true, textOf_cons]
    | true =>
      have ends {left : Option Char} {body masked tail : List Char} (some_body : body ≠ [])
          (word : isWordAt listEndKeywords left (body ++ masked)) :
          beforeListEnd left (body ++ tail) (body ++ masked) = [] := by
        obtain ⟨c, cs, rfl⟩ := List.exists_cons_of_ne_nil some_body
        simp only [List.cons_append] at word ⊢
        rw [beforeListEnd, word, if_pos rfl]
      rw [listTokens, spelled, if_pos rfl]
      cases token with
      | mark c => cases spelled
      | name text => cases spelled
      | word text =>
        obtain ⟨nonempty, -⟩ := here.unmarked_text rfl
        have spells : listEndKeywords.contains (upper text) := spelled
        exact ends nonempty (spaced.isWordAt_word words spells)
      | parameter text =>
        have name : isPlainName text.toList := here
        have nonempty : text.toList ≠ [] := by
          intro none
          rw [none] at name
          cases name
        have spells : listEndKeywords.contains (upper text) := spelled
        have sign : isWordAt listEndKeywords before
            ('@' :: (text.toList ++ textOf (rest.map Token.masked))) = false :=
          Sql.isWordAt_mark words (by decide)
        have word := spaced.isWordAt_parameter words spells
        have masked : (Token.parameter text).masked = .parameter text := rfl
        rw [textOf_cons, textOf_cons, masked, Token.text, List.cons_append, List.cons_append,
          beforeListEnd, sign, if_neg Bool.false_ne_true, ends nonempty word]
        rfl

/-- No parenthesis stands among the tokens, and no FROM but as a parameter. -/
def IsCalm (tokens : List Token) : Prop :=
  ∀ token ∈ tokens, token ≠ .mark '(' ∧ token ≠ .mark ')' ∧ token ≠ .word "FROM"

instance (tokens : List Token) : Decidable (IsCalm tokens) :=
  inferInstanceAs (Decidable (∀ token ∈ tokens, _))

theorem isCalm_append {back : List Token} :
    IsCalm (front ++ back) ↔ IsCalm front ∧ IsCalm back :=
  List.forall_mem_append

/-- Of the words of a statement only FROM is read as such. -/
theorem spells_from {text : String} (plain : (Token.word text).IsPlain) (other : text ≠ "FROM") :
    (Token.word text).spells ["FROM"] = false := by
  rcases plain with fixed | ⟨n, rfl⟩
  · have free : vocabulary.all (fun word => word == "FROM" || !(["FROM"].contains (upper word))) =
        true := by rfl
    have either := List.all_eq_true.mp free text fixed
    simpa [Token.spells, other] using either
  · exact spells_aliasText (by decide) n

theorem not_mem_parentheses_textOf (safe : AllSafe snapshot tokens) (calm : IsCalm tokens) :
    ∀ c ∈ textOf (tokens.map Token.masked), c ∉ ['(', ')', '[', ']'] := by
  intro c member
  obtain ⟨masked, among, inText⟩ := List.mem_flatMap.mp member
  obtain ⟨token, original, rfl⟩ := List.mem_map.mp among
  obtain ⟨opens, closes, -⟩ := calm token original
  exact not_mem_parentheses (safe token original) opens closes c inText

private theorem head?_reverse_append (cs passed : List Char) :
    (cs.reverse ++ passed).head? = cs.getLast?.or passed.head? := by
  rw [List.head?_append, List.head?_reverse]

/-- The list behind a FROM. -/
theorem tableListAfter_textOf (plain : ∀ token ∈ tokens, token.IsPlain) (separated : Separated tokens)
    (calm : IsCalm tokens) :
    tableListAfter (textOf tokens) (textOf (tokens.map Token.masked)) = textOf (listTokens tokens) := by
  have spaced : Spaced none (tokens.map Token.masked) :=
    spaced_masked_of_plain plain separated (by simp [IsApart])
  have parentheses : ∀ c ∈ textOf (tokens.map Token.masked), c ≠ '(' ∧ c ≠ ')' := by
    intro c member
    have safe : AllSafe {} tokens := fun token among => (plain token among).isSafe
    have outside := not_mem_parentheses_textOf safe calm c member
    constructor
    · rintro rfl
      exact outside (by decide)
    · rintro rfl
      exact outside (by decide)
  rw [Sql.tableListAfter_of_not_mem parentheses (length_textOf_masked plain).symm,
    beforeListEnd_textOf plain spaced]

/-- Behind a SELECT every parameter called FROM opens a list. -/
theorem tableListsFrom_textOf (plain : ∀ token ∈ tokens, token.IsPlain) (separated : Separated tokens)
    (calm : IsCalm tokens) (spaced : Spaced passed.head? (tokens.map Token.masked))
    (behind : BehindSelect passed) :
    tableListsFrom passed (textOf tokens) (textOf (tokens.map Token.masked)) =
      (afterFrom tokens).map fun tail => textOf (listTokens tail) := by
  have words : areKeywords ["FROM"] := by decide
  induction tokens generalizing passed with
  | nil => rfl
  | cons token rest ih =>
    obtain ⟨here, there⟩ := List.forall_mem_cons.mp plain
    obtain ⟨⟨opens, closes, fixed⟩, calmRest⟩ := List.forall_mem_cons.mp calm
    have later := spaced.tail
    have safe : token.IsSafe {} := here.isSafe
    have balanced := balanced_of_not_mem (not_mem_parentheses safe opens closes)
    rw [← head?_reverse_append] at later
    have lists := ih there separated.tail calmRest later (behind.balanced balanced)
    rw [List.map_cons] at spaced ⊢
    cases spelled : token.spellsInCode ["FROM"] with
    | false =>
      have wordless := spaced.wordless words (by rw [spells_masked words, spelled])
      rw [textOf_cons, textOf_cons, wordless.tableListsFrom (length_text_masked here).symm, lists,
        afterFrom, spelled, if_neg Bool.false_ne_true]
    | true =>
      rw [afterFrom, spelled, if_pos rfl, List.map_cons, ← lists,
        ← tableListAfter_textOf there separated.tail calmRest]
      cases token with
      | mark c => cases spelled
      | name text => cases spelled
      | word text =>
        have other : text ≠ "FROM" := fun same => fixed (by rw [same])
        have unspelled : (Token.word text).spellsInCode ["FROM"] = false := spells_from here other
        rw [unspelled] at spelled
        cases spelled
      | parameter text =>
        have name : isPlainName text.toList := here
        have spells : upper (String.ofList text.toList) = "FROM" := by
          rw [String.ofList_toList]
          simpa [Token.spellsInCode, Token.isName, Token.spells] using spelled
        have sign : isWordAt ["FROM"] passed.head?
            ('@' :: (text.toList ++ textOf (rest.map Token.masked))) = false :=
          Sql.isWordAt_mark words (by decide)
        have starts : startsTableList ('@' :: passed)
            (text.toList ++ textOf (rest.map Token.masked)) := by
          have distinct : Sql.endsWithWord "DISTINCT" ('@' :: passed) = false := by
            refine Sql.endsWithWord_eq_false (by decide) ?_
            rw [List.dropWhile_cons_of_neg (by decide)]
            simp
            decide
          have single : Balanced ['@'] := .other (by decide) .nil
          have follows : BehindSelect ('@' :: passed) := behind.balanced single
          rw [startsTableList, distinct, follows]
          rfl
        have apart := spaced.startsApart rfl
        have masked : (Token.parameter text).masked = .parameter text := rfl
        rw [textOf_cons, textOf_cons, masked, Token.text, List.cons_append, List.cons_append,
          tableListsFrom, sign, Bool.false_and, if_neg Bool.false_ne_true,
          Sql.tableListsFrom_from (isNameChar_of_isPlainName name) spells (by simp [IsApart]; decide) apart
            starts, List.reverse_cons, List.append_assoc]
        rfl

end Lists

section Calm

theorem Token.IsAmong.unspelled {code : List Token} (isAmong : token.IsAmong code)
    (words : areKeywords keywords) (free : code.all fun token => !token.spellsInCode keywords) :
    token.spellsInCode keywords = false := by
  rcases isAmong with isName | ⟨n, rfl⟩ | inCode
  · rw [Token.spellsInCode, isName]
    rfl
  · exact spells_aliasText words n
  · simpa using List.all_eq_true.mp free token inCode

private theorem aliasText_ne (n : Nat) : aliasText n ≠ "FROM" := by
  intro same
  have first := congrArg (fun text : String => text.toList.head?) same
  simp [aliasText] at first

theorem isCalm_of_among {code : List Token} (among : ∀ token ∈ tokens, token.IsAmong code)
    (calm : IsCalm code) : IsCalm tokens := by
  intro token member
  rcases among token member with isName | ⟨n, rfl⟩ | inCode
  · cases token with
    | name text => simp
    | _ => cases isName
  · simp [aliasText_ne]
  · exact calm token inCode

theorem isCalm_columnRef (ref : ColumnRef) : IsCalm ref.tokens :=
  isCalm_of_among (isAmong_columnRef List.mem_cons_self ref) (by decide : IsCalm [.mark '.'])

private theorem isCalm_condition (condition : Condition) : IsCalm condition.tokens := by
  have operator : IsCalm (phrase condition.operator.words) := by
    cases condition.operator <;> decide
  simp only [Condition.tokens, isCalm_append]
  exact ⟨⟨isCalm_columnRef _, by decide⟩, ⟨operator, by decide⟩, by simp [IsCalm]⟩

/-- Behind FROM there are no parentheses and no further FROM but parameters. -/
theorem Statement.isCalm_fromTail (statement : Statement) : IsCalm statement.fromTail := by
  have blank : IsCalm [.mark ' '] := by decide
  have front : IsCalm (statement.anchor.tokens ++ joinLines statement.joins) :=
    isCalm_of_among (List.forall_mem_append.mpr ⟨isAmong_tableRef _, isAmong_joinLines _⟩) (by decide)
  have conditions : IsCalm (clauseLine ["WHERE"] andTokens (statement.conditions.map Condition.tokens)) :=
    forall_mem_clauseLine (by decide) (by decide) isCalm_condition
  have last : IsCalm statement.lastLines := isCalm_of_among (isAmong_lastLines statement) (by decide)
  have whole : IsCalm ([.mark ' '] ++ ((statement.anchor.tokens ++ joinLines statement.joins) ++
      statement.clauseLines)) :=
    isCalm_append.mpr ⟨blank, isCalm_append.mpr ⟨front, isCalm_append.mpr ⟨conditions, last⟩⟩⟩
  rwa [List.append_assoc] at whole

end Calm

section Select

variable {selection : Selection} {statement : Statement}

/-- Parentheses in the tokens are closed. -/
def IsClosed (tokens : List Token) : Prop :=
  Balanced (textOf (tokens.map Token.masked))

theorem IsClosed.append {back : List Token} (first : IsClosed front) (second : IsClosed back) :
    IsClosed (front ++ back) := by
  rw [IsClosed, List.map_append, textOf_append]
  exact Sql.Balanced.append first second

theorem isClosed_of_calm (safe : AllSafe snapshot tokens) (calm : IsCalm tokens) : IsClosed tokens :=
  balanced_of_not_mem (not_mem_parentheses_textOf safe calm)

theorem isClosed_selectItem {item : SelectItem} (safe : AllSafe snapshot item.tokens) :
    IsClosed item.tokens := by
  have columns := isCalm_columnRef item.source
  unfold SelectItem.tokens at safe ⊢
  obtain ⟨source, label⟩ := allSafe_append.mp safe
  refine IsClosed.append ?_ ?_
  · cases aggregate : item.aggregate? with
    | none =>
      rw [aggregate] at source
      exact isClosed_of_calm source columns
    | some function =>
      rw [aggregate] at source
      obtain ⟨word, source⟩ := allSafe_cons.mp source
      obtain ⟨inside, -⟩ := allSafe_append.mp (allSafe_cons.mp source).2
      have called : IsClosed [.word function.name] :=
        isClosed_of_calm (allSafe_cons.mpr ⟨word, allSafe_nil⟩) (by cases function <;> decide)
      have argument : IsClosed item.source.tokens := isClosed_of_calm inside columns
      have parentheses : IsClosed (.mark '(' :: (item.source.tokens ++ [.mark ')'])) := by
        have closed : Balanced ('(' :: (textOf (item.source.tokens.map Token.masked) ++ ')' :: [])) :=
          .parens argument .nil
        simpa [IsClosed, Token.masked, Token.text] using closed
      exact called.append parentheses
  · cases named : item.label? with
    | none => exact .nil
    | some text =>
      rw [named] at label
      exact isClosed_of_calm label (by simp [IsCalm])

theorem isClosed_selection (safe : AllSafe snapshot selection.tokens) :
    IsClosed selection.tokens := by
  cases selection with
  | everything number =>
    exact isClosed_of_calm safe (by simp [IsCalm, Selection.tokens, aliasText_ne])
  | items entries =>
    cases entries with
    | nil => exact .nil
    | cons first entries =>
      rw [Selection.tokens, List.map_cons, Text.intercalate_cons_flatMap] at safe ⊢
      obtain ⟨here, there⟩ := allSafe_append.mp safe
      refine (isClosed_selectItem here).append ?_
      clear safe here
      induction entries with
      | nil => exact .nil
      | cons entry entries ih =>
        rw [List.map_cons, List.flatMap_cons] at there ⊢
        obtain ⟨part, others⟩ := allSafe_append.mp there
        obtain ⟨comma, part⟩ := allSafe_append.mp part
        exact ((isClosed_of_calm comma (by decide)).append (isClosed_selectItem part)).append (ih others)

/-- Nothing in the line of SELECT is taken for a FROM. -/
private theorem unspelled_selectLine (statement : Statement) :
    ∀ token ∈ (statement.selectLine ++ [Token.mark '\n']).map Token.masked,
      token.spells ["FROM"] = false := by
  intro token member
  obtain ⟨original, among, rfl⟩ := List.mem_map.mp member
  rw [spells_masked (by decide)]
  rcases List.mem_append.mp among with line | mark
  · rcases List.mem_append.mp line with first | selected
    · have keywords : ∀ token ∈ phrase ("SELECT" :: if statement.isDistinct then ["DISTINCT"] else []) ++
          [Token.mark ' '], token.spellsInCode ["FROM"] = false := by
        cases statement.isDistinct <;> decide
      exact keywords original first
    · exact (isAmong_selection _ original selected).unspelled (by decide) (by decide)
  · rw [List.mem_singleton.mp mark]
    rfl

/-- A token that can end the line of SELECT: a name, an asterisk or a parenthesis. -/
def Token.EndsColumn (token : Token) : Prop :=
  token.isName ∨ token ∈ [.mark '*', .mark ')']

private theorem exists_last_columnRef (front : List Token) (ref : ColumnRef) :
    ∃ before last, front ++ ref.tokens = before ++ [last] ∧ last.EndsColumn := by
  refine ⟨front ++ [.word (aliasText ref.number), .mark '.'], .name ref.column, ?_, .inl rfl⟩
  simp [ColumnRef.tokens]

private theorem exists_last_selectItem (front : List Token) (item : SelectItem) :
    ∃ before last, front ++ item.tokens = before ++ [last] ∧ last.EndsColumn := by
  unfold SelectItem.tokens
  cases item.label? with
  | some label =>
    rw [← List.append_assoc]
    exact ⟨_, .name label,
      (List.append_assoc _ [Token.mark ' ', .word "AS", .mark ' '] [Token.name label]).symm, .inl rfl⟩
  | none =>
    rw [List.append_nil]
    cases item.aggregate? with
    | none => exact exists_last_columnRef front item.source
    | some function =>
      refine ⟨front ++ .word function.name :: .mark '(' :: item.source.tokens, .mark ')', ?_,
        .inr (by simp)⟩
      simp

private theorem exists_last_selection (selects : selection ≠ .items []) :
    ∃ before last, selection.tokens = before ++ [last] ∧ last.EndsColumn := by
  cases selection with
  | everything number =>
    exact ⟨[.word (aliasText number), .mark '.'], .mark '*', rfl, .inr (by simp)⟩
  | items entries =>
    rcases List.eq_nil_or_concat' entries with rfl | ⟨entries, item, rfl⟩
    · exact absurd rfl selects
    · obtain ⟨front, split⟩ : ∃ front, (Selection.items (entries ++ [item])).tokens =
          front ++ item.tokens := by
        rw [Selection.tokens, List.map_append, List.map_singleton]
        cases entries with
        | nil => exact ⟨[], by simp⟩
        | cons first entries =>
          rw [List.map_cons, List.cons_append, Text.intercalate_cons_flatMap, List.flatMap_append,
            List.flatMap_singleton]
          exact ⟨_, by rw [← List.append_assoc, ← List.append_assoc]⟩
      rw [split]
      exact exists_last_selectItem front item

/-- The character that ends such a token is no blank and belongs to no word. -/
private theorem getLast?_of_endsColumn (ends : token.EndsColumn) (plain : token.IsPlain) :
    ∃ cs d, token.masked.text = cs ++ [d] ∧ isIdentifierChar d = false ∧ Text.isBlank d = false := by
  rcases ends with isName | isMark
  · cases token with
    | name text =>
      rw [Token.masked, Token.text_name plain.isBare_masked, ← List.cons_append]
      exact ⟨_, '"', rfl, by decide, by decide⟩
    | _ => cases isName
  · simp only [List.mem_cons, List.not_mem_nil, or_false] at isMark
    rcases isMark with rfl | rfl
    · exact ⟨[], '*', rfl, by decide, by decide⟩
    · exact ⟨[], ')', rfl, by decide, by decide⟩

/-- Behind the line of SELECT a FROM opens a table list. -/
private theorem startsTableList_selectLine (plain : ∀ token ∈ statement.selectLine, token.IsPlain)
    (selects : statement.selection ≠ .items []) (ahead : List Char) :
    BehindSelect (textOf ((statement.selectLine ++ [Token.mark '\n']).map Token.masked)).reverse ∧
      startsTableList (textOf ((statement.selectLine ++ [Token.mark '\n']).map Token.masked)).reverse
        ahead := by
  obtain ⟨-, inSelection⟩ := List.forall_mem_append.mp plain
  obtain ⟨before, last, split, ends⟩ := exists_last_selection selects
  obtain ⟨cs, d, text, apart, nonblank⟩ := getLast?_of_endsColumn ends
    (inSelection last (by simp [split]))
  have behind : BehindSelect
      (textOf ((statement.selectLine ++ [Token.mark '\n']).map Token.masked)).reverse := by
    have safe : AllSafe {} statement.selection.tokens :=
      fun token member => (inSelection token member).isSafe
    have selection : Balanced (textOf (statement.selection.tokens.map Token.masked)) :=
      isClosed_selection safe
    have line : Balanced ['\n'] := .other (by decide) .nil
    have distinct : Balanced "DISTINCT ".toList := balanced_of_all (by decide)
    unfold Statement.selectLine
    cases statement.isDistinct with
    | false =>
      have whole := Sql.behindSelect_select.balanced (selection.append line)
      simpa [phrase, Token.masked, Token.text] using whole
    | true =>
      have whole := Sql.behindSelect_select.balanced (distinct.append (selection.append line))
      simpa [phrase, Token.masked, Token.text] using whole
  refine ⟨behind, ?_⟩
  have distinct : Sql.endsWithWord "DISTINCT"
      (textOf ((statement.selectLine ++ [Token.mark '\n']).map Token.masked)).reverse = false := by
    refine Sql.endsWithWord_eq_false (by decide) ?_
    obtain ⟨front, same⟩ : ∃ front, textOf ((statement.selectLine ++ [Token.mark '\n']).map Token.masked) =
        front ++ [d, '\n'] := by
      refine ⟨textOf ((phrase ("SELECT" :: if statement.isDistinct then ["DISTINCT"] else []) ++
        [Token.mark ' '] ++ before).map Token.masked) ++ cs, ?_⟩
      have line : (Token.mark '\n').masked.text = ['\n'] := rfl
      rw [Statement.selectLine, split]
      simp [text, line]
    rw [same, List.reverse_append]
    have passes : (['\n', d] ++ front.reverse).dropWhile Text.isBlank = d :: front.reverse := by
      rw [List.cons_append, List.dropWhile_cons_of_pos (by decide), List.singleton_append,
        List.dropWhile_cons_of_neg (by simp [nonblank])]
    rw [List.reverse_cons, List.reverse_singleton, List.singleton_append, passes]
    intro c first
    obtain rfl := Option.some.inj first
    exact apart
  rw [startsTableList, distinct, behind ahead]
  rfl

/-- The table lists of a statement: what follows its FROM, and what follows parameters of that name. -/
theorem Statement.tableLists_textOf (plain : ∀ token ∈ statement.tokens, token.IsPlain)
    (selects : statement.selection ≠ .items []) :
    tableLists (textOf statement.tokens) = textOf (listTokens statement.fromTail) ::
      (afterFrom statement.fromTail).map fun tail => textOf (listTokens tail) := by
  have words : areKeywords ["FROM"] := by decide
  have separated := statement.separated_tokens
  have masked := maskQuoted_textOf plain separated
  have spaced : Spaced none (statement.tokens.map Token.masked) :=
    spaced_masked_of_plain plain separated (by simp [IsApart])
  have split : statement.tokens =
      (statement.selectLine ++ [.mark '\n']) ++ .word "FROM" :: statement.fromTail := by
    simp [Statement.tokens_eq]
  rw [tableLists, masked]
  rw [split] at plain separated spaced ⊢
  obtain ⟨frontPlain, tailPlain⟩ := List.forall_mem_append.mp plain
  obtain ⟨selectPlain, -⟩ := List.forall_mem_append.mp frontPlain
  obtain ⟨-, fromPlain⟩ := List.forall_mem_cons.mp tailPlain
  have separatedFrom : Separated (.word "FROM" :: statement.fromTail) := separated.right_of_append
  rw [List.map_append, List.map_cons] at spaced ⊢
  have right := spaced.right
  rw [Option.or_none, ← List.head?_reverse] at right
  obtain ⟨behind, starts⟩ := startsTableList_selectLine selectPlain selects
    ("FROM".toList ++ textOf (statement.fromTail.map Token.masked))
  have wordless : Wordless ["FROM"] ([] : List Char).head? _ _ :=
    spaced.wordless_front words (unspelled_selectLine statement)
  generalize statement.selectLine ++ [Token.mark '\n'] = front at *
  have from_ : (Token.word "FROM").masked = .word "FROM" := rfl
  have word : Balanced "FROM".toList := balanced_of_all (by decide)
  have later := right.tail
  rw [from_, Token.text, ← head?_reverse_append] at later
  rw [textOf_append, textOf_append, wordless.tableListsFrom (length_textOf_masked frontPlain).symm,
    List.append_nil, textOf_cons, textOf_cons, from_, Token.text,
    Sql.tableListsFrom_from (List.all_eq_true.mp (by decide)) (by decide) (right.opens _ rfl rfl)
      (right.startsApart rfl) starts,
    tableListAfter_textOf fromPlain separatedFrom.tail statement.isCalm_fromTail,
    tableListsFrom_textOf fromPlain separatedFrom.tail statement.isCalm_fromTail later
      (behind.balanced word)]

end Select

end ReportQuery.Query
