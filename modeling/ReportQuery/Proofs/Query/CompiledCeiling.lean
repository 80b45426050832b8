import ReportQuery.Proofs.Query.Acceptance
import ReportQuery.Proofs.Query.Placeholders
import ReportQuery.Proofs.Sql.FoundWord
import ReportQuery.Proofs.Sql.RowCeiling

set_option autoImplicit false
set_option relaxedAutoImplicit false

/-!
The row ceiling of compiled statements. Nothing is taken off a compiled statement, and it gets the
clause unless the test for a LIMIT takes a name for one. A name in quotes is blanked before the test,
as long as what looks like a comment or a literal in the names does not shift what is stripped; the
name of a parameter is not.
-/

namespace ReportQuery.Query

open Schema (Snapshot)
open Sql (Lexeme Reads Everywhere sourceOf lex? maskedOf strippedOf areKeywords containsWord
  isIdentifierChar isFlat outsideFrom Balanced depthAfterText applyRowLimit appendLimit bareStatement hasLimit
  maskQuoted stripLiterals collapseGroups)
open Text (isBlank isNameChar isPlainName upper Quoted.double Quoted.paired_double)

variable {snapshot : Snapshot} {tokens front rest : List Token} {token : Token} {text : String}
  {keywords : List String} {cs : List Char}

theorem Token.text_name_eq (text : String) :
    (Token.name text).text = '"' :: (Quoted.double '"' text.toList ++ ['"']) := by
  simp [Token.text, Text.quoteIdentifier, Text.Quoted.enclose]

section Ends

/-- At the ends of a token that is no mark stand neither blanks nor semicolons. -/
private theorem edges_of_unmarked (safe : token.IsSafe snapshot) (unmarked : token.isMark = false) :
    token.text ≠ [] ∧ (∀ c ∈ token.text.head?, isBlank c = false) ∧
      ∀ c ∈ token.text.getLast?, isBlank c = false ∧ c ≠ ';' := by
  have code (plain : token.IsPlain) (nameless : token.isName = false) :
      token.text ≠ [] ∧ (∀ c ∈ token.text.head?, isBlank c = false) ∧
        ∀ c ∈ token.text.getLast?, isBlank c = false ∧ c ≠ ';' := by
    obtain ⟨nonempty, solid⟩ := plain.unmarked_text unmarked
    refine ⟨nonempty, fun c first => (solid c (List.mem_of_head? first)).1, fun c last => ?_⟩
    refine ⟨(solid c (List.mem_of_getLast? last)).1, ?_⟩
    rintro rfl
    have isCode := isCodeChar_of_mem_text safe nameless ';' (List.mem_of_getLast? last)
    exact absurd isCode (by decide)
  cases token with
  | mark c => cases unmarked
  | word text => exact code safe rfl
  | parameter text => exact code safe rfl
  | name text =>
    have quote : isBlank '"' = false ∧ '"' ≠ ';' := by decide
    rw [Token.text_name_eq]
    refine ⟨by simp, fun c first => ?_, fun c last => ?_⟩
    · obtain rfl := Option.some.inj first
      exact quote.1
    · rw [← List.cons_append, List.getLast?_concat] at last
      obtain rfl := Option.some.inj last
      exact quote

/-- Nothing is taken off a text of tokens that begins and ends in no mark. -/
theorem bareStatement_textOf (safe : AllSafe snapshot tokens)
    (first : ∀ token ∈ tokens.head?, token.isMark = false) (last : EndsUnmarked tokens) :
    bareStatement (textOf tokens) = textOf tokens := by
  have ends : ∀ c ∈ (textOf tokens).getLast?, isBlank c = false ∧ c ≠ ';' := by
    rcases List.eq_nil_or_concat' tokens with rfl | ⟨before, token, rfl⟩
    · simp
    · obtain ⟨nonempty, -, back⟩ := edges_of_unmarked (safe token (by simp)) (last token (by simp))
      intro c among
      rw [textOf_append, textOf_cons, textOf_nil, List.append_nil,
        List.getLast?_append_of_ne_nil _ nonempty] at among
      exact back c among
  refine Sql.bareStatement_eq_self ⟨fun c among => ?_, fun c among => (ends c among).1⟩
    fun c among => (ends c among).2
  cases tokens with
  | nil => cases among
  | cons token rest =>
    obtain ⟨nonempty, opens, -⟩ :=
      edges_of_unmarked (safe token List.mem_cons_self) (first token rfl)
    refine opens c ?_
    rwa [textOf_cons, List.head?_append_of_ne_nil _ nonempty] at among

end Ends

section Words

/-- Doubled quotes part a text where single ones do. -/
private theorem containsWord_double (words : areKeywords keywords) (run : List Char) :
    containsWord keywords (run ++ Quoted.double '"' cs) ↔ containsWord keywords (run ++ cs) := by
  have quote : isIdentifierChar '"' = false := by decide
  induction cs generalizing run with
  | nil => exact Iff.rfl
  | cons c cs ih =>
    by_cases isQuote : c = '"'
    · subst isQuote
      have second : containsWord keywords ([] ++ '"' :: Quoted.double '"' cs) ↔ _ :=
        Sql.containsWord_append_cons words quote
      have rest : containsWord keywords (Quoted.double '"' cs) ↔ containsWord keywords cs := ih []
      rw [List.nil_append, or_iff_right (Sql.containsWord_nil words)] at second
      rw [Quoted.double, if_pos rfl, Sql.containsWord_append_cons words quote,
        Sql.containsWord_append_cons words quote, second, rest]
    · have later : containsWord keywords ((run ++ [c]) ++ Quoted.double '"' cs) ↔ _ := ih (run ++ [c])
      rw [Quoted.double, if_neg isQuote, List.append_cons, later, ← List.append_cons]

/-- A keyword in a quoted name stands in the name. -/
private theorem containsWord_name (words : areKeywords keywords) :
    containsWord keywords (Token.name text).text ↔ containsWord keywords text.toList := by
  have quote : ∀ c ∈ ['"'], isIdentifierChar c = false := by simp; decide
  have apart : Sql.startsApart ['"'] := by decide
  have opened : containsWord keywords (['"'] ++ (Quoted.double '"' text.toList ++ ['"'])) ↔ _ :=
    Sql.containsWord_marks_append words quote
  have alone : ¬ containsWord keywords (['"'] ++ []) := by
    rw [Sql.containsWord_marks_append words quote]
    exact Sql.containsWord_nil words
  have doubled : containsWord keywords (Quoted.double '"' text.toList) ↔ _ := containsWord_double words []
  rw [Token.text_name_eq]
  exact opened.trans ((Sql.containsWord_append_apart words apart).trans
    ((or_iff_left alone).trans doubled))

/-- Behind a token that is no mark no word goes on. -/
private theorem startsApart_textOf (safe : AllSafe snapshot (token :: rest))
    (separated : Separated (token :: rest)) (unmarked : token.isMark = false) :
    Sql.startsApart (textOf rest) := by
  cases rest with
  | nil => rfl
  | cons next rest =>
    have marked : next.isMark := by simpa [unmarked] using (List.isChain_cons_cons.mp separated).1
    cases next with
    | mark c =>
      have plain : (Token.mark c).IsPlain := safe (.mark c) (by simp)
      have apart : isIdentifierChar c = false := plain.isBare
      simp [Sql.startsApart, Token.text, apart]
    | _ => cases marked

/-- A keyword stands in a text of tokens just when it stands in one of them. -/
theorem containsWord_textOf (words : areKeywords keywords) (safe : AllSafe snapshot tokens)
    (separated : Separated tokens) :
    containsWord keywords (textOf tokens) ↔ ∃ token ∈ tokens, containsWord keywords token.text := by
  induction tokens with
  | nil => simpa using Sql.containsWord_nil words
  | cons token rest ih =>
    have parts : containsWord keywords (token.text ++ textOf rest) ↔
        containsWord keywords token.text ∨ containsWord keywords (textOf rest) := by
      cases marked : token.isMark with
      | false =>
        exact Sql.containsWord_append_apart words (startsApart_textOf safe separated marked)
      | true =>
        cases token with
        | mark c =>
          have plain : (Token.mark c).IsPlain := safe (.mark c) List.mem_cons_self
          have apart : isIdentifierChar c = false := plain.isBare
          have marks : ∀ d ∈ (Token.mark c).text, isIdentifierChar d = false := by
            simpa [Token.text] using apart
          have alone : ¬ containsWord keywords ((Token.mark c).text ++ []) := by
            rw [Sql.containsWord_marks_append words marks]
            exact Sql.containsWord_nil words
          rw [List.append_nil] at alone
          rw [Sql.containsWord_marks_append words marks, or_iff_right alone]
        | _ => cases marked
    rw [textOf_cons, parts, ih (allSafe_cons.mp safe).2 separated.tail]
    simp

/-- The words of a statement are no LIMIT. -/
theorem spells_limit (plain : (Token.word text).IsPlain) : (Token.word text).spells ["LIMIT"] = false :=
  spells_word (by decide) (by rfl) plain

/-- A LIMIT that stands in the text of a statement stands in a written name. -/
theorem exists_written_of_containsWord (safe : AllSafe snapshot tokens) (separated : Separated tokens)
    (contains : containsWord ["LIMIT"] (textOf tokens)) :
    ∃ name ∈ tokens.filterMap Token.written?, containsWord ["LIMIT"] name.toList := by
  have words : areKeywords ["LIMIT"] := by decide
  obtain ⟨token, member, inToken⟩ := (containsWord_textOf words safe separated).mp contains
  have single (plain : token.IsPlain) : token.spells ["LIMIT"] := by
    have spaced : Spaced none [token] :=
      spaced_of_plain (List.forall_mem_singleton.mpr plain) (.singleton token) (by simp [Sql.IsApart])
    have spelled : containsWord ["LIMIT"] (textOf [token]) ↔ _ := spaced.containsWord_iff words
    simpa [inToken] using spelled
  have isSafe := safe token member
  cases token with
  | mark c =>
    have spelled := single isSafe
    cases spelled
  | word text =>
    have spelled := single isSafe
    rw [spells_limit isSafe] at spelled
    cases spelled
  | parameter text =>
    have sign : ∀ c ∈ ['@'], isIdentifierChar c = false := by simp; decide
    exact ⟨text, List.mem_filterMap.mpr ⟨_, member, rfl⟩,
      (Sql.containsWord_marks_append words sign).mp inToken⟩
  | name text =>
    exact ⟨text, List.mem_filterMap.mpr ⟨_, member, rfl⟩, (containsWord_name words).mp inToken⟩

end Words

section Lexemes

/-- A token as SQL reads it. -/
def Token.lexemes : Token → List Lexeme
  | name text => [.name (Quoted.double '"' text.toList)]
  | token => token.text.map .code

/-- Tokens as SQL reads them. -/
def lexemesOf (tokens : List Token) : List Lexeme :=
  tokens.flatMap Token.lexemes

/-- The token with blanks in place of a name. -/
def Token.blanked : Token → Token
  | name text => name (String.ofList (List.replicate (Quoted.double '"' text.toList).length ' '))
  | token => token

theorem sourceOf_lexemesOf (tokens : List Token) : sourceOf (lexemesOf tokens) = textOf tokens := by
  rw [sourceOf, lexemesOf, List.flatMap_assoc, textOf]
  refine List.flatMap_congr fun token _ => ?_
  cases token with
  | name text => simp [Token.lexemes, Lexeme.source, Token.text_name_eq]
  | _ => exact Sql.sourceOf_map_code _

theorem reads_lexemesOf (safe : AllSafe snapshot tokens) (separated : Separated tokens) :
    Reads (lexemesOf tokens) := by
  induction tokens with
  | nil => trivial
  | cons token rest ih =>
    obtain ⟨here, there⟩ := allSafe_cons.mp safe
    have later := ih there separated.tail
    have code (nameless : token.isName = false) :
        Reads (token.text.map .code ++ lexemesOf rest) := by
      refine Sql.reads_inert_append (fun c member => ?_) later
      have isCode := isCodeChar_of_mem_text here nameless c member
      have openers : ['\'', '"', '-', '/'].all (fun d => !isCodeChar d) = true := by decide
      rw [Sql.isInert, Bool.not_eq_true', List.contains_eq_mem, decide_eq_false_iff_not]
      intro opener
      have outside := List.all_eq_true.mp openers c opener
      rw [isCode] at outside
      cases outside
    cases token with
    | name text =>
      refine ⟨⟨Quoted.paired_double _, ?_⟩, later⟩
      have source : sourceOf (lexemesOf rest) = textOf rest := sourceOf_lexemesOf rest
      have lone := head?_textOf_ne_quote there separated
      rwa [← source] at lone
    | _ => exact code rfl

private theorem isBare_blanked (safe : token.IsSafe snapshot) : token.blanked.IsBare := by
  have code (plain : token.IsPlain) : token.IsBare := plain.isBare
  cases token with
  | name text =>
    refine .inr fun c member => ?_
    rw [String.toList_ofList] at member
    rw [(List.mem_replicate.mp member).2]
    decide
  | _ => exact code safe

theorem maskedOf_lexemesOf (safe : AllSafe snapshot tokens) :
    maskedOf (lexemesOf tokens) = textOf (tokens.map Token.blanked) := by
  rw [maskedOf, lexemesOf, List.flatMap_assoc, textOf, List.flatMap_map]
  refine List.flatMap_congr fun token member => ?_
  have bare := isBare_blanked (safe token member)
  have code (text : List Char) : (text.map Lexeme.code).flatMap Lexeme.masked = text := by
    rw [List.flatMap_map]
    exact List.flatMap_singleton' text
  cases token with
  | name text =>
    rw [Token.blanked, Token.text_name bare, String.toList_ofList]
    simp [Token.lexemes, Lexeme.masked]
  | _ => exact code _

theorem spaced_blanked (safe : AllSafe snapshot tokens) (separated : Separated tokens) :
    Spaced none (tokens.map Token.blanked) where
  bare := by
    intro blanked member
    obtain ⟨token, among, rfl⟩ := List.mem_map.mp member
    exact isBare_blanked (safe token among)
  separated := by
    have same (token : Token) : token.blanked.isMark = token.isMark := by cases token <;> rfl
    refine List.isChain_map Token.blanked |>.mpr (separated.imp fun left right marked => ?_)
    rwa [same, same]
  opens := by simp [Sql.IsApart]

/-- In the text that the test looks at only a parameter can be a LIMIT. -/
theorem containsWord_blanked_iff (safe : AllSafe snapshot tokens) (separated : Separated tokens) :
    containsWord ["LIMIT"] (textOf (tokens.map Token.blanked)) ↔
      ∃ name ∈ parametersOf tokens, upper name = "LIMIT" := by
  have words : areKeywords ["LIMIT"] := by decide
  rw [(spaced_blanked safe separated).containsWord_iff words]
  constructor
  · rintro ⟨blanked, member, spells⟩
    obtain ⟨token, among, rfl⟩ := List.mem_map.mp member
    cases token with
    | mark c => cases spells
    | word text =>
      have plain : (Token.word text).IsPlain := safe _ among
      have same : (Token.word text).blanked.spells ["LIMIT"] = _ := spells_limit plain
      rw [same] at spells
      cases spells
    | parameter text =>
      have spelled : upper text = "LIMIT" := by simpa [Token.blanked, Token.spells] using spells
      exact ⟨text, List.mem_filterMap.mpr ⟨_, among, rfl⟩, spelled⟩
    | name text =>
      have blank : ["LIMIT"].contains (upper (String.ofList
          (List.replicate (Quoted.double '"' text.toList).length ' '))) = false :=
        not_spelled_of_signs words (by simp)
      have same : (Token.name text).blanked.spells ["LIMIT"] = _ := blank
      rw [same] at spells
      cases spells
  · rintro ⟨name, member, same⟩
    obtain ⟨token, among, isParameter⟩ := List.mem_filterMap.mp member
    refine ⟨token.blanked, List.mem_map_of_mem among, ?_⟩
    cases token with
    | parameter text =>
      obtain rfl := Option.some.inj isParameter
      simp [Token.blanked, Token.spells, same]
    | _ => cases isParameter

end Lexemes

section Levels

/-- Behind balanced text as many parentheses are open as before it. -/
private theorem depthAfterText_balanced (balanced : Balanced cs) (depth : Nat) :
    depthAfterText depth cs = depth := by
  induction balanced generalizing depth with
  | nil => rfl
  | @other c cs outside _ ih =>
    have flat : ∀ d ∈ [c], isFlat d := by
      simp only [List.mem_cons, List.not_mem_nil, or_false, not_or] at outside
      simpa [isFlat] using ⟨outside.1, outside.2.1⟩
    rw [← List.singleton_append, Sql.depthAfterText_append, Sql.depthAfterText_flat flat, ih]
  | parens _ _ inside after =>
    have opened : depthAfterText depth ['('] = depth + 1 := rfl
    have closed : depthAfterText (depth + 1) [')'] = depth := rfl
    rw [← List.singleton_append, Sql.depthAfterText_append, opened, List.append_cons,
      Sql.depthAfterText_append, Sql.depthAfterText_append, inside, closed, after]
  | brackets _ _ inside after =>
    have opened : depthAfterText depth ['['] = depth := rfl
    have closed : depthAfterText depth [']'] = depth := rfl
    rw [← List.singleton_append, Sql.depthAfterText_append, opened, List.append_cons,
      Sql.depthAfterText_append, Sql.depthAfterText_append, inside, closed, after]

/-- Parentheses stand outside the names, however long these are. -/
private theorem depthAfterText_blanked (safe : AllSafe snapshot tokens) (depth : Nat) :
    depthAfterText depth (textOf (tokens.map Token.blanked)) =
      depthAfterText depth (textOf (tokens.map Token.masked)) := by
  induction tokens generalizing depth with
  | nil => rfl
  | cons token rest ih =>
    obtain ⟨here, there⟩ := allSafe_cons.mp safe
    have same : depthAfterText depth token.blanked.text = depthAfterText depth token.masked.text := by
      have blanked := isBare_blanked here
      have masked := here.isBare_masked
      cases token with
      | name text =>
        have flat (n : Nat) : depthAfterText depth ('"' :: (List.replicate n ' ' ++ ['"'])) = depth := by
          refine Sql.depthAfterText_flat fun c member => ?_
          simp only [List.mem_cons, List.mem_append, List.mem_replicate, List.not_mem_nil, or_false]
            at member
          rcases member with rfl | ⟨-, rfl⟩ | rfl <;> rfl
        rw [Token.blanked, Token.masked, Token.text_name blanked, Token.text_name masked,
          String.toList_ofList, String.toList_ofList, flat, flat]
      | _ => rfl
    rw [List.map_cons, List.map_cons, textOf_cons, textOf_cons, Sql.depthAfterText_append,
      Sql.depthAfterText_append, same, ih there]

/-- No parenthesis is open behind closed tokens. -/
theorem IsClosed.level (closed : IsClosed tokens) (safe : AllSafe snapshot tokens) :
    depthAfterText 0 (textOf (tokens.map Token.blanked)) = 0 := by
  rw [depthAfterText_blanked safe]
  exact depthAfterText_balanced closed 0

theorem isClosed_selectLine {statement : Statement} (safe : AllSafe snapshot statement.selectLine) :
    IsClosed statement.selectLine := by
  obtain ⟨opening, selection⟩ := allSafe_append.mp safe
  refine (isClosed_of_calm opening ?_).append (isClosed_selection selection)
  cases statement.isDistinct <;> decide

/-- Parameters stand behind the line of SELECT, outside all parentheses. -/
theorem exists_closed_parameter {statement : Statement} {name : String}
    (safe : AllSafe snapshot statement.tokens) (member : .parameter name ∈ statement.tokens) :
    ∃ before behind, statement.tokens = before ++ .parameter name :: behind ∧ IsClosed before := by
  have unselected : .parameter name ∉ statement.selectLine := by
    intro inLine
    rcases List.mem_append.mp inLine with opening | selection
    · have words : ∀ token ∈ phrase ("SELECT" :: if statement.isDistinct then ["DISTINCT"] else []) ++
          [Token.mark ' '], token.parameter? = none := by
        cases statement.isDistinct <;> decide
      cases words _ opening
    · rcases isAmong_selection _ _ selection with isName | ⟨n, isAlias⟩ | inCode
      · cases isName
      · cases isAlias
      · have none : ∀ token ∈ selectionCode, token.parameter? = none := by decide
        cases none _ inCode
  have inTail : .parameter name ∈ statement.fromTail := by
    rw [Statement.tokens_eq] at member
    simpa [unselected] using member
  obtain ⟨front, behind, split⟩ := List.append_of_mem inTail
  rw [Statement.tokens_eq, split] at safe ⊢
  obtain ⟨select, later⟩ := allSafe_append.mp safe
  obtain ⟨line, later⟩ := allSafe_cons.mp later
  obtain ⟨from_, later⟩ := allSafe_cons.mp later
  obtain ⟨inFront, -⟩ := allSafe_append.mp later
  refine ⟨statement.selectLine ++ [.mark '\n', .word "FROM"] ++ front, behind, by simp, ?_⟩
  have calm : IsCalm front := by
    have whole := statement.isCalm_fromTail
    rw [split] at whole
    exact (isCalm_append.mp whole).1
  have word : IsClosed [.mark '\n', .word "FROM"] := Sql.balanced_of_all (by decide)
  exact ((isClosed_selectLine select).append word).append (isClosed_of_calm inFront calm)

end Levels

section Found

variable {description : Description} {compiled : Compiled}

/-- Where stripping agrees with SQL's own reading, the test finds the parameters of that name only. -/
theorem hasLimit_iff_of_harmless {statement : Statement} (safe : AllSafe snapshot statement.tokens)
    (harmless : Everywhere Lexeme.IsHarmless (lexemesOf statement.tokens)) :
    hasLimit (textOf statement.tokens) ↔
      ∃ name ∈ parametersOf statement.tokens, upper name = "LIMIT" := by
  have words : areKeywords ["LIMIT"] := by decide
  have separated := statement.separated_tokens
  have reads := reads_lexemesOf safe separated
  have shown : maskQuoted (stripLiterals (textOf statement.tokens)) =
      textOf (statement.tokens.map Token.blanked) := by
    rw [← sourceOf_lexemesOf, Sql.stripLiterals_of_harmless reads harmless,
      Sql.maskQuoted_strippedOf reads, maskedOf_lexemesOf safe]
  rw [hasLimit, shown]
  constructor
  · intro found
    exact (containsWord_blanked_iff safe separated).mp (Sql.containsWord_of_collapseGroups words found)
  · rintro ⟨name, member, same⟩
    obtain ⟨token, among, isParameter⟩ := List.mem_filterMap.mp member
    cases token with
    | parameter text =>
      obtain rfl := Option.some.inj isParameter
      obtain ⟨before, behind, split, closed⟩ := exists_closed_parameter safe among
      have plain : ∀ c ∈ text.toList, isNameChar c := isNameChar_of_isPlainName (safe _ among)
      have spelled : text.toList.map Char.toUpper = "LIMIT".toList := by
        have upperCase := Sql.upper_of_plain plain
        rw [String.ofList_toList, same] at upperCase
        rw [upperCase, String.toList_ofList]
      have spaced := spaced_blanked safe separated
      rw [split] at safe spaced ⊢
      rw [List.map_append, List.map_cons] at spaced ⊢
      have follows : Sql.startsApart (textOf (behind.map Token.blanked)) := spaced.right.startsApart rfl
      have text_eq : textOf (before.map Token.blanked ++
          (Token.parameter text).blanked :: behind.map Token.blanked) =
            (textOf (before.map Token.blanked) ++ ['@']) ++
              (text.toList ++ textOf (behind.map Token.blanked)) := by
        simp [Token.blanked, Token.text]
      have level : depthAfterText 0 (textOf (before.map Token.blanked) ++ ['@']) = 0 := by
        rw [Sql.depthAfterText_append, closed.level (allSafe_append.mp safe).1]
        rfl
      have sign : isIdentifierChar '@' = false := by decide
      rw [text_eq, Sql.collapseGroups_eq]
      refine Sql.containsWord_outsideFrom words spelled
        (fun c member => Sql.isIdentifierChar_of_isNameChar (plain c member)) ?_ follows level
      rw [List.getLast?_concat]
      intro c last
      obtain rfl := Option.some.inj last
      exact sign
    | _ => cases isParameter

/-- A compiled statement gets the clause, with nothing taken off before, exactly if the test finds no
LIMIT in it. The test finds one only where a written name holds the word, and where stripping agrees
with SQL's own reading of the names it finds one exactly if a filter's parameter has that name. -/
theorem compile_limited_iff (valid : snapshot.IsValid)
    (done : compile snapshot description = .ok compiled) (options : Options) (extent : Extent) :
    let sql := compiled.sql.toList
    bareStatement sql = sql ∧
      (applyRowLimit options extent sql = appendLimit sql (options.ceiling extent) ↔ ¬ hasLimit sql) ∧
      (hasLimit sql → ∃ name ∈ compiled.statement.writtenNames, containsWord ["LIMIT"] name.toList) ∧
      ∃ lexemes, lex? sql = some lexemes ∧
        (Everywhere Lexeme.IsHarmless lexemes →
          (hasLimit sql ↔ ∃ filter ∈ description.filters,
            upper (normalParameterName filter.parameterName) = "LIMIT")) := by
  intro sql
  obtain ⟨anchor, others, parts⟩ := compiledFrom_of_compile done
  have safe := allSafe_of_compile done
  have separated := compiled.statement.separated_tokens
  have text : sql = textOf compiled.statement.tokens := compiled.statement.toList_render
  have bare : bareStatement sql = sql := by
    rw [text]
    exact bareStatement_textOf safe compiled.statement.opensUnmarked_tokens
      (compiled.statement.endsUnmarked_tokens (compares_of_compile valid done))
  have read : lex? sql = some (lexemesOf compiled.statement.tokens) := by
    rw [text, ← sourceOf_lexemesOf]
    exact Sql.lex?_sourceOf (reads_lexemesOf safe separated)
  refine ⟨bare, Sql.applyRowLimit_eq_appendLimit_iff bare, fun found => ?_, _, read, fun harmless => ?_⟩
  · have contains := Sql.containsWord_of_hasLimit found
    rw [text] at contains
    exact exists_written_of_containsWord safe separated contains
  · rw [text, hasLimit_iff_of_harmless safe harmless, Statement.parametersOf_tokens, parts.parameters]
    simp

/-- A table with a column of limits. -/
def limitsSnapshot (tableName : String) : Snapshot where
  tables := [⟨"shop.lines", "shop", tableName, "", [⟨"off limits", "", true⟩]⟩]

/-- The column with a label, and a filter on it. -/
def limitsDescription (parameterName : String) : Description where
  tables := ["shop.lines"]
  fields := [⟨"shop.lines", "off limits", some "limits", none⟩]
  filters := [⟨"shop.lines", "off limits", "=", parameterName⟩]

def limitsCompiled (tableName parameterName : String) : Compiled where
  statement :=
    { isDistinct := false
      selection := .items [⟨⟨0, "off limits"⟩, none, some "limits"⟩]
      anchor := ⟨"shop", tableName, 0⟩
      joins := []
      conditions := [⟨⟨0, "off limits"⟩, .equal, parameterName⟩]
      grouping := []
      order := [] }
  parameterNames := [parameterName]

/-- The markers in the name of the table hide the rest of its line, and the clause is added all the
same. -/
theorem limits_limited :
    (limitsSnapshot "it's -- /* (").IsValid ∧
      compile (limitsSnapshot "it's -- /* (") (limitsDescription "limits") =
        .ok (limitsCompiled "it's -- /* (" "limits") ∧
      applyRowLimit .standard .full (limitsCompiled "it's -- /* (" "limits").sql.toList =
        appendLimit (limitsCompiled "it's -- /* (" "limits").sql.toList
          (Options.ceiling .standard .full) := by
  have valid : (limitsSnapshot "it's -- /* (").IsValid := by rfl
  have checked : compile (limitsSnapshot "it's -- /* (") (limitsDescription "limits") =
        .ok (limitsCompiled "it's -- /* (" "limits") ∧
      (limitsCompiled "it's -- /* (" "limits").statement.writtenNames.all
        (fun name => !containsWord ["LIMIT"] name.toList) = true := by
    decide +kernel
  obtain ⟨done, none⟩ := checked
  obtain ⟨-, limited, written, -⟩ := compile_limited_iff valid done .standard .full
  refine ⟨valid, done, limited.mpr fun found => ?_⟩
  obtain ⟨name, member, contains⟩ := written found
  have without := List.all_eq_true.mp none name member
  rw [contains] at without
  cases without

/-- A parameter called limit is taken for the clause, and a full run reads all rows. -/
theorem limit_parameter_unlimited :
    (limitsSnapshot "lines").IsValid ∧
      compile (limitsSnapshot "lines") (limitsDescription "limit") = .ok (limitsCompiled "lines" "limit") ∧
      applyRowLimit .standard .full (limitsCompiled "lines" "limit").sql.toList =
        (limitsCompiled "lines" "limit").sql.toList := by
  refine ⟨by rfl, ?_⟩
  decide +kernel

end Found


end ReportQuery.Query
