import Mathlib.Data.String.Basic
import ReportQuery.Proofs.Query.CodeText

set_option autoImplicit false
set_option relaxedAutoImplicit false

/-!
The placeholders of a compiled statement. Preparing the text finds the parameters of the filters, in
their order, whatever the names of the snapshot hold; the parameter names of the compiled query are
the same names, sorted and without regard to case.
-/

namespace ReportQuery.Query

open Schema (Snapshot)
open Sql (Segment segmentsOf quotedPart placeholder joinsPlaceholder colonBind escapeBinds prepare)
open Text (Piece pieces pieces_of_none pieces_append_of_match pieces_append_of_missed findAll
  replaceAll_eq_self isPlainName isNameChar isNameStart lower distinct mem_distinct
  nodup_distinct mem_map_distinctBy nodup_map_distinctBy sortBy_perm pairwise_sortBy)

def Token.parameter? : Token → Option String
  | parameter text => some text
  | _ => none

/-- The names of the parameters among the tokens, in order. -/
def parametersOf (tokens : List Token) : List String :=
  tokens.filterMap Token.parameter?

variable {snapshot : Snapshot} {tokens run : List Token}

section Tokens

@[simp] theorem parametersOf_nil : parametersOf [] = [] := rfl

@[simp] theorem parametersOf_append (front back : List Token) :
    parametersOf (front ++ back) = parametersOf front ++ parametersOf back :=
  List.filterMap_append

@[simp] theorem parametersOf_mark (c : Char) (rest : List Token) :
    parametersOf (.mark c :: rest) = parametersOf rest := rfl

@[simp] theorem parametersOf_word (text : String) (rest : List Token) :
    parametersOf (.word text :: rest) = parametersOf rest := rfl

@[simp] theorem parametersOf_name (text : String) (rest : List Token) :
    parametersOf (.name text :: rest) = parametersOf rest := rfl

@[simp] theorem parametersOf_parameter (text : String) (rest : List Token) :
    parametersOf (.parameter text :: rest) = text :: parametersOf rest := rfl

private theorem parametersOf_intercalate {separator : List Token}
    (without : parametersOf separator = []) (parts : List (List Token)) :
    parametersOf (separator.intercalate parts) = parts.flatMap parametersOf := by
  induction parts with
  | nil => rfl
  | cons part rest ih =>
    cases rest with
    | nil => simp
    | cons next rest =>
      rw [List.intercalate_cons_cons, parametersOf_append, parametersOf_append, ih, without]
      simp

private theorem parametersOf_intercalate_map {α : Type} {separator : List Token}
    {tokens : α → List Token} {names : α → List String} (parts : List α)
    (without : parametersOf separator = []) (each : ∀ part, parametersOf (tokens part) = names part) :
    parametersOf (separator.intercalate (parts.map tokens)) = parts.flatMap names := by
  rw [parametersOf_intercalate without, List.flatMap_map]
  exact List.flatMap_congr fun part _ => each part

private theorem parametersOf_intercalate_nil {α : Type} {separator : List Token}
    {tokens : α → List Token} (parts : List α) (without : parametersOf separator = [])
    (each : ∀ part, parametersOf (tokens part) = []) :
    parametersOf (separator.intercalate (parts.map tokens)) = [] := by
  rw [parametersOf_intercalate_map parts without each]
  exact List.flatMap_eq_nil_iff.mpr fun _ _ => rfl

private theorem parametersOf_phrase (words : List String) : parametersOf (phrase words) = [] :=
  parametersOf_intercalate_nil words rfl fun _ => rfl

private theorem parametersOf_columnRef (ref : ColumnRef) : parametersOf ref.tokens = [] := rfl

private theorem parametersOf_selection (selection : Selection) :
    parametersOf selection.tokens = [] := by
  cases selection with
  | everything number => rfl
  | items entries =>
    refine parametersOf_intercalate_nil entries rfl fun item => ?_
    unfold SelectItem.tokens
    cases item.aggregate? <;> cases item.label? <;> simp [parametersOf_columnRef]

private theorem parametersOf_join (join : Join) : parametersOf join.tokens = [] := by
  have on : parametersOf (andTokens.intercalate (join.on.map Equality.tokens)) = [] := by
    refine parametersOf_intercalate_nil join.on rfl fun equality => ?_
    simp [Equality.tokens, parametersOf_columnRef]
  simp [Join.tokens, TableRef.tokens, parametersOf_phrase, on]

private theorem parametersOf_condition (condition : Condition) :
    parametersOf condition.tokens = [condition.parameter] := by
  simp [Condition.tokens, parametersOf_columnRef, parametersOf_phrase]

private theorem parametersOf_clauseTokens {α : Type} {words : List String} {separator : List Token}
    {tokens : α → List Token} {names : α → List String} (parts : List α)
    (without : parametersOf separator = []) (each : ∀ part, parametersOf (tokens part) = names part) :
    (clauseTokens words separator (parts.map tokens)).flatMap parametersOf = parts.flatMap names := by
  have whole := parametersOf_intercalate_map parts without each
  unfold clauseTokens
  by_cases empty : parts = []
  · simp [empty]
  · simp [empty, parametersOf_phrase, whole]

theorem Statement.parametersOf_tokens (statement : Statement) :
    parametersOf statement.tokens = statement.conditions.map Condition.parameter := by
  have joins : (statement.joins.map Join.tokens).flatMap parametersOf = [] := by
    rw [List.flatMap_map]
    exact List.flatMap_eq_nil_iff.mpr fun join _ => parametersOf_join join
  have conditions : (clauseTokens ["WHERE"] andTokens
      (statement.conditions.map Condition.tokens)).flatMap parametersOf =
        statement.conditions.map Condition.parameter := by
    rw [parametersOf_clauseTokens statement.conditions rfl parametersOf_condition]
    exact List.map_eq_flatMap.symm
  have grouping : (clauseTokens ["GROUP", "BY"] commaTokens
      (statement.grouping.map ColumnRef.tokens)).flatMap parametersOf = [] := by
    rw [parametersOf_clauseTokens statement.grouping rfl parametersOf_columnRef]
    exact List.flatMap_eq_nil_iff.mpr fun _ _ => rfl
  have order : (clauseTokens ["ORDER", "BY"] commaTokens
      (statement.order.map OrderEntry.tokens)).flatMap parametersOf = [] := by
    rw [parametersOf_clauseTokens statement.order rfl fun _ => rfl]
    exact List.flatMap_eq_nil_iff.mpr fun _ _ => rfl
  rw [Statement.tokens, parametersOf_intercalate rfl]
  simp [Statement.lineTokens, parametersOf_phrase, parametersOf_selection, TableRef.tokens, joins,
    conditions, grouping, order]

end Tokens

section Scan

private theorem placeholder_of_ne {before : Option Char} {c : Char} {cs : List Char}
    (different : c ≠ '@') : placeholder before (c :: cs) = none := by
  unfold placeholder
  split
  · rename_i same
    exact absurd (List.cons.inj same).1 different
  · rfl

private theorem takeWhile_isNameChar {name rest : List Char} (plain : ∀ c ∈ name, isNameChar c)
    (ends : ∀ c ∈ rest.head?, isNameChar c = false) :
    (name ++ rest).takeWhile isNameChar = name := by
  rw [List.takeWhile_append_of_pos plain]
  cases rest with
  | nil => simp
  | cons c rest =>
    have stop := ends c rfl
    simp [stop]

private theorem placeholder_parameter {before : Option Char} {name rest : List Char}
    (plain : isPlainName name) (opens : joinsPlaceholder before = false)
    (ends : ∀ c ∈ rest.head?, isNameChar c = false) :
    placeholder before ('@' :: (name ++ rest)) = some (name.length + 1, name) := by
  cases name with
  | nil => cases plain
  | cons c name =>
    obtain ⟨first, others⟩ := (Bool.and_eq_true _ _).mp plain
    have read := takeWhile_isNameChar (List.all_eq_true.mp others) ends
    simp [placeholder, opens, first, read]

private theorem joinsPlaceholder_of_mem_marks {c : Char} (isMark : c ∈ marks) :
    joinsPlaceholder (some c) = false ∧ isNameChar c = false ∧ c ≠ '@' := by
  have each : marks.all (fun c => !joinsPlaceholder (some c) && !isNameChar c && c != '@') = true := by
    decide
  have here := List.all_eq_true.mp each c isMark
  simpa [and_assoc] using here

/-- The scan of code reads its parameters. -/
private theorem findAll_textOf (safe : AllSafe snapshot run) (separated : Separated run)
    (code : ∀ token ∈ run, token.isName = false) (before : Option Char)
    (opens : ∀ token ∈ run.head?, token.isMark = false → joinsPlaceholder before = false) :
    (pieces placeholder before (textOf run)).filterMap (·.value?) =
      (parametersOf run).map String.toList := by
  induction run generalizing before with
  | nil => simp
  | cons token rest ih =>
    obtain ⟨here, there⟩ := allSafe_cons.mp safe
    have ih := ih there separated.tail fun t member => code t (List.mem_cons_of_mem token member)
    -- behind a token that is no mark a mark follows
    have followed (unmarked : token.isMark = false) : ∀ next ∈ rest.head?, next.isMark := by
      intro next head
      obtain ⟨tail, rfl⟩ := List.head?_eq_some_iff.mp head
      simpa [unmarked] using (List.isChain_cons_cons.mp separated).1
    have passed (cs : List Char) (plain : ∀ c ∈ cs, c ≠ '@') (unmarked : token.isMark = false) :
        (pieces placeholder before (cs ++ textOf rest)).filterMap (·.value?) =
          (parametersOf rest).map String.toList := by
      have missed : ∀ c ∈ cs, ∀ left tail, placeholder left (c :: tail) = none :=
        fun c member left tail => placeholder_of_ne (plain c member)
      have later := ih (cs.getLast?.or before) fun next head marked => by
        rw [followed unmarked next head] at marked
        cases marked
      rw [pieces_append_of_missed missed, List.filterMap_append, later]
      simp [Piece.value?]
    cases token with
    | mark c =>
      obtain ⟨apart, -, plain⟩ := joinsPlaceholder_of_mem_marks here
      rw [textOf_cons, parametersOf_mark, Token.text, List.singleton_append,
        pieces_of_none (placeholder_of_ne plain), List.filterMap_cons_none rfl]
      exact ih (some c) fun _ _ _ => apart
    | word text =>
      rw [textOf_cons, parametersOf_word]
      refine passed text.toList ?_ rfl
      rintro c member rfl
      rcases here with known | ⟨n, rfl⟩
      · have plain : vocabulary.all (fun word => !word.toList.contains '@') = true := by
          decide
        have outside := List.all_eq_true.mp plain text known
        simp [member] at outside
      · exact absurd (isNameChar_of_mem_aliasText _ member) (by decide)
    | parameter text =>
      have ends : ∀ c ∈ (textOf rest).head?, isNameChar c = false := by
        intro c head
        cases rest with
        | nil => cases head
        | cons next tail =>
          have marked := followed rfl next rfl
          cases next with
          | mark d =>
            obtain rfl : d = c := by simpa [Token.text] using head
            exact (joinsPlaceholder_of_mem_marks (allSafe_cons.mp there).1).2.1
          | _ => cases marked
      have hit := placeholder_parameter here (opens _ rfl rfl) ends
      have read : pieces placeholder before (('@' :: text.toList) ++ textOf rest) = _ :=
        pieces_append_of_match (List.cons_ne_nil _ _) hit
      rw [textOf_cons, parametersOf_parameter, Token.text, read,
        List.filterMap_cons_some (f := Piece.value?) rfl, List.map_cons]
      refine congrArg _ (ih _ fun next head marked => ?_)
      rw [followed rfl next head] at marked
      cases marked
    | name text => exact absurd (code _ List.mem_cons_self) (by simp [Token.isName])

/-- Code holds no colon, so that nothing of it is escaped. -/
private theorem escapeBinds_textOf (safe : AllSafe snapshot run)
    (code : ∀ token ∈ run, token.isName = false) : escapeBinds (textOf run) = textOf run := by
  refine replaceAll_eq_self _ fun left tail suffix => ?_
  unfold colonBind
  split
  · rename_i rest
    have colon : ':' ∈ textOf run := suffix.subset List.mem_cons_self
    obtain ⟨token, member, among⟩ := List.mem_flatMap.mp colon
    exact absurd (isCodeChar_of_mem_text (safe token member) (code token member) _ among) (by decide)
  · rfl

/-- The placeholders of all segments are the parameters among the tokens. -/
private theorem placeholders_tokenSegments (safe : AllSafe snapshot (run ++ tokens))
    (separated : Separated (run ++ tokens)) (code : ∀ token ∈ run, token.isName = false) :
    (tokenSegments run tokens).flatMap Segment.placeholders =
      (parametersOf (run ++ tokens)).map String.toList := by
  have ofRun {run : List Token} (safe : AllSafe snapshot run) (separated : Separated run)
      (code : ∀ token ∈ run, token.isName = false) :
      (Segment.code (textOf run)).placeholders = (parametersOf run).map String.toList := by
    rw [Segment.placeholders, escapeBinds_textOf safe code, findAll,
      findAll_textOf safe separated code none fun _ _ _ => rfl]
  induction tokens generalizing run with
  | nil =>
    rw [List.append_nil] at safe separated ⊢
    rw [tokenSegments, List.flatMap_singleton, ofRun safe separated code]
  | cons token rest ih =>
    obtain ⟨safeRun, safeTokens⟩ := allSafe_append.mp safe
    cases named : token.isName with
    | true =>
      cases token with
      | name text =>
        have separatedRun : Separated run := separated.left_of_append
        have separatedRest : Separated rest := separated.right_of_append.tail
        have later := @ih [] (allSafe_cons.mp safeTokens).2 separatedRest (by simp)
        rw [tokenSegments, if_pos named, List.flatMap_cons, List.flatMap_cons, later,
          ofRun safeRun separatedRun code]
        simp [Segment.placeholders]
      | _ => cases named
    | false =>
      rw [tokenSegments, named, if_neg Bool.false_ne_true]
      have later := @ih (run ++ [token]) (by simpa using safe) (by simpa using separated)
        fun t member => by
          rcases List.mem_append.mp member with early | new
          · exact code t early
          · rwa [List.mem_singleton.mp new]
      simpa using later

/-- Preparing the text of a statement finds its parameters. -/
theorem names_prepare (safe : AllSafe snapshot tokens) (separated : Separated tokens) :
    (prepare (textOf tokens)).names = distinct (parametersOf tokens) := by
  have cut : Sql.segments (textOf tokens) = tokenSegments [] tokens := by
    rw [Sql.segments, readsNames_quotedPart.pieces_textOf safe separated,
      ← segmentsOf_tokenPieces []]
    rfl
  have found : (tokenSegments [] tokens).flatMap Segment.placeholders = _ :=
    placeholders_tokenSegments safe separated (by simp)
  rw [prepare, cut, found, List.map_map]
  simp [Function.comp_def]

end Scan

section Names

variable {conditions : List Condition}

/-- The parameters of the conditions are those that the filters name. -/
theorem CompiledFrom.parameters {description : Description} {anchor : Schema.Table}
    {others : List Schema.Table} {compiled : Compiled}
    (parts : CompiledFrom snapshot description anchor others compiled) :
    compiled.statement.conditions.map Condition.parameter =
      description.filters.map fun filter => normalParameterName filter.parameterName := by
  have each := mapM_eq_ok_iff.mp parts.conditions
  generalize description.filters = filters, compiled.statement.conditions = conditions at each ⊢
  induction each with
  | nil => rfl
  | @cons filter condition filters conditions done _ ih =>
    obtain ⟨source, -, done⟩ := bind_eq_ok.mp done
    dsimp only at done
    split at done
    · cases done
    · split at done
      · obtain rfl := Except.ok.inj done
        rw [List.map_cons, List.map_cons, ih]
      · cases done

/-- The parameter names are the parameters of the conditions, but for case. -/
theorem mem_lower_parameterNames {name : String} :
    name ∈ (parameterNames conditions).map lower ↔
      name ∈ (conditions.map Condition.parameter).map lower := by
  rw [parameterNames, ((sortBy_perm lower _).map lower).mem_iff, mem_map_distinctBy]

theorem pairwise_parameterNames :
    ((parameterNames conditions).map lower).Pairwise (· < ·) :=
  Text.pairwise_sortBy_distinctBy lower (conditions.map Condition.parameter)

end Names

/-- Preparing a compiled text finds the parameters that the filters name. -/
theorem names_prepare_of_compile {description : Description} {compiled : Compiled}
    (done : compile snapshot description = .ok compiled) :
    (prepare compiled.sql.toList).names =
      distinct (description.filters.map fun filter => normalParameterName filter.parameterName) := by
  obtain ⟨anchor, others, parts⟩ := compiledFrom_of_compile done
  rw [Compiled.sql, Statement.toList_render,
    names_prepare (allSafe_of_compile done) compiled.statement.separated_tokens,
    Statement.parametersOf_tokens, parts.parameters]

/-- The parameter names of a compiled query are those of the filters, but for case. -/
theorem mem_lower_parameterNames_of_compile {description : Description} {compiled : Compiled}
    (done : compile snapshot description = .ok compiled) {name : String} :
    name ∈ compiled.parameterNames.map lower ↔
      name ∈ (prepare compiled.sql.toList).names.map lower := by
  obtain ⟨anchor, others, parts⟩ := compiledFrom_of_compile done
  rw [names_prepare_of_compile done, parts.parameterNames, mem_lower_parameterNames,
    parts.parameters, List.mem_map, List.mem_map]
  simp only [mem_distinct]

/-- Preparing a compiled text finds the parameters that the filters name, each spelling once and in
the order of the filters. The parameter names of the compiled query increase strictly under lower
case and are the same names but for case. -/
theorem compile_parameters_agree {description : Description} {compiled : Compiled}
    (done : compile snapshot description = .ok compiled) :
    (prepare compiled.sql.toList).names =
        distinct (description.filters.map fun filter => normalParameterName filter.parameterName) ∧
      (prepare compiled.sql.toList).names.Nodup ∧
      (compiled.parameterNames.map lower).Pairwise (· < ·) ∧
      ∀ name, name ∈ compiled.parameterNames.map lower ↔
        name ∈ (prepare compiled.sql.toList).names.map lower := by
  have names := names_prepare_of_compile done
  obtain ⟨anchor, others, parts⟩ := compiledFrom_of_compile done
  refine ⟨names, ?_, ?_, fun name => mem_lower_parameterNames_of_compile done⟩
  · rw [names]
    exact nodup_distinct _
  · rw [parts.parameterNames]
    exact pairwise_parameterNames

/-- A column whose name holds what looks like a placeholder, a bind, a literal and comments. -/
def markedSnapshot : Snapshot where
  tables := [⟨"a.b", "a", "b", "", [⟨"x = @y or ':z' \" -- /*", "text", true⟩]⟩]

/-- Three filters on the column, two of them with one parameter and one with another case of it. -/
def markedDescription : Description where
  tables := ["a.b"]
  filters := [⟨"a.b", "x = @y or ':z' \" -- /*", ">", "@name"⟩,
    ⟨"a.b", "x = @y or ':z' \" -- /*", "<", "Name"⟩,
    ⟨"a.b", "x = @y or ':z' \" -- /*", "<>", " name "⟩]

theorem marked_parameters_agree :
    ∃ compiled, compile markedSnapshot markedDescription = .ok compiled ∧
      compiled.parameterNames = ["name"] ∧
      (prepare compiled.sql.toList).names = ["name", "Name"] := by
  have done : ∃ compiled, compile markedSnapshot markedDescription = .ok compiled ∧
      compiled.parameterNames = ["name"] := by
    refine ⟨⟨⟨false, .everything 0, ⟨"a", "b", 0⟩, [],
      [⟨⟨0, "x = @y or ':z' \" -- /*"⟩, .greater, "name"⟩,
        ⟨⟨0, "x = @y or ':z' \" -- /*"⟩, .less, "Name"⟩,
        ⟨⟨0, "x = @y or ':z' \" -- /*"⟩, .notEqual, "name"⟩], [], []⟩, ["name"]⟩, ?_, rfl⟩
    decide +kernel
  obtain ⟨compiled, done, names⟩ := done
  refine ⟨compiled, done, names, ?_⟩
  rw [(compile_parameters_agree done).1]
  decide +kernel

end ReportQuery.Query
