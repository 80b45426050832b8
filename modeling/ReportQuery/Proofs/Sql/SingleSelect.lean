import ReportQuery.Proofs.Sql.SchemaBoundary
import ReportQuery.Proofs.Sql.Trimming
import ReportQuery.Proofs.Sql.WordSearch

set_option autoImplicit false
set_option relaxedAutoImplicit false

/-!
Accepted texts as SQL reads them. The safety rules look at the first characters and at single words,
not at semicolons: every statement behind the first is let through that holds none of the forbidden
words, and the first word may be longer than SELECT.
-/

namespace ReportQuery.Sql

open Text

/-- A single statement whose first word is SELECT. -/
structure IsSingleSelect (these : List Symbol) : Prop where
  begins : ∃ first rest, these = first :: rest ∧ first.isKeyword "SELECT"
  single : IsOneStatement these

/-- The statements of a text, which is cut at the semicolons of its code. -/
def statements (lexemes : List Lexeme) : List (List Lexeme) :=
  lexemes.splitOn (.code ';')

/-- Whether the text begins with the six letters of SELECT, in either case, as a word of its own. -/
def beginsWithSelect (text : List Char) : Prop :=
  (text.take 6).map Char.toUpper = "SELECT".toList ∧ startsApart (text.drop 6)

variable {keywords : List String} {c : Char} {right text word : List Char} {sql : String}
  {lexemes : List Lexeme}

section Statements

variable {front : List Lexeme}

private theorem statements_free (free : .code ';' ∉ lexemes) : statements lexemes = [lexemes] :=
  List.splitOn_eq_singleton free

private theorem statements_cut (free : .code ';' ∉ front) (back : List Lexeme) :
    statements (front ++ .code ';' :: back) = front :: statements back :=
  List.splitOn_append_cons_self_of_not_mem free back

/-- Induction on the statements of a text, from its first semicolon on. -/
private theorem statements_induction {motive : List Lexeme → Prop}
    (last : ∀ front, .code ';' ∉ front → motive front)
    (cut : ∀ front back, .code ';' ∉ front → motive back → motive (front ++ .code ';' :: back))
    (lexemes : List Lexeme) : motive lexemes := by
  induction size : lexemes.length using Nat.strong_induction_on generalizing lexemes with
  | h n ih =>
    by_cases among : .code ';' ∈ lexemes
    · obtain ⟨front, back, rfl, free⟩ := List.eq_append_cons_of_mem among
      have less : back.length < n := by
        rw [← size, List.length_append, List.length_cons]
        omega
      exact cut front back free (ih back.length less back rfl)
    · exact last lexemes among

/-- A keyword stands in a text just when it stands in one of its statements. -/
theorem containsWord_statements (words : areKeywords keywords) :
    containsWord keywords (sourceOf lexemes) ↔
      ∃ statement ∈ statements lexemes, containsWord keywords (sourceOf statement) := by
  induction lexemes using statements_induction with
  | last lexemes free => simp [statements_free free]
  | cut front back free ih =>
    have whole : sourceOf (front ++ .code ';' :: back) = sourceOf front ++ ';' :: sourceOf back := by
      rw [sourceOf_append]
      rfl
    rw [whole, containsWord_append_cons words (by decide), ih, statements_cut free]
    simp

end Statements

section FirstWord

private theorem isIdentifierChar_of_toUpper {letter : Char} (capital : 'A' ≤ letter && letter ≤ 'Z')
    (upper : c.toUpper = letter) : isIdentifierChar c :=
  isIdentifierChar_of_meetsLetter capital (upper ▸ meetsLetter_toUpper c)

/-- The first character of a text whose upper case begins with SELECT continues a word. -/
private theorem head_of_startsWithSelect (trimmed : IsTrimmed text) (select : startsWithSelect text) :
    ∃ c tail, text = c :: tail ∧ isIdentifierChar c := by
  have spelled : "SELECT".toList <+: upperChars text := List.isPrefixOf_iff_prefix.mp select
  cases text with
  | nil =>
    obtain ⟨behind, same⟩ := spelled
    exact absurd (congrArg List.length same) (by simp [upperChars])
  | cons c tail =>
    refine ⟨c, tail, rfl, ?_⟩
    by_cases ascii : c.toNat < 0x80
    · have one : upperChar c = [c.toUpper] := by
        have single : upperChars [c] = [c].map Char.toUpper := upperChars_of_ascii (by simpa using ascii)
        rwa [upperChars, List.flatMap_singleton] at single
      have first : c.toUpper = 'S' := by
        obtain ⟨behind, same⟩ := spelled
        have letters : "SELECT".toList = ['S', 'E', 'L', 'E', 'C', 'T'] := by decide
        rw [upperChars, List.flatMap_cons, one, letters] at same
        exact (List.cons.inj same).1.symm
      exact isIdentifierChar_of_toUpper (by decide) first
    · have solid : isBlank c = false := trimmed.front c rfl
      simp [isIdentifierChar, isIdentifierStart, solid, Nat.le_of_not_lt ascii]

/-- Every text begins with a word of code, which may be empty. -/
private theorem exists_firstWord (lexemes : List Lexeme) :
    ∃ (word : List Char) (others : List Lexeme), lexemes = word.map .code ++ others ∧
      (∀ c ∈ word, isIdentifierChar c) ∧ BeginsApart others := by
  induction lexemes with
  | nil => exact ⟨[], [], rfl, by simp, by simp [BeginsApart]⟩
  | cons lexeme lexemes ih =>
    cases stops : lexeme.wordChar? with
    | none =>
      refine ⟨[], lexeme :: lexemes, rfl, by simp, fun first among => ?_⟩
      obtain rfl := Option.some.inj among
      exact stops
    | some c =>
      obtain ⟨word, others, rfl, chars, apart⟩ := ih
      obtain ⟨rfl, continues⟩ := eq_of_wordChar? stops
      exact ⟨c :: word, others, rfl, List.forall_mem_cons.mpr ⟨continues, chars⟩, apart⟩

private theorem startsApart_sourceOf (apart : BeginsApart lexemes) : startsApart (sourceOf lexemes) := by
  cases lexemes with
  | nil => rfl
  | cons lexeme lexemes =>
    have stops := apart lexeme rfl
    rw [startsApart, head?_sourceOf_cons]
    cases lexeme with
    | code c =>
      simp [Lexeme.source, wordChar?_code_iff.mp stops]
    | name inside => rfl
    | literal inside => rfl
    | lineComment inside => rfl
    | blockComment inside => rfl

private theorem takeWhile_word (chars : ∀ c ∈ word, isIdentifierChar c) (apart : startsApart right) :
    (word ++ right).takeWhile isIdentifierChar = word := by
  rw [List.takeWhile_append_of_pos chars]
  cases right with
  | nil => simp
  | cons c right =>
    have mark : isIdentifierChar c = false := by simpa [startsApart] using apart
    rw [List.takeWhile_cons_of_neg (by simp [mark]), List.append_nil]

private theorem beginsWithSelect_iff (chars : ∀ c ∈ word, isIdentifierChar c)
    (apart : startsApart right) :
    beginsWithSelect (word ++ right) ↔ word.map Char.toUpper = "SELECT".toList := by
  constructor
  · rintro ⟨spelled, ends⟩
    have letters : ∀ c ∈ (word ++ right).take 6, isIdentifierChar c := by
      intro c member
      have capital : c.toUpper ∈ "SELECT".toList := by
        rw [← spelled]
        exact List.mem_map_of_mem member
      have capitals : "SELECT".toList.all fun c => 'A' ≤ c && c ≤ 'Z' := by decide
      exact isIdentifierChar_of_toUpper (List.all_eq_true.mp capitals _ capital) rfl
    have whole := takeWhile_word letters ends
    rw [List.take_append_drop, takeWhile_word chars apart] at whole
    rw [whole]
    exact spelled
  · intro spelled
    have size : word.length = 6 := by
      have lengths := congrArg List.length spelled
      rwa [List.length_map] at lengths
    refine ⟨?_, ?_⟩
    · rw [← size, List.take_left]
      exact spelled
    · rw [← size, List.drop_left]
      exact apart

end FirstWord

/-- Of a text that some allow-list lets pass, the first word is SELECT just when the text begins with
these six letters and no other character of a word. -/
private theorem begins_iff (reads : Reads lexemes)
    (select : startsWithSelect (trimChars (sourceOf lexemes))) :
    (∃ first rest, symbols lexemes = first :: rest ∧ first.isKeyword "SELECT") ↔
      beginsWithSelect (trimChars (sourceOf lexemes)) := by
  obtain ⟨kept, source, trimmed⟩ := exists_trimmed reads
  obtain ⟨c, tail, text, continues⟩ := head_of_startsWithSelect (isTrimmed_trimChars _) select
  obtain ⟨word, others, rfl, chars, apart⟩ := exists_firstWord kept
  obtain ⟨behind, shows, -⟩ := trimmed.shows
  rw [sourceOf_append, sourceOf_map_code] at source
  have follows := startsApart_sourceOf apart
  have nonempty : word ≠ [] := by
    rintro rfl
    rw [List.nil_append] at source
    rw [source, text] at follows
    simp [startsApart, continues] at follows
  have first : symbolsAfter [] (word.map .code ++ others) = finishedWord ([] ++ word) ++ symbols others :=
    symbolsAfter_word chars apart
  rw [List.nil_append, finishedWord, if_neg (by simpa using nonempty)] at first
  rw [shows, symbols, first, ← source, beginsWithSelect_iff chars follows]
  constructor
  · rintro ⟨symbol, rest, split, spells⟩
    obtain ⟨rfl, -⟩ := List.cons.inj split
    exact beq_iff_eq.mp spells
  · intro spelled
    exact ⟨.word word, _, rfl, beq_iff_eq.mpr spelled⟩

/-- Where the characters are let pass, the rules forbid words in every statement and nothing else. -/
private theorem exists_accepted_iff (read : lex? sql.toList = some lexemes) :
    (∃ allowed, violation? sql allowed = none) ↔ startsWithSelect (trimChars sql.toList) ∧
      ∀ statement ∈ statements lexemes, ¬ containsWord forbiddenWords (sourceOf statement) := by
  obtain ⟨source, -⟩ := lex?_eq_some read
  have words : areKeywords forbiddenWords := by decide
  have found : containsWord forbiddenWords (trimChars sql.toList) ↔
      ∃ statement ∈ statements lexemes, containsWord forbiddenWords (sourceOf statement) := by
    rw [containsWord_trimChars words, source, containsWord_statements words]
  have unfound : (findFirst? (keyword forbiddenWords) (trimChars sql.toList)).isNone ↔
      ∀ statement ∈ statements lexemes, ¬ containsWord forbiddenWords (sourceOf statement) := by
    have none : (findFirst? (keyword forbiddenWords) (trimChars sql.toList)).isNone ↔
        ¬ containsWord forbiddenWords (trimChars sql.toList) := by simp [containsWord]
    rw [none, found]
    simp
  have query : isQuery (trimChars sql.toList) ↔ startsWithSelect (trimChars sql.toList) ∧
      (findFirst? (keyword forbiddenWords) (trimChars sql.toList)).isNone := by
    have nonempty (select : startsWithSelect (trimChars sql.toList)) :
        (trimChars sql.toList).isEmpty = false := by
      obtain ⟨c, tail, text, -⟩ := head_of_startsWithSelect (isTrimmed_trimChars _) select
      rw [text]
      rfl
    rw [isQuery, Bool.and_eq_true, Bool.and_eq_true]
    constructor
    · rintro ⟨⟨-, select⟩, none⟩
      exact ⟨select, none⟩
    · rintro ⟨select, none⟩
      exact ⟨⟨by rw [nonempty select]; rfl, select⟩, none⟩
  rw [← unfound, ← query]
  constructor
  · rintro ⟨allowed, accepted⟩
    exact (violation?_eq_none_iff.mp accepted).1
  · intro passes
    -- The schemas that the text refers to are the shortest list that lets it pass.
    exact ⟨referencedSchemas (trimChars sql.toList),
      violation?_eq_none_iff.mpr ⟨passes, fun schema => List.mem_map_of_mem⟩⟩

section Semicolons

private theorem mem_of_sign_mem {before : List Char} (member : .sign c ∈ symbolsAfter before lexemes) :
    .code c ∈ lexemes := by
  have unfinished (cs : List Char) : .sign c ∉ finishedWord cs := by
    unfold finishedWord
    split <;> simp
  induction lexemes generalizing before with
  | nil => exact absurd member (unfinished before)
  | cons lexeme lexemes ih =>
    cases stops : lexeme.wordChar? with
    | some d =>
      rw [symbolsAfter_of_wordChar stops] at member
      exact List.mem_cons_of_mem _ (ih member)
    | none =>
      rw [symbolsAfter_of_none stops, List.mem_append, List.mem_append] at member
      rcases member with current | alone | later
      · exact absurd current (unfinished before)
      · cases lexeme with
        | code d =>
          rw [Lexeme.alone] at alone
          split at alone
          · cases alone
          · obtain rfl : c = d := by simpa using alone
            exact List.mem_cons_self
        | _ => simp [Lexeme.alone] at alone
      · exact List.mem_cons_of_mem _ (ih later)

private theorem symbols_cut (front back : List Lexeme) :
    symbols (front ++ .code ';' :: back) = symbols front ++ .sign ';' :: symbols back :=
  symbols_append_cons (wordChar?_code_iff.mpr (by decide))

/-- Without a semicolon in its code a text has none among its symbols. -/
private theorem ne_semicolon (free : .code ';' ∉ lexemes) :
    ∀ symbol ∈ symbols lexemes, symbol ≠ .sign ';' := by
  rintro symbol member rfl
  exact free (mem_of_sign_mem member)

/-- A text whose symbols are semicolons holds empty statements only. -/
private theorem all_semicolons_iff (lexemes : List Lexeme) :
    (∀ symbol ∈ symbols lexemes, symbol = .sign ';') ↔
      ∀ statement ∈ statements lexemes, symbols statement = [] := by
  have none_of {front : List Lexeme} (free : .code ';' ∉ front) :
      (∀ symbol ∈ symbols front, symbol = .sign ';') ↔ symbols front = [] := by
    rw [List.eq_nil_iff_forall_not_mem]
    refine forall_congr' fun symbol => ⟨fun same member => ?_, fun none member => absurd member none⟩
    exact ne_semicolon free symbol member (same member)
  induction lexemes using statements_induction with
  | last lexemes free => rw [statements_free free, none_of free, List.forall_mem_singleton]
  | cut front back free ih =>
    rw [symbols_cut, statements_cut free, List.forall_mem_append, List.forall_mem_cons,
      List.forall_mem_cons, none_of free]
    exact and_congr_right fun _ => (and_iff_right rfl).trans ih

/-- A text is one statement just when all statements behind the first are empty. -/
private theorem isOneStatement_iff :
    IsOneStatement (symbols lexemes) ↔
      ∀ statement ∈ (statements lexemes).tail, symbols statement = [] := by
  have passed {front : List Lexeme} (free : .code ';' ∉ front) :
      ∀ symbol ∈ symbols front, (symbol != .sign ';') = true :=
    fun symbol member => bne_iff_ne.mpr (ne_semicolon free symbol member)
  by_cases cut : .code ';' ∈ lexemes
  · obtain ⟨front, back, rfl, free⟩ := List.eq_append_cons_of_mem cut
    rw [statements_cut free, List.tail_cons, ← all_semicolons_iff, symbols_cut, IsOneStatement,
      List.dropWhile_append_of_pos (passed free), List.dropWhile_cons_of_neg (by simp)]
    simp
  · rw [statements_free cut, IsOneStatement, List.dropWhile_eq_nil_iff.mpr (passed cut)]
    simp

end Semicolons

/-- Some allow-list lets a closed text pass exactly if its first characters spell SELECT in upper case
and none of its statements holds a forbidden word; semicolons are not looked at. So all accepted texts
that have these lexemes are a single SELECT exactly if, where both hold, the first six letters stand for
themselves and are a word, and every statement behind the first is empty. -/
theorem accepted_single_iff (read : lex? sql.toList = some lexemes) :
    ((∃ allowed, violation? sql allowed = none) ↔ startsWithSelect (trimChars sql.toList) ∧
        ∀ statement ∈ statements lexemes, ¬ containsWord forbiddenWords (sourceOf statement)) ∧
    ((∀ allowed, violation? sql allowed = none → IsSingleSelect (symbols lexemes)) ↔
      (startsWithSelect (trimChars sql.toList) →
        (∀ statement ∈ statements lexemes, ¬ containsWord forbiddenWords (sourceOf statement)) →
          beginsWithSelect (trimChars sql.toList) ∧
            ∀ statement ∈ (statements lexemes).tail, symbols statement = [])) := by
  have passes := exists_accepted_iff read
  obtain ⟨source, reads⟩ := lex?_eq_some read
  refine ⟨passes, ?_⟩
  rw [source] at passes ⊢
  have single (select : startsWithSelect (trimChars (sourceOf lexemes))) :
      IsSingleSelect (symbols lexemes) ↔ beginsWithSelect (trimChars (sourceOf lexemes)) ∧
        ∀ statement ∈ (statements lexemes).tail, symbols statement = [] := by
    rw [← begins_iff reads select, ← isOneStatement_iff]
    exact ⟨fun both => ⟨both.begins, both.single⟩, fun both => ⟨both.1, both.2⟩⟩
  constructor
  · intro all select free
    obtain ⟨allowed, accepted⟩ := passes.mpr ⟨select, free⟩
    exact (single select).mp (all allowed accepted)
  · intro spelled allowed accepted
    obtain ⟨select, free⟩ := passes.mp ⟨allowed, accepted⟩
    exact (single select).mpr (spelled select free)

/-- A single statement with a semicolon behind it is accepted. -/
theorem select_accepted_single :
    ∃ lexemes, lex? "SELECT 1; -- one".toList = some lexemes ∧
      violation? "SELECT 1; -- one" [] = none ∧ IsSingleSelect (symbols lexemes) := by
  have read : lex? "SELECT 1; -- one".toList =
      some ("SELECT 1; ".toList.map .code ++ [Lexeme.lineComment " one".toList]) := by decide +kernel
  have accepted : violation? "SELECT 1; -- one" [] = none := by decide +kernel
  have later : ((statements ("SELECT 1; ".toList.map .code ++
      [Lexeme.lineComment " one".toList])).tail.all fun statement => (symbols statement).isEmpty) = true := by
    rfl
  refine ⟨_, read, accepted, (accepted_single_iff read).2.mpr (fun _ _ => ⟨?_, ?_⟩) [] accepted⟩
  · unfold beginsWithSelect
    decide
  · intro statement member
    simpa using List.all_eq_true.mp later statement member

/-- A second statement rides along where it holds none of the forbidden words. -/
theorem second_statement_accepted :
    ∃ lexemes, lex? "SELECT 1; VACUUM".toList = some lexemes ∧
      violation? "SELECT 1; VACUUM" ["public"] = none ∧ ¬ IsSingleSelect (symbols lexemes) := by
  have read : lex? "SELECT 1; VACUUM".toList = some ("SELECT 1; VACUUM".toList.map .code) := by
    decide +kernel
  have several : ¬ IsOneStatement (symbols ("SELECT 1; VACUUM".toList.map .code)) := by decide
  exact ⟨_, read, by decide +kernel, fun both => several both.single⟩

end ReportQuery.Sql
