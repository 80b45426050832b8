import ReportQuery.Proofs.Sql.OutsideGroups
import ReportQuery.Proofs.Sql.Trimming

set_option autoImplicit false
set_option relaxedAutoImplicit false

/-!
The row ceiling as SQL reads the statement that is sent. The clause is added to a text: it takes
effect where the text behind which it is put ends in no line comment, holds no semicolon and leaves
no parenthesis open, and where the decision whether the statement has a clause of its own was right.
-/

namespace ReportQuery.Sql

open Text

/-- One statement that ends, outside all parentheses, in a LIMIT clause with the ceiling. -/
structure IsCapped (ceiling : RowCount) (these : List Symbol) : Prop where
  single : IsOneStatement these
  ends : ∃ front limit, these = front ++ [limit, Symbol.word (toString ceiling.val).toList] ∧
    limit.isKeyword "LIMIT" ∧ depthFrom 0 front = 0

/-- The ceiling is effective: what is sent is capped. A full run of a statement whose outermost query
has a LIMIT of its own is sent as it is. -/
def CeilingHolds (options : Options) (extent : Extent) (sql : List Char) (lexemes : List Lexeme) :
    Prop :=
  let keepsOwn := extent = .full ∧ StandsOutside "LIMIT" (symbols lexemes)
  (keepsOwn → applyRowLimit options extent sql = bareStatement sql) ∧
    (¬ keepsOwn → ∃ sent, lex? (applyRowLimit options extent sql) = some sent ∧
      IsCapped (options.ceiling extent) (symbols sent))

/-- Whether the text goes on in a line comment. -/
def endsInLineComment (lexemes : List Lexeme) : Bool :=
  match lexemes.getLast? with
  | some (.lineComment _) => true
  | _ => false

variable {c : Char} {text sql : List Char} {lexemes : List Lexeme} {these : List Symbol}

/-- Of a closed text blanks and semicolons are taken off only, and what is left is closed. -/
private theorem exists_bare (reads : Reads lexemes) :
    ∃ bare, sourceOf bare = bareStatement (sourceOf lexemes) ∧ IsTrimOf lexemes bare := by
  obtain ⟨first, inside, trimmed⟩ := exists_trimmed reads
  obtain ⟨second, ends, others⟩ :=
    @exists_trimmedBack _ (· == ';') (fun c same => .inr (beq_iff_eq.mp same)) trimmed.reads
  obtain ⟨bare, source, last⟩ := exists_trimmedBack (fun c blank => .inl blank) others.reads
  refine ⟨bare, ?_, trimmed.trans (others.trans last)⟩
  rw [source, ends, inside]
  rfl

section Clause

/-- A character with which neither a comment nor a quoted part begins. -/
def isInert (c : Char) : Bool :=
  !(['\'', '"', '-', '/'].contains c)

theorem readsBefore_inert (inert : isInert c) (rest : List Char) : (Lexeme.code c).ReadsBefore rest := by
  have different : c ≠ '\'' ∧ c ≠ '"' ∧ c ≠ '-' ∧ c ≠ '/' := by simpa [isInert] using inert
  obtain ⟨literal, name, dash, slash⟩ := different
  exact ⟨literal, name, fun line => dash line.1, fun block => slash block.1⟩

theorem reads_inert (inert : ∀ c ∈ text, isInert c) : Reads (text.map .code) := by
  induction text with
  | nil => trivial
  | cons c text ih =>
    obtain ⟨here, there⟩ := List.forall_mem_cons.mp inert
    exact ⟨readsBefore_inert here _, ih there⟩

theorem reads_inert_append (inert : ∀ c ∈ text, isInert c) (reads : Reads lexemes) :
    Reads (text.map .code ++ lexemes) := by
  refine reads_append_iff.mpr ⟨reads_inert inert, reads, fun last among => ?_⟩
  obtain ⟨c, member, rfl⟩ := List.mem_map.mp (List.mem_of_getLast? among)
  exact readsBefore_inert (inert c member) _

/-- Inert text behind a text is code, unless it goes on in a line comment. -/
private theorem exists_extended (reads : Reads lexemes) (inert : ∀ c ∈ text, isInert c)
    (line : '\n' ∉ text) (apart : startsApart text) (star : text.head? ≠ some '*') :
    ∃ longer, sourceOf longer = sourceOf lexemes ++ text ∧ Reads longer ∧ symbols longer =
      symbols lexemes ++ if endsInLineComment lexemes then [] else symbols (text.map .code) := by
  have first : ∀ quote ∈ ['\'', '"', '-', '/'], text.head? ≠ some quote := by
    intro quote listed same
    have different : quote ∉ ['\'', '"', '-', '/'] := by
      have here := inert quote (List.mem_of_head? same)
      rwa [isInert, Bool.not_eq_true', List.contains_eq_mem, decide_eq_false_iff_not] at here
    exact different listed
  have begins : BeginsApart (text.map .code) := by
    intro lexeme among
    cases text with
    | nil => cases among
    | cons c text =>
      obtain rfl := Option.some.inj among
      exact wordChar?_code_iff.mpr (by simpa [startsApart] using apart)
  by_cases goesOn : endsInLineComment lexemes
  · unfold endsInLineComment at goesOn
    split at goesOn
    · rename_i inside last
      obtain ⟨init, rfl⟩ := List.getLast?_eq_some_iff.mp last
      obtain ⟨before, here, joins⟩ := reads_append_iff.mp reads
      have longer : Reads [Lexeme.lineComment (inside ++ text)] :=
        ⟨⟨by simp [here.1.1, line], .inl rfl⟩, trivial⟩
      refine ⟨init ++ [Lexeme.lineComment (inside ++ text)], ?_, ?_, ?_⟩
      · simp [sourceOf, Lexeme.source]
      · refine reads_append_iff.mpr ⟨before, longer, fun lexeme among => ?_⟩
        exact (joins lexeme among).congr rfl
      · rw [symbols_append_cons rfl, symbols_append_cons rfl]
        simp [endsInLineComment, Lexeme.alone]
    · cases goesOn
  · refine ⟨lexemes ++ text.map .code, ?_, ?_, ?_⟩
    · rw [sourceOf_append, sourceOf_map_code]
    · refine reads_append_iff.mpr ⟨reads, reads_inert inert, fun last among => ?_⟩
      obtain ⟨init, rfl⟩ := List.getLast?_eq_some_iff.mp among
      obtain ⟨-, here, -⟩ := reads_append_iff.mp reads
      rw [sourceOf_map_code]
      cases last with
      | code c =>
        refine ⟨here.1.1, here.1.2.1, fun dashes => ?_, fun opens => star opens.2⟩
        exact first '-' (by decide) dashes.2
      | name inside => exact ⟨here.1.1, first '"' (by decide)⟩
      | literal inside => exact ⟨here.1.1, first '\'' (by decide)⟩
      | lineComment inside => simp [endsInLineComment] at goesOn
      | blockComment inside => exact here.1
    · rw [symbols_append begins, if_neg goesOn]

/-- What stands in front of the statement that is sent. -/
def openingOf : Bool → String
  | true => "SELECT * FROM ("
  | false => ""

/-- What stands between the statement and the clause. -/
def closingOf : Bool → String
  | true => ") AS preview_subquery"
  | false => ""

private theorem previewOf_eq (statement : List Char) :
    previewOf statement = (openingOf true).toList ++ statement ++ (closingOf true).toList := by
  unfold previewOf
  rw [openingOf, closingOf]

theorem applyRowLimit_full {options : Options} (own : hasLimit (bareStatement sql)) :
    applyRowLimit options .full sql = bareStatement sql :=
  if_pos own

private theorem applyRowLimit_preview {options : Options} (own : hasLimit (bareStatement sql)) :
    applyRowLimit options .preview sql =
      appendLimit (previewOf (bareStatement sql)) (options.ceiling .preview) :=
  if_pos own

private theorem applyRowLimit_plain {options : Options} {extent : Extent}
    (own : ¬ hasLimit (bareStatement sql)) : applyRowLimit options extent sql =
      appendLimit (bareStatement sql) (options.ceiling extent) :=
  if_neg own

/-- Nothing is taken off a statement that ends neither in a blank nor in a semicolon. -/
theorem bareStatement_eq_self (trimmed : IsTrimmed sql) (ends : ∀ c ∈ sql.getLast?, c ≠ ';') :
    bareStatement sql = sql := by
  have kept : sql.reverse.dropWhile (· == ';') = sql.reverse := by
    cases back : sql.reverse with
    | nil => rfl
    | cons c cs =>
      have last : c ∈ sql.getLast? := by
        rw [← List.head?_reverse, back]
        rfl
      exact List.dropWhile_cons_of_neg (by simpa using ends c last)
  rw [bareStatement, trimmed.trimChars_eq, kept, List.reverse_reverse,
    trimBackChars_eq_self trimmed.back]

/-- A statement of which nothing is taken off gets the clause just where the test finds no LIMIT. -/
theorem applyRowLimit_eq_appendLimit_iff {options : Options} {extent : Extent}
    (bare : bareStatement sql = sql) :
    applyRowLimit options extent sql = appendLimit sql (options.ceiling extent) ↔ ¬ hasLimit sql := by
  constructor
  · intro same own
    rw [← bare] at own
    have blank : 0 < " LIMIT ".toList.length := by decide
    have lengths := congrArg List.length same
    cases extent with
    | full =>
      rw [applyRowLimit_full own, bare] at lengths
      simp only [appendLimit, List.length_append] at lengths
      omega
    | preview =>
      have opening : 0 < (openingOf true).toList.length := by decide
      rw [applyRowLimit_preview own, bare, previewOf_eq] at lengths
      simp only [appendLimit, List.length_append] at lengths
      omega
  · intro without
    rw [← bare] at without
    rw [applyRowLimit_plain without, bare]

/-- The clause with what stands between it and the statement. -/
def clauseBehind (wrapped : Bool) (ceiling : RowCount) : List Char :=
  (closingOf wrapped).toList ++ " LIMIT ".toList ++ (toString ceiling.val).toList

theorem applyRowLimit_eq {options : Options} {extent : Extent}
    (adds : ¬ (extent = .full ∧ hasLimit (bareStatement sql))) :
    applyRowLimit options extent sql = (openingOf (hasLimit (bareStatement sql))).toList ++
      (bareStatement sql ++ clauseBehind (hasLimit (bareStatement sql)) (options.ceiling extent)) := by
  by_cases own : hasLimit (bareStatement sql)
  · have preview : extent = .preview := by
      cases extent with
      | full => exact absurd ⟨rfl, own⟩ adds
      | preview => rfl
    rw [preview, applyRowLimit_preview own, own, appendLimit, previewOf_eq, clauseBehind]
    simp only [List.append_assoc]
  · have bare (text : List Char) : (openingOf false).toList ++ text = text := by rw [openingOf]; rfl
    have behind : (closingOf false).toList = [] := by rw [closingOf]; rfl
    rw [applyRowLimit_plain own, Bool.eq_false_iff.mpr own, appendLimit, bare, clauseBehind, behind,
      List.nil_append, List.append_assoc]

private theorem inert_openingOf (wrapped : Bool) : ∀ c ∈ (openingOf wrapped).toList, isInert c := by
  refine List.all_eq_true.mp ?_
  cases wrapped <;> rfl

/-- The clause is made of names and digits with blanks between them, behind a parenthesis or not. -/
theorem mem_clauseBehind {wrapped : Bool} {ceiling : RowCount} (member : c ∈ clauseBehind wrapped ceiling) :
    isNameChar c ∨ c = ' ' ∨ c = ')' := by
  have fixed : ((closingOf wrapped).toList ++ " LIMIT ".toList).all
      fun c => isNameChar c || c == ' ' || c == ')' := by
    cases wrapped <;> rfl
  rcases List.mem_append.mp member with before | digit
  · simpa [or_assoc] using List.all_eq_true.mp fixed c before
  · exact .inl (isNameChar_of_mem_digits c digit)

/-- Nothing quoted and no comment begins in the clause, and it goes on in the same line. -/
private theorem inert_clauseBehind (wrapped : Bool) (ceiling : RowCount) :
    ∀ c ∈ clauseBehind wrapped ceiling, isInert c ∧ c ≠ '\n' := by
  have unnamed : ['\'', '"', '-', '/', '\n'].all fun c => !isNameChar c := by decide
  intro c member
  rcases mem_clauseBehind member with named | rfl | rfl
  · have other : c ∉ ['\'', '"', '-', '/', '\n'] := by
      intro listed
      have mark := List.all_eq_true.mp unnamed c listed
      rw [named] at mark
      cases mark
    simpa [isInert, and_assoc] using other
  · decide
  · decide

theorem head?_clauseBehind (wrapped : Bool) (ceiling : RowCount) :
    (clauseBehind wrapped ceiling).head? = some (if wrapped then ')' else ' ') := by
  have fixed : ((closingOf wrapped).toList ++ " LIMIT ".toList).head? =
      some (if wrapped then ')' else ' ') := by
    cases wrapped <;> rfl
  rw [clauseBehind, List.head?_append, fixed]
  rfl

/-- What stands in front opens one parenthesis or none. -/
private theorem symbols_openingOf (wrapped : Bool) :
    .sign ';' ∉ symbols ((openingOf wrapped).toList.map .code) ∧
      depthFrom 0 (symbols ((openingOf wrapped).toList.map .code)) = wrapped.toNat ∧
      ∀ last ∈ ((openingOf wrapped).toList.map Lexeme.code).getLast?, last.wordChar? = none := by
  cases wrapped <;> decide

/-- What stands behind closes it and ends in the clause. -/
private theorem exists_symbols_clauseBehind (wrapped : Bool) (ceiling : RowCount) :
    ∃ front, symbols ((clauseBehind wrapped ceiling).map .code) =
        front ++ [Symbol.word "LIMIT".toList, .word (toString ceiling.val).toList] ∧
      .sign ';' ∉ front ∧ ∀ depth, depthFrom depth front = depth - wrapped.toNat := by
  have digits : symbols ((toString ceiling.val).toList.map .code) =
      [Symbol.word (toString ceiling.val).toList] := by
    have chars : ∀ c ∈ (toString ceiling.val).toList, isIdentifierChar c := fun c member =>
      isIdentifierChar_of_isNameChar (isNameChar_of_mem_digits c member)
    have read : symbolsAfter [] ((toString ceiling.val).toList.map .code ++ []) =
        finishedWord ([] ++ (toString ceiling.val).toList) ++ symbols [] :=
      symbolsAfter_word chars (by simp [BeginsApart])
    rw [List.append_nil, List.nil_append, finishedWord, if_neg (by simp)] at read
    exact read
  have split : symbols ((clauseBehind wrapped ceiling).map .code) =
      symbols (((closingOf wrapped).toList ++ " LIMIT ".toList).map .code) ++
        [Symbol.word (toString ceiling.val).toList] := by
    rw [clauseBehind, List.map_append, symbols_append_of_last, digits]
    have ends : ∀ last ∈ (((closingOf wrapped).toList ++ " LIMIT ".toList).map Lexeme.code).getLast?,
        last.wordChar? = none := by
      cases wrapped <;> decide
    exact ends
  have fixed : symbols (((closingOf wrapped).toList ++ " LIMIT ".toList).map .code) =
      (if wrapped then [Symbol.sign ')', .word "AS".toList, .word "preview_subquery".toList] else []) ++
        [Symbol.word "LIMIT".toList] := by
    cases wrapped <;> rfl
  refine ⟨if wrapped then [Symbol.sign ')', .word "AS".toList, .word "preview_subquery".toList] else [],
    ?_, ?_, ?_⟩
  · rw [split, fixed, List.append_assoc]
    rfl
  · cases wrapped <;> simp
  · intro depth
    cases wrapped <;> rfl

end Clause

/-- A text that ends in the clause is capped just when no semicolon and no open parenthesis stands
before the clause. -/
private theorem isCapped_append_iff {ceiling : RowCount} :
    IsCapped ceiling (these ++ [Symbol.word "LIMIT".toList, .word (toString ceiling.val).toList]) ↔
      .sign ';' ∉ these ∧ depthFrom 0 these = 0 := by
  have whole : these ++ [Symbol.word "LIMIT".toList, .word (toString ceiling.val).toList] =
      these ++ [Symbol.word "LIMIT".toList] ++ [Symbol.word (toString ceiling.val).toList] := by simp
  have single : IsOneStatement (these ++ [Symbol.word "LIMIT".toList, .word (toString ceiling.val).toList]) ↔
      .sign ';' ∉ these := by
    rw [whole, isOneStatement_append_iff (by simp)]
    simp
  constructor
  · rintro ⟨one, front, limit, split, -, level⟩
    obtain ⟨rfl, -⟩ := List.append_inj' split rfl
    exact ⟨single.mp one, level⟩
  · rintro ⟨none, level⟩
    exact ⟨single.mpr none, these, .word "LIMIT".toList, rfl, by rfl, level⟩

private theorem IsCapped.standsOutside {ceiling : RowCount} (capped : IsCapped ceiling these) :
    StandsOutside "LIMIT" these := by
  obtain ⟨front, limit, split, spells, level⟩ := capped.ends
  exact ⟨front, limit, _, split, spells, level⟩

/-- A full run sends the statement as it is just where the test finds a LIMIT. -/
private theorem applyRowLimit_full_iff {options : Options} :
    applyRowLimit options .full sql = bareStatement sql ↔ hasLimit (bareStatement sql) := by
  constructor
  · intro same
    by_contra own
    rw [applyRowLimit_plain own, appendLimit] at same
    have longer := congrArg List.length same
    simp only [List.length_append] at longer
    have blank : 0 < " LIMIT ".toList.length := by decide
    omega
  · exact applyRowLimit_full

section Sent

variable {bare : List Lexeme} {options : Options} {extent : Extent}

/-- What is sent where a clause is added: the statement stands between an opening and a clause, but a
line comment at its end takes in the clause. -/
private theorem sent_isCapped_iff (reads : Reads bare) (source : sourceOf bare = bareStatement sql)
    (adds : ¬ (extent = .full ∧ hasLimit (bareStatement sql))) :
    (∃ sent, lex? (applyRowLimit options extent sql) = some sent ∧
        IsCapped (options.ceiling extent) (symbols sent)) ↔
      if endsInLineComment bare then
        IsCapped (options.ceiling extent)
          (symbols ((openingOf (hasLimit (bareStatement sql))).toList.map .code) ++ symbols bare)
      else .sign ';' ∉ symbols bare ∧
        depthFrom (hasLimit (bareStatement sql)).toNat (symbols bare) ≤
          (hasLimit (bareStatement sql)).toNat := by
  have whole : applyRowLimit options extent sql = _ := applyRowLimit_eq adds
  generalize hasLimit (bareStatement sql) = wrapped at whole ⊢
  have inert := inert_clauseBehind wrapped (options.ceiling extent)
  have first := head?_clauseBehind wrapped (options.ceiling extent)
  obtain ⟨longer, text, readsLonger, shows⟩ := exists_extended reads (fun c member => (inert c member).1)
    (fun line => (inert _ line).2 rfl)
    (by rw [startsApart, first]; cases wrapped <;> decide)
    (by rw [first]; cases wrapped <;> decide)
  obtain ⟨unended, opens, apart⟩ := symbols_openingOf wrapped
  have sentText : sourceOf ((openingOf wrapped).toList.map .code ++ longer) =
      applyRowLimit options extent sql := by
    rw [sourceOf_append, sourceOf_map_code, text, source, whole]
  have sent : lex? (applyRowLimit options extent sql) =
      some ((openingOf wrapped).toList.map .code ++ longer) := by
    rw [← sentText]
    exact lex?_sourceOf (reads_inert_append (inert_openingOf wrapped) readsLonger)
  rw [sent]
  simp only [Option.some.injEq, exists_eq_left']
  rw [symbols_append_of_last apart, shows]
  by_cases goesOn : endsInLineComment bare
  · rw [if_pos goesOn, if_pos goesOn, List.append_nil]
  · rw [if_neg goesOn, if_neg goesOn]
    obtain ⟨front, clause, none, closes⟩ := exists_symbols_clauseBehind wrapped (options.ceiling extent)
    rw [clause, ← List.append_assoc, ← List.append_assoc, isCapped_append_iff, depthFrom_append,
      depthFrom_append, opens, closes]
    simp only [List.mem_append, not_or, unended, none, not_false_eq_true, true_and, and_true,
      Nat.sub_eq_zero_iff_le]

end Sent

/-- The ceiling of a closed text is effective exactly when the text of the statement, blanks and
semicolons at its ends taken off, ends in no line comment, holds no semicolon and leaves open no
parenthesis behind which the clause would stand, and a full run keeps a LIMIT just where the outermost
query has one. Where stripping agrees with SQL's reading, the test for a LIMIT finds the word in the
code outside all pairs of parentheses, and so every LIMIT of the outermost query. -/
theorem ceilingHolds_iff (options : Options) (extent : Extent) (read : lex? sql = some lexemes) :
    ∃ bare, lex? (bareStatement sql) = some bare ∧
      let wrapped := hasLimit (bareStatement sql)
      (CeilingHolds options extent sql lexemes ↔
        (extent = .full ∧ StandsOutside "LIMIT" (symbols bare) → wrapped) ∧
        (¬ (extent = .full ∧ StandsOutside "LIMIT" (symbols bare)) →
          ¬ (extent = .full ∧ wrapped) ∧
          if endsInLineComment bare then
            IsCapped (options.ceiling extent)
              (symbols ((openingOf wrapped).toList.map .code) ++ symbols bare)
          else .sign ';' ∉ symbols bare ∧ depthFrom wrapped.toNat (symbols bare) ≤ wrapped.toNat)) ∧
      (Everywhere Lexeme.IsHarmless bare →
        wrapped = containsWord ["LIMIT"] (outsideFrom 0 (maskedOf bare)) ∧
          (StandsOutside "LIMIT" (symbols bare) → wrapped)) := by
  obtain ⟨rfl, reads⟩ := lex?_eq_some read
  obtain ⟨bare, source, trimmed⟩ := exists_bare reads
  have readBare : lex? (bareStatement (sourceOf lexemes)) = some bare := by
    rw [← source]
    exact lex?_sourceOf trimmed.reads
  refine ⟨bare, readBare, ?_, ?_⟩
  · have kept := @applyRowLimit_full_iff (sourceOf lexemes) options
    have sent := @sent_isCapped_iff (sourceOf lexemes) bare options extent trimmed.reads source
    rw [CeilingHolds, trimmed.standsOutside_iff]
    constructor
    · rintro ⟨keeps, caps⟩
      refine ⟨fun own => ?_, fun other => ?_⟩
      · have same := keeps own
        rw [own.1] at same
        exact kept.mp same
      · have adds : ¬ (extent = .full ∧ hasLimit (bareStatement (sourceOf lexemes))) := by
          rintro ⟨rfl, found⟩
          obtain ⟨answer, readAnswer, capped⟩ := caps other
          rw [kept.mpr found, readBare] at readAnswer
          obtain rfl := Option.some.inj readAnswer
          exact other ⟨rfl, capped.standsOutside⟩
        exact ⟨adds, (sent adds).mp (caps other)⟩
    · rintro ⟨keeps, caps⟩
      refine ⟨fun own => ?_, fun other => ?_⟩
      · have found := keeps own
        rw [own.1]
        exact kept.mpr found
      · obtain ⟨adds, capped⟩ := caps other
        exact (sent adds).mpr capped
  · intro harmless
    have stripped : stripLiterals (bareStatement (sourceOf lexemes)) = strippedOf bare := by
      rw [← source]
      exact stripLiterals_of_harmless trimmed.reads harmless
    have found : hasLimit (bareStatement (sourceOf lexemes)) =
        containsWord ["LIMIT"] (outsideFrom 0 (maskedOf bare)) := by
      rw [hasLimit, stripped, maskQuoted_strippedOf trimmed.reads, collapseGroups_eq]
    refine ⟨found, fun stands => ?_⟩
    rw [found]
    exact containsWord_of_standsOutside (by decide) stands

/-- A preview of a query with a LIMIT of its own is capped. -/
theorem limited_preview_capped :
    ∃ lexemes, lex? "SELECT a LIMIT 5; ".toList = some lexemes ∧
      CeilingHolds .standard .preview "SELECT a LIMIT 5; ".toList lexemes := by
  have read : lex? "SELECT a LIMIT 5; ".toList = some ("SELECT a LIMIT 5; ".toList.map .code) := by
    decide +kernel
  obtain ⟨bare, readBare, effective, -⟩ := ceilingHolds_iff .standard .preview read
  have same : lex? (bareStatement "SELECT a LIMIT 5; ".toList) =
      some ("SELECT a LIMIT 5".toList.map .code) := by decide +kernel
  have own : hasLimit (bareStatement "SELECT a LIMIT 5; ".toList) = true := by decide +kernel
  obtain rfl := Option.some.inj (readBare.symm.trans same)
  have placed : endsInLineComment ("SELECT a LIMIT 5".toList.map .code) = false ∧
      .sign ';' ∉ symbols ("SELECT a LIMIT 5".toList.map .code) ∧
      depthFrom 1 (symbols ("SELECT a LIMIT 5".toList.map .code)) ≤ 1 := by decide
  refine ⟨_, read, effective.mpr ⟨fun full => ?_, fun _ => ⟨fun full => ?_, ?_⟩⟩⟩
  · cases full.1
  · cases full.1
  · rw [own, placed.1, if_neg Bool.false_ne_true]
    exact placed.2

/-- A line comment at the end of a statement takes in the clause. -/
theorem commented_run_uncapped :
    ∃ lexemes, lex? "SELECT 1 -- all".toList = some lexemes ∧ IsOneStatement (symbols lexemes) ∧
      ¬ CeilingHolds .standard .full "SELECT 1 -- all".toList lexemes := by
  have read : lex? "SELECT 1 -- all".toList =
      some ("SELECT 1 ".toList.map .code ++ [Lexeme.lineComment " all".toList]) := by decide +kernel
  have shown : symbols ("SELECT 1 ".toList.map .code ++ [Lexeme.lineComment " all".toList]) =
      [Symbol.word "SELECT".toList, .word "1".toList] := by rfl
  have answer : (lex? (applyRowLimit .standard .full "SELECT 1 -- all".toList)).map symbols =
      some [Symbol.word "SELECT".toList, .word "1".toList] := by decide +kernel
  refine ⟨_, read, by rw [shown]; decide, fun effective => ?_⟩
  have unlimited : ¬ (Extent.full = .full ∧ StandsOutside "LIMIT" (symbols
      ("SELECT 1 ".toList.map .code ++ [Lexeme.lineComment " all".toList]))) := by
    rintro ⟨-, front, symbol, back, split, spells, -⟩
    rw [shown] at split
    have none : ∀ symbol ∈ [Symbol.word "SELECT".toList, .word "1".toList],
        symbol.isKeyword "LIMIT" = false := by decide
    rw [none symbol (by rw [split]; simp)] at spells
    cases spells
  obtain ⟨sent, readSent, capped⟩ := effective.2 unlimited
  obtain ⟨front, limit, split, -⟩ := capped.ends
  rw [readSent, Option.map_some, Option.some.injEq] at answer
  rw [answer] at split
  have last := congrArg List.getLast? split
  rw [List.append_cons, List.getLast?_concat] at last
  exact absurd last (by decide)

end ReportQuery.Sql
