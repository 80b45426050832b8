import ReportQuery.Proofs.Sql.Stages

set_option autoImplicit false
set_option relaxedAutoImplicit false

/-!
Stripping against SQL's own reading of a text. The three passes keep every character that reading
keeps exactly when no pass finds a match that begins in a lexeme of another kind, and then the
stripped text is the one that reading gives.
-/

namespace ReportQuery.Sql

open Text (Piece pieces replaceAll findAll pieces_of_findAll_eq_nil)

variable {lexeme : Lexeme} {lexemes rest : List Lexeme} {start : Nat} {inside text : List Char}
  {us : List Traced}

section Quotes

private theorem afterLines_code (start : Nat) (c : Char) :
    (Lexeme.code c).afterLines start = [.kept c start] := by
  have plain : pieces lineComment none [c] = [.plain c] := by
    rw [pieces_lineComment_plain (by simp)]
    simp
  rw [Lexeme.afterLines, afterBlocks_code, pass]
  exact congrArg (regroup toBlank · [.kept c start]) plain

private theorem afterLines_blockComment (reads : ¬ ['*', '/'] <:+: inside) (start : Nat) :
    (Lexeme.blockComment inside).afterLines start = [.blank start] := by
  have plain : pieces lineComment none [' '] = [.plain ' '] := by
    rw [pieces_lineComment_plain (by simp)]
    simp
  rw [Lexeme.afterLines, afterBlocks_blockComment reads, pass]
  exact congrArg (regroup toBlank · [.blank start]) plain

private theorem afterLines_lineComment (reads : '\n' ∉ inside) (start : Nat) :
    (Lexeme.lineComment inside).afterLines start = [.blank start] := by
  have unended : '\n' ∉ blankBlocks inside := by
    intro member
    rcases eq_or_mem_of_mem_replaceAll member with blank | there
    · cases blank
    · exact reads there
  have found := pieces_lineComment_found unended (.inl rfl)
  rw [List.append_nil, Text.pieces_nil] at found
  have shown : ((Lexeme.lineComment inside).afterBlocks start).map Traced.char =
      '-' :: '-' :: blankBlocks inside := by
    rw [map_char_afterBlocks, map_char_lineComment]
  rw [Lexeme.afterLines, pass, shown, found, regroup, ← shown, Piece.source, List.length_map,
    List.take_length, afterBlocks_lineComment]
  rfl

private theorem afterLines_name (keepsBlocks : (Lexeme.name inside).KeepsBlocks rest)
    (keeps : (Lexeme.name inside).KeepsLines) (start : Nat) :
    (Lexeme.name inside).afterLines start = trace start (Lexeme.name inside).source := by
  have nothing : findAll lineComment (Lexeme.name inside).source = [] := keeps
  rw [Lexeme.afterLines, afterBlocks_name keepsBlocks.2, pass, map_char_trace,
    pieces_of_findAll_eq_nil nothing]
  exact regroup_plain _ (length_trace _ _).symm

/-- A quote is left in a lexeme after two passes just when it is left by SQL's own reading. -/
private theorem quote_mem_afterLines_iff (reads : lexeme.ReadsBefore text)
    (keepsBlocks : lexeme.KeepsBlocks rest) (keeps : lexeme.KeepsLines) (start : Nat) :
    '\'' ∈ (lexeme.afterLines start).map Traced.char ↔ '\'' ∈ lexeme.stripped := by
  cases lexeme with
  | code c => rw [afterLines_code]; rfl
  | blockComment inside => rw [afterLines_blockComment reads]; rfl
  | lineComment inside => rw [afterLines_lineComment reads.1]; rfl
  | name inside =>
    rw [afterLines_name keepsBlocks keeps, map_char_trace]
    rfl
  | literal inside =>
    obtain ⟨mid, passed, -⟩ := exists_afterLines_literal reads.1 keeps start
    rw [passed]
    simp [Lexeme.stripped, Traced.char]

private theorem map_char_layout_afterLines (reads : Reads lexemes)
    (keepsBlocks : Everywhere Lexeme.KeepsBlocks lexemes)
    (keeps : Everywhere (fun _ => Lexeme.KeepsLines) lexemes) (start : Nat) :
    (layout Lexeme.afterLines start lexemes).map Traced.char =
      replaceAll lineComment (fun _ _ => [' ']) (blankBlocks (sourceOf lexemes)) := by
  rw [← pass_lineComment reads keepsBlocks keeps, map_char_pass_toBlank,
    map_char_layout_afterBlocks reads keepsBlocks]

/-- The text after two passes begins with a quote only if the text before them does. -/
private theorem head?_layout_afterLines (reads : Reads lexemes)
    (keepsBlocks : Everywhere Lexeme.KeepsBlocks lexemes)
    (keeps : Everywhere (fun _ => Lexeme.KeepsLines) lexemes)
    (first : (sourceOf lexemes).head? ≠ some '\'') :
    ((layout Lexeme.afterLines start lexemes).map Traced.char).head? ≠ some '\'' := by
  rw [map_char_layout_afterLines reads keepsBlocks keeps]
  intro quote
  rcases head?_of_replaceAll quote with blank | quote
  · cases blank
  · rcases head?_of_replaceAll quote with blank | quote
    · cases blank
    · exact first quote

/-- Quotes are left in the text after two passes just when they are left by SQL's own reading. -/
private theorem contains_layout_afterLines (reads : Reads lexemes)
    (keepsBlocks : Everywhere Lexeme.KeepsBlocks lexemes)
    (keeps : Everywhere (fun _ => Lexeme.KeepsLines) lexemes) (start : Nat) :
    ((layout Lexeme.afterLines start lexemes).map Traced.char).contains '\'' =
      (strippedOf lexemes).contains '\'' := by
  rw [Bool.eq_iff_iff, List.contains_iff_mem, List.contains_iff_mem]
  induction lexemes generalizing start with
  | nil => rfl
  | cons lexeme rest ih =>
    rw [layout, List.map_append, List.mem_append, ih reads.2 keepsBlocks.2 keeps.2,
      quote_mem_afterLines_iff reads.1 keepsBlocks.1 keeps.1]
    exact List.mem_append.symm

/-- The third pass on a lexeme that keeps its quotes, before characters that begin with no quote
unless the text after the lexeme does. -/
private theorem pass_quotedSegment_lexeme (reads : lexeme.ReadsBefore (sourceOf rest))
    (keepsBlocks : lexeme.KeepsBlocks rest) (keepsLines : lexeme.KeepsLines)
    (keeps : lexeme.KeepsQuotes rest)
    (first : (sourceOf rest).head? ≠ some '\'' → (us.map Traced.char).head? ≠ some '\'')
    (same : (us.map Traced.char).contains '\'' = (strippedOf rest).contains '\'') (start : Nat) :
    pass (quotedSegment '\'') toEnds (lexeme.afterLines start ++ us) =
      lexeme.traced start ++ pass (quotedSegment '\'') toEnds us := by
  have one (t : Traced) (other : t.char ≠ '\'') :
      pass (quotedSegment '\'') toEnds ([t] ++ us) =
        [t] ++ pass (quotedSegment '\'') toEnds us := by
    have not_in : '\'' ∉ [t.char] := by simpa using Ne.symm other
    have cut : pieces (quotedSegment '\'') none (([t] ++ us).map Traced.char) =
        [.plain t.char] ++ pieces (quotedSegment '\'') none (us.map Traced.char) :=
      pieces_quotedSegment_plain not_in _
    exact pass_append_of_pieces rfl cut
  cases lexeme with
  | code c =>
    rw [afterLines_code]
    exact one _ reads.1
  | blockComment inside =>
    rw [afterLines_blockComment reads]
    exact one _ (by simp [Traced.char])
  | lineComment inside =>
    rw [afterLines_lineComment reads.1]
    exact one _ (by simp [Traced.char])
  | literal inside =>
    obtain ⟨mid, passed, paired⟩ := exists_afterLines_literal reads.1 keepsLines start
    have found := pieces_quotedSegment_literal paired (first reads.2)
    have cut : pieces (quotedSegment '\'') none (((Traced.kept '\'' start ::
        (mid ++ [Traced.kept '\'' (start + 1 + inside.length)])) ++ us).map Traced.char) =
        [.found ('\'' :: (mid.map Traced.char ++ ['\''])) ()] ++
          pieces (quotedSegment '\'') none (us.map Traced.char) := by
      simpa [Traced.char] using found
    rw [passed, pass_append_of_pieces (by simp [Piece.source]) cut, regroup,
      List.take_of_length_le (by simp [Piece.source])]
    simp [regroupPiece, regroup, Lexeme.traced]
  | name inside =>
    rw [afterLines_name keepsBlocks keepsLines]
    have apart : quotesApart (('"' :: us.map Traced.char).contains '\'') inside = true := by
      have elsewhere : ('"' :: us.map Traced.char).contains '\'' =
          (strippedOf rest).contains '\'' := by
        rw [← same]
        simp
      rw [elsewhere]
      exact keeps
    obtain ⟨ps, inside_cut, whole, pairs⟩ := fallsIntoPairs_of_quotesApart (by simp) apart
    have quote (cs : List Char) : pieces (quotedSegment '\'') none ('"' :: cs) =
        .plain '"' :: pieces (quotedSegment '\'') none cs := by
      have not_in : '\'' ∉ ['"'] := by decide
      exact pieces_quotedSegment_plain not_in cs
    have cut : pieces (quotedSegment '\'') none
        ((trace start (Lexeme.name inside).source ++ us).map Traced.char) =
        (.plain '"' :: (ps ++ [.plain '"'])) ++
          pieces (quotedSegment '\'') none (us.map Traced.char) := by
      rw [List.map_append, map_char_trace, Lexeme.source]
      simp only [List.cons_append, List.append_assoc, List.nil_append]
      rw [quote, inside_cut, quote]
    have size : ((.plain '"' :: (ps ++ [.plain '"'])).flatMap Piece.source).length =
        (trace start (Lexeme.name inside).source).length := by
      rw [length_trace]
      simp [whole, Piece.source, Lexeme.source]
    have only : OnlyPairs (.plain '"' :: (ps ++ [.plain '"'])) := by
      intro source member
      simp only [List.mem_cons, reduceCtorEq, List.mem_append, List.not_mem_nil, or_false,
        false_or] at member
      exact pairs source member
    rw [pass_append_of_pieces size cut, regroup_toEnds_of_onlyPairs only size]
    rfl

/-- The third pass works on one lexeme after the other, and leaves what stripping by lexemes does. -/
theorem pass_quotedSegment (reads : Reads lexemes)
    (keepsBlocks : Everywhere Lexeme.KeepsBlocks lexemes)
    (keepsLines : Everywhere (fun _ => Lexeme.KeepsLines) lexemes)
    (keeps : Everywhere Lexeme.KeepsQuotes lexemes) (start : Nat) :
    pass (quotedSegment '\'') toEnds (layout Lexeme.afterLines start lexemes) =
      layout Lexeme.traced start lexemes := by
  induction lexemes generalizing start with
  | nil => simp [pass, regroup, layout]
  | cons lexeme rest ih =>
    rw [layout, pass_quotedSegment_lexeme reads.1 keepsBlocks.1 keepsLines.1 keeps.1
      (head?_layout_afterLines reads.2 keepsBlocks.2 keepsLines.2)
      (contains_layout_afterLines reads.2 keepsBlocks.2 keepsLines.2 _),
      ih reads.2 keepsBlocks.2 keepsLines.2 keeps.2]
    rfl

/-- If the third pass loses nothing either, all quotes are kept. -/
theorem everywhere_keepsQuotes (reads : Reads lexemes)
    (keepsBlocks : Everywhere Lexeme.KeepsBlocks lexemes)
    (keepsLines : Everywhere (fun _ => Lexeme.KeepsLines) lexemes)
    (all : AllKept start lexemes
      (pass (quotedSegment '\'') toEnds (layout Lexeme.afterLines start lexemes))) :
    Everywhere Lexeme.KeepsQuotes lexemes := by
  induction lexemes generalizing start with
  | nil => trivial
  | cons lexeme rest ih =>
    have distinct : ((layout Lexeme.afterLines start (lexeme :: rest)).map Traced.place).Nodup := by
      rw [← pass_lineComment reads keepsBlocks keepsLines, ← pass_blockComment reads keepsBlocks]
      exact nodup_pass shrinks_toBlank (nodup_pass shrinks_toBlank (nodup_trace _ _))
    have same := contains_layout_afterLines reads.2 keepsBlocks.2 keepsLines.2
      (start + lexeme.source.length)
    have keeps : lexeme.KeepsQuotes rest := by
      cases lexeme with
      | name inside =>
        have passed := afterLines_name keepsBlocks.1 keepsLines.1 start
        by_contra mixed
        have mixed : quotesApart (('"' :: (layout Lexeme.afterLines
            (start + (Lexeme.name inside).source.length) rest).map Traced.char).contains '\'')
            inside = false := by
          rw [List.contains_cons, same]
          simpa [Lexeme.KeepsQuotes] using mixed
        obtain ⟨i, bound, covered⟩ := exists_coversInside (by simp) mixed
        have at_ : i + 1 < (Lexeme.name inside).source.length := by
          simp only [Lexeme.source, List.length_cons, List.length_append, List.length_nil]
          omega
        have there := List.getElem?_eq_getElem at_
        refine kept_not_mem_pass_toEnds (i := i + 1) distinct ?_ ?_
          (all _ _ (List.mem_append_left _ (mem_traced_name there)))
        · have text : (layout Lexeme.afterLines start (.name inside :: rest)).map Traced.char =
              ['"'] ++ (inside ++ '"' :: (layout Lexeme.afterLines
                (start + (Lexeme.name inside).source.length) rest).map Traced.char) := by
            rw [layout, passed, List.map_append, map_char_trace]
            simp [Lexeme.source]
          have not_in : '\'' ∉ ['"'] := by decide
          have cut := covered.cons (.plain '"')
          rw [text, pieces_quotedSegment_plain not_in, Nat.add_comm i 1]
          exact cut
        · rw [layout, passed, List.getElem?_append_left (by rwa [length_trace]), getElem?_trace, there]
          rfl
      | _ => trivial
    rw [layout, pass_quotedSegment_lexeme reads.1 keepsBlocks.1 keepsLines.1 keeps
      (head?_layout_afterLines reads.2 keepsBlocks.2 keepsLines.2) same] at all
    refine ⟨keeps, ih reads.2 keepsBlocks.2 keepsLines.2 (all.tail fun c p member => ?_)⟩
    exact (bounds_of_mem_traced member).2

end Quotes

/-- No pass finds a match that begins in the lexeme and is not the lexeme's own. -/
def Lexeme.IsHarmless (rest : List Lexeme) (lexeme : Lexeme) : Prop :=
  lexeme.KeepsBlocks rest ∧ lexeme.KeepsLines ∧ lexeme.KeepsQuotes rest

theorem everywhere_and {P Q : List Lexeme → Lexeme → Prop} :
    Everywhere (fun rest lexeme => P rest lexeme ∧ Q rest lexeme) lexemes ↔
      Everywhere P lexemes ∧ Everywhere Q lexemes := by
  induction lexemes with
  | nil => simp [Everywhere]
  | cons lexeme rest ih =>
    simp only [Everywhere, ih]
    tauto

theorem map_char_layout_traced (start : Nat) (lexemes : List Lexeme) :
    (layout Lexeme.traced start lexemes).map Traced.char = strippedOf lexemes := by
  induction lexemes generalizing start with
  | nil => rfl
  | cons lexeme rest ih =>
    have here : (lexeme.traced start).map Traced.char = lexeme.stripped := by
      cases lexeme with
      | name inside => exact map_char_trace _ _
      | _ => rfl
    rw [layout, List.map_append, here, ih]
    rfl

/-- Stripping agrees with SQL's own reading of a text exactly when all lexemes are harmless: then
every character has the same origin in both, and the texts are the same. Otherwise some character
that the reading keeps is lost. -/
theorem stripLiterals_agrees_iff_harmless (read : lex? text = some lexemes) :
    (tracedStrip text = tracedScan lexemes ↔ Everywhere Lexeme.IsHarmless lexemes) ∧
      ((∀ c place, .kept c place ∈ tracedScan lexemes → .kept c place ∈ tracedStrip text) ↔
        Everywhere Lexeme.IsHarmless lexemes) ∧
      (tracedStrip text).map Traced.char = stripLiterals text ∧
      (tracedScan lexemes).map Traced.char = strippedOf lexemes ∧
      (Everywhere Lexeme.IsHarmless lexemes → stripLiterals text = strippedOf lexemes) := by
  obtain ⟨rfl, reads⟩ := lex?_eq_some read
  have agrees : Everywhere Lexeme.IsHarmless lexemes →
      tracedStrip (sourceOf lexemes) = tracedScan lexemes := by
    intro harmless
    obtain ⟨keepsBlocks, keeps⟩ := everywhere_and.mp harmless
    obtain ⟨keepsLines, keepsQuotes⟩ := everywhere_and.mp keeps
    rw [tracedStrip, pass_blockComment reads keepsBlocks, pass_lineComment reads keepsBlocks keepsLines,
      pass_quotedSegment reads keepsBlocks keepsLines keepsQuotes]
    rfl
  have harmless : AllKept 0 lexemes (tracedStrip (sourceOf lexemes)) →
      Everywhere Lexeme.IsHarmless lexemes := by
    intro all
    have afterTwo : AllKept 0 lexemes (pass lineComment toBlank (pass blockComment toBlank
        (trace 0 (sourceOf lexemes)))) := fun c p member =>
      kept_mem_of_mem_regroup shrinks_toEnds (all c p member)
    have afterOne : AllKept 0 lexemes (pass blockComment toBlank (trace 0 (sourceOf lexemes))) :=
      fun c p member => kept_mem_of_mem_regroup shrinks_toBlank (afterTwo c p member)
    have keepsBlocks := everywhere_keepsBlocks reads afterOne
    rw [pass_blockComment reads keepsBlocks] at afterTwo
    have keepsLines := everywhere_keepsLines reads keepsBlocks afterTwo
    rw [tracedStrip, pass_blockComment reads keepsBlocks,
      pass_lineComment reads keepsBlocks keepsLines] at all
    have keepsQuotes := everywhere_keepsQuotes reads keepsBlocks keepsLines all
    exact everywhere_and.mpr ⟨keepsBlocks, everywhere_and.mpr ⟨keepsLines, keepsQuotes⟩⟩
  have shown := map_char_tracedStrip (sourceOf lexemes)
  have scanned := map_char_layout_traced 0 lexemes
  refine ⟨⟨fun same => harmless fun c p member => same ▸ member, agrees⟩,
    ⟨harmless, fun all c p member => agrees all ▸ member⟩, shown, scanned, fun all => ?_⟩
  rw [← shown, agrees all]
  exact scanned

/-- A name with a pair of quotes, a literal that looks like a comment and a comment with a quote. -/
theorem nested_harmless :
    ∃ lexemes, lex? "\"x''\"='/**/'--'".toList = some lexemes ∧
      Everywhere Lexeme.IsHarmless lexemes ∧
      stripLiterals "\"x''\"='/**/'--'".toList = strippedOf lexemes := by
  have read : lex? "\"x''\"='/**/'--'".toList = some [.name "x''".toList, .code '=',
      .literal "/**/".toList, .lineComment ['\'']] := by decide +kernel
  have harmless := (stripLiterals_agrees_iff_harmless read).1.mp (by decide +kernel)
  exact ⟨_, read, harmless, (stripLiterals_agrees_iff_harmless read).2.2.2.2 harmless⟩

/-- Two literals that look like the ends of a comment hide the column between them. -/
theorem stripLiterals_hides_column :
    ∃ lexemes, lex? "SELECT '/*', secret.x, '*/'".toList = some lexemes ∧
      strippedOf lexemes = "SELECT '', secret.x, ''".toList ∧
      stripLiterals "SELECT '/*', secret.x, '*/'".toList = "SELECT ''".toList := by
  refine ⟨"SELECT ".toList.map .code ++ .literal ['/', '*'] :: ", secret.x, ".toList.map .code ++
    [.literal ['*', '/']], ?_, ?_, ?_⟩ <;> decide +kernel

end ReportQuery.Sql
