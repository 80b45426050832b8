import ReportQuery.Proofs.Sql.Symbol

set_option autoImplicit false
set_option relaxedAutoImplicit false

/-!
Trimming a text as SQL reads it. Blanks at the ends of a closed text, and semicolons at its end,
belong to its code or to a line comment that ends it, so that what is left is closed as well and no
other symbol is lost.
-/

namespace ReportQuery.Sql

open Text

variable {c : Char} {front : List Char} {lexemes kept : List Lexeme}

/-- Lexemes from which only blanks, semicolons and ends of line comments were taken off. -/
structure IsTrimOf (lexemes kept : List Lexeme) : Prop where
  reads : Reads kept
  shows : ∃ tail, symbols lexemes = symbols kept ++ tail ∧ ∀ symbol ∈ tail, symbol = .sign ';'

theorem IsTrimOf.refl (reads : Reads lexemes) : IsTrimOf lexemes lexemes where
  reads := reads
  shows := ⟨[], (List.append_nil _).symm, by simp⟩

theorem IsTrimOf.trans {first second third : List Lexeme} (left : IsTrimOf first second)
    (right : IsTrimOf second third) : IsTrimOf first third where
  reads := right.reads
  shows := by
    obtain ⟨behind, whole, semicolons⟩ := left.shows
    obtain ⟨before, part, others⟩ := right.shows
    refine ⟨before ++ behind, by rw [whole, part, List.append_assoc], fun symbol member => ?_⟩
    rcases List.mem_append.mp member with among | among
    · exact others symbol among
    · exact semicolons symbol among

section Last

variable {init : List Lexeme} {inside : List Char}

private theorem sourceOf_concat (init : List Lexeme) (lexeme : Lexeme) :
    sourceOf (init ++ [lexeme]) = sourceOf init ++ lexeme.source := by
  rw [sourceOf_append]
  simp [sourceOf]

private theorem isTrimOf_dropCode (reads : Reads init) (loose : isBlank c ∨ c = ';') :
    IsTrimOf (init ++ [Lexeme.code c]) init := by
  have mark : isIdentifierChar c = false := by
    rcases loose with blank | rfl
    · exact isIdentifierChar_eq_false_of_isBlank blank
    · decide
  refine ⟨reads, (Lexeme.code c).alone, ?_, fun symbol member => ?_⟩
  · rw [symbols_append_cons (wordChar?_code_iff.mpr mark)]
    simp [symbols, symbolsAfter, finishedWord]
  · rw [Lexeme.alone] at member
    split at member
    · cases member
    · rename_i solid
      rcases loose with blank | rfl
      · exact absurd blank solid
      · exact List.mem_singleton.mp member

private theorem isTrimOf_dropInside (reads : Reads (init ++ [Lexeme.lineComment (inside ++ [c])])) :
    IsTrimOf (init ++ [Lexeme.lineComment (inside ++ [c])]) (init ++ [Lexeme.lineComment inside]) := by
  obtain ⟨before, here, joins⟩ := reads_append_iff.mp reads
  have shorter : Reads [Lexeme.lineComment inside] :=
    ⟨⟨fun ends => here.1.1 (List.mem_append_left _ ends), .inl rfl⟩, trivial⟩
  refine ⟨reads_append_iff.mpr ⟨before, shorter, fun lexeme among => ?_⟩, [], ?_, by simp⟩
  · exact (joins lexeme among).congr rfl
  · rw [symbols_append_cons rfl, symbols_append_cons rfl, List.append_nil]
    rfl

private theorem getLast?_name : (Lexeme.name inside).source.getLast? = some '"' :=
  List.getLast?_concat (l := '"' :: inside)

private theorem getLast?_literal : (Lexeme.literal inside).source.getLast? = some '\'' :=
  List.getLast?_concat (l := '\'' :: inside)

private theorem getLast?_blockComment : (Lexeme.blockComment inside).source.getLast? = some '/' := by
  have whole : (Lexeme.blockComment inside).source = '/' :: '*' :: inside ++ ['*'] ++ ['/'] := by
    simp [Lexeme.source]
  rw [whole, List.getLast?_concat]

/-- No blank and no semicolon begins or ends a quoted part or a comment. -/
private theorem not_loose {d : Char} (edge : d ∈ ['"', '\'', '-', '/']) : ¬ (isBlank d ∨ d = ';') := by
  simp only [List.mem_cons, List.not_mem_nil, or_false] at edge
  rcases edge with rfl | rfl | rfl | rfl <;> decide

/-- A blank or a semicolon at the end of a text belongs to its code or to a line comment. -/
private theorem exists_dropLast (reads : Reads lexemes) (text : sourceOf lexemes = front ++ [c])
    (loose : isBlank c ∨ c = ';') : ∃ kept, sourceOf kept = front ∧ IsTrimOf lexemes kept := by
  rcases List.eq_nil_or_concat lexemes with rfl | ⟨init, last, rfl⟩
  · simp [sourceOf] at text
  rw [List.concat_eq_append] at reads text ⊢
  rw [sourceOf_concat] at text
  have ends {edge : Char} (last : last.source.getLast? = some edge) : edge = c := by
    have both := congrArg List.getLast? text
    rw [List.getLast?_append, List.getLast?_concat, last] at both
    exact Option.some.inj both
  cases last with
  | code d =>
    obtain ⟨rfl, same⟩ := List.append_inj' text rfl
    obtain rfl := List.singleton_inj.mp same
    exact ⟨init, rfl, isTrimOf_dropCode (reads_append_iff.mp reads).1 loose⟩
  | lineComment inside =>
    rcases List.eq_nil_or_concat inside with rfl | ⟨inside, d, rfl⟩
    · obtain rfl := ends rfl
      exact absurd loose (not_loose (by decide))
    · rw [List.concat_eq_append] at reads text ⊢
      have whole : (Lexeme.lineComment (inside ++ [d])).source =
          (Lexeme.lineComment inside).source ++ [d] := rfl
      rw [whole, ← List.append_assoc] at text
      obtain ⟨rfl, -⟩ := List.append_inj' text rfl
      exact ⟨init ++ [Lexeme.lineComment inside], sourceOf_concat _ _, isTrimOf_dropInside reads⟩
  | name inside =>
    obtain rfl := ends getLast?_name
    exact absurd loose (not_loose (by decide))
  | literal inside =>
    obtain rfl := ends getLast?_literal
    exact absurd loose (not_loose (by decide))
  | blockComment inside =>
    obtain rfl := ends getLast?_blockComment
    exact absurd loose (not_loose (by decide))

end Last

/-- Blanks and semicolons are taken off the end of a text lexeme by lexeme. -/
theorem exists_trimmedBack {property : Char → Bool}
    (loose : ∀ c, property c → isBlank c ∨ c = ';') (reads : Reads lexemes) :
    ∃ kept, sourceOf kept = ((sourceOf lexemes).reverse.dropWhile property).reverse ∧
      IsTrimOf lexemes kept := by
  induction size : (sourceOf lexemes).length generalizing lexemes with
  | zero =>
    have empty : sourceOf lexemes = [] := List.eq_nil_of_length_eq_zero size
    exact ⟨lexemes, by rw [empty]; rfl, .refl reads⟩
  | succ n ih =>
    rcases List.eq_nil_or_concat (sourceOf lexemes) with empty | ⟨front, c, whole⟩
    · rw [empty] at size
      cases size
    rw [List.concat_eq_append] at whole
    rw [whole, List.reverse_append, List.reverse_singleton, List.singleton_append, List.dropWhile_cons]
    split
    · rename_i taken
      obtain ⟨shorter, source, trimmed⟩ := exists_dropLast reads whole (loose c taken)
      have less : (sourceOf shorter).length = n := by
        rw [whole, List.length_append, List.length_singleton] at size
        rw [source]
        omega
      obtain ⟨kept, text, more⟩ := ih trimmed.reads less
      rw [source] at text
      exact ⟨kept, text, trimmed.trans more⟩
    · refine ⟨lexemes, ?_, .refl reads⟩
      simp [whole]

private theorem exists_trimmedFront (reads : Reads lexemes) :
    ∃ kept, sourceOf kept = trimFrontChars (sourceOf lexemes) ∧ IsTrimOf lexemes kept := by
  induction lexemes with
  | nil => exact ⟨[], rfl, .refl reads⟩
  | cons lexeme lexemes ih =>
    have whole : sourceOf (lexeme :: lexemes) = lexeme.source ++ sourceOf lexemes := List.flatMap_cons
    have solid {d : Char} {tail : List Char} (edge : lexeme.source = d :: tail) (solid : isBlank d = false) :
        ∃ kept, sourceOf kept = trimFrontChars (sourceOf (lexeme :: lexemes)) ∧
          IsTrimOf (lexeme :: lexemes) kept := by
      refine ⟨lexeme :: lexemes, ?_, .refl reads⟩
      rw [whole, edge, List.cons_append, trimFrontChars_of_head solid]
    cases lexeme with
    | code c =>
      by_cases blank : isBlank c
      · obtain ⟨kept, source, trimmed⟩ := ih reads.2
        have mark := isIdentifierChar_eq_false_of_isBlank blank
        refine ⟨kept, ?_, trimmed.reads, ?_⟩
        · rw [source, whole, Lexeme.source, List.singleton_append, trimFrontChars_blank blank]
        · rw [symbols_cons_of_none (wordChar?_code_iff.mpr mark), Lexeme.alone, if_pos blank]
          exact trimmed.shows
      · exact solid rfl (by simpa using blank)
    | name inside => exact solid rfl (by decide)
    | literal inside => exact solid rfl (by decide)
    | lineComment inside => exact solid rfl (by decide)
    | blockComment inside => exact solid rfl (by decide)

/-- Of a closed text only blanks are taken off, and what is left is closed. -/
theorem exists_trimmed (reads : Reads lexemes) :
    ∃ kept, sourceOf kept = trimChars (sourceOf lexemes) ∧ IsTrimOf lexemes kept := by
  obtain ⟨first, front, trimmed⟩ := exists_trimmedFront reads
  obtain ⟨kept, back, more⟩ := exists_trimmedBack (fun c blank => .inl blank) trimmed.reads
  refine ⟨kept, ?_, trimmed.trans more⟩
  rw [back, front]
  rfl

theorem IsTrimOf.standsOutside_iff {keyword : String} (trimmed : IsTrimOf lexemes kept) :
    StandsOutside keyword (symbols lexemes) ↔ StandsOutside keyword (symbols kept) := by
  obtain ⟨tail, whole, semicolons⟩ := trimmed.shows
  rw [whole]
  constructor
  · rintro ⟨front, symbol, back, split, spells, level⟩
    rcases exists_cut split with ⟨middle, here⟩ | ⟨middle, rfl, behind⟩
    · exact ⟨front, symbol, middle, here, spells, level⟩
    · have semicolon := semicolons symbol (by rw [behind]; simp)
      rw [semicolon] at spells
      cases spells
  · rintro ⟨front, symbol, back, split, spells, level⟩
    exact ⟨front, symbol, back ++ tail, by rw [split]; simp, spells, level⟩

end ReportQuery.Sql
