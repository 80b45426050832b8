import ReportQuery.Proofs.Sql.WordPlace
import ReportQuery.Proofs.Text.Quoted

set_option autoImplicit false
set_option relaxedAutoImplicit false

/-!
How the scan of dotted names meets quoted names: columns and tables are read as a whole, and a name
that stands alone is passed, its closing quote included.
-/

namespace ReportQuery.Sql

open Text

variable {rule : LetterRule} {inside rest cs word : List Char} {c : Char} {before : Option Char}

/-- A text without quotes between quotes. -/
def inQuotes (inside : List Char) : List Char :=
  '"' :: (inside ++ ['"'])

theorem inQuotes_append (inside rest : List Char) :
    inQuotes inside ++ rest = '"' :: (inside ++ '"' :: rest) := by
  simp [inQuotes]

/-- A plain name in front of a text is not continued by a dot. -/
theorem head?_trim_ne_of_isNameChar {mark : Char} (letter : isNameChar c)
    (outside : isNameChar mark = false) : (trimFrontChars (c :: cs)).head? ≠ some mark := by
  rw [trimFrontChars_of_head (isBlank_of_isNameChar letter)]
  intro same
  obtain rfl : c = mark := by simpa using same
  rw [outside] at letter
  cases letter

section Identifiers

theorem identifier?_inQuotes (unquoted : '"' ∉ inside) (nonempty : inside ≠ [])
    (lone : rest.head? ≠ some '"') :
    identifier? rule (inQuotes inside ++ rest) = some (inQuotes inside).length := by
  rw [inQuotes_append, identifier?, if_pos rfl,
    Quoted.segmentNonempty?_of_not_mem unquoted nonempty lone]
  simp [inQuotes]

theorem identifier?_unclosed (unquoted : '"' ∉ cs) : identifier? rule ('"' :: cs) = none := by
  rw [identifier?, if_pos rfl, Quoted.segmentNonempty?_eq_none unquoted]

theorem identifierName_inQuotes (unquoted : '"' ∉ inside) :
    identifierName (inQuotes inside) = String.ofList inside := by
  have enclosed : inQuotes inside = Quoted.enclose '"' inside := by
    rw [Quoted.enclose, Quoted.double_of_not_mem unquoted]
    rfl
  have quoted : (inQuotes inside).head? == some '"' := rfl
  rw [identifierName, if_pos quoted, enclosed, Quoted.inside_enclose]

theorem dotIdentifier?_inQuotes (unquoted : '"' ∉ inside) (nonempty : inside ≠ [])
    (lone : rest.head? ≠ some '"') :
    dotIdentifier? rule ('.' :: (inQuotes inside ++ rest)) = some (inQuotes inside, rest) := by
  have after : afterDot? ('.' :: (inQuotes inside ++ rest)) = some (inQuotes inside ++ rest) := rfl
  rw [dotIdentifier?, after]
  simp [identifier?_inQuotes unquoted nonempty lone]

theorem dotIdentifier?_undotted (undotted : (trimFrontChars cs).head? ≠ some '.') :
    dotIdentifier? rule cs = none := by
  rw [dotIdentifier?, afterDot?_eq_none undotted]

theorem dottedTail_undotted (undotted : (trimFrontChars cs).head? ≠ some '.') :
    dottedTail rule cs = ([], cs) :=
  dottedTail_of_none (dotIdentifier?_undotted undotted)

theorem dottedTail_inQuotes (unquoted : '"' ∉ inside) (nonempty : inside ≠ [])
    (lone : rest.head? ≠ some '"') (undotted : (trimFrontChars rest).head? ≠ some '.') :
    dottedTail rule ('.' :: (inQuotes inside ++ rest)) = ([inQuotes inside], rest) := by
  rw [dottedTail_of_some (dotIdentifier?_inQuotes unquoted nonempty lone), dottedTail_undotted undotted]

end Identifiers

section DottedNames

/-- A name may begin after what stands before it. -/
def Opens (before : Option Char) : Prop :=
  ∀ c ∈ before, isIdentifierChar c = false ∧ c ≠ '.' ∧ c ≠ '"'

private theorem leadingIdentifier?_of_opens (opens : Opens before) :
    leadingIdentifier? before cs = identifier? .exact cs := by
  unfold leadingIdentifier?
  split
  · rename_i b _
    obtain ⟨-, dot, quote⟩ := opens b rfl
    simp [dot, quote]
  · rename_i b _
    obtain ⟨apart, dot, quote⟩ := opens b rfl
    have noWord : isWordChar b = false := by
      by_contra word
      rw [isIdentifierChar_of_isWordChar (by simpa using word)] at apart
      cases apart
    have dollar : b ≠ '$' := by
      rintro rfl
      exact absurd apart (by decide)
    simp [noWord, dot, quote, dollar]
  · rfl

private theorem dottedName_of_leading (unread : leadingIdentifier? before cs = none) :
    dottedName before cs = none := by
  rw [dottedName, unread]

private theorem dottedName_of_lone {n : Nat} (leading : leadingIdentifier? before cs = some n)
    (undotted : (trimFrontChars (cs.drop n)).head? ≠ some '.') : dottedName before cs = none := by
  rw [dottedName, leading]
  dsimp only
  rw [dottedTail_undotted undotted]
  dsimp only
  rw [afterDot?_eq_none undotted]

theorem dottedName_mark (mark : isIdentifierChar c = false) (quote : c ≠ '"') :
    dottedName before (c :: cs) = none := by
  have noName : LetterRule.exact.startsName c = false := by
    by_contra starts
    have continues : LetterRule.exact.continuesName c := by
      simp [LetterRule.continuesName, (by simpa using starts : LetterRule.exact.startsName c = true)]
    rw [isIdentifierChar_of_continuesName continues] at mark
    cases mark
  have unread : identifier? .exact (c :: cs) = none := by
    rw [identifier?, if_neg quote, noName]
    rfl
  refine dottedName_of_leading ?_
  unfold leadingIdentifier?
  split
  · rename_i same
    exact absurd (Option.some.inj same) quote
  · split
    · rfl
    · exact unread
  · exact unread

private theorem dottedName_inside {b : Char} (word : isWordChar b ∨ b = '"') (quote : c ≠ '"') :
    dottedName (some b) (c :: cs) = none := by
  refine dottedName_of_leading ?_
  unfold leadingIdentifier?
  split
  · rename_i same _
    exact absurd (Option.some.inj same) quote
  · rename_i same _
    obtain rfl := Option.some.inj same
    rcases word with letter | rfl
    · simp [letter]
    · simp
  · rename_i none
    cases none

private theorem endName_of_uncalled {qualifiers : List (List Char)}
    (uncalled : (trimFrontChars rest).head? ≠ some '(') :
    endName cs qualifiers rest = (cs.length - rest.length, ⟨qualifiers.map identifierName, false⟩) := by
  unfold endName
  dsimp only
  split
  · rename_i opens
    exact absurd (by rw [opens]; rfl) uncalled
  · rfl

/-- What no dot and no parenthesis continues. -/
structure EndsName (rest : List Char) : Prop where
  undotted : (trimFrontChars rest).head? ≠ some '.'
  uncalled : (trimFrontChars rest).head? ≠ some '('

/-- A name with a quoted part behind a dot is read as a whole. -/
private theorem dottedName_pair {first : List Char} (leading :
      leadingIdentifier? before (first ++ '.' :: (inQuotes inside ++ rest)) = some first.length)
    (unquoted : '"' ∉ inside) (nonempty : inside ≠ []) (lone : rest.head? ≠ some '"')
    (ends : EndsName rest) :
    dottedName before ((first ++ '.' :: inQuotes inside) ++ rest) =
      some ((first ++ '.' :: inQuotes inside).length, ⟨[identifierName first], false⟩) := by
  rw [List.append_assoc, List.cons_append, dottedName, leading]
  dsimp only
  rw [List.drop_left, List.take_left, dottedTail_inQuotes unquoted nonempty lone ends.undotted]
  dsimp only
  rw [afterDot?_eq_none ends.undotted]
  dsimp only
  rw [endName_of_uncalled ends.uncalled]
  refine congrArg some (Prod.ext ?_ rfl)
  simp only [List.length_append, List.length_cons]
  omega

theorem dottedName_column (name : IsAsciiName word) (opens : Opens before) (unquoted : '"' ∉ inside)
    (nonempty : inside ≠ []) (lone : rest.head? ≠ some '"') (ends : EndsName rest) :
    dottedName before ((word ++ '.' :: inQuotes inside) ++ rest) =
      some ((word ++ '.' :: inQuotes inside).length, ⟨[String.ofList word], false⟩) := by
  rw [← identifierName_of_name name]
  refine dottedName_pair ?_ unquoted nonempty lone ends
  rw [leadingIdentifier?_of_opens opens, identifier?_name name (by simp [startsApart]; decide)]

theorem dottedName_table {schema : List Char} (noSchema : '"' ∉ schema) (someSchema : schema ≠ [])
    (opens : Opens before) (unquoted : '"' ∉ inside) (nonempty : inside ≠ [])
    (lone : rest.head? ≠ some '"') (ends : EndsName rest) :
    dottedName before ((inQuotes schema ++ '.' :: inQuotes inside) ++ rest) =
      some ((inQuotes schema ++ '.' :: inQuotes inside).length, ⟨[String.ofList schema], false⟩) := by
  rw [← identifierName_inQuotes noSchema]
  refine dottedName_pair ?_ unquoted nonempty lone ends
  rw [leadingIdentifier?_of_opens opens, identifier?_inQuotes noSchema someSchema (by simp)]

theorem dottedName_everything (name : IsAsciiName word) (opens : Opens before) (ends : EndsName rest) :
    dottedName before ((word ++ ['.', '*']) ++ rest) =
      some ((word ++ ['.', '*']).length, ⟨[String.ofList word], false⟩) := by
  have leading : leadingIdentifier? before (word ++ '.' :: '*' :: rest) = some word.length := by
    rw [leadingIdentifier?_of_opens opens, identifier?_name name (by simp [startsApart]; decide)]
  have asterisk : afterDot? ('.' :: '*' :: rest) = some ('*' :: rest) := rfl
  have noPart : dotIdentifier? .exact ('.' :: '*' :: rest) = none := by
    rw [dotIdentifier?, asterisk]
    rfl
  rw [List.append_assoc, List.cons_append, List.singleton_append, dottedName, leading]
  dsimp only
  rw [List.drop_left, List.take_left, dottedTail_of_none noPart]
  dsimp only
  rw [asterisk]
  change some (endName (word ++ '.' :: '*' :: rest) [word] rest) = _
  rw [endName_of_uncalled ends.uncalled, List.map_singleton, identifierName_of_name name]
  refine congrArg some (Prod.ext ?_ rfl)
  simp only [List.length_append, List.length_cons, List.length_nil]
  omega

private theorem pieces_dottedName_inside {b : Char} (within : isWordChar b ∨ b = '"')
    (plain : ∀ c ∈ word, isNameChar c) :
    pieces dottedName (some b) (word ++ rest) =
      word.map .plain ++ pieces dottedName (word.getLast?.or (some b)) rest := by
  refine pieces_append_of_none fun left c tail same => ?_
  have quote : c ≠ '"' := by
    rintro rfl
    exact absurd (plain '"' (by simp [same])) (by decide)
  rcases List.eq_nil_or_concat' left with rfl | ⟨left, d, rfl⟩
  · exact dottedName_inside within quote
  · have letter : isNameChar d := plain d (by simp [same])
    rw [List.getLast?_concat, Option.some_or]
    exact dottedName_inside (.inl (isWordChar_of_isNameChar letter)) quote

theorem pieces_dottedName_word (name : IsAsciiName word) (plain : ∀ c ∈ word, isNameChar c)
    (opens : Opens before) (apart : startsApart rest)
    (undotted : (trimFrontChars rest).head? ≠ some '.') :
    pieces dottedName before (word ++ rest) =
      word.map .plain ++ pieces dottedName (word.getLast?.or before) rest := by
  have leading : leadingIdentifier? before (word ++ rest) = some word.length := by
    rw [leadingIdentifier?_of_opens opens, identifier?_name name apart]
  have first : dottedName before (word ++ rest) = none :=
    dottedName_of_lone leading (by rwa [List.drop_left])
  cases word with
  | nil => rfl
  | cons c word =>
    obtain ⟨here, there⟩ := List.forall_mem_cons.mp plain
    rw [List.cons_append] at first ⊢
    rw [pieces_of_none first, getLast?_cons_or, List.map_cons,
      pieces_dottedName_inside (.inl (isWordChar_of_isNameChar here)) there]
    rfl

/-- What follows a quoted name that stands alone: no dot, and where another quote follows, the name
that it opens. -/
structure EndsLabel (rest : List Char) : Prop where
  lone : rest.head? ≠ some '"'
  undotted : (trimFrontChars rest).head? ≠ some '.'
  next : '"' ∉ rest ∨ ∃ middle c tail, rest = middle ++ '"' :: c :: tail ∧ '"' ∉ middle ∧
    middle ≠ [] ∧ isNameChar c

/-- The closing quote of a name and the next quote can be read as a name, but no dot follows it. -/
private theorem dottedName_closing {b : Char} (letter : isNameChar b) (ends : EndsLabel rest) :
    dottedName (some b) ('"' :: rest) = none := by
  have dot : (b == '.') = false := by
    rw [beq_eq_false_iff_ne]
    rintro rfl
    exact absurd letter (by decide)
  have quote : (b == '"') = false := by
    rw [beq_eq_false_iff_ne]
    rintro rfl
    exact absurd letter (by decide)
  have leading : leadingIdentifier? (some b) ('"' :: rest) = identifier? .exact ('"' :: rest) := by
    unfold leadingIdentifier?
    simp [dot, quote]
  rcases ends.next with none | ⟨middle, c, tail, rfl, unquoted, some_middle, first⟩
  · refine dottedName_of_leading ?_
    rw [leading, identifier?_unclosed none]
  · have notQuote : (c :: tail).head? ≠ some '"' := by
      intro quote
      obtain rfl : c = '"' := by simpa using quote
      exact absurd first (by decide)
    rw [← inQuotes_append] at leading ⊢
    rw [identifier?_inQuotes unquoted some_middle notQuote] at leading
    refine dottedName_of_lone leading ?_
    rw [List.drop_left]
    exact head?_trim_ne_of_isNameChar first (by decide)

theorem pieces_dottedName_label (plain : ∀ c ∈ inside, isNameChar c) (nonempty : inside ≠ [])
    (opens : Opens before) (ends : EndsLabel rest) :
    pieces dottedName before (inQuotes inside ++ rest) =
      (inQuotes inside).map .plain ++ pieces dottedName (some '"') rest := by
  have unquoted : '"' ∉ inside := fun quote => absurd (plain _ quote) (by decide)
  have opening : dottedName before (inQuotes inside ++ rest) = none := by
    have leading : leadingIdentifier? before (inQuotes inside ++ rest) =
        some (inQuotes inside).length := by
      rw [leadingIdentifier?_of_opens opens, identifier?_inQuotes unquoted nonempty ends.lone]
    exact dottedName_of_lone leading (by rw [List.drop_left]; exact ends.undotted)
  obtain ⟨front, last, rfl⟩ : ∃ front last, inside = front ++ [last] := by
    rcases List.eq_nil_or_concat' inside with none | found
    · exact absurd none nonempty
    · exact found
  have closing : dottedName (some last) ('"' :: rest) = none :=
    dottedName_closing (plain last (by simp)) ends
  rw [inQuotes_append] at opening ⊢
  rw [pieces_of_none opening, pieces_dottedName_inside (.inr rfl) plain, List.getLast?_concat,
    Option.some_or, pieces_of_none closing]
  simp [inQuotes]

end DottedNames

end ReportQuery.Sql
