import ReportQuery.Proofs.Sql.QuotedParts

set_option autoImplicit false
set_option relaxedAutoImplicit false

/-!
Which literals and quoted identifiers come back from a statement that was prepared and whose escapes were
undone. One changes if a placeholder in it is rewritten, or if it holds an escaped colon of its own: its
backslash is taken for one that preparing put there.
-/

namespace ReportQuery.Sql

open Text

variable {named : Char → Bool} {text : List Char} {lexeme : Lexeme} {c q : Char} {i : Nat}

section Escapes

variable {last next here : Char × Bool} {left right : List Char} {places : List (Char × Bool)}
  {before behind : List Lexeme}

/-- An escaped colon stands in the lexeme. -/
def Lexeme.HoldsEscape (named : Char → Bool) (lexeme : Lexeme) : Prop :=
  ∃ tail ∈ lexeme.source.tails, startsEscape named tail

instance (named : Char → Bool) : DecidablePred (Lexeme.HoldsEscape named) := fun lexeme =>
  inferInstanceAs (Decidable (∃ tail ∈ lexeme.source.tails, startsEscape named tail))

theorem startsEscape_cons_iff {d : Char} {ds : List Char} :
    startsEscape named ('\\' :: d :: ds) ↔ d = ':' ∧ endsEscape named ds := by
  rw [startsEscape_iff]
  constructor
  · rintro ⟨behind, whole, ends⟩
    obtain ⟨rfl, rfl⟩ := List.cons.inj (List.cons.inj whole).2
    exact ⟨rfl, ends⟩
  · rintro ⟨rfl, ends⟩
    exact ⟨ds, rfl, ends⟩

/-- A colon behind a backslash is kept. -/
theorem editAt_of_backslash (backslash : last.1 = '\\') (colon : here.1 = ':') :
    editAt (some last) here places = .kept ':' := by
  rcases editAt_cases (some last) here places with ⟨edit, -⟩ | ⟨edit, -⟩ | ⟨-, -, sign⟩
  · rw [edit, colon]
  · rw [editAt, Option.map_some, backslash, colon, colonBind_colon] at edit
    simp only [beq_self_eq_true, Bool.or_true, Bool.true_or, if_true, Option.isSome_none,
      Bool.false_eq_true, if_false] at edit
    split at edit <;> cases edit
  · rw [colon] at sign
    cases sign

/-- Behind a backslash of the statement, an escape is read in the prepared text as in the statement. -/
theorem startsEscape_writtenFrom_iff (within : ∀ c, named c → isBindChar c) (backslash : last.1 = '\\')
    (colon : next.1 = ':') :
    startsEscape named ('\\' :: writtenFrom (some last) (next :: places)) ↔
      startsEscape named ('\\' :: (next :: places).map Prod.fst) := by
  have joins : joinsBind (some next.1) := by
    rw [colon]
    rfl
  rw [writtenFrom_cons, editAt_of_backslash backslash colon, Edit.written, List.singleton_append,
    List.map_cons, colon, startsEscape_cons_iff, startsEscape_cons_iff, endsEscape_iff, endsEscape_iff,
    head?_dropWhile_writtenFrom within joins]

/-- Whether an escape is read does not depend on what lies beyond a quote. -/
theorem startsEscape_quote_iff (within : ∀ c, named c → isBindChar c) (quote : IsQuote q)
    (right rest : List Char) :
    startsEscape named ('\\' :: (right ++ q :: rest)) ↔ startsEscape named ('\\' :: (right ++ [q])) := by
  have unnamed : named q = false := unnamed_of_not_isBindChar within quote.spec.1
  cases right with
  | nil =>
    rw [List.nil_append, List.nil_append, startsEscape_cons_iff, startsEscape_cons_iff]
    exact iff_of_false (fun escape => quote.spec.2.2.2.2.1 escape.1) fun escape =>
      quote.spec.2.2.2.2.1 escape.1
  | cons d ds =>
    rw [List.cons_append, List.cons_append, startsEscape_cons_iff, startsEscape_cons_iff, endsEscape_iff,
      endsEscape_iff, (takeWhile_append_cons unnamed ds rest).2, (takeWhile_append_cons unnamed ds []).2]
    cases ds.dropWhile named <;> rfl

/-- Behind a backslash in a literal or quoted identifier stands its closing quote at the latest. -/
theorem Lexeme.exists_closing_quote (quoted : lexeme.region = .quoted)
    (cut : lexeme.source = left ++ '\\' :: right) : ∃ q inside, IsQuote q ∧ right = inside ++ [q] := by
  obtain ⟨q, inside, quote, source⟩ := lexeme.exists_quote quoted
  rw [source, ← List.cons_append] at cut
  rcases List.eq_nil_or_concat right with rfl | ⟨inside, other, rfl⟩
  · have same : q = '\\' := List.singleton_inj.mp (List.append_inj_right' cut rfl)
    exact absurd same quote.spec.2.2.2.2.2.2
  · have closing : left ++ '\\' :: inside.concat other = (left ++ '\\' :: inside) ++ [other] := by simp
    rw [closing] at cut
    obtain rfl : q = other := List.singleton_inj.mp (List.append_inj_right' cut rfl)
    exact ⟨q, inside, quote, by rw [List.concat_eq_append]⟩

/-- The places of a text around a character of a lexeme. -/
theorem exists_places (cut : lexemesIn text = before ++ lexeme :: behind)
    (source : lexeme.source = left ++ c :: right) :
    ∃ front here back rest, shaded text = front ++ here :: back ∧
      front.length = (sourceOf before).length + left.length ∧ here.1 = c ∧
      back.map Prod.fst = right ++ rest := by
  obtain ⟨unread, whole⟩ := exists_unread text
  rw [cut, sourceOf_append, sourceOf, sourceOf, List.flatMap_cons, source, ← sourceOf] at whole
  have split : text =
      (sourceOf before ++ left) ++ c :: (right ++ (behind.flatMap Lexeme.source ++ unread)) := by
    rw [whole]
    simp
  rw [← map_fst_shaded text] at split
  obtain ⟨front, others, shades, start, later⟩ := List.map_eq_append_iff.mp split
  obtain ⟨here, back, rfl, own, rest⟩ := List.map_eq_cons_iff.mp later
  refine ⟨front, here, back, _, shades, ?_, own, rest⟩
  rw [← List.length_map (f := Prod.fst), start, List.length_append]

theorem fateAt_eq_turned_iff {left : Option (Char × Bool)} :
    fateAt named left here places = .turned ↔ editAt left here places = .marked := by
  unfold fateAt
  cases editAt left here places with
  | kept c =>
    refine iff_of_false (fun turned => ?_) nofun
    dsimp only at turned
    split at turned <;> cases turned
  | escaped => simp
  | marked => simp

/-- The at signs that are turned are those of the placeholders that are found. -/
theorem getElem?_fates_turned_iff :
    (fates named text)[i]? = some .turned ↔ ∃ p : Placeholder, p.IsFound text ∧ p.place = i := by
  rw [← getElem?_editAt_iff]
  constructor
  · intro turned
    obtain ⟨front, here, back, cut, size, fate⟩ := exists_of_getElem?_atPlaces turned
    rw [cut, ← size, getElem?_atPlaces, fateAt_eq_turned_iff.mp fate]
  · intro marked
    obtain ⟨front, here, back, cut, size, edit⟩ := exists_of_getElem?_atPlaces marked
    rw [fates, cut, ← size, getElem?_atPlaces, fateAt_eq_turned_iff.mpr edit]

/-- A backslash before a colon of a literal or quoted identifier is dropped where an escape is read. -/
theorem getElem?_fates_of_holdsEscape (within : ∀ c, named c → isBindChar c)
    (quoted : lexeme.region = .quoted) (holds : lexeme.HoldsEscape named)
    (cut : lexemesIn text = before ++ lexeme :: behind) :
    ∃ i : Nat, (fates named text)[i]? = some .dropped ∧ (regions (lexemesIn text))[i]? = some .quoted := by
  obtain ⟨tail, member, starts⟩ := holds
  obtain ⟨left, source⟩ := (List.mem_tails _ _).mp member
  obtain ⟨right, rfl, ends⟩ := startsEscape_iff.mp starts
  obtain ⟨front, here, back, rest, shades, size, backslash, after⟩ := exists_places cut source.symm
  obtain ⟨next, places, rfl, colon, -⟩ := List.map_eq_cons_iff.mp after
  obtain ⟨q, inside, quote, closing⟩ := lexeme.exists_closing_quote quoted source.symm
  have escape : startsEscape named ('\\' :: writtenFrom (some here) (next :: places)) := by
    rw [startsEscape_writtenFrom_iff within backslash colon, after, closing, List.append_assoc,
      List.singleton_append, startsEscape_quote_iff within quote, ← closing]
    exact starts
  have kept (left : Option (Char × Bool)) : editAt left here (next :: places) = .kept '\\' := by
    rcases editAt_cases left here (next :: places) with ⟨edit, -⟩ | ⟨-, -, sign⟩ | ⟨-, -, sign⟩
    · rw [edit, backslash]
    · exact absurd (backslash.symm.trans sign) (by decide)
    · exact absurd (backslash.symm.trans sign) (by decide)
  refine ⟨front.length, ?_, ?_⟩
  · rw [fates, shades, getElem?_atPlaces, fateAt, kept]
    dsimp only
    rw [if_pos escape]
  · rw [cut, size, getElem?_regions source.symm, quoted]

/-- The second of two places is marked where a placeholder is found. -/
theorem exists_found_of_marked {front : List (Char × Bool)}
    (shades : shaded text = front ++ here :: next :: places)
    (marked : editAt (some here) next places = .marked) :
    ∃ p : Placeholder, p.IsFound text ∧ p.place = front.length + 1 := by
  have edit := getElem?_atPlaces editAt none (front ++ [here]) next places
  rw [List.length_append, List.length_singleton, List.getLast?_concat, Option.some_or, marked,
    List.append_assoc, List.singleton_append, ← shades] at edit
  exact getElem?_editAt_iff.mp edit

/-- Where an escape is read behind a backslash and nothing is marked, a colon stands. -/
theorem eq_colon_of_startsEscape (unmarked : editAt (some here) next places ≠ .marked)
    (starts : startsEscape named ('\\' :: writtenFrom (some here) (next :: places))) : next.1 = ':' := by
  obtain ⟨behind, whole, -⟩ := startsEscape_iff.mp starts
  have written := (List.cons.inj whole).2
  rw [writtenFrom_cons] at written
  rcases editAt_cases (some here) next places with ⟨edit, -⟩ | ⟨-, -, sign⟩ | ⟨edit, -⟩
  · rw [edit] at written
    exact (List.cons.inj written).1
  · exact sign
  · exact absurd edit unmarked

/-- In a literal or quoted identifier without found placeholders, backslashes are dropped only where an
escape is read. -/
theorem holdsEscape_of_getElem?_fates (within : ∀ c, named c → isBindChar c)
    (outside : ∀ p : Placeholder, p.IsFound text → (regions (lexemesIn text))[p.place]? ≠ some .quoted)
    (dropped : (fates named text)[i]? = some .dropped)
    (quoted : (regions (lexemesIn text))[i]? = some .quoted) :
    ∃ part ∈ quotedParts text, part.HoldsEscape named := by
  obtain ⟨before, lexeme, behind, left, c, right, cut, region, source, rfl⟩ :=
    exists_of_getElem?_regions quoted
  obtain ⟨front, here, back, rest, shades, size, own, after⟩ := exists_places cut source
  rw [fates, shades, ← size, getElem?_atPlaces, Option.some.injEq] at dropped
  rcases @fateAt_cases named (front.getLast?.or none) here back with fate | ⟨fate, -⟩ |
    ⟨-, backslash, starts⟩
  · rw [fate] at dropped
    cases dropped
  · rw [fate] at dropped
    cases dropped
  obtain rfl : c = '\\' := own.symm.trans backslash
  obtain ⟨q, inside, quote, rfl⟩ := lexeme.exists_closing_quote region source
  have part : lexeme ∈ quotedParts text := by
    refine List.mem_filter.mpr ⟨?_, by simpa using region⟩
    rw [cut]
    simp
  have filled : inside ++ [q] ≠ [] := by simp
  obtain ⟨d, ds, second⟩ := List.exists_cons_of_ne_nil filled
  have cons : inside ++ [q] ++ rest = d :: (ds ++ rest) := by rw [second, List.cons_append]
  obtain ⟨next, places, rfl, -, -⟩ := List.map_eq_cons_iff.mp (after.trans cons)
  -- The next place is quoted too, so no placeholder is found there.
  have unmarked : editAt (some here) next places ≠ .marked := by
    intro marked
    obtain ⟨p, found, place⟩ := exists_found_of_marked shades marked
    have further : lexeme.source = (left ++ ['\\']) ++ d :: ds := by
      rw [source, second, List.append_assoc, List.singleton_append]
    have quotedToo : (regions (before ++ lexeme :: behind))[(sourceOf before).length +
        (left ++ ['\\']).length]? = some lexeme.region := getElem?_regions further
    rw [List.length_append, List.length_singleton, ← Nat.add_assoc, ← size, ← cut, region] at quotedToo
    exact outside p found (place ▸ quotedToo)
  have colon := eq_colon_of_startsEscape unmarked starts
  rw [startsEscape_writtenFrom_iff within backslash colon, after, List.append_assoc,
    List.singleton_append, startsEscape_quote_iff within quote] at starts
  exact ⟨lexeme, part, _, (List.mem_tails _ _).mpr ⟨left, source.symm⟩, starts⟩

end Escapes

/-- The literals and quoted identifiers of a statement come back from undoing the escapes of the prepared
text exactly if no placeholder that is found lies in one and none holds an escaped colon of its own. The
first holds where all that opens closes and every comment closes the quotes in it. -/
theorem quotedParts_undone_iff (within : ∀ c, named c → isBindChar c) (text : List Char) :
    (quotedParts (undoEscapes named (prepare text).text) = quotedParts text ↔
      (∀ p : Placeholder, p.IsFound text → (regions (lexemesIn text))[p.place]? ≠ some .quoted) ∧
      ∀ part ∈ quotedParts text, ¬ part.HoldsEscape named) ∧
    ∀ lexemes, lex? text = some lexemes → (∀ lexeme ∈ lexemes, lexeme.ClosesQuotes) →
      ∀ p : Placeholder, p.IsFound text → (regions (lexemesIn text))[p.place]? ≠ some .quoted := by
  constructor
  · have alike : quotedParts (sentOf (fates named text)) = quotedParts (statementOf (fates named text)) ↔ _ :=
      quotedParts_sentOf_iff (chained_atPlaces none (shaded text))
    rw [statementOf_fates] at alike
    rw [undoEscapes_prepare within, alike]
    have pair {i : Nat} {fate : Fate} (here : (fates named text)[i]? = some fate)
        (quoted : (regions (lexemesIn text))[i]? = some .quoted) :
        (fate, Region.quoted) ∈ (fates named text).zip (regions (lexemesIn text)) :=
      List.mem_of_getElem? (List.getElem?_zip_eq_some.mpr ⟨here, quoted⟩)
    constructor
    · intro kept
      constructor
      · intro p found quoted
        have turned : (fates named text)[p.place]? = some .turned :=
          getElem?_fates_turned_iff.mpr ⟨p, found, rfl⟩
        exact absurd (kept _ (pair turned quoted) rfl) (by decide)
      · intro part member holds
        obtain ⟨among, region⟩ := List.mem_filter.mp member
        obtain ⟨before, behind, cut⟩ := List.append_of_mem among
        obtain ⟨i, dropped, quoted⟩ :=
          getElem?_fates_of_holdsEscape within (by simpa using region) holds cut
        exact absurd (kept _ (pair dropped quoted) rfl) (by decide)
    · rintro ⟨outside, unescaped⟩ ⟨fate, region⟩ member rfl
      obtain ⟨i, both⟩ := List.mem_iff_getElem?.mp member
      obtain ⟨here, quoted⟩ := List.getElem?_zip_eq_some.mp both
      cases fate with
      | kept c => rfl
      | dropped =>
        obtain ⟨part, member, holds⟩ := holdsEscape_of_getElem?_fates within outside here quoted
        exact absurd holds (unescaped part member)
      | turned =>
        obtain ⟨p, found, place⟩ := getElem?_fates_turned_iff.mp here
        exact absurd (by rw [place]; exact quoted) (outside p found)
  · intro lexemes read closes
    obtain ⟨rfl, reads⟩ := lex?_eq_some read
    rw [lexemesIn_eq_of_lex? read]
    exact (found_of_closesQuotes reads closes).2

/-- Literals and a quoted name with colons, none of them behind a backslash. -/
def colonText : List Char :=
  "SELECT 'at :noon @x', \"a:b\", 'C:\\dir' /* it''s */ = @p".toList

def colonLexemes : List Lexeme :=
  "SELECT ".toList.map .code ++ .literal "at :noon @x".toList :: (", ".toList.map .code ++
    .name "a:b".toList :: (", ".toList.map .code ++ .literal "C:\\dir".toList ::
      .code ' ' :: .blockComment " it''s ".toList :: " = @p".toList.map .code))

/-- The colon of the first literal is escaped, and all literals and the quoted name come back. -/
theorem colons_come_back :
    lex? colonText = some colonLexemes ∧ (∀ lexeme ∈ colonLexemes, lexeme.ClosesQuotes) ∧
      (prepare colonText).text =
        "SELECT 'at \\:noon @x', \"a:b\", 'C:\\dir' /* it''s */ = :p".toList ∧
      quotedParts (undoEscapes isBindChar (prepare colonText).text) =
        [.literal "at :noon @x".toList, .name "a:b".toList, .literal "C:\\dir".toList] := by
  have read : lex? colonText = some colonLexemes := by cbv
  have closes : ∀ lexeme ∈ colonLexemes, lexeme.ClosesQuotes := by decide
  obtain ⟨comesBack, closed⟩ := quotedParts_undone_iff (fun _ char => char) colonText
  have parts : quotedParts colonText =
      [.literal "at :noon @x".toList, .name "a:b".toList, .literal "C:\\dir".toList] := by
    rw [quotedParts, lexemesIn_eq_of_lex? read]
    decide
  have unescaped : ∀ part ∈ quotedParts colonText, ¬ part.HoldsEscape isBindChar := by
    rw [parts]
    decide
  have same := comesBack.mpr ⟨closed colonLexemes read closes, unescaped⟩
  exact ⟨read, closes, by cbv, same.trans parts⟩

/-- A literal that holds an escaped colon of its own. -/
def escapedText : List Char :=
  "SELECT '\\:b'".toList

/-- The literal is sent without its backslash. -/
theorem escaped_colon_lost :
    quotedParts escapedText = [.literal "\\:b".toList] ∧
      undoEscapes isBindChar (prepare escapedText).text = "SELECT ':b'".toList ∧
      quotedParts (undoEscapes isBindChar (prepare escapedText).text) ≠ quotedParts escapedText := by
  have before : quotedParts escapedText = [.literal "\\:b".toList] := by cbv
  have sent : undoEscapes isBindChar (prepare escapedText).text = "SELECT ':b'".toList := by cbv
  have after : quotedParts "SELECT ':b'".toList = [.literal ":b".toList] := by cbv
  refine ⟨before, sent, ?_⟩
  rw [sent, after, before]
  decide

end ReportQuery.Sql
